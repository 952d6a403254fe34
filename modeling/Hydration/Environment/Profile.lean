import Hydration.Environment.Dotenv
import Hydration.Failure
import Hydration.Files
import Hydration.Text.Fold
/-!
# Settings from the environment

The settings of a site come from variables: those of the environment first, then those of the
nearest file of variables, in the working directory or above, then the defaults. Two profiles change
a few of the base settings, one for development and one for tests.

* `Environment.get?_of_environment`: a variable of the environment wins over the file.
* `Profile.settings_secretKey`: the profiles share the secret key of the base settings.
-/
namespace Hydration

/-! ## Variables -/

/-- Variables with their values. -/
abbrev Variables := List (Text × Text)

namespace Environment

/-- The words for true in the value of a variable. -/
def trueWords : List Text := ["1", "true", "yes", "y", "on"]

/-- Whether the value of a variable stands for true; a variable that is not set has a default. -/
def flag (value : Option Text) (default : Bool) : Bool :=
  match value with
  | none => default
  | some t => trueWords.contains (Text.lower (Text.trim t))

/-- The words that switch files of variables off. -/
def offWords : List Text := ["1", "true", "t", "yes", "y"]

/-- The variable that switches files of variables off. -/
def offName : Text := "PYTHON_DOTENV_DISABLED"

/-- The variable with the name of the file of variables. -/
def fileName : Text := "DOTENV_FILE"

/-- The name of the file of variables unless another is given. -/
def defaultFileName : Text := ".env"

/-- The value of a variable. -/
def get? (vars : Variables) (name : Text) : Option Text := vars.lookup name

/-- The value of a variable, or a default. -/
def get (vars : Variables) (name default : Text) : Text := (get? vars name).getD default

/-- Whether files of variables are switched off. -/
def isOff (vars : Variables) : Bool :=
  match get? vars offName with
  | none => false
  | some t => offWords.contains (Text.fold t)

/-! ## The file of variables -/

/-- The segments of a working directory. -/
def directorySegments (path : Text) : List Text := Path.walk [] (Text.parts '/' path)

/-- The directories from the given one upwards. -/
def upwards (directory : List Text) : List (List Text) :=
  ((List.range (directory.length + 1)).map directory.take).reverse

/-- Walks from a directory along the parts of a name, in the tree of all files: above its top there
is only the top. Every part needs a directory to start from, also one that stays where it is. -/
def reach (files : Files Text) : List Text → List Text → Option (List Text)
  | here, [] => some here
  | here, part :: rest =>
    if files.isDirectory here then reach files (Path.stepSegment here part) rest else none

/-- The file that a name leads to from a directory; a name with a slash in front leads from the
top. -/
def find? (files : Files Text) (directory : List Text) (name : Text) : Option Text := do
  let start := if Text.opensWith "/" name then [] else directory
  let place ← reach files start (Text.parts '/' name)
  let entry ← files.lookup? place
  entry

/-- The nearest file that a name leads to, from the directory or one above. -/
def nearestFile? (files : Files Text) (directory : List Text) (name : Text) : Option Text :=
  (upwards directory).findSome? fun d => find? files d name

/-- Why a name or a value cannot be put into the environment. -/
def checkVariable (name value : Text) : Except Failure Unit :=
  if name.contains '\x00' || value.contains '\x00' then
    .error (.value (.raised "embedded null byte"))
  else if name.contains '=' then .error (.value (.raised "illegal environment variable name"))
  else .ok ()

/-- Adds the variables that are bound to values and not set yet. -/
def add (vars : Variables) : Dotenv.Bound → Except Failure Variables
  | [] => .ok vars
  | (name, value) :: rest =>
    match get? vars name, value with
    | none, some v => do
      checkVariable name v
      add (vars ++ [(name, v)]) rest
    | _, _ => add vars rest

/-- The variables of the environment and of the nearest file. -/
def load (vars : Variables) (files : Files Text) (directory : List Text) :
    Except Failure Variables :=
  match nearestFile? files directory (get vars fileName defaultFileName) with
  | none => .ok vars
  | some t => if isOff vars then .ok vars else add vars (Dotenv.read vars t)

theorem get?_add {vars : Variables} {name v : Text} (h : get? vars name = some v)
    (bound : Dotenv.Bound) {all : Variables} (ha : add vars bound = .ok all) :
    get? all name = some v := by
  induction bound generalizing vars with
  | nil =>
    cases ha
    exact h
  | cons e rest ih =>
    obtain ⟨n, value⟩ := e
    unfold add at ha
    split at ha
    · next hn hv =>
      cases hc : checkVariable n _ with
      | error f => rw [hc] at ha; cases ha
      | ok u =>
        rw [hc] at ha
        refine ih ?_ ha
        unfold get? at h ⊢
        simp [List.lookup_append, h]
    · exact ih h ha

theorem get?_of_environment {vars all : Variables} {files : Files Text} {directory : List Text}
    {name v : Text} (h : get? vars name = some v) (ha : load vars files directory = .ok all) :
    get? all name = some v := by
  unfold load at ha
  split at ha
  · cases ha
    exact h
  · split at ha
    · cases ha
      exact h
    · exact get?_add h _ ha

end Environment

/-! ## Profiles -/

/-- The levels up to which parts of the site log. -/
structure LogLevels where
  root : Text
  prerender : Text
  app : Text
  deriving DecidableEq, Repr

/-- The settings of a site, as far as they depend on the environment or the profile. -/
structure SiteSettings where
  secretKey : Text
  debug : Bool
  allowedHosts : List Text
  prerender : List (Text × Text)
  logLevel : Text
  levels : LogLevels
  deriving DecidableEq, Repr

/-- The profiles. -/
inductive Profile
  | base
  | development
  | test
  deriving DecidableEq, Repr

namespace Profile

/-- The settings that all profiles start from. -/
def baseSettings (vars : Variables) : SiteSettings :=
  let level := Environment.get vars "LOG_LEVEL" "INFO"
  { secretKey := Environment.get vars "SECRET_KEY" "CHANGE_ME_DEV_ONLY"
    debug := Environment.flag (Environment.get? vars "DJANGO_DEBUG") false
    allowedHosts := []
    prerender :=
      [("component_root", Environment.get vars "PRERENDER_COMPONENT_ROOT" "./modules/"),
        ("renderer", Environment.get vars "PRERENDER_RENDERER"
          "apps.prerender.renderer.render_component_to_string"),
        ("component_attr", "Component")]
    logLevel := level
    levels := ⟨level, level, level⟩ }

/-- The hosts that a site in development answers to. -/
def localHosts : List Text := ["127.0.0.1", "localhost", "testserver"]

/-- The directory of the components that tests use, below that of the site. -/
def fixtures : Text := "/apps/prerender/tests/fixtures/components"

/-- The settings of a profile for a site in the given directory. -/
def settings (p : Profile) (directory : Text) (vars : Variables) : SiteSettings :=
  let s := baseSettings vars
  match p with
  | .base => s
  | .development =>
    { s with
      debug := true
      allowedHosts := localHosts
      levels := { s.levels with prerender := "DEBUG" } }
  | .test =>
    { s with
      debug := false
      prerender := [("component_root", directory ++ fixtures)]
      levels := { s.levels with root := "WARNING", prerender := "WARNING" } }

/-- Loads the settings of a profile from the environment and the files around a working
directory. -/
def load (p : Profile) (directory : Text) (vars : Variables) (files : Files Text)
    (here : List Text) : Except Failure SiteSettings := do
  let vars ← Environment.load vars files here
  pure (p.settings directory vars)

theorem settings_secretKey (p : Profile) (directory : Text) (vars : Variables) :
    (p.settings directory vars).secretKey = (baseSettings vars).secretKey := by
  cases p <;> rfl

end Profile
end Hydration
