import Hydration.Component.Cache
import Hydration.Component.File
import Hydration.Config
import Hydration.Files
import Hydration.Renderer.Import
import Hydration.Template.Lookup
/-!
# The state of a site

What lives longer than a page: the settings and what was read of them, the component files and the
modules that were loaded from them, the template engines with their tags and renderers, the
renderers that were imported, and the log. An action may fail; what it has done to the site until
then stays done.

* `outcome_bind`: after a failure nothing more is done, and what was done stays.
* `outcome_bind_ok_iff`: actions in a row succeed if each one does.
* `outcome_record`: logging appends one record and changes nothing else.
-/
namespace Hydration

/-! ## The log -/

/-- How serious a record is. -/
inductive LogLevel
  | debug
  | info
  | error
  deriving DecidableEq, Repr

/-- The name of a level. -/
def LogLevel.name : LogLevel → Text
  | .debug => "DEBUG"
  | .info => "INFO"
  | .error => "ERROR"

/-- The parts of the site that log. -/
inductive Logger
  | compiler
  | components
  | extensions
  | registration
  deriving DecidableEq, Repr

/-- The name under which a part logs. -/
def Logger.name : Logger → Text
  | .compiler => "prerender.tag.compiler"
  | .components => "prerender.renderer"
  | .extensions => "prerender.extensions"
  | .registration => "prerender.registration"

/-- A record of the log. -/
structure LogRecord where
  level : LogLevel
  logger : Logger
  message : Text
  deriving DecidableEq, Repr

/-! ## Engines and modules -/

/-- A template engine. The tags are those that templates may use without loading them, the one that
was added last in front, each with the root that it was given. The libraries are the names that
templates may load, and the text is shown for what is missing. -/
structure Engine where
  tags : List (Text × Option Text)
  extensions : List (Text × Renderer)
  libraries : List Text
  invalid : Text

/-- A module that was loaded from a component file. The serial number tells loads apart; calls of
its component are counted. -/
structure LoadedModule where
  serial : Nat
  source : FilePath
  file : ComponentFile
  calls : Nat

/-- A configuration as it was read. The serial number tells readings apart. -/
structure ReadConfig where
  serial : Nat
  config : Config
  deriving DecidableEq, Repr

/-- The state of a site. Settings that were deleted are nothing. -/
structure Site where
  settings : Value
  config : Option ReadConfig
  readings : Nat
  files : Files ComponentFile
  modules : Cache LoadedModule
  loads : Nat
  engines : List Engine
  libraries : List Library
  imports : Library.Imports (Library.builtin ++ libraries)
  log : List LogRecord

namespace Site

/-- A site with nothing but settings and modules to import renderers from. -/
def start (settings : Value) (libraries : List Library) : Site where
  settings := settings
  config := none
  readings := 0
  files := Files.empty
  modules := Cache.empty
  loads := 0
  engines := []
  libraries := libraries
  imports := Library.Imports.empty
  log := []

end Site

/-! ## Actions -/

/-- An action on a site. -/
abbrev Action (α : Type) := ExceptT Failure (StateM Site) α

namespace Action

/-- What an action gives, and the site after it. -/
def outcome {α : Type} (a : Action α) (s : Site) : Except Failure α × Site := a.run.run s

/-- The result of a computation that does not look at the site. -/
def ofExcept {α : Type} (r : Except Failure α) : Action α := ExceptT.mk (pure r)

/-- Fails. -/
def refuse {α : Type} (f : Failure) : Action α := ofExcept (.error f)

/-- Writes a record into the log. -/
def record (level : LogLevel) (logger : Logger) (message : Text) : Action Unit :=
  modify fun s => { s with log := s.log ++ [⟨level, logger, message⟩] }

@[simp] theorem outcome_pure {α : Type} (x : α) (s : Site) :
    (pure x : Action α).outcome s = (.ok x, s) := rfl

@[simp] theorem outcome_bind {α β : Type} (a : Action α) (f : α → Action β) (s : Site) :
    (a >>= f).outcome s =
      match a.outcome s with
      | (.ok x, t) => (f x).outcome t
      | (.error e, t) => (.error e, t) := by
  simp only [outcome, ExceptT.run_bind, StateT.run_bind]
  rcases (a.run.run s : Except Failure α × Site) with ⟨x | x, t⟩ <;> rfl

theorem outcome_bind_ok_iff {α β : Type} {a : Action α} {f : α → Action β} {s u : Site} {y : β} :
    (a >>= f).outcome s = (.ok y, u) ↔
      ∃ x t, a.outcome s = (.ok x, t) ∧ (f x).outcome t = (.ok y, u) := by
  rw [outcome_bind]
  rcases a.outcome s with ⟨failure | x, t⟩
  · simp
  · constructor
    · intro h
      exact ⟨x, t, rfl, h⟩
    · rintro ⟨_, _, hx, h⟩
      cases hx
      exact h

theorem outcome_bind_error_iff {α β : Type} {a : Action α} {f : α → Action β} {s u : Site}
    {e : Failure} :
    (a >>= f).outcome s = (.error e, u) ↔
      a.outcome s = (.error e, u) ∨
        ∃ x t, a.outcome s = (.ok x, t) ∧ (f x).outcome t = (.error e, u) := by
  rw [outcome_bind]
  rcases a.outcome s with ⟨failure | x, t⟩
  · simp
  · constructor
    · intro h
      exact .inr ⟨x, t, rfl, h⟩
    · rintro (h | ⟨_, _, hx, h⟩)
      · cases h
      · cases hx
        exact h

@[simp] theorem outcome_map {α β : Type} (f : α → β) (a : Action α) (s : Site) :
    (f <$> a).outcome s = ((a.outcome s).1.map f, (a.outcome s).2) := by
  rw [← bind_pure_comp, outcome_bind]
  rcases a.outcome s with ⟨_ | _, _⟩ <;> rfl

@[simp] theorem outcome_get (s : Site) : (get : Action Site).outcome s = (.ok s, s) := rfl

@[simp] theorem outcome_set (t s : Site) : (set t : Action Unit).outcome s = (.ok (), t) := rfl

@[simp] theorem outcome_modify (f : Site → Site) (s : Site) :
    (modify f : Action Unit).outcome s = (.ok (), f s) := rfl

@[simp] theorem outcome_ofExcept {α : Type} (r : Except Failure α) (s : Site) :
    (ofExcept r).outcome s = (r, s) := rfl

theorem outcome_ofExcept_ok_iff {α : Type} {r : Except Failure α} {s t : Site} {x : α} :
    (ofExcept r).outcome s = (.ok x, t) ↔ r = .ok x ∧ s = t := by
  rw [outcome_ofExcept, Prod.mk.injEq]

@[simp] theorem outcome_refuse {α : Type} (f : Failure) (s : Site) :
    (refuse f : Action α).outcome s = (.error f, s) := rfl

@[simp] theorem outcome_record (level : LogLevel) (logger : Logger) (message : Text) (s : Site) :
    (record level logger message).outcome s =
      (.ok (), { s with log := s.log ++ [⟨level, logger, message⟩] }) := rfl

end Action
end Hydration
