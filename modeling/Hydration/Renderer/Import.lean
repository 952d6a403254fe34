import Hydration.Component.Cache
import Hydration.Renderer.Basic
/-!
# Renderers by dotted name

The settings name a renderer by the module that it is in and its name there, with points between.
Every module on the way must exist, and all but the last must be packages. The renderers that were
imported last are remembered; what cannot be imported, or cannot be called, is not.

* `import_without_point`: a name without a point names no module.
* `Imports.find_eq`: remembering renderers changes nothing of what a name stands for.
-/
namespace Hydration

/-- A module that renderers may be imported from, with what it holds. -/
structure Library where
  name : Text
  isPackage : Bool
  members : List (Text × Extension)

/-- Why a renderer is not imported: it is not found, which is logged and reported by its name, or
its name cannot be looked up at all. -/
inductive ImportFault
  | missing (message : Text)
  | unusable (f : Failure)

namespace Library

/-- The modules of the page renderer itself. -/
def builtin : List Library :=
  let package (name : Text) : Library := ⟨name, true, []⟩
  let leaf (name : Text) : Library := ⟨name, false, []⟩
  [package "apps", package "apps.prerender", leaf "apps.prerender.apps",
    leaf "apps.prerender.conf", leaf "apps.prerender.exceptions", leaf "apps.prerender.extensions",
    leaf "apps.prerender.markup", leaf "apps.prerender.registration",
    ⟨"apps.prerender.renderer", false, [("render_component_to_string", .renderer .components)]⟩,
    package "apps.prerender.tag", leaf "apps.prerender.tag.compiler",
    leaf "apps.prerender.tag.ir", leaf "apps.prerender.tag.literals",
    leaf "apps.prerender.tag.nodes", leaf "apps.prerender.tag.parser",
    package "apps.prerender.templatetags", leaf "apps.prerender.templatetags.react"]

/-- The module of a name. -/
def find? (libraries : List Library) (name : Text) : Option Library :=
  libraries.find? fun l => l.name == name

/-- A dotted name cut before its last point. -/
def splitLast (name : Text) : Option (Text × Text) :=
  match (Text.parts '.' name).reverse with
  | [] | [_] => none
  | last :: before => some (['.'].intercalate before.reverse, last)

/-- Looks for the modules on the way to a name, the outermost first. The first argument is the name
of the module around, if there is one. -/
def walk (libraries : List Library) : Option Library → List Text → Except Text Unit
  | _, [] => .ok ()
  | around, part :: rest =>
    let name : Text := match around with
      | none => part
      | some l => l.name ++ '.' :: part
    let missing : Text := "No module named " ++ Text.inspect name
    match around.map fun l => (l.name, l.isPackage) with
    | some (outer, false) => .error (missing ++ "; " ++ Text.inspect outer ++ " is not a package")
    | _ =>
      match find? libraries name with
      | none => .error missing
      | some l => walk libraries (some l) rest

/-- What every module says about itself. -/
def ownNames : List Text :=
  ["__dict__", "__doc__", "__loader__", "__name__", "__package__", "__spec__"]

/-- What a module holds under a name: a member, or a module inside it or something about itself, which
cannot be called. -/
def member? (libraries : List Library) (l : Library) (name : Text) : Option Extension :=
  ((l.members.lookup name).or
    ((find? libraries (l.name ++ '.' :: name)).map fun _ => .notCallable)).or
      (if ownNames.contains name then some .notCallable else none)

/-- Imports what a dotted name stands for. -/
def importName (libraries : List Library) (name : Text) : Except ImportFault Extension :=
  match splitLast name with
  | none => .error (.missing (name ++ " doesn't look like a module path"))
  | some (moduleName, memberName) =>
    if moduleName = [] then .error (.unusable (.value .emptyModuleName))
    else if Text.opensWith ['.'] moduleName then
      .error (.unusable (.type (.relativeName moduleName)))
    else
      match walk libraries none (Text.parts '.' moduleName) with
      | .error message => .error (.missing message)
      | .ok () =>
        match (find? libraries moduleName).bind fun l => member? libraries l memberName with
        | some e => .ok e
        | none =>
          .error (.missing ("Module \"" ++ moduleName ++ "\" does not define a \"" ++ memberName ++
            "\" attribute/class"))

theorem import_without_point {libraries : List Library} {name : Text} (h : splitLast name = none) :
    importName libraries name = .error (.missing (name ++ " doesn't look like a module path")) := by
  simp [importName, h]

/-- The renderers that were imported last, each the one that its name stands for. -/
structure Imports (libraries : List Library) where
  cache : Cache Renderer
  sound : ∀ e ∈ cache.entries, importName libraries e.1 = .ok (.renderer e.2)

namespace Imports

variable {libraries : List Library}

/-- The most renderers that are remembered. -/
def capacity : Nat := 16

/-- Nothing was imported yet. -/
def empty : Imports libraries where
  cache := Cache.empty
  sound := fun _ h => by cases h

/-- What a name stands for, remembered or imported now, and what is remembered after it. -/
def find (i : Imports libraries) (name : Text) : Except ImportFault Extension × Imports libraries :=
  match hc : i.cache.lookup? name with
  | some r =>
    (.ok (.renderer r),
      ⟨i.cache.use name r, Cache.forall_use i.sound (i.sound _ (Cache.mem_of_lookup? hc))⟩)
  | none =>
    match h : importName libraries name with
    | .ok (.renderer r) =>
      (.ok (.renderer r),
        ⟨i.cache.storeWithin capacity name r, Cache.forall_storeWithin i.sound h capacity⟩)
    | found => (found, i)

theorem find_eq (i : Imports libraries) (name : Text) :
    (i.find name).1 = importName libraries name := by
  unfold find
  split
  · next r hc => exact (i.sound _ (Cache.mem_of_lookup? hc)).symm
  · split
    · next h => exact h.symm
    · rfl

end Imports
end Library
end Hydration
