import Hydration.Component.Name
import Hydration.Site.Settings
/-!
# Running components

The module behind a path is loaded once, as long as the cache remembers it; a load that fails is not
remembered. The component of a module is what it shows under the name in the configuration. It is
called with a copy of the props.

* `outcome_loadModule_of_some`: a module in the cache is used, and no file is looked at.
-/
namespace Hydration

namespace Site

/-- The directory at the top under which component files are kept. -/
def mount : Text := "vfs"

/-- The segments of a path below the directory of component files, if it is there. -/
def segments? (p : FilePath) : Option (List Text) :=
  match p.slashes, p.segments with
  | ['/'], top :: rest => if top = mount then some rest else none
  | _, _ => none

/-- The component file at a path. -/
def componentFile? (s : Site) (p : FilePath) : Option ComponentFile := do
  let segments ← segments? p
  s.files.find? [] segments

/-- The most bytes of a path with the mark for its end. -/
def maxPathBytes : Nat := 4096

/-- The character that ends the text of a path, so that none with it can be looked up. -/
def terminator : Char := '\x00'

/-- Whether a path cannot be looked up because it is too long or comes to a name that is. -/
def isTooLong (s : Site) (p : FilePath) : Bool :=
  !p.toText.contains terminator &&
    (maxPathBytes ≤ (Text.Utf8.encode p.toText).length ||
      match segments? p with
      | some segments => s.files.meetsLongName [] segments
      | none => (Files.empty : Files ComponentFile).meetsLongName [] p.segments)

/-- The first of some paths at which there is a component file, and that file. A path that is too
long ends the search. -/
def firstFile (s : Site) : List FilePath → Except Failure (Option (FilePath × ComponentFile))
  | [] => .ok none
  | p :: rest =>
    if s.isTooLong p then .error (.nameTooLong p.toText)
    else
      match s.componentFile? p with
      | some file => .ok (some (p, file))
      | none => firstFile s rest

end Site

namespace Action

/-- Refuses a path that is too long. -/
def checkLength (p : FilePath) : Action Unit := do
  if (← get).isTooLong p then refuse (.nameTooLong p.toText)

/-- Puts a component file at a path. -/
def writeFile (p : FilePath) (file : ComponentFile) : Action Unit := do
  checkLength p
  modify fun s => { s with files := s.files.write ((Site.segments? p).getD []) file }

/-- Makes a directory. -/
def makeDirectory (p : FilePath) : Action Unit := do
  checkLength p
  modify fun s => { s with files := s.files.makeDirectory ((Site.segments? p).getD []) }

/-- Removes what is at a path. -/
def removeFile (p : FilePath) : Action Unit :=
  modify fun s => { s with files := s.files.remove ((Site.segments? p).getD []) }

/-- Forgets all modules. -/
def clearModules : Action Unit := modify fun s => { s with modules := Cache.empty }

/-- Loads a module from a file, under the path that asked for it. -/
def importFile (path : Text) (source : FilePath) (file : ComponentFile) : Action LoadedModule := do
  match file.importFault? with
  | some message =>
    record .error .components ("Component import failed (" ++ source.toText ++ ")")
    let message ← ofExcept message
    refuse (.resolution path (.importFailed message))
  | none =>
    let s ← get
    let m : LoadedModule := ⟨s.loads, source, file, 0⟩
    set { s with modules := s.modules.store path m, loads := s.loads + 1 }
    record .debug .components ("Component module loaded: " ++ path ++ " -> " ++ source.toText)
    pure m

/-- The module behind the path of a component. -/
def loadModule (path : Text) : Action LoadedModule := do
  let s ← get
  match s.modules.lookup? path with
  | some m =>
    set { s with modules := s.modules.use path m }
    pure m
  | none =>
    let sources ← ofExcept (candidates path)
    match ← ofExcept (s.firstFile sources) with
    | some (source, file) => importFile path source file
    | none =>
      record .error .components ("Component module not found for path=" ++ path)
      refuse (.resolution path .noFile)

/-- Counts a call of a module's component. -/
def countCall (path : Text) (m : LoadedModule) : Action Nat := do
  let calls := m.calls + 1
  modify fun s => { s with modules := s.modules.use path { m with calls := calls } }
  pure calls

/-- The markup of the component behind a path. -/
def renderComponent (path : Text) (props : Value) : Action Text := do
  let m ← loadModule path
  let name := (← readConfig).config.componentAttribute
  match m.file.member name with
  | .callable behaviour =>
    let props ← ofExcept (ComponentFile.copyProps props)
    let calls ← match behaviour with
      | .byKind => countCall path m
      | _ => pure m.calls
    let made ← ofExcept (m.file.call behaviour calls props)
    ofExcept made.markup
  | _ =>
    record .error .components
      ("Component module " ++ path ++ " has no callable '" ++ name ++ "'")
    refuse (.resolution path (.notCallable name))

theorem outcome_loadModule_of_some {s : Site} {path : Text} {m : LoadedModule}
    (h : s.modules.lookup? path = some m) :
    (loadModule path).outcome s = (.ok m, { s with modules := s.modules.use path m }) := by
  simp [loadModule, h, Except.map]

end Action
end Hydration
