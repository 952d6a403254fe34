import Hydration.Site.Pages
/-!
# Sessions

A session is a run of steps on one site. Engines and templates are kept under names; a name may be
given again, and a template keeps the engine that it was compiled for. A step that fails leaves the
session as it was when it failed, and the next step goes on from there.

* `outcome_bind`: after a failure nothing more is done, and what was done stays.
* `run_append`: a session is run from left to right.
* `run_length`: every step has an answer.
-/
namespace Hydration

/-- A session: its site, the names that were given, and the configuration that was last shown. -/
structure Session where
  site : Site
  engines : List (Text × Nat)
  templates : List (Text × Template)
  shown : Option ReadConfig

/-- An engine as a step names it: by its name in the session, or a value that is no engine, by its
type. -/
inductive EngineName
  | named (id : Text)
  | foreign (type : Text)
  deriving DecidableEq, Repr

/-- The steps of a session. -/
inductive Step
  | engine (id : Text) (e : Engine)
  | drop (id : Text)
  | useTag (engine : EngineName) (name : Text) (extension : Option Extension) (root : Option Text)
  | setExtension (engine : EngineName) (name : Text) (extension : Extension)
  | getExtension (engine : Option EngineName) (name : Text)
  | defaultExtension
  | compile (engine id source : Text)
  | render (id : Text) (values : List (Text × Value))
  | settings (value : Value) (announced : Bool)
  | otherSetting
  | invalidate
  | readConfig
  | writeFile (path : Text) (file : ComponentFile)
  | makeDirectory (path : Text)
  | remove (path : Text)
  | clearModules
  | component (path : Text) (props : Value)
  | sameModule (a b : Text)

/-- The answers to steps. -/
inductive Answer
  | done
  | names (tags : List Text)
  | renderer (r : Renderer)
  | text (t : Text)
  | config (c : Config) (same equal : Bool)
  | sameModule (module name : Bool)

/-- A step that is being taken. -/
abbrev Turn (α : Type) := ExceptT Failure (StateM Session) α

namespace Turn

/-- An action on the site of the session. -/
def onSite {α : Type} (a : Action α) : Turn α :=
  ExceptT.mk fun s => ((a.outcome s.site).1, { s with site := (a.outcome s.site).2 })

/-- Fails. -/
def refuse {α : Type} (f : Failure) : Turn α := ExceptT.mk (pure (.error f))

/-- What a turn gives, and the session after it. -/
def outcome {α : Type} (a : Turn α) (s : Session) : Except Failure α × Session := a.run.run s

@[simp] theorem outcome_pure {α : Type} (x : α) (s : Session) :
    (pure x : Turn α).outcome s = (.ok x, s) := rfl

@[simp] theorem outcome_bind {α β : Type} (a : Turn α) (f : α → Turn β) (s : Session) :
    (a >>= f).outcome s =
      match a.outcome s with
      | (.ok x, t) => (f x).outcome t
      | (.error e, t) => (.error e, t) := by
  simp only [outcome, ExceptT.run_bind, StateT.run_bind]
  rcases (a.run.run s : Except Failure α × Session) with ⟨x | x, t⟩ <;> rfl

@[simp] theorem outcome_get (s : Session) : (get : Turn Session).outcome s = (.ok s, s) := rfl

@[simp] theorem outcome_refuse {α : Type} (f : Failure) (s : Session) :
    (refuse f : Turn α).outcome s = (.error f, s) := rfl

@[simp] theorem outcome_onSite {α : Type} (a : Action α) (s : Session) :
    (onSite a).outcome s = ((a.outcome s.site).1, { s with site := (a.outcome s.site).2 }) := rfl

/-- What stands under a name, or the failure that shows the name. -/
def named {α : Type} (entries : List (Text × α)) (id : Text) : Turn α :=
  match entries.lookup id with
  | some x => pure x
  | none => refuse (.key (Text.inspect id))

/-- What an engine's name stands for. -/
def target : EngineName → Turn Target
  | .named id => do
    let n ← named (← get).engines id
    pure (.engine n)
  | .foreign type => pure (.foreign type)

/-- Takes a step. -/
def take : Step → Turn Answer
  | .engine id e => do
    modify fun s =>
      { s with
        site := { s.site with engines := s.site.engines ++ [e] }
        engines := (id, s.site.engines.length) :: s.engines }
    pure .done
  | .drop id => do
    let _ ← named (← get).engines id
    modify fun s => { s with engines := s.engines.filter fun e => e.1 != id }
    pure .done
  | .useTag engine name extension root => do
    let t ← target engine
    let name ← onSite (Action.useTag t name extension root)
    pure (.names [name])
  | .setExtension engine name extension => do
    let t ← target engine
    onSite (Action.setExtension t name extension)
    pure .done
  | .getExtension engine name => do
    let t ← match engine with
      | none => pure none
      | some engine => some <$> target engine
    let r ← onSite (Action.getExtension t name)
    pure (.renderer r)
  | .defaultExtension => do
    let r ← onSite Action.defaultRenderer
    pure (.renderer r)
  | .compile engine id source => do
    let n ← named (← get).engines engine
    let t ← onSite (Action.compileTemplate n source)
    modify fun s => { s with templates := (id, t) :: s.templates }
    pure .done
  | .render id values => do
    let t ← named (← get).templates id
    let page ← onSite (Action.render t values)
    pure (.text page)
  | .settings value announced => do
    onSite (Action.changeSettings value announced)
    pure .done
  | .otherSetting => pure .done
  | .invalidate => do
    onSite Action.forgetConfig
    pure .done
  | .readConfig => do
    let shown := (← get).shown
    let c ← onSite Action.readConfig
    modify fun s => { s with shown := some c }
    pure (.config c.config (shown.any fun d => d.serial == c.serial)
      (shown.any fun d => d.config == c.config))
  | .writeFile path file => do
    onSite (Action.writeFile (FilePath.ofText path) file)
    pure .done
  | .makeDirectory path => do
    onSite (Action.makeDirectory (FilePath.ofText path))
    pure .done
  | .remove path => do
    onSite (Action.removeFile (FilePath.ofText path))
    pure .done
  | .clearModules => do
    onSite Action.clearModules
    pure .done
  | .component path props => do
    let markup ← onSite (Action.renderComponent path props)
    pure (.text markup)
  | .sameModule a b => do
    let m ← onSite (Action.loadModule a)
    let n ← onSite (Action.loadModule b)
    pure (.sameModule (m.serial == n.serial) (moduleName m.source == moduleName n.source))

end Turn

namespace Session

/-- A session on a site without engines. -/
def start (settings : Value) (libraries : List Library) : Session :=
  ⟨Site.start settings libraries, [], [], none⟩

/-- Takes one step: its answer, and the session after it. -/
def step (s : Session) (step : Step) : Except Failure Answer × Session := (Turn.take step).run.run s

/-- Takes steps one after the other: their answers, and the session after them. -/
def run (s : Session) : List Step → List (Except Failure Answer) × Session
  | [] => ([], s)
  | first :: rest =>
    let (answer, s) := s.step first
    let (answers, s) := s.run rest
    (answer :: answers, s)

theorem step_eq_outcome (s : Session) (step : Step) : s.step step = (Turn.take step).outcome s := rfl

theorem run_append (s : Session) (a b : List Step) :
    s.run (a ++ b) =
      ((s.run a).1 ++ ((s.run a).2.run b).1, ((s.run a).2.run b).2) := by
  induction a generalizing s with
  | nil => rfl
  | cons first rest ih => simp [run, ih]

theorem run_length (s : Session) (steps : List Step) : (s.run steps).1.length = steps.length := by
  induction steps generalizing s with
  | nil => rfl
  | cons first rest ih => simp [run, ih]

end Session

/-- The libraries of a backend; one of them has the component tag. -/
def Engine.standardLibraries : List Text :=
  ["cache", "i18n", "l10n", Action.tagLibrary, "static", "tz"]

/-- An engine without tags of its own, with what it shows for missing variables. A backend has all
libraries that there are, another engine at most the one with the component tag. -/
def Engine.make (backend withTags : Bool) (invalid : Text) : Engine where
  tags := []
  extensions := []
  libraries :=
    if backend then Engine.standardLibraries else if withTags then [Action.tagLibrary] else []
  invalid := invalid

end Hydration
