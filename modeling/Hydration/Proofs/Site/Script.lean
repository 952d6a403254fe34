import Hydration.Proofs.Site.Registration
/-!
# Actions that only read

Looking renderers up, compiling templates and rendering pages do little to a site that lasts: they
look at its engines, log, import renderers, read the configuration and run components. What of this
they do is told once, by `Action.Script`, and what steps do with such actions by `Turn.Script`; what
holds of all of them is then proved by induction, with a case for each thing that they do.

* `Action.script_compileTemplate`, `Action.script_render`: templates and pages.
* `Action.script_getExtension`, `Action.script_chooseExtension`: renderers.
* `Action.renderComponent_of`: what components that run are put together from.
* `Turn.script_take`: the steps that look something up or show it.
-/
namespace Hydration
namespace Action

/-- Actions that are put together from results, records in the log, looks at the engines, imports of
renderers, readings of the configuration and components that run. Readings are told apart by their
numbers, but what follows uses the configuration only. -/
inductive Script : {α : Type} → Action α → Prop
  | result {α : Type} (r : Except Failure α) : Script (ofExcept r)
  | record (level : LogLevel) (logger : Logger) (message : Text) :
    Script (record level logger message)
  | importing (name : Text) : Script (importRenderer name)
  | component (path : Text) (props : Value) : Script (renderComponent path props)
  | look {β : Type} {f : Site → Action β} (hf : ∀ s, Script (f s))
    (hsame : ∀ s t, s.engines = t.engines → f s = f t) : Script (get >>= f)
  | read {β : Type} {f : ReadConfig → Action β} (hf : ∀ c, Script (f c))
    (hsame : ∀ c d, c.config = d.config → f c = f d) : Script (readConfig >>= f)
  | bind {α β : Type} {a : Action α} {f : α → Action β} (ha : Script a)
    (hf : ∀ x, Script (f x)) : Script (a >>= f)

variable {α β : Type}

theorem script_pure (x : α) : Script (pure x) := .result (.ok x)

theorem script_refuse (f : Failure) : Script (refuse f : Action α) := .result (.error f)

theorem script_map {a : Action α} (f : α → β) (h : Script a) : Script (f <$> a) := by
  rw [← bind_pure_comp]
  exact .bind h fun _ => script_pure _

/-! ## Components -/

/-- The call of the component of a module that was loaded. -/
def callComponent (path : Text) (props : Value) (m : LoadedModule) (c : ReadConfig) :
    Action Text :=
  match m.file.member c.config.componentAttribute with
  | .callable behaviour => do
    let props ← ofExcept (ComponentFile.copyProps props)
    let calls ← match behaviour with
      | .byKind => countCall path m
      | _ => pure m.calls
    let made ← ofExcept (m.file.call behaviour calls props)
    ofExcept made.markup
  | _ => do
    record .error .components
      ("Component module " ++ path ++ " has no callable '" ++ c.config.componentAttribute ++ "'")
    refuse (.resolution path (.notCallable c.config.componentAttribute))

theorem renderComponent_eq (path : Text) (props : Value) :
    renderComponent path props = (do
      let m ← loadModule path
      let c ← readConfig
      callComponent path props m c) := rfl

/-- What holds of loads, readings and counts, of results and records, and of actions in a row,
holds of components that run. -/
theorem renderComponent_of {P : {α : Type} → Action α → Prop}
    (hresult : ∀ {α : Type} (r : Except Failure α), P (ofExcept r))
    (hrecord : ∀ level logger message, P (record level logger message))
    (hload : ∀ path, P (loadModule path)) (hread : P readConfig)
    (hcount : ∀ path m, P (countCall path m))
    (hbind : ∀ {α β : Type} {a : Action α} {f : α → Action β}, P a → (∀ x, P (f x)) → P (a >>= f))
    (path : Text) (props : Value) : P (renderComponent path props) := by
  rw [renderComponent_eq]
  refine hbind (hload path) fun m => hbind hread fun c => ?_
  unfold callComponent
  cases m.file.member c.config.componentAttribute with
  | callable behaviour =>
    have hcall : ∀ (calls : Nat) (props : Props), P (do
        let made ← ofExcept (m.file.call behaviour calls props)
        ofExcept made.markup) := fun _ _ => hbind (hresult _) fun _ => hresult _
    refine hbind (hresult _) fun props => ?_
    cases behaviour with
    | byKind => exact hbind (hcount path m) fun calls => hcall calls props
    | constant _ | own _ => exact hbind (hresult (.ok _)) fun calls => hcall calls props
  | absent | plain => exact hbind (hrecord _ _ _) fun _ => hresult _

/-! ## Renderers -/

theorem script_defaultRenderer : Script defaultRenderer :=
  .read (fun _ => .importing _) fun c d h => by rw [h]

theorem script_asEngine (target : Target) : Script (asEngine target) := by
  cases target with
  | engine n => exact script_pure n
  | foreign type => exact script_refuse _

theorem script_getExtension (target : Option Target) (name : Text) :
    Script (getExtension target name) := by
  cases target with
  | none => exact script_defaultRenderer
  | some target =>
    refine .bind (script_asEngine target) fun n => .look (fun s => ?_) fun s t h => ?_
    · cases s.extension? n name with
      | some r => exact script_pure r
      | none => exact script_defaultRenderer
    · simp only [Site.extension?, h]

theorem script_chooseExtension (extension : Option Extension) :
    Script (chooseExtension extension) := by
  cases extension with
  | some e => exact script_pure e
  | none => exact script_map _ script_defaultRenderer

/-! ## Compiling -/

theorem script_componentRoot :
    Script ((fun r : ReadConfig => r.config.componentRoot) <$> readConfig) := by
  rw [← bind_pure_comp]
  exact .read (fun _ => script_pure _) fun c d h => by simp only [h]

theorem script_compileTag (root : Option Text) (extension contents : Text) :
    Script (compileTag root extension contents) := by
  have hparsed : ∀ (r : Text) (tag : Tag.ParsedTag), Script (compileParsed r extension tag) :=
    fun _ _ => .bind (.result _) fun _ => .bind (.record _ _ _) fun _ => script_pure _
  refine .bind (.result _) fun tag => ?_
  rcases root with _ | (_ | ⟨c, rest⟩)
  · exact .bind script_componentRoot fun r => hparsed r tag
  · exact .bind script_componentRoot fun r => hparsed r tag
  · exact hparsed (c :: rest) tag

theorem script_compileInner (libraries : List Text) (tags : TagTable) (line : Nat)
    (kind : Template.TagKind) (inner : Text) :
    Script (compileInner libraries tags line kind inner) := by
  unfold compileInner
  cases kind with
  | comment => exact script_pure _
  | output =>
    dsimp only
    split
    · exact script_refuse _
    · exact .bind (.result _) fun _ => script_pure _
  | block =>
    dsimp only
    split
    · exact script_refuse _
    · split
      · exact .bind (script_compileTag _ _ _) fun _ => script_pure _
      · split
        · exact .bind (.result _) fun _ => script_pure _
        · exact script_refuse _

theorem script_compilePieces (libraries : List Text) (tags : TagTable) (line : Nat)
    (pieces : List Template.Piece) : Script (compilePieces libraries tags line pieces) := by
  induction pieces generalizing tags line with
  | nil => exact script_pure _
  | cons piece rest ih =>
    cases piece with
    | text t => exact .bind (ih _ _) fun _ => script_pure _
    | tag kind inner =>
      refine .bind (script_compileInner _ _ _ _ _) fun ⟨tags, node⟩ => ?_
      exact .bind (ih _ _) fun _ => script_pure _

theorem script_compileTemplate (engine : Nat) (source : Text) :
    Script (compileTemplate engine source) := by
  refine .look (fun s => ?_) fun s t h => by rw [h]
  cases s.engines[engine]? with
  | none => exact script_pure _
  | some e => exact .bind (script_compilePieces _ _ _ _) fun _ => script_pure _

/-! ## Pages -/

theorem script_runRenderer (r : Renderer) (path : Text) (props : Props) :
    Script (runRenderer r path props) := by
  cases r with
  | components => exact .bind (.component _ _) fun _ => script_pure _
  | function name run => exact .result _

theorem script_renderElement (r : Renderer) (container : Value) (path : Text) (props : Value) :
    Script (renderElement r container path props) := by
  refine .bind (.result _) fun _ => .bind (.result _) fun _ => ?_
  refine .bind (script_runRenderer _ _ _) fun _ => .bind (.result _) fun _ => ?_
  exact .bind (.result _) fun _ => script_pure _

theorem script_renderFragment (engine : Option Nat) (c : Context) (f : Fragment) :
    Script (renderFragment engine c f) := by
  refine .bind (.result _) fun ⟨⟨path, props, container⟩, c⟩ => ?_
  refine .bind (script_getExtension _ _) fun r => ?_
  exact .bind (script_renderElement _ _ _ _) fun _ => script_pure _

theorem script_renderNode (engine : Nat) (c : Context) (node : Node) :
    Script (renderNode engine c node) := by
  cases node with
  | text t => exact script_pure _
  | output p =>
    refine .bind (.result _) fun ⟨v, c⟩ => ?_
    exact .bind (.result _) fun _ => script_pure _
  | component f => exact script_renderFragment _ _ _

theorem script_renderNodes (engine : Nat) (c : Context) (nodes : List Node) :
    Script (renderNodes engine c nodes) := by
  induction nodes generalizing c with
  | nil => exact script_pure _
  | cons node rest ih =>
    refine .bind (script_renderNode _ _ _) fun ⟨t, c⟩ => ?_
    exact .bind (ih c) fun _ => script_pure _

theorem script_render (t : Template) (values : List (Text × Value)) : Script (render t values) := by
  refine .bind (.look (fun s => script_pure _) fun s t h => by rw [h]) fun _ => ?_
  exact script_renderNodes _ _ _

end Action

/-! ## Steps -/

/-- The steps that look something up or show it. -/
def Step.Looks : Step → Prop
  | .getExtension _ _ | .defaultExtension | .render _ _ | .component _ _ => True
  | _ => False

namespace Turn
variable {α : Type}

/-- Turns that are put together from results, looks at the names of engines and at the templates,
and actions that only read. -/
inductive Script : {α : Type} → Turn α → Prop
  | result {α : Type} (r : Except Failure α) : Script (ExceptT.mk (pure r))
  | onSite {α : Type} {a : Action α} (h : a.Script) : Script (onSite a)
  | look {β : Type} {f : Session → Turn β} (hf : ∀ s, Script (f s))
    (hsame : ∀ s t : Session, s.engines = t.engines → s.templates = t.templates → f s = f t) :
    Script (get >>= f)
  | bind {α β : Type} {a : Turn α} {f : α → Turn β} (ha : Script a)
    (hf : ∀ x, Script (f x)) : Script (a >>= f)

theorem script_pure (x : α) : Script (pure x : Turn α) := .result (.ok x)

theorem script_named (entries : List (Text × α)) (id : Text) : Script (named entries id) := by
  unfold named
  cases entries.lookup id with
  | some x => exact script_pure x
  | none => exact .result (.error _)

theorem script_target (engine : EngineName) : Script (target engine) := by
  cases engine with
  | foreign type => exact script_pure _
  | named id =>
    refine .look (fun s => ?_) fun s t h _ => by rw [h]
    exact .bind (script_named _ id) fun _ => script_pure _

theorem script_take {step : Step} (h : step.Looks) : Script (take step) := by
  cases step with
  | getExtension engine name =>
    have hget : ∀ t, Script
        (onSite (Action.getExtension t name) >>= fun r => pure (Answer.renderer r)) := fun t =>
      .bind (.onSite (Action.script_getExtension t name)) fun _ => script_pure _
    cases engine with
    | none => exact .bind (script_pure _) hget
    | some engine => exact .bind (.bind (script_target engine) fun _ => script_pure _) hget
  | defaultExtension =>
    exact .bind (.onSite Action.script_defaultRenderer) fun _ => script_pure _
  | render id values =>
    refine .look (fun s => ?_) fun s t _ h => by rw [h]
    refine .bind (script_named _ id) fun t => ?_
    exact .bind (.onSite (Action.script_render t values)) fun _ => script_pure _
  | component path props =>
    exact .bind (.onSite (.component path props)) fun _ => script_pure _
  | _ => exact h.elim

end Turn
end Hydration
