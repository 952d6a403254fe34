import Hydration.Proofs.Fragment.Evaluated
import Hydration.Proofs.Markup.Element
import Hydration.Proofs.Site.Configuration
import Hydration.Proofs.Site.Views
/-!
# Calls of renderers

A tag on a page is checked before anything is rendered: its clauses must have values, there must be
a renderer, the props must stand for entries and the container must be accepted. The first check
that fails is told. Only then is the renderer called, once, with the path and the entries; what it
gives is written, with the props as it leaves them.

To tell which calls are made, rendering is written down once more with the actions left open. As
plain actions it is what runs; as actions that keep a list of their calls it gives the same, and the
calls as well.

* `Action.renderFragmentIn_plain`: left open and filled in again, rendering is the same.
* `Traced.erases_bind`: keeping a list of calls changes nothing else.
* `Call.ready_or_refused`: a tag is ready, or refused by its first check that fails.
* `Action.renderFragment_calls`: which calls are made, and what comes of them.
-/
namespace Hydration

/-- A call of a renderer with a path and props. -/
structure Call where
  renderer : Renderer
  path : Text
  props : Props

/-! ## Rendering with the actions left open -/

/-- How actions are done, and how renderers are called. -/
structure Setting (m : Type → Type) where
  act : {α : Type} → Action α → m α
  call : Call → m Rendered

namespace Setting

/-- Calls run the renderer. -/
def plain : Setting Action where
  act a := a
  call k := Action.runRenderer k.renderer k.path k.props

end Setting

namespace Action
variable {m : Type → Type} [Monad m]

/-- The element of a component in a setting. -/
def renderElementIn (how : Setting m) (r : Renderer) (container : Value) (path : Text)
    (props : Value) : m Text := do
  let entries ← how.act (ofExcept (Markup.normalizeProps props))
  let container ← how.act (ofExcept (Markup.normalizeContainer container))
  let rendered ← how.call ⟨r, path, entries⟩
  let json ← how.act (ofExcept (Markup.serializeProps (.dict rendered.props)))
  let body ← how.act (ofExcept rendered.body.toText)
  pure (Markup.writeFragment container path json body)

/-- The element of a compiled tag in a setting. -/
def renderFragmentIn (how : Setting m) (engine : Option Nat) (c : Context) (f : Fragment) :
    m (Text × Context) := do
  let ((path, props, container), c) ← how.act (ofExcept (f.values.run c))
  let r ← how.act (getExtension (engine.map .engine) f.extension)
  let t ← renderElementIn how r container path props
  pure (t, c)

theorem renderFragmentIn_plain (engine : Option Nat) (c : Context) (f : Fragment) :
    renderFragmentIn .plain engine c f = renderFragment engine c f := rfl

end Action

/-! ## Lists of calls -/

/-- An action that keeps a list of its calls. -/
abbrev Traced (α : Type) := ExceptT Failure (StateM (Site × List Call)) α

namespace Traced
variable {α β : Type}

/-- An action without calls. -/
def act (a : Action α) : Traced α :=
  ExceptT.mk fun (s, calls) => ((a.outcome s).1, ((a.outcome s).2, calls))

/-- Notes a call. -/
def note (k : Call) : Traced Unit := modify fun (s, calls) => (s, calls ++ [k])

/-- Calls are noted, and then run the renderer. -/
def setting : Setting Traced where
  act := act
  call k := do
    note k
    act (Setting.plain.call k)

theorem outcome_act (a : Action α) (s : Site) (calls : List Call) :
    View.outcome (setting.act a) (s, calls) = ((a.outcome s).1, ((a.outcome s).2, calls)) := rfl

theorem outcome_act_bind (a : Action α) (g : α → Traced β) (s : Site) (calls : List Call) :
    View.outcome (setting.act a >>= g) (s, calls) =
      match a.outcome s with
      | (.ok x, t) => View.outcome (g x) (t, calls)
      | (.error e, t) => (.error e, (t, calls)) := by
  rw [View.outcome_bind, outcome_act]
  rcases a.outcome s with ⟨e | x, t⟩ <;> rfl

theorem outcome_call (k : Call) (s : Site) (calls : List Call) :
    View.outcome (setting.call k) (s, calls) =
      (((Setting.plain.call k).outcome s).1,
        (((Setting.plain.call k).outcome s).2, calls ++ [k])) := rfl

/-- But for its calls the first action is the second. -/
def Erases (t : Traced α) (a : Action α) : Prop :=
  ∀ s calls, ∃ more, View.outcome t (s, calls) =
    ((a.outcome s).1, ((a.outcome s).2, calls ++ more))

theorem erases_pure (x : α) : Erases (pure x) (pure x) :=
  fun s calls => ⟨[], by rw [List.append_nil]; rfl⟩

theorem erases_act (a : Action α) : Erases (setting.act a) a :=
  fun s calls => ⟨[], by rw [List.append_nil, outcome_act]⟩

theorem erases_call (k : Call) : Erases (setting.call k) (Setting.plain.call k) :=
  fun s calls => ⟨[k], outcome_call k s calls⟩

theorem erases_bind {t : Traced α} {a : Action α} {g : α → Traced β} {f : α → Action β}
    (h : Erases t a) (hf : ∀ x, Erases (g x) (f x)) : Erases (t >>= g) (a >>= f) := by
  intro s calls
  obtain ⟨more, hfirst⟩ := h s calls
  rw [View.outcome_bind, Action.outcome_bind, hfirst]
  rcases a.outcome s with ⟨e | x, u⟩
  · exact ⟨more, rfl⟩
  · obtain ⟨later, hrest⟩ := hf x u (calls ++ more)
    exact ⟨more ++ later, by rw [← List.append_assoc]; exact hrest⟩

theorem erases_renderFragmentIn (engine : Option Nat) (c : Context) (f : Fragment) :
    Erases (Action.renderFragmentIn setting engine c f) (Action.renderFragment engine c f) := by
  refine erases_bind (erases_act _) fun ((path, props, container), c) => ?_
  refine erases_bind (erases_act _) fun r => ?_
  refine erases_bind ?_ fun t => erases_pure _
  refine erases_bind (erases_act _) fun entries => ?_
  refine erases_bind (erases_act _) fun container => ?_
  refine erases_bind (erases_call _) fun rendered => ?_
  refine erases_bind (erases_act _) fun json => ?_
  exact erases_bind (erases_act _) fun body => erases_pure _

/-- Without the calls, rendering gives the same and leaves the same site. -/
theorem outcome_renderFragment (engine : Option Nat) (c : Context) (f : Fragment) (s : Site) :
    (Action.renderFragment engine c f).outcome s =
      let run := View.outcome (Action.renderFragmentIn setting engine c f) (s, [])
      (run.1, run.2.1) := by
  obtain ⟨more, herase⟩ := erases_renderFragmentIn engine c f s []
  rw [herase]

end Traced

/-! ## Checks -/

namespace Call
open Markup (Container PropsFrom normalizeContainer)
variable {engine : Option Nat} {c c' : Context} {f : Fragment} {s : Site} {k : Call}
  {container : Container} {e : Failure}

/-- All checks of a tag pass: the renderer is called with the path of the tag and the entries of its
props, and there is a container for what it gives. -/
inductive Ready (engine : Option Nat) (c : Context) (f : Fragment) (s : Site) :
    Call → Container → Context → Prop
  | checked {r : Renderer} {path : Text} {props container : Value} {entries : Props}
    {box : Container} {c' : Context} (hvalues : f.Evaluates c path props container c')
    (hrenderer : s.rendererFor engine f.extension = .ok r) (hprops : PropsFrom props entries)
    (hcontainer : normalizeContainer container = .ok box) :
    Ready engine c f s ⟨r, path, entries⟩ box c'

/-- The first check of a tag that fails, and how. -/
inductive Refused (engine : Option Nat) (c : Context) (f : Fragment) (s : Site) : Failure → Prop
  | values {e : Failure} (h : f.Unevaluated c e) : Refused engine c f s e
  | renderer {path : Text} {props container : Value} {c' : Context} {e : Failure}
    (hvalues : f.Evaluates c path props container c')
    (h : s.rendererFor engine f.extension = .error e) : Refused engine c f s e
  | props {path : Text} {props container : Value} {c' : Context} {r : Renderer}
    (hvalues : f.Evaluates c path props container c')
    (hrenderer : s.rendererFor engine f.extension = .ok r)
    (h : ∀ entries, ¬ PropsFrom props entries) :
    Refused engine c f s (.propsType props.typeName)
  | container {path : Text} {props container : Value} {c' : Context} {r : Renderer}
    {entries : Props} {e : Failure} (hvalues : f.Evaluates c path props container c')
    (hrenderer : s.rendererFor engine f.extension = .ok r) (hprops : PropsFrom props entries)
    (h : normalizeContainer container = .error e) : Refused engine c f s e

theorem Ready.leadsTo {box : Container} (h : Ready engine c f s k box c') :
    ∃ d, f.component.LeadsTo c k.path d := by
  obtain ⟨⟨hpath, -, -⟩, -, -, -⟩ := h
  exact ⟨_, hpath⟩

theorem Ready.renderer {box : Container} (h : Ready engine c f s k box c') :
    s.rendererFor engine f.extension = .ok k.renderer := by
  obtain ⟨-, hrenderer, -, -⟩ := h
  exact hrenderer

theorem ready_or_refused (engine : Option Nat) (c : Context) (f : Fragment) (s : Site) :
    (∃ k box c', Ready engine c f s k box c') ∨ ∃ e, Refused engine c f s e := by
  cases hvalues : f.values.run c with
  | error e => exact .inr ⟨e, .values (Fragment.unevaluated_iff.1 hvalues)⟩
  | ok found =>
    obtain ⟨⟨path, props, container⟩, c'⟩ := found
    have hvalues := Fragment.evaluates_iff.1 hvalues
    cases hrenderer : s.rendererFor engine f.extension with
    | error e => exact .inr ⟨e, .renderer hvalues hrenderer⟩
    | ok r =>
      cases hprops : Markup.normalizeProps props with
      | error e =>
        obtain ⟨hno, rfl⟩ := Markup.normalizeProps_error_iff.1 hprops
        exact .inr ⟨_, .props hvalues hrenderer hno⟩
      | ok entries =>
        have hprops := Markup.propsFrom_iff.1 hprops
        cases hcontainer : normalizeContainer container with
        | error e => exact .inr ⟨e, .container hvalues hrenderer hprops hcontainer⟩
        | ok box => exact .inl ⟨_, box, c', .checked hvalues hrenderer hprops hcontainer⟩

/-- A tag is refused as a component that is not found only by its parts. -/
theorem Refused.unevaluated {path : Text} {fault : ResolutionFault}
    (h : Refused engine c f s (.resolution path fault)) :
    f.Unevaluated c (.resolution path fault) := by
  cases h with
  | values h => exact h
  | renderer hvalues h => rcases Site.rendererFor_kind h with h | h | h <;> cases h
  | container hvalues hrenderer hprops h =>
    exact absurd h (Markup.ofValues_normalizeContainer _ path fault)

end Call

/-- The site after the renderer of a tag was looked up. -/
def Site.afterLookup (s : Site) (engine : Option Nat) (name : Text) : Site :=
  ((Action.getExtension (engine.map .engine) name).outcome s).2

theorem Action.outcome_getExtension (s : Site) (engine : Option Nat) (name : Text) :
    (getExtension (engine.map .engine) name).outcome s =
      (s.rendererFor engine name, s.afterLookup engine name) :=
  Prod.ext (looksUp_rendererFor engine name s).1 rfl

namespace Call
open Markup (Container PropsFrom normalizeContainer)
variable {engine : Option Nat} {c c' : Context} {f : Fragment} {s : Site} {k : Call}
  {box : Container} {e : Failure}

/-- The body and the props that a renderer gives, written as an element in a container. -/
def element (k : Call) (box : Container) (rendered : Rendered) : Except Failure Text := do
  let json ← Markup.serializeProps (.dict rendered.props)
  let body ← rendered.body.toText
  pure (Markup.writeFragment box k.path json body)

/-- The looking up of a renderer, between the values of a tag and its element. -/
theorem outcome_of_evaluates {path : Text} {props container : Value}
    (hvalues : f.Evaluates c path props container c') (calls : List Call) :
    View.outcome (Action.renderFragmentIn Traced.setting engine c f) (s, calls) =
      match s.rendererFor engine f.extension with
      | .error e => (.error e, (s.afterLookup engine f.extension, calls))
      | .ok r =>
        View.outcome ((·, c') <$> Action.renderElementIn Traced.setting r container path props)
          (s.afterLookup engine f.extension, calls) := by
  rw [Action.renderFragmentIn, Traced.outcome_act_bind, Action.outcome_ofExcept,
    Fragment.evaluates_iff.2 hvalues]
  refine (Traced.outcome_act_bind ..).trans ?_
  rw [Action.outcome_getExtension]
  cases s.rendererFor engine f.extension with
  | error e => rfl
  | ok r => rfl

/-- A tag whose parts fail makes no call, and nothing is looked up. -/
theorem outcome_of_unevaluated (h : f.Unevaluated c e) (calls : List Call) :
    View.outcome (Action.renderFragmentIn Traced.setting engine c f) (s, calls) =
      (.error e, (s, calls)) := by
  rw [Action.renderFragmentIn, Traced.outcome_act_bind, Action.outcome_ofExcept,
    Fragment.unevaluated_iff.2 h]

/-- A tag that is refused makes no call. -/
theorem outcome_of_refused (h : Refused engine c f s e) (calls : List Call) :
    ∃ t, (t = s ∨ t = s.afterLookup engine f.extension) ∧
      View.outcome (Action.renderFragmentIn Traced.setting engine c f) (s, calls) =
        (.error e, (t, calls)) := by
  cases h with
  | values h => exact ⟨s, .inl rfl, outcome_of_unevaluated h calls⟩
  | renderer hvalues h =>
    rw [outcome_of_evaluates hvalues, h]
    exact ⟨_, .inr rfl, rfl⟩
  | props hvalues hrenderer h =>
    rw [outcome_of_evaluates hvalues, hrenderer]
    simp only [Action.renderElementIn, Markup.normalizeProps_error_iff.2 ⟨h, rfl⟩]
    exact ⟨_, .inr rfl, rfl⟩
  | container hvalues hrenderer hprops h =>
    rw [outcome_of_evaluates hvalues, hrenderer]
    simp only [Action.renderElementIn, Markup.propsFrom_iff.2 hprops, h]
    exact ⟨_, .inr rfl, rfl⟩

/-- A tag that is ready makes its call, and what the renderer gives is written. -/
theorem outcome_of_ready (h : Ready engine c f s k box c') (calls : List Call) :
    View.outcome (Action.renderFragmentIn Traced.setting engine c f) (s, calls) =
      let answer :=
        (Action.runRenderer k.renderer k.path k.props).outcome (s.afterLookup engine f.extension)
      (answer.1.bind fun rendered => (element k box rendered).map (·, c'),
        (answer.2, calls ++ [k])) := by
  obtain ⟨hvalues, hrenderer, hprops, hcontainer⟩ := h
  rw [outcome_of_evaluates hvalues, hrenderer]
  simp only [Action.renderElementIn, Markup.propsFrom_iff.2 hprops, hcontainer]
  show View.outcome ((·, c') <$> (Traced.setting.call ⟨_, _, _⟩ >>= fun rendered => do
    let json ← Traced.setting.act (.ofExcept (Markup.serializeProps (.dict rendered.props)))
    let body ← Traced.setting.act (.ofExcept rendered.body.toText)
    pure (Markup.writeFragment box _ json body))) (_, calls) = _
  rw [← bind_pure_comp, View.outcome_bind, View.outcome_bind, Traced.outcome_call, Setting.plain]
  dsimp only
  rcases Action.outcome (Action.runRenderer _ _ _) _ with ⟨e | rendered, t⟩
  · rfl
  · dsimp only [Except.bind]
    rw [Traced.outcome_act_bind, element]
    cases Markup.serializeProps (.dict rendered.props) with
    | error e => rfl
    | ok json => cases hbody : rendered.body.toText <;> rfl

theorem outcome_renderFragment_of_ready (h : Ready engine c f s k box c') :
    (Action.renderFragment engine c f).outcome s =
      let answer :=
        (Action.runRenderer k.renderer k.path k.props).outcome (s.afterLookup engine f.extension)
      (answer.1.bind fun rendered => (element k box rendered).map (·, c'), answer.2) := by
  rw [Traced.outcome_renderFragment, outcome_of_ready h]

/-- There is one call that a tag is ready for. -/
theorem Ready.unique {k' : Call} {box' : Container} {d : Context}
    (h : Ready engine c f s k box c') (h' : Ready engine c f s k' box' d) : k = k' := by
  obtain ⟨hvalues, hrenderer, hprops, -⟩ := h
  obtain ⟨hvalues', hrenderer', hprops', -⟩ := h'
  cases (Fragment.evaluates_iff.2 hvalues).symm.trans (Fragment.evaluates_iff.2 hvalues')
  cases hrenderer.symm.trans hrenderer'
  cases (Markup.propsFrom_iff.2 hprops).symm.trans (Markup.propsFrom_iff.2 hprops')
  rfl

/-- What is written can be read: the start tag of the container with the path and the props as the
renderer left them, and then the body. -/
theorem element_ok_iff {rendered : Rendered} {html : Text} (h : Ready engine c f s k box c') :
    element k box rendered = .ok html ↔
      ∃ json body, Markup.serializeProps (.dict rendered.props) = .ok json ∧
        rendered.body.toText = .ok body ∧
        html = Markup.openTag box.tag box.attributes k.path json ++
          (body ++ Markup.closingTag box.tag) ∧
        Markup.StartTag.read? html = some
          (⟨box.tag, box.attributes ++ [(Markup.classAttribute, Text.escapeQuotes k.path),
            (Markup.propsAttribute, json)]⟩, body ++ Markup.closingTag box.tag) := by
  obtain ⟨-, -, -, hcontainer⟩ := h
  constructor
  · intro h
    obtain ⟨json, hjson, h⟩ := Failure.bind_ok h
    obtain ⟨body, hbody, h⟩ := Failure.bind_ok h
    cases h
    exact ⟨json, body, hjson, hbody, Markup.writeFragment_eq .., Markup.read?_writeFragment
      hcontainer (Markup.not_mem_serializeProps hjson) _ _⟩
  · rintro ⟨json, body, hjson, hbody, rfl, -⟩
    rw [element, hjson, ← Markup.writeFragment_eq]
    simp only [hbody]
    rfl

/-! ## Calls that are made -/

theorem Ready.calls (h : Ready engine c f s k box c') :
    (View.outcome (Action.renderFragmentIn Traced.setting engine c f) (s, [])).2.2 = [k] :=
  congrArg (·.2.2) (outcome_of_ready h [])

theorem Refused.outcome (h : Refused engine c f s e) :
    let run := View.outcome (Action.renderFragmentIn Traced.setting engine c f) (s, [])
    run.1 = .error e ∧ run.2.2 = [] := by
  obtain ⟨t, -, ht⟩ := outcome_of_refused h []
  exact ⟨congrArg (·.1) ht, congrArg (·.2.2) ht⟩

/-- The calls that are made are those that tags are ready for. -/
theorem calls_eq_iff :
    (View.outcome (Action.renderFragmentIn Traced.setting engine c f) (s, [])).2.2 = [k] ↔
      ∃ box c', Ready engine c f s k box c' := by
  constructor
  · intro hk
    rcases ready_or_refused engine c f s with ⟨k', box, c', h⟩ | ⟨e, h⟩
    · cases h.calls.symm.trans hk
      exact ⟨box, c', h⟩
    · cases h.outcome.2.symm.trans hk
  · rintro ⟨box, c', h⟩
    exact h.calls

/-- The failures without a call are those of checks. -/
theorem refused_iff :
    let run := View.outcome (Action.renderFragmentIn Traced.setting engine c f) (s, [])
    Refused engine c f s e ↔ run.1 = .error e ∧ run.2.2 = [] := by
  intro run
  refine ⟨Refused.outcome, ?_⟩
  rintro ⟨he, hcalls⟩
  rcases ready_or_refused engine c f s with ⟨k, box, c', h⟩ | ⟨e', h⟩
  · cases h.calls.symm.trans hcalls
  · cases h.outcome.1.symm.trans he
    exact h

/-- What is written is read off what the renderer gives. -/
theorem Ready.written_iff {rendered : Rendered} {html : Text} {d : Context}
    (h : Ready engine c f s k box c')
    (hanswer : ((Action.runRenderer k.renderer k.path k.props).outcome
      (s.afterLookup engine f.extension)).1 = .ok rendered) :
    (View.outcome (Action.renderFragmentIn Traced.setting engine c f) (s, [])).1 = .ok (html, d) ↔
      d = c' ∧ element k box rendered = .ok html := by
  rw [outcome_of_ready h]
  dsimp only
  rw [hanswer]
  dsimp only [Except.bind]
  constructor
  · intro hmap
    obtain ⟨_, hwritten, hpair⟩ := Failure.map_ok hmap
    cases hpair
    exact ⟨rfl, hwritten⟩
  · rintro ⟨rfl, hwritten⟩
    rw [hwritten]
    rfl

end Call

namespace Action

/-- **Everything is checked before the renderer is called.** Rendering a tag makes no call and
fails, or makes one call. It makes a call exactly if the reference leads to a path, the clauses have
values, there is a renderer, the props stand for entries and the container is accepted; then it
calls that renderer with that path and those entries. Otherwise the failure is that of the first of
these checks that fails. If the renderer fails, this failure is passed on. If it succeeds, the
element is the start tag of the container with the path and the props as the renderer left them,
the text of what it gave, and the closing tag. -/
theorem renderFragment_calls (engine : Option Nat) (c : Context) (f : Fragment) (s : Site) :
    let run := View.outcome (renderFragmentIn Traced.setting engine c f) (s, [])
    let calls := run.2.2
    (renderFragment engine c f).outcome s = (run.1, run.2.1) ∧
      ((calls = [] ∧ ∃ e, run.1 = .error e) ∨ ∃ k, calls = [k]) ∧
      (∀ k, calls = [k] ↔ ∃ box c', Call.Ready engine c f s k box c') ∧
      (∀ e, Call.Refused engine c f s e ↔ run.1 = .error e ∧ calls = []) ∧
      ∀ k box c', Call.Ready engine c f s k box c' →
        let answer :=
          (runRenderer k.renderer k.path k.props).outcome (s.afterLookup engine f.extension)
        run.2.1 = answer.2 ∧ (∀ e, answer.1 = .error e → run.1 = .error e) ∧
          ∀ rendered, answer.1 = .ok rendered → ∀ html d,
            run.1 = .ok (html, d) ↔ d = c' ∧ ∃ json body,
              Markup.serializeProps (.dict rendered.props) = .ok json ∧
              rendered.body.toText = .ok body ∧
              html = Markup.openTag box.tag box.attributes k.path json ++
                (body ++ Markup.closingTag box.tag) ∧
              Markup.StartTag.read? html = some
                (⟨box.tag, box.attributes ++ [(Markup.classAttribute, Text.escapeQuotes k.path),
                  (Markup.propsAttribute, json)]⟩, body ++ Markup.closingTag box.tag) := by
  intro run calls
  refine ⟨Traced.outcome_renderFragment engine c f s, ?_, fun k => Call.calls_eq_iff,
    fun e => Call.refused_iff, fun k box c' h => ?_⟩
  · rcases Call.ready_or_refused engine c f s with ⟨k, box, c', h⟩ | ⟨e, h⟩
    · exact .inr ⟨k, h.calls⟩
    · exact .inl ⟨h.outcome.2, e, h.outcome.1⟩
  · intro answer
    have hrun : run = (answer.1.bind fun rendered => (k.element box rendered).map (·, c'),
        (answer.2, [k])) := Call.outcome_of_ready h []
    refine ⟨by rw [hrun], fun e he => by rw [hrun, he]; rfl, fun rendered hok html d => ?_⟩
    rw [← Call.element_ok_iff h]
    exact h.written_iff hok

end Action
end Hydration
