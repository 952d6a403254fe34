import Hydration.Proofs.Fragment.Checks
import Hydration.Proofs.Template.Faults
/-!
# What the clauses of a tag come to

In a context a tag comes to the path of a component, props and a container, or one of its parts
fails: the reference first, then the props, then the container. A reference has a path if it is
known, or if it comes to a text that is not empty. The props stand for entries if they are missing,
or an empty text, or a mapping.

* `ComponentSource.leadsTo_iff`, `ComponentSource.fails_iff`: paths of references.
* `Fragment.evaluates_iff`, `Fragment.unevaluated_iff`: the parts of a tag, one after the other.
* `Markup.propsFrom_iff`: props that stand for entries.
* `Fragment.unresolved_of_unevaluated`: only a reference fails as a component that is not found.
-/
namespace Hydration

theorem Evaluation.run_bind_error_iff {α β : Type} {a : Evaluation α} {f : α → Evaluation β}
    {c : Context} {e : Failure} :
    (a >>= f).run c = .error e ↔
      a.run c = .error e ∨ ∃ x d, a.run c = .ok (x, d) ∧ (f x).run d = .error e := by
  rw [StateT.run_bind]
  cases a.run c with
  | error failure => simp [bind, Except.bind]
  | ok p =>
    refine ⟨fun h => .inr ⟨p.1, p.2, rfl, h⟩, ?_⟩
    rintro (h | ⟨_, _, hp, h⟩)
    · cases h
    · cases hp
      exact h

/-! ## References -/

namespace ComponentSource
variable {c c' : Context} {source : ComponentSource} {path : Text} {e : Failure}

/-- The path of a component in a context, and the context after it. -/
inductive LeadsTo (c : Context) : ComponentSource → Text → Context → Prop
  | path (root resolved : Text) : LeadsTo c (.path root resolved) resolved c
  | reference {root written t : Text} {pipe : Pipe} {safe : Bool} {c' : Context}
    (hvalue : pipe.evaluate.run c = .ok (.text safe t, c')) (hne : t ≠ []) :
    LeadsTo c (.reference root written pipe) (Path.resolve root t) c'

/-- A reference comes to a value that is not a text, or is an empty one. -/
inductive Unresolved (c : Context) : ComponentSource → Value → Prop
  | reference {root written : Text} {pipe : Pipe} {v : Value} {c' : Context}
    (hvalue : pipe.evaluate.run c = .ok (v, c')) (hno : ∀ safe t, v = .text safe t → t = []) :
    Unresolved c (.reference root written pipe) v

/-- Why a component has no path in a context: its reference fails, or it comes to something that is
no text of a path, which the failure shows if it can be shown. -/
inductive Fails (c : Context) : ComponentSource → Failure → Prop
  | evaluation {root written : Text} {pipe : Pipe} {e : Failure}
    (h : pipe.evaluate.run c = .error e) : Fails c (.reference root written pipe) e
  | unresolved {root written shown : Text} {pipe : Pipe} {v : Value}
    (h : Unresolved c (.reference root written pipe) v) (hshown : v.inspect = .ok shown) :
    Fails c (.reference root written pipe) (.resolution written (.reference shown))
  | unshown {root written : Text} {pipe : Pipe} {v : Value} {e : Failure}
    (h : Unresolved c (.reference root written pipe) v) (hshown : v.inspect = .error e) :
    Fails c (.reference root written pipe) e

/-- A reference that comes to no text of a path fails, once its value is shown. -/
theorem run_resolvedPath_of_unresolved {root written : Text} {pipe : Pipe} {v : Value}
    (hvalue : pipe.evaluate.run c = .ok (v, c')) (hno : ∀ safe t, v = .text safe t → t = []) :
    (reference root written pipe).resolvedPath.run c =
      v.inspect.bind fun shown => .error (.resolution written (.reference shown)) := by
  rw [resolvedPath, StateT.run_bind, hvalue]
  show StateT.run _ c' = _
  dsimp only
  split
  · next safe x rest => cases hno safe (x :: rest) rfl
  · cases Value.inspect _ <;> rfl

theorem leadsTo_iff : source.resolvedPath.run c = .ok (path, c') ↔ LeadsTo c source path c' := by
  cases source with
  | path root resolved =>
    constructor
    · intro h
      cases h
      exact .path root path
    · rintro ⟨⟩
      rfl
  | reference root written pipe =>
    rw [resolvedPath, Evaluation.run_bind_ok_iff]
    constructor
    · rintro ⟨v, d, hvalue, h⟩
      split at h
      · cases h
        exact .reference hvalue (by simp)
      · obtain ⟨shown, _, -, hthrow⟩ := Evaluation.run_bind_ok_iff.1 h
        cases hthrow
    · intro h
      obtain _ | ⟨hvalue, hne⟩ := h
      obtain ⟨x, rest, rfl⟩ := List.exists_cons_of_ne_nil hne
      exact ⟨_, _, hvalue, rfl⟩

theorem fails_iff : source.resolvedPath.run c = .error e ↔ Fails c source e := by
  cases source with
  | path root resolved =>
    constructor
    · intro h
      cases h
    · rintro ⟨⟩
  | reference root written pipe =>
    constructor
    · intro h
      cases hvalue : pipe.evaluate.run c with
      | error failure =>
        rw [resolvedPath, StateT.run_bind, hvalue] at h
        cases h
        exact .evaluation hvalue
      | ok p =>
        obtain ⟨v, d⟩ := p
        by_cases hno : ∀ safe t, v = .text safe t → t = []
        · rw [run_resolvedPath_of_unresolved hvalue hno] at h
          cases hshown : v.inspect with
          | error failure =>
            rw [hshown] at h
            cases h
            exact .unshown (.reference hvalue hno) hshown
          | ok shown =>
            rw [hshown] at h
            cases h
            exact .unresolved (.reference hvalue hno) hshown
        · push Not at hno
          obtain ⟨safe, t, rfl, hne⟩ := hno
          rw [leadsTo_iff.2 (.reference hvalue hne)] at h
          cases h
    · rintro (h | ⟨⟨hvalue, hno⟩, hshown⟩ | ⟨⟨hvalue, hno⟩, hshown⟩)
      · rw [resolvedPath, StateT.run_bind, h]
        rfl
      · rw [run_resolvedPath_of_unresolved hvalue hno, hshown]
        rfl
      · rw [run_resolvedPath_of_unresolved hvalue hno, hshown]
        rfl

end ComponentSource

/-! ## Tags -/

namespace Fragment
variable {f : Fragment} {c c' : Context} {path : Text} {props container : Value} {e : Failure}

/-- The path, the props and the container of a tag in a context, and the context after them. -/
inductive Evaluates (f : Fragment) (c : Context) :
    Text → Value → Value → Context → Prop
  | parts {path : Text} {props container : Value} {c₁ c₂ c₃ : Context}
    (hpath : f.component.LeadsTo c path c₁) (hprops : (clauseValue f.props).run c₁ = .ok (props, c₂))
    (hcontainer : (clauseValue f.container).run c₂ = .ok (container, c₃)) :
    Evaluates f c path props container c₃

/-- The first part of a tag that fails in a context. -/
inductive Unevaluated (f : Fragment) (c : Context) : Failure → Prop
  | reference {e : Failure} (h : f.component.Fails c e) : Unevaluated f c e
  | props {path : Text} {c₁ : Context} {e : Failure} (hpath : f.component.LeadsTo c path c₁)
    (h : (clauseValue f.props).run c₁ = .error e) : Unevaluated f c e
  | container {path : Text} {props : Value} {c₁ c₂ : Context} {e : Failure}
    (hpath : f.component.LeadsTo c path c₁) (hprops : (clauseValue f.props).run c₁ = .ok (props, c₂))
    (h : (clauseValue f.container).run c₂ = .error e) : Unevaluated f c e

theorem evaluates_iff :
    f.values.run c = .ok ((path, props, container), c') ↔
      Evaluates f c path props container c' := by
  rw [values, Evaluation.run_bind_ok_iff]
  constructor
  · rintro ⟨path, c₁, hpath, h⟩
    obtain ⟨props, c₂, hprops, h⟩ := Evaluation.run_bind_ok_iff.1 h
    obtain ⟨container, c₃, hcontainer, h⟩ := Evaluation.run_bind_ok_iff.1 h
    cases h
    exact .parts (ComponentSource.leadsTo_iff.1 hpath) hprops hcontainer
  · rintro ⟨hpath, hprops, hcontainer⟩
    exact ⟨_, _, ComponentSource.leadsTo_iff.2 hpath, Evaluation.run_bind_ok_iff.2
      ⟨_, _, hprops, Evaluation.run_bind_ok_iff.2 ⟨_, _, hcontainer, rfl⟩⟩⟩

theorem unevaluated_iff : f.values.run c = .error e ↔ Unevaluated f c e := by
  rw [values, Evaluation.run_bind_error_iff]
  constructor
  · rintro (h | ⟨path, c₁, hpath, h⟩)
    · exact .reference (ComponentSource.fails_iff.1 h)
    have hleads := ComponentSource.leadsTo_iff.1 hpath
    rcases Evaluation.run_bind_error_iff.1 h with h | ⟨props, c₂, hprops, h⟩
    · exact .props hleads h
    rcases Evaluation.run_bind_error_iff.1 h with h | ⟨container, c₃, -, h⟩
    · exact .container hleads hprops h
    · cases h
  · rintro (h | ⟨hpath, h⟩ | ⟨hpath, hprops, h⟩)
    · exact .inl (ComponentSource.fails_iff.2 h)
    · exact .inr ⟨_, _, ComponentSource.leadsTo_iff.2 hpath,
        Evaluation.run_bind_error_iff.2 (.inl h)⟩
    · exact .inr ⟨_, _, ComponentSource.leadsTo_iff.2 hpath, Evaluation.run_bind_error_iff.2
        (.inr ⟨_, _, hprops, Evaluation.run_bind_error_iff.2 (.inl h)⟩)⟩

end Fragment

/-! ## Props -/

namespace Markup
variable {v : Value} {entries : List (Value × Value)} {e : Failure}

/-- The entries that props stand for. -/
inductive PropsFrom : Value → List (Value × Value) → Prop
  | missing : PropsFrom .none []
  | blank {v : Value} (h : v.equals (.str []) = true) : PropsFrom v []
  | mapping {v : Value} {entries : List (Value × Value)} (h : v.entries? = some entries) :
    PropsFrom v entries

theorem propsFrom_iff : normalizeProps v = .ok entries ↔ PropsFrom v entries := by
  constructor
  · intro h
    unfold normalizeProps at h
    split at h
    · next homitted =>
      cases h
      rcases isOmitted_iff.1 homitted with rfl | hblank
      · exact .missing
      · exact .blank hblank
    · split at h
      · next hentries =>
        cases h
        exact .mapping hentries
      · cases h
  · rintro (_ | hblank | hentries)
    · rfl
    · rw [normalizeProps, if_pos (isOmitted_iff.2 (.inr hblank))]
    · rw [normalizeProps, isOmitted_of_entries hentries, hentries]
      rfl

/-- Props that stand for no entries are refused by their type. -/
theorem normalizeProps_error_iff :
    normalizeProps v = .error e ↔ (∀ entries, ¬ PropsFrom v entries) ∧ e = .propsType v.typeName := by
  constructor
  · intro h
    refine ⟨fun entries hfrom => ?_, ?_⟩
    · rw [propsFrom_iff.2 hfrom] at h
      cases h
    · unfold normalizeProps at h
      split at h
      · cases h
      · split at h
        · cases h
        · cases h
          rfl
  · rintro ⟨hno, rfl⟩
    unfold normalizeProps
    split
    · next homitted =>
      exact absurd (propsFrom_iff.1 (by rw [normalizeProps, if_pos homitted])) (hno [])
    · split
      · next entries hentries => exact absurd (.mapping hentries) (hno entries)
      · rfl

/-! ## Faults -/

theorem ofValues_checkTagName (v : Value) : OfValues (checkTagName v) := by
  have hrefuse : OfValues (checkTagName.refuse v) :=
    (Value.ofValues_inspect v).bind fun _ => .error nofun
  unfold checkTagName
  split
  · exact .ite (.ok _) hrefuse
  · exact hrefuse

theorem ofValues_checkAttributeName (v : Value) : OfValues (checkAttributeName v) := by
  have hrefuse : OfValues (checkAttributeName.refuse v) :=
    (Value.ofValues_inspect v).bind fun _ => .error nofun
  unfold checkAttributeName
  split
  · exact .ite (.ite (.error nofun) (.ok _)) hrefuse
  · exact hrefuse

theorem ofValues_readAttributes (entries : List (Value × Value)) :
    OfValues (readAttributes entries) := by
  induction entries with
  | nil => exact .ok _
  | cons entry rest ih =>
    refine .ite ih ((ofValues_checkAttributeName _).bind fun name => .ite ih ?_)
    exact (Value.ofValues_toText _).bind fun t => ih.bind fun more => .ok _

theorem ofValues_normalizeContainer (v : Value) : OfValues (normalizeContainer v) := by
  unfold normalizeContainer
  refine .ite (.ok _) ?_
  split
  · exact (ofValues_checkTagName _).map _
  · split
    · exact .error nofun
    · split
      · exact .error nofun
      · exact (ofValues_checkTagName _).bind fun name =>
          (ofValues_readAttributes _).bind fun attributes => .ok _

end Markup

namespace Expression

mutual

theorem evaluatesValues_evaluate : ∀ e : Expression, EvaluatesValues e.evaluate
  | .constant v => .pure v
  | .variable _ pipe => pipe.evaluatesValues_evaluate
  | .object entries => (evaluatesValues_entries entries).bind fun _ => .pure _
  | .array items => (evaluatesValues_items items).bind fun _ => .pure _

theorem evaluatesValues_entries : ∀ entries : List (Text × Expression),
    EvaluatesValues (evaluateEntries entries)
  | [] => .pure _
  | (_, e) :: rest =>
    (evaluatesValues_evaluate e).bind fun _ => (evaluatesValues_entries rest).bind fun _ => .pure _

theorem evaluatesValues_items : ∀ items : List Expression, EvaluatesValues (evaluateItems items)
  | [] => .pure _
  | e :: rest =>
    (evaluatesValues_evaluate e).bind fun _ => (evaluatesValues_items rest).bind fun _ => .pure _

end

end Expression

theorem Fragment.evaluatesValues_clauseValue (clause : Option Expression) :
    EvaluatesValues (clauseValue clause) := by
  cases clause with
  | none => exact .pure _
  | some e => exact e.evaluatesValues_evaluate

theorem ComponentSource.LeadsTo.not_unresolved {c c' : Context} {source : ComponentSource}
    {path : Text} {v : Value} (h : LeadsTo c source path c') : ¬ Unresolved c source v := by
  rintro ⟨hvalue, hno⟩
  obtain _ | ⟨hvalue', hne⟩ := h
  cases hvalue.symm.trans hvalue'
  exact hne (hno _ _ rfl)

/-- A tag whose parts fail as a component that is not found has a reference that comes to no text of
a path. -/
theorem Fragment.unresolved_of_unevaluated {f : Fragment} {c : Context} {path : Text}
    {fault : ResolutionFault} (h : f.Unevaluated c (.resolution path fault)) :
    ∃ v, f.component.Unresolved c v := by
  cases h with
  | reference h =>
    generalize hsource : f.component = source at h
    cases h with
    | evaluation h => exact absurd h (Pipe.evaluatesValues_evaluate _ c path fault)
    | unresolved h => exact ⟨_, h⟩
    | unshown h => exact ⟨_, h⟩
  | props hpath h => exact absurd h (evaluatesValues_clauseValue _ _ path fault)
  | container hpath hprops h => exact absurd h (evaluatesValues_clauseValue _ _ path fault)

end Hydration
