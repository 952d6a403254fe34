import Hydration.Proofs.Fragment.Checks
import Hydration.Proofs.Template.Members
import Hydration.Proofs.Template.Word
/-!
# Expressions that change nothing

    {a: user.name|upper, b: l.0}

Only a method can change a value of the context, and five names stand for one that does. What is
looked up otherwise is put back where it was found, so an expression without these names leaves the
context as it is. How an expression is filtered has no part in that.

* `Value.eq_of_follow`: a path without these names ends with the value that it started from.
* `Expression.keeps_evaluate`: an expression without these names is evaluated in one context.
-/
namespace Hydration

theorem Evaluation.of_run_ofExcept {α : Type} {r : Except Failure α} {c d : Context} {x : α}
    (h : (Evaluation.ofExcept r).run c = .ok (x, d)) : r = .ok x ∧ d = c := by
  cases r with
  | error f => cases h
  | ok y =>
    cases h
    exact ⟨rfl, rfl⟩

/-- The evaluation leaves every context in which it succeeds as it is. -/
def Evaluation.Keeps {α : Type} (a : Evaluation α) : Prop :=
  ∀ c x d, a.run c = .ok (x, d) → d = c

namespace Evaluation.Keeps
variable {α β : Type} {a : Evaluation α}

theorem pure (x : α) : Keeps (Pure.pure x : Evaluation α) := by
  intro c y d h
  cases h
  rfl

theorem ofExcept (r : Except Failure α) : Keeps (Evaluation.ofExcept r) :=
  fun _ _ _ h => (of_run_ofExcept h).2

theorem bind {f : α → Evaluation β} (ha : Keeps a) (hf : ∀ x, Keeps (f x)) : Keeps (a >>= f) := by
  intro c y d h
  obtain ⟨x, d', hx, hy⟩ := run_bind_ok_iff.1 h
  rw [hf x d' y d hy, ha c x d' hx]

end Evaluation.Keeps

/-! ## Paths -/

theorem putFirst_of_lookup_none {α : Type} {name : Text} {entries : List (Text × α)}
    (h : entries.lookup name = none) (new : α) : putFirst name new entries = entries := by
  induction entries with
  | nil => rfl
  | cons e rest ih =>
    obtain ⟨k, v⟩ := e
    rw [List.lookup_cons] at h
    cases hk : name == k with
    | true =>
      rw [hk] at h
      cases h
    | false =>
      rw [hk] at h
      simp only [putFirst, hk, Bool.false_eq_true, if_false, ih h]

theorem Context.put_of_get? {c : Context} {x : Text} {v : Value} (h : c.get? x = some v) :
    c.put x v = c := by
  cases hl : c.values.lookup x with
  | some w =>
    rw [c.get?_user hl] at h
    cases h
    exact c.put_get? hl
  | none => rw [put, putFirst_of_lookup_none hl]

namespace Value

/-- A part that is put where a name leads to changes nothing. -/
theorem way?_replace_part {name : Text} {v : Value} {p : Place}
    (h : v.way? name = some (.place p)) : p.replace p.part = v := by
  unfold way? at h
  rcases Option.or_eq_some_iff.1 h with h | ⟨-, h⟩
  · obtain ⟨_, hp, h⟩ := Option.map_eq_some_iff.1 h
    cases h
    rcases Option.or_eq_some_iff.1 hp with hp | ⟨-, hp⟩
    · exact keyed?_replace_part hp
    · exact attribute?_replace_part hp
  · rcases Option.or_eq_some_iff.1 h with h | ⟨-, h⟩
    · obtain ⟨_, -, h⟩ := Option.map_eq_some_iff.1 h
      cases h
    · obtain ⟨_, hp, h⟩ := Option.map_eq_some_iff.1 h
      cases h
      obtain ⟨i, -, hp⟩ := Option.bind_eq_some_iff.1 hp
      exact positioned?_replace_part hp

/-- Only methods that change a value make it another one when names are followed from it. -/
theorem eq_of_follow {invalid : Option Text} {v w : Value} {names : List Text} {r : Reached}
    (h : follow invalid v names = .ok (r, w)) (hnames : ∀ name ∈ names, name ∉ Member.changing) :
    w = v := by
  induction names generalizing v r w with
  | nil =>
    cases h
    rfl
  | cons name rest ih =>
    obtain ⟨hname, hrest⟩ := List.forall_mem_cons.1 hnames
    unfold follow at h
    split at h
    · cases h
      rfl
    · next p hway =>
      obtain ⟨⟨r', w'⟩, hfollow, h⟩ := Failure.bind_ok h
      cases h
      rw [ih hfollow hrest]
      exact Place.called_replace_part (way?_replace_part hway)
    · obtain ⟨_, -, h⟩ := Failure.bind_ok h
      cases h
      rfl
    · next hway =>
      cases Member.allows_member? name v _ (member?_of_way? hway) with
      | changed _ _ hchanging => exact absurd hchanging hname
    · cases h
    · obtain ⟨_, -, h⟩ := Failure.bind_ok h
      obtain ⟨_, -, h⟩ := Failure.bind_ok h
      cases h
      rfl

end Value

namespace Operand

/-- No method that may change a value is named. The first name of a path is that of a variable. -/
def Steady : Operand → Prop
  | .constant _ => True
  | .variable _ path => ∀ name ∈ path.tail, name ∉ Member.changing

theorem keeps_followPath {path : List Text} (h : ∀ name ∈ path.tail, name ∉ Member.changing) :
    (followPath path).Keeps := by
  cases path with
  | nil => exact .pure _
  | cons name rest =>
    intro c x d hrun
    obtain ⟨c', _, hget, hrun⟩ := Evaluation.run_bind_ok_iff.1 hrun
    cases hget
    split at hrun
    · cases hrun
      rfl
    · next v hv =>
      obtain ⟨⟨r, w⟩, _, hfollow, hrun⟩ := Evaluation.run_bind_ok_iff.1 hrun
      obtain ⟨hvalue, rfl⟩ := Evaluation.of_run_ofExcept hfollow
      cases hrun
      rw [Value.eq_of_follow hvalue h, Place.called_replace_part (p := Place.whole v) rfl]
      exact Context.put_of_get? hv

theorem keeps_reach {o : Operand} (h : o.Steady) : o.reach.Keeps := by
  cases o with
  | constant v => exact .pure _
  | «variable» source path => exact keeps_followPath h

theorem keeps_resolve {o : Operand} (h : o.Steady) : o.resolve.Keeps := by
  refine .bind (keeps_reach h) fun r => ?_
  cases r with
  | found v => exact .pure v
  | missing name => exact fun _ _ _ hrun => nomatch hrun

end Operand

namespace Pipe

/-- Neither what is filtered nor an argument of a filter names a method that may change a value. -/
def Steady (p : Pipe) : Prop :=
  (∀ o, p.operand = some o → o.Steady) ∧
    ∀ call ∈ p.calls, ∀ o, call.argument = some o → o.Steady

theorem keeps_runCalls {calls : List FilterCall}
    (h : ∀ call ∈ calls, ∀ o, call.argument = some o → o.Steady) (v : Value) :
    (runCalls calls v).Keeps := by
  induction calls generalizing v with
  | nil => exact .pure v
  | cons call rest ih =>
    obtain ⟨hcall, hrest⟩ := List.forall_mem_cons.1 h
    have hargument : (argumentValue call.argument).Keeps := by
      cases hc : call.argument with
      | none => exact .pure _
      | some o => exact .bind (Operand.keeps_resolve (hcall o hc)) fun _ => .pure _
    exact .bind hargument fun argument => .bind (.ofExcept _) fun w => ih hrest w

theorem keeps_evaluate {p : Pipe} (h : p.Steady) : p.evaluate.Keeps := by
  unfold evaluate
  cases hp : p.operand with
  | none => exact keeps_runCalls h.2 .none
  | some o =>
    refine .bind (Operand.keeps_reach (h.1 o hp)) fun r => ?_
    cases r with
    | found v => exact keeps_runCalls h.2 v
    | missing name => exact keeps_runCalls h.2 .none

theorem steady_plain (x : Text) : (plain x).Steady := by
  refine ⟨fun o ho => ?_, fun call hcall => nomatch hcall⟩
  cases ho
  exact fun name hname => nomatch hname

end Pipe

/-! ## Expressions -/

namespace Expression

mutual

/-- No filter expression in the expression names a method that may change a value. -/
def Steady : Expression → Prop
  | .constant _ => True
  | .variable _ pipe => pipe.Steady
  | .object entries => EntriesSteady entries
  | .array items => ItemsSteady items

def EntriesSteady : List (Text × Expression) → Prop
  | [] => True
  | (_, e) :: rest => Steady e ∧ EntriesSteady rest

def ItemsSteady : List Expression → Prop
  | [] => True
  | e :: rest => Steady e ∧ ItemsSteady rest

end

mutual

theorem keeps_evaluate : ∀ e : Expression, e.Steady → e.evaluate.Keeps
  | .constant v, _ => .pure v
  | .variable _ _, h => Pipe.keeps_evaluate h
  | .object entries, h => .bind (keeps_evaluateEntries entries h) fun _ => .pure _
  | .array items, h => .bind (keeps_evaluateItems items h) fun _ => .pure _

theorem keeps_evaluateEntries : ∀ entries : List (Text × Expression), EntriesSteady entries →
    (evaluateEntries entries).Keeps
  | [], _ => .pure []
  | (_, e) :: rest, h =>
    .bind (keeps_evaluate e h.1) fun _ => .bind (keeps_evaluateEntries rest h.2) fun _ => .pure _

theorem keeps_evaluateItems : ∀ items : List Expression, ItemsSteady items →
    (evaluateItems items).Keeps
  | [], _ => .pure []
  | e :: rest, h =>
    .bind (keeps_evaluate e h.1) fun _ => .bind (keeps_evaluateItems rest h.2) fun _ => .pure _

end

end Expression
end Hydration
