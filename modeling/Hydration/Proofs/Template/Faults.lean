import Hydration.Proofs.Template.Members
/-!
# Faults in filter expressions

A filter expression fails because of the values in it: a member that cannot be had, a filter that
does not take its value, a variable that is missing where it must not be. None of this is told as a
component that is not found.

* `Value.ofValues_follow`: paths.
* `Filter.ofValues_run`: filters.
* `Pipe.evaluatesValues_evaluate`: filter expressions.
-/
namespace Hydration

/-! ## Paths -/

namespace Value

theorem ofValues_follow (invalid : Option Text) (v : Value) (names : List Text) :
    OfValues (follow invalid v names) := by
  induction names generalizing v with
  | nil => exact .ok _
  | cons name rest ih =>
    unfold follow
    split
    · exact .ok _
    · exact (ih _).bind fun _ => .ok _
    · exact (ih _).bind fun _ => .ok _
    · exact (ih _).bind fun _ => .ok _
    · next f hway =>
      cases Member.allows_member? name v _ (member?_of_way? hway) with
      | failed h => exact .error h
    · have hunanswered : OfValues (unanswered invalid) := by
        cases invalid
        · exact .error nofun
        · exact .ok _
      exact hunanswered.bind fun w => (ih w).bind fun _ => .ok _

/-! ## Filters -/

theorem ofValues_toText (v : Value) : OfValues v.toText := by
  intro path fault h
  cases toText_error h

theorem ofValues_inspect (v : Value) : OfValues v.inspect := by
  intro path fault h
  cases inspect_error v h

theorem ofValues_asText (v : Value) : OfValues v.asText := by
  unfold asText
  split
  · exact .ok _
  · exact .ok _
  · exact (ofValues_toText _).map _

theorem ofValues_markSafe (v : Value) : OfValues v.markSafe := by
  unfold markSafe
  split
  · exact .ok _
  · exact (ofValues_asText _).map _

theorem ofValues_toInt? (v : Value) : OfValues v.toInt? := by
  unfold toInt?
  split <;> first | exact .ok _ | exact .error nofun

end Value

namespace Filter

theorem ofValues_apply (f : Filter) (v : Value) (argument : Option Value) :
    OfValues (f.apply v argument) := by
  cases f with
  | default => exact .ok _
  | defaultIfNone => cases v <;> exact .ok _
  | upper | lower | title => exact (Value.ofValues_asText v).map _
  | length => exact .ok _
  | first | last =>
    show OfValues (subscriptOrEmpty v _)
    unfold subscriptOrEmpty
    split
    · exact .ok _
    · exact .ok _
    · exact .error nofun
    · exact .error nofun
  | join =>
    show OfValues (joinWith v _)
    unfold joinWith
    split
    · exact .ok _
    · have hescaped : ∀ w : Value, OfValues w.escaped := fun w => (Value.ofValues_asText w).map _
      exact (hescaped _).bind fun _ => (OfValues.mapM hescaped _).bind fun _ => .ok _
  | add =>
    show OfValues (addTo v _)
    refine (Value.ofValues_toInt? v).bind fun i => ?_
    cases i with
    | none => exact .ok _
    | some a =>
      refine (Value.ofValues_toInt? _).bind fun j => ?_
      cases j with
      | none => exact .ok _
      | some b => exact .ok _
  | cut =>
    show OfValues (cutFrom v _)
    refine (Value.ofValues_asText v).bind fun ⟨marked, t⟩ => ?_
    dsimp only
    split
    · exact .ok _
    · exact .error nofun
    · exact .error nofun
  | yesno =>
    show OfValues (chooseWord v _)
    unfold chooseWord
    split <;> first | exact .ok _ | exact .error nofun
  | safe => exact Value.ofValues_markSafe v

theorem ofValues_run (f : Filter) (v : Value) (argument : Option Value) :
    OfValues (f.run v argument) :=
  (ofValues_apply f v argument).bind fun result =>
    .ite (Value.ofValues_markSafe result) (.ok result)

end Filter

/-! ## Expressions -/

/-- The evaluation does not fail as a component that is not found, in any context. -/
def EvaluatesValues {α : Type} (a : Evaluation α) : Prop := ∀ c, OfValues (a.run c)

namespace EvaluatesValues
variable {α β : Type} {a : Evaluation α}

theorem pure (x : α) : EvaluatesValues (Pure.pure x : Evaluation α) := fun _ => .ok _

theorem ofExcept {r : Except Failure α} (h : OfValues r) :
    EvaluatesValues (Evaluation.ofExcept r) := by
  intro c path fault hr
  cases r with
  | error e =>
    cases hr
    exact h path fault rfl
  | ok x => cases hr

theorem bind {f : α → Evaluation β} (ha : EvaluatesValues a) (hf : ∀ x, EvaluatesValues (f x)) :
    EvaluatesValues (a >>= f) := fun c => (ha c).bind fun found => hf found.1 found.2

end EvaluatesValues

theorem Operand.evaluatesValues_followPath (names : List Text) :
    EvaluatesValues (followPath names) := by
  cases names with
  | nil => exact .pure _
  | cons name rest =>
    refine .bind (fun _ => .ok _) fun c => ?_
    cases c.get? name with
    | none => exact .pure _
    | some v =>
      refine .bind (.ofExcept (Value.ofValues_follow c.invalid _ rest)) fun found => ?_
      exact .bind (fun _ => .ok _) fun _ => .pure _

theorem Operand.evaluatesValues_reach (o : Operand) : EvaluatesValues o.reach := by
  cases o with
  | constant v => exact .pure _
  | «variable» source names => exact evaluatesValues_followPath names

namespace Pipe

theorem evaluatesValues_runCalls (calls : List FilterCall) (v : Value) :
    EvaluatesValues (runCalls calls v) := by
  induction calls generalizing v with
  | nil => exact .pure v
  | cons call rest ih =>
    have hargument : EvaluatesValues (argumentValue call.argument) := by
      cases call.argument with
      | none => exact .pure _
      | some o =>
        refine .bind (.bind o.evaluatesValues_reach fun r => ?_) fun _ => .pure _
        cases r with
        | found v => exact .pure v
        | missing name => exact fun _ => .error nofun
    exact .bind hargument fun argument =>
      .bind (.ofExcept (Filter.ofValues_run call.filter v argument)) fun w => ih w

/-- A filter expression never fails as a component that is not found. -/
theorem evaluatesValues_evaluate (p : Pipe) : EvaluatesValues p.evaluate := by
  unfold evaluate
  cases p.operand with
  | none => exact evaluatesValues_runCalls p.calls .none
  | some o =>
    refine .bind o.evaluatesValues_reach fun r => ?_
    cases r with
    | found v => exact evaluatesValues_runCalls p.calls v
    | missing name => exact evaluatesValues_runCalls p.calls .none

end Pipe
end Hydration
