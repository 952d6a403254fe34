import Hydration.Component.File
import Hydration.Proofs.Value.Text
/-!
# What components answer

A component that is called takes a copy of the props, gives an instance and is asked for its markup.
Each of these may fail, but none of them fails as a path does that leads to no component.

* `answer_error`: a component that fails does not fail to be resolved.
-/
namespace Hydration.ComponentFile

/-- What a component answers to props, after the given number of calls of its module. -/
def answer (f : ComponentFile) (b : Behaviour) (calls : Nat) (props : Value) :
    Except Failure Text := do
  let props ← copyProps props
  let made ← f.call b (match b with | .byKind => calls + 1 | _ => calls) props
  made.markup

variable {f : ComponentFile} {e : Failure}

theorem kind_noText : Failure.noText.kind ≠ .resolution := by decide

theorem addPairs_error {index : Nat} {props : Props} {pairs : List Value}
    (h : addPairs index props pairs = .error e) : e.kind ≠ .resolution := by
  induction pairs generalizing index props with
  | nil => cases h
  | cons pair rest ih =>
    unfold addPairs at h
    split at h
    · cases h
      simp [Failure.kind]
    · split at h
      · cases h
        simp [Failure.kind]
      · exact ih h
    · cases h
      simp [Failure.kind]

theorem propsByKeys_error {type : Text} {keys : Value} (h : propsByKeys type keys = .error e) :
    e.kind ≠ .resolution := by
  unfold propsByKeys at h
  split at h
  · split at h <;> cases h <;> simp [Failure.kind]
  · cases h
    simp [Failure.kind]

theorem copyProps_error {v : Value} (h : copyProps v = .error e) : e.kind ≠ .resolution := by
  unfold copyProps at h
  split at h
  · split at h
    · cases h
    · cases h
    · split at h
      · exact propsByKeys_error h
      · cases h
        simp [Failure.kind]
    · split at h
      · exact addPairs_error h
      · cases h
        simp [Failure.kind]
  · cases h

theorem toText_error_kind {v : Value} (h : v.toText = .error e) : e.kind ≠ .resolution := by
  rw [Value.toText_error h]
  exact kind_noText

theorem raised_error {α : Type} {v : Value} (h : (raised v : Except Failure α) = .error e) :
    e.kind ≠ .resolution := by
  rcases Failure.bind_error h with h | ⟨_, -, h⟩
  · exact toText_error_kind h
  · cases h
    simp [Failure.kind]

theorem sortedKeys_error {props : Props} (h : Renderer.sortedKeys props = .error e) :
    e.kind ≠ .resolution := by
  have hkeys : ∀ props : Props, (props.mapM fun e => e.1.toText) = .error e →
      e.kind ≠ .resolution := by
    intro props h
    induction props with
    | nil => cases h
    | cons entry rest ih =>
      rw [List.mapM_cons] at h
      rcases Failure.bind_error h with h | ⟨_, -, h⟩
      · exact toText_error_kind h
      · exact ih (Failure.map_error h)
  exact hkeys props (Failure.map_error h)

theorem callByKind_error {count : Nat} {props : Props} (h : f.callByKind count props = .error e) :
    e.kind ≠ .resolution := by
  unfold callByKind at h
  cases hk : f.kind <;> simp only [hk] at h
  case keys => exact sortedKeys_error (Failure.map_error h)
  case explodeAtStart => exact raised_error h
  case counter => exact toText_error_kind (Failure.map_error h)
  all_goals cases h

theorem callByKind_rendering {count : Nat} {props : Props}
    (h : f.callByKind count props = .ok (.rendering (.error e))) : e.kind ≠ .resolution := by
  unfold callByKind at h
  cases hk : f.kind <;> simp only [hk] at h
  case hello =>
    injection h with h
    injection h with h
    exact toText_error_kind (Failure.map_error h)
  case explode =>
    injection h with h
    injection h with h
    exact raised_error h
  case keys =>
    cases hkeys : Renderer.sortedKeys props <;> rw [hkeys] at h <;> cases h
  case explodeAtStart =>
    cases htext : f.given.toText <;> rw [raised, htext] at h <;> cases h
  case counter =>
    cases htext : f.given.toText <;> rw [htext] at h <;> cases h
  all_goals cases h

/-- An instance has no markup if it fails to render, or if what it renders to has no text. -/
theorem markup_error {made : Instance} (h : made.markup = .error e) :
    made = .rendering (.error e) ∨ e.kind ≠ .resolution := by
  cases made with
  | plain v => exact .inr (toText_error_kind h)
  | rendering result =>
    rcases Failure.bind_error h with rfl | ⟨v, -, h⟩
    · exact .inl rfl
    · exact .inr (toText_error_kind h)

theorem answer_error {b : Behaviour} {calls : Nat} {props : Value}
    (h : f.answer b calls props = .error e) : e.kind ≠ .resolution := by
  rcases Failure.bind_error h with h | ⟨props, -, h⟩
  · exact copyProps_error h
  -- only the call by kind runs something that may fail
  · cases b with
    | byKind =>
      rcases Failure.bind_error h with h | ⟨made, hmade, h⟩
      · exact callByKind_error h
      · rcases markup_error h with rfl | h
        · exact callByKind_rendering hmade
        · exact h
    | constant t => cases h
    | own answer =>
      cases answer with
      | ok t => cases h
      | error message =>
        cases h
        simp [Failure.kind]

end Hydration.ComponentFile
