import Hydration.Template.Pipe
import Mathlib.Data.List.TakeWhile
/-!
# Filter expressions of one word

* `compile_word`: a word is read as one operand, and nothing is left for filters.
* `compile_name`: a name that is no number is read as a variable.
-/
namespace Hydration

theorem Text.parts_of_not_mem {sep : Char} {t : Text} (h : sep ∉ t) : parts sep t = [t] := by
  induction t with
  | nil => rfl
  | cons c rest ih =>
    rw [List.mem_cons, not_or] at h
    rw [parts, if_neg (Ne.symm h.1), ih h.2]

namespace Pipe

/-- The expression that is nothing but a variable. -/
def plain (name : Text) : Pipe := ⟨some (.variable name [name]), []⟩

theorem readCalls_nil (expression : Text) : readCalls expression [] = .ok [] := by
  have hfind : findFilter? [] = none := rfl
  rw [readCalls]
  split
  · rfl
  · next h =>
    rw [hfind] at h
    cases h

theorem constantAt?_word {w : Text} (hne : w ≠ []) (hw : ∀ c ∈ w, isPathChar c = true) :
    constantAt? w = none := by
  have hstring : stringAt? w = none := by
    obtain ⟨c, rest, rfl⟩ := List.exists_cons_of_ne_nil hne
    have hc := hw c List.mem_cons_self
    rw [stringAt?, if_neg]
    intro hq
    simp only [Text.Quoted.isQuote, Bool.or_eq_true, beq_iff_eq] at hq
    rcases hq with rfl | rfl <;> exact absurd hc (by decide)
  have hafter : Text.after? "_(" w = none := by
    rw [Text.after?, if_neg]
    intro ho
    have hmem : '(' ∈ w := (List.isPrefixOf_iff_prefix.1 ho).subset (by decide)
    exact absurd (hw _ hmem) (by decide)
  rw [constantAt?, hafter, hstring]
  rfl

theorem wordAt?_word {w : Text} (hne : w ≠ []) (hw : ∀ c ∈ w, isPathChar c = true) :
    wordAt? w = some (w, []) := by
  unfold wordAt?
  obtain ⟨c, rest, rfl⟩ := List.exists_cons_of_ne_nil hne
  dsimp only
  rw [if_pos (hw c List.mem_cons_self), List.takeWhile_eq_self_iff.2 hw,
    List.dropWhile_eq_nil_iff.2 hw]

/-- A word is read as one operand, without filters. -/
theorem compile_word {w : Text} (hne : w ≠ []) (hw : ∀ c ∈ w, isPathChar c = true) :
    compile w = (Operand.ofWord w).map fun o => ⟨some o, []⟩ := by
  unfold compile
  simp only [constantAt?_word hne hw, wordAt?_word hne hw]
  cases Operand.ofWord w with
  | error f => rfl
  | ok o =>
    simp only [readCalls_nil]
    rfl

/-- A name that is no number and does not start with a low line is read as a variable. -/
theorem compile_name {x : Text} (hne : x ≠ []) (hx : ∀ c ∈ x, Text.isWord c = true)
    (hnumber : Operand.number? x = none) (hlow : Text.opensWith ['_'] x = false) :
    compile x = .ok (.plain x) := by
  have hpath : ∀ c ∈ x, isPathChar c = true := fun c hc => by
    rw [isPathChar, hx c hc, Bool.true_or]
  have hparts : Text.parts '.' x = [x] :=
    Text.parts_of_not_mem fun hdot => absurd (hx _ hdot) (by decide)
  rw [compile_word hne hpath, Operand.ofWord, hnumber, hparts]
  simp only [List.tail_cons, List.any_nil, Bool.false_or, hlow]
  rfl

end Pipe
end Hydration
