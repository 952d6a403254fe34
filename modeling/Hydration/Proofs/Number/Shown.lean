import Hydration.Proofs.Number.Canonical
import Hydration.Proofs.Number.Numeral
import Hydration.Value.Text
/-!
# Numbers that are equal and look different

Truth values, integers and floating-point numbers are equal across their types, and so are the two
zeros. But no two of them are written alike: a floating-point number has a point, an exponent or a
name, an integer has none of these, and a truth value is a word.

* `isNumberChar_inspect`: the characters that numbers are written with.
* `eq_of_inspect_of_equals`: equal numbers that are written alike are the same.
-/
namespace Hydration

/-- The characters of numbers and truth values as they are written. -/
def isNumberChar (c : Char) : Bool := c.isDigit || "-+.enaifTrueFalse".toList.contains c

theorem isNumberChar_of_isDigit {c : Char} (h : c.isDigit = true) : isNumberChar c = true := by
  simp [isNumberChar, h]

namespace Binary64

/-- The characters of floating-point numbers as they are written. -/
def isFloatChar (c : Char) : Bool := c.isDigit || "-+.enaif".toList.contains c

theorem isNumberChar_of_isFloatChar {c : Char} (h : isFloatChar c = true) :
    isNumberChar c = true := by
  rcases Bool.or_eq_true_iff.1 h with hdigit | hother
  · exact isNumberChar_of_isDigit hdigit
  · have hall : "-+.enaif".toList.all isNumberChar = true := by decide
    exact List.all_eq_true.1 hall c (List.contains_iff_mem.1 hother)

/-- A text of these characters. -/
def IsFloatText (t : Text) : Prop := ∀ c ∈ t, isFloatChar c = true

/-- A character that integers are not written with. -/
def IsMark (c : Char) : Prop := c ≠ '-' ∧ c.isDigit = false

section
variable {t u : Text}

theorem isFloatText_of_all (h : t.all isFloatChar = true) : IsFloatText t := List.all_eq_true.1 h

theorem IsFloatText.append (ht : IsFloatText t) (hu : IsFloatText u) : IsFloatText (t ++ u) :=
  fun c hc => (List.mem_append.1 hc).elim (ht c) (hu c)

theorem IsFloatText.cons {c : Char} (hc : isFloatChar c = true) (ht : IsFloatText t) :
    IsFloatText (c :: t) := List.forall_mem_cons.2 ⟨hc, ht⟩

theorem isFloatText_of_digits (h : ∀ c ∈ t, c.isDigit = true) : IsFloatText t :=
  fun c hc => Bool.or_eq_true_iff.2 (.inl (h c hc))

theorem isFloatText_replicate (n : Nat) : IsFloatText (List.replicate n '0') :=
  isFloatText_of_digits fun c hc => by rw [(List.mem_replicate.1 hc).2]; rfl

theorem isFloatText_signText (negative : Bool) : IsFloatText (signText negative) := by
  cases negative <;> exact isFloatText_of_all (by decide)

/-- Digits with a point among them. -/
theorem isFloatText_positional (h : ∀ c ∈ t, c.isDigit = true) (point : Int) :
    IsFloatText (positional t point) ∧ '.' ∈ positional t point := by
  unfold positional
  split
  · exact ⟨((isFloatText_of_all (by decide)).append (isFloatText_replicate _)).append
      (isFloatText_of_digits h), by simp⟩
  · split
    · exact ⟨((isFloatText_of_digits h).append (isFloatText_replicate _)).append
        (isFloatText_of_all (by decide)), by simp⟩
    · exact ⟨(isFloatText_of_digits fun c hc => h c (List.mem_of_mem_take hc)).append
        ((isFloatText_of_digits fun c hc => h c (List.mem_of_mem_drop hc)).cons (by decide)),
        by simp⟩

/-- Digits with an exponent behind them. -/
theorem isFloatText_scientific (h : ∀ c ∈ t, c.isDigit = true) (exponent : Int) :
    IsFloatText (scientific t exponent) ∧ 'e' ∈ scientific t exponent := by
  have hpower : IsFloatText (Text.ofNatPadded 2 exponent.natAbs) :=
    (isFloatText_replicate _).append (isFloatText_of_digits Number.isDigit_ofNat)
  have hmark : IsFloatText (if exponent < 0 then "e-" else "e+" : String).toList ∧
      'e' ∈ (if exponent < 0 then "e-" else "e+" : String).toList := by
    split <;> exact ⟨isFloatText_of_all (by decide), by decide⟩
  refine ⟨IsFloatText.append (IsFloatText.append ?_ hmark.1) hpower,
    List.mem_append_left _ (List.mem_append_right _ hmark.2)⟩
  match t, h with
  | [], h | [_], h => exact isFloatText_of_digits h
  | d :: e :: rest, h =>
    obtain ⟨hd, hrest⟩ := List.forall_mem_cons.1 h
    have hfirst : IsFloatText [d] := isFloatText_of_digits (by simpa using hd)
    exact hfirst.append ((isFloatText_of_digits hrest).cons (by decide))

end

/-- A floating-point number shows that it is none of the integers. -/
theorem isFloatText_toText (x : Binary64) : IsFloatText x.toText ∧ ∃ c ∈ x.toText, IsMark c := by
  cases x with
  | nan => exact ⟨isFloatText_of_all (by decide), 'n', by decide, by decide, rfl⟩
  | infinity negative =>
    exact ⟨(isFloatText_signText negative).append (isFloatText_of_all (by decide)),
      'i', List.mem_append_right _ (by decide), by decide, rfl⟩
  | finite negative mantissa exponent =>
    rw [toText]
    split
    · exact ⟨(isFloatText_signText negative).append (isFloatText_of_all (by decide)),
        '.', List.mem_append_right _ (by decide), by decide, rfl⟩
    · dsimp only
      split
      · obtain ⟨hfloat, hpoint⟩ := isFloatText_positional Number.isDigit_ofNat _
        exact ⟨(isFloatText_signText negative).append hfloat, '.',
          List.mem_append_right _ hpoint, by decide, rfl⟩
      · obtain ⟨hfloat, he⟩ := isFloatText_scientific Number.isDigit_ofNat _
        exact ⟨(isFloatText_signText negative).append hfloat, 'e',
          List.mem_append_right _ he, by decide, rfl⟩

end Binary64

namespace Value

/-- A truth value, an integer or a floating-point number in canonical form. -/
def IsNumber : Value → Prop
  | .bool _ | .int _ => True
  | .float x => x.Canonical
  | _ => False

theorem intText_ok {i : Int} {t : Text} (h : (Value.int i).inspect = .ok t) :
    t = Number.ofInt i := by
  rw [inspect] at h
  unfold intText at h
  cases hi : Number.intText? i with
  | none =>
    rw [hi] at h
    cases h
  | some u =>
    rw [hi] at h
    cases h
    unfold Number.intText? at hi
    -- the bound must not be evaluated
    generalize Nat.pow 10 Number.maxDigits = bound at hi
    split at hi
    · exact (Option.some.inj hi).symm
    · cases hi

theorem isNumberChar_inspect {v : Value} {t : Text} (h : v.IsNumber) (ht : v.inspect = .ok t) :
    ∀ c ∈ t, isNumberChar c = true := by
  cases v with
  | bool b =>
    cases ht
    cases b <;> exact List.all_eq_true.1 (by decide)
  | int i =>
    rw [intText_ok ht]
    intro c hc
    rcases Number.mem_ofInt hc with rfl | hdigit
    · decide
    · exact isNumberChar_of_isDigit hdigit
  | float x =>
    cases ht
    exact fun c hc =>
      Binary64.isNumberChar_of_isFloatChar ((Binary64.isFloatText_toText x).1 c hc)
  | _ => exact h.elim

/-- The text of a truth value is that of no integer and of no floating-point number. -/
theorem inspect_bool_ne (b : Bool) {v : Value} {t : Text} (h : ∀ b', v ≠ .bool b')
    (hv : v.IsNumber) (ht : v.inspect = .ok t) : (Value.bool b).inspect ≠ .ok t := by
  intro hb
  have hletter : ∃ c ∈ t, c = 'T' ∨ c = 'F' := by
    cases hb
    cases b
    · exact ⟨'F', by decide, .inr rfl⟩
    · exact ⟨'T', by decide, .inl rfl⟩
  obtain ⟨c, hc, hletter⟩ := hletter
  cases v with
  | bool b' => exact h b' rfl
  | int i =>
    rw [intText_ok ht] at hc
    rcases Number.mem_ofInt hc with rfl | hdigit
    · rcases hletter with h | h <;> cases h
    · rcases hletter with rfl | rfl <;> cases hdigit
  | float x =>
    cases ht
    have hfloat := (Binary64.isFloatText_toText x).1 c hc
    rcases hletter with rfl | rfl <;> exact absurd hfloat (by decide)
  | _ => exact hv.elim

/-- The text of an integer is that of no floating-point number. -/
theorem inspect_int_ne (i : Int) (x : Binary64) {t : Text} (ht : (Value.int i).inspect = .ok t) :
    x.toText ≠ t := by
  rintro rfl
  obtain ⟨-, c, hc, hminus, hdigit⟩ := Binary64.isFloatText_toText x
  rw [intText_ok ht] at hc
  rcases Number.mem_ofInt hc with rfl | hd
  · exact hminus rfl
  · rw [hdigit] at hd
    cases hd

/-- Equal numbers that are written alike are the same. -/
theorem eq_of_inspect_of_equals {v w : Value} {t : Text} (hv : v.IsNumber) (hw : w.IsNumber)
    (hequals : v.equals w = true) (ht : v.inspect = .ok t) (hu : w.inspect = .ok t) : v = w := by
  cases v with
  | bool a =>
    cases w with
    | bool b =>
      rw [equals] at hequals
      have hab : (boolInt a == boolInt b) = true := hequals
      cases a <;> cases b <;> first | rfl | cases hab
    | int _ | float _ => exact absurd ht (inspect_bool_ne a (fun _ h => by cases h) hw hu)
    | _ => exact hw.elim
  | int i =>
    cases w with
    | bool b => exact absurd hu (inspect_bool_ne b (fun _ h => by cases h) hv ht)
    | int j =>
      rw [equals] at hequals
      have hij : (i == j) = true := hequals
      rw [eq_of_beq hij]
    | float x => exact absurd (Except.ok.inj hu) (inspect_int_ne i x ht)
    | _ => exact hw.elim
  | float x =>
    cases w with
    | bool b => exact absurd hu (inspect_bool_ne b (fun _ h => by cases h) hv ht)
    | int j => exact absurd (Except.ok.inj ht) (inspect_int_ne j x hu)
    | float y =>
      rw [equals] at hequals
      rcases Binary64.eq_or_zeros_of_equals hv hw hequals with rfl | ⟨a, rfl, rfl⟩
      · rfl
      · have htext : (Binary64.zero a).toText = (Binary64.zero !a).toText :=
          Except.ok.inj (ht.trans hu.symm)
        cases a <;> exact absurd htext (by decide)
    | _ => exact hw.elim
  | _ => exact hv.elim

end Value
end Hydration
