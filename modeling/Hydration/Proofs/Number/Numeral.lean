import Hydration.Number.Reading
import Mathlib.Data.List.TakeWhile
/-!
# Integers as they are written

The decimal digits of an integer are read as that integer, sign included.

* `digits?_ofNat`: the digits of a natural number are found one by one.
* `readNumeral?_ofInt`: the text of an integer is the numeral of its digits.
* `value_ofInt`: which stands for the integer.
-/
namespace Hydration.Number

/-- An integer in decimal digits, after a minus if it is negative. -/
def ofInt (i : Int) : Text :=
  if i < 0 then '-' :: Text.ofNat i.natAbs else Text.ofNat i.natAbs

/-- The decimal digits of a natural number. -/
def digitsOf (n : Nat) : List Nat := (Text.ofNat n).map fun c => c.toNat - 48

theorem toNat_of_isDigit {c : Char} (h : c.isDigit = true) : 48 ≤ c.toNat ∧ c.toNat ≤ 57 := by
  simp only [Char.isDigit, Bool.and_eq_true, decide_eq_true_eq, UInt32.le_iff_toNat_le] at h
  exact h

theorem digitValue?_of_isDigit {c : Char} (h : c.isDigit = true) :
    Text.digitValue? c = some (c.toNat - 48) := by
  obtain ⟨hlow, hhigh⟩ := toNat_of_isDigit h
  have hv := Text.digitValue?_ascii ⟨c.toNat - 48, by omega⟩
  simp only at hv
  rwa [show 48 + (c.toNat - 48) = c.toNat by omega, Char.ofNat_toNat] at hv

theorem isDigit_ofNat {n : Nat} : ∀ c ∈ Text.ofNat n, c.isDigit = true := by
  intro c hc
  exact Nat.isDigit_of_mem_toDigits (by decide) (by decide) hc

theorem ofNat_ne_nil (n : Nat) : Text.ofNat n ≠ [] := Nat.toDigits_ne_nil

theorem digits?_of_isDigit {t : Text} (hne : t ≠ []) (h : ∀ c ∈ t, c.isDigit = true) :
    digits? t = some (t.map fun c => c.toNat - 48) := by
  induction t with
  | nil => exact absurd rfl hne
  | cons c rest ih =>
    have hc := digitValue?_of_isDigit (h c List.mem_cons_self)
    cases rest with
    | nil => simp [digits?, hc]
    | cons d more =>
      have hd : d ≠ '_' := by
        rintro rfl
        have := h '_' (by simp)
        cases this
      have ih := ih (by simp) fun e he => h e (List.mem_cons_of_mem _ he)
      rw [digits?, hc]
      simp [ih]

theorem digits?_ofNat (n : Nat) : digits? (Text.ofNat n) = some (digitsOf n) :=
  digits?_of_isDigit (ofNat_ne_nil n) isDigit_ofNat

theorem valueOf_digitsOf (n : Nat) : valueOf (digitsOf n) = n := by
  rw [valueOf, digitsOf, List.foldl_map]
  exact Nat.ofDigitChars_ten_toDigits

/-! ## The characters of an integer -/

theorem mem_ofInt {i : Int} {c : Char} (h : c ∈ ofInt i) : c = '-' ∨ c.isDigit = true := by
  unfold ofInt at h
  split at h
  · rcases List.mem_cons.1 h with rfl | hc
    · exact Or.inl rfl
    · exact Or.inr (isDigit_ofNat c hc)
  · exact Or.inr (isDigit_ofNat c h)

theorem ofInt_ne_nil (i : Int) : ofInt i ≠ [] := by
  unfold ofInt
  split
  · simp
  · exact ofNat_ne_nil _

theorem isBlank_of_isDigit {c : Char} (h : c.isDigit = true) : Text.isBlank c = false := by
  obtain ⟨hlow, hhigh⟩ := toNat_of_isDigit h
  simp only [Text.isBlank, Bool.or_eq_false_iff, Bool.and_eq_false_iff, decide_eq_false_iff_not,
    beq_eq_false_iff_ne]
  omega

theorem isBlank_ofInt {i : Int} : ∀ c ∈ ofInt i, Text.isBlank c = false := by
  intro c hc
  rcases mem_ofInt hc with rfl | hd
  · decide
  · exact isBlank_of_isDigit hd

theorem trim_ofInt (i : Int) : trim (ofInt i) = ofInt i := by
  have drop : ∀ t : Text, (∀ c ∈ t, Text.isBlank c = false) → t.dropWhile isNumeralBlank = t := by
    intro t ht
    cases t with
    | nil => rfl
    | cons c rest => simp [isNumeralBlank, ht c List.mem_cons_self]
  rw [trim, drop _ isBlank_ofInt, drop _ fun c hc => isBlank_ofInt c (List.mem_reverse.1 hc),
    List.reverse_reverse]

/-! ## Reading -/

theorem takeSign_ofNat (n : Nat) : takeSign (Text.ofNat n) = (false, Text.ofNat n) := by
  cases h : Text.ofNat n with
  | nil => rfl
  | cons c rest =>
    have hc : c.isDigit = true := isDigit_ofNat c (by rw [h]; exact List.mem_cons_self)
    unfold takeSign
    split
    · rename_i heq
      cases heq
      cases hc
    · rename_i heq
      cases heq
      cases hc
    · rfl

theorem readNumeral?_ofInt (i : Int) :
    readNumeral? (ofInt i) = some ⟨decide (i < 0), digitsOf i.natAbs⟩ := by
  rw [readNumeral?, trim_ofInt]
  by_cases hi : i < 0
  · simp [ofInt, hi, takeSign, digits?_ofNat]
  · simp [ofInt, hi, takeSign_ofNat, digits?_ofNat]

theorem value_ofInt (i : Int) : (Numeral.mk (decide (i < 0)) (digitsOf i.natAbs)).value = i := by
  unfold Numeral.value
  split
  · rename_i hi
    have : i < 0 := of_decide_eq_true hi
    rw [valueOf_digitsOf, Int.ofNat_eq_natCast]
    omega
  · rename_i hi
    have : ¬ i < 0 := by simpa using hi
    rw [valueOf_digitsOf, Int.ofNat_eq_natCast]
    omega

theorem length_digitsOf (n : Nat) : (digitsOf n).length = (Text.ofNat n).length := by
  rw [digitsOf, List.length_map]

end Hydration.Number
