import Hydration.Number.Reading
/-!
# One form for each number

A number that is not zero has many mantissas and exponents, but only one pair in canonical form:
the mantissa has all its 53 bits, or the exponent is the least one. Whatever is read from a text is
in canonical form, so numbers that were read are equal only if they are the same, or two zeros.

* `ofRatio_eq_rounded`: how the exponent is chosen.
* `isDouble_ofRatio`: rounding gives the canonical form, with an exponent in range.
* `isDouble_of_readFloat`: so does reading.
* `eq_or_zeros_of_equals`: equal numbers in canonical form.
-/
namespace Hydration.Binary64

/-- The mantissa has 53 bits, or fewer with the least exponent. -/
def Canonical : Binary64 → Prop
  | .finite _ mantissa exponent =>
    mantissa < mantissaLimit ∧ -1074 ≤ exponent ∧
      (exponent = -1074 ∨ mantissaLimit / 2 ≤ mantissa)
  | _ => True

/-- The number is one that a double can be: in canonical form, with an exponent in range. -/
def IsDouble : Binary64 → Prop
  | .finite negative mantissa exponent =>
    (finite negative mantissa exponent).Canonical ∧ exponent ≤ 971
  | _ => True

theorem IsDouble.canonical {x : Binary64} (h : x.IsDouble) : x.Canonical := by
  cases x with
  | finite _ _ _ => exact h.1
  | nan | infinity _ => trivial

theorem isDouble_zero (negative : Bool) : (zero negative).IsDouble :=
  ⟨⟨by decide, Int.le_refl _, .inl rfl⟩, by decide⟩

/-! ## Rounding -/

section
variable {n d : Nat}

theorem le_roundQuotient {m : Nat} (hd : 0 < d) (h : d * m ≤ n) : m ≤ roundQuotient n d := by
  have hq : m ≤ n / d := (Nat.le_div_iff_mul_le hd).2 (by rwa [Nat.mul_comm])
  unfold roundQuotient
  dsimp only
  split
  · exact hq
  · split
    · omega
    · split <;> omega

theorem roundQuotient_le {m : Nat} (hd : 0 < d) (h : n < d * m) : roundQuotient n d ≤ m := by
  have hq : n / d < m := (Nat.div_lt_iff_lt_mul hd).2 (by rwa [Nat.mul_comm])
  unfold roundQuotient
  dsimp only
  split
  · omega
  · split
    · omega
    · split <;> omega

theorem scaled_pos (hd : 0 < d) (e : Int) : 0 < (scaled n d e).2 := by
  unfold scaled
  split
  · exact hd
  · exact Nat.mul_pos hd (Nat.two_pow_pos _)

/-- How large a scaled quotient is at most. -/
theorem scaled_lt (hd : d ≠ 0) {e : Int} {k : Nat} (h : (n.log2 : Int) + 1 ≤ d.log2 + e + k) :
    (scaled n d e).1 < (scaled n d e).2 * Nat.pow 2 k := by
  change _ < _ * 2 ^ k
  have hn : n < 2 ^ (n.log2 + 1) := Nat.lt_log2_self
  have hdlog : 2 ^ d.log2 ≤ d := Nat.log2_self_le hd
  unfold scaled
  split
  · next he =>
    calc n * 2 ^ e.natAbs < 2 ^ (n.log2 + 1) * 2 ^ e.natAbs :=
          Nat.mul_lt_mul_of_pos_right hn (Nat.two_pow_pos _)
      _ = 2 ^ (n.log2 + 1 + e.natAbs) := (Nat.pow_add ..).symm
      _ ≤ 2 ^ (d.log2 + k) := Nat.pow_le_pow_right (by decide) (by omega)
      _ = 2 ^ d.log2 * 2 ^ k := Nat.pow_add ..
      _ ≤ d * 2 ^ k := Nat.mul_le_mul_right _ hdlog
  · next he =>
    calc n < 2 ^ (n.log2 + 1) := hn
      _ ≤ 2 ^ (d.log2 + e.natAbs + k) := Nat.pow_le_pow_right (by decide) (by omega)
      _ = 2 ^ d.log2 * 2 ^ e.natAbs * 2 ^ k := by rw [Nat.pow_add, Nat.pow_add]
      _ ≤ d * 2 ^ e.natAbs * 2 ^ k := Nat.mul_le_mul_right _ (Nat.mul_le_mul_right _ hdlog)

/-- How large a scaled quotient is at least. -/
theorem le_scaled (hn : n ≠ 0) {e : Int} {k : Nat} (h : (d.log2 : Int) + 1 + e + k ≤ n.log2) :
    (scaled n d e).2 * Nat.pow 2 k ≤ (scaled n d e).1 := by
  change _ * 2 ^ k ≤ _
  have hd : d ≤ 2 ^ (d.log2 + 1) := Nat.le_of_lt Nat.lt_log2_self
  have hnlog : 2 ^ n.log2 ≤ n := Nat.log2_self_le hn
  unfold scaled
  split
  · next he =>
    calc d * 2 ^ k ≤ 2 ^ (d.log2 + 1) * 2 ^ k := Nat.mul_le_mul_right _ hd
      _ = 2 ^ (d.log2 + 1 + k) := (Nat.pow_add ..).symm
      _ ≤ 2 ^ (n.log2 + e.natAbs) := Nat.pow_le_pow_right (by decide) (by omega)
      _ = 2 ^ n.log2 * 2 ^ e.natAbs := Nat.pow_add ..
      _ ≤ n * 2 ^ e.natAbs := Nat.mul_le_mul_right _ hnlog
  · next he =>
    calc d * 2 ^ e.natAbs * 2 ^ k ≤ 2 ^ (d.log2 + 1) * 2 ^ e.natAbs * 2 ^ k :=
          Nat.mul_le_mul_right _ (Nat.mul_le_mul_right _ hd)
      _ = 2 ^ (d.log2 + 1 + e.natAbs + k) := by
          rw [Nat.pow_add _ (d.log2 + 1 + e.natAbs), Nat.pow_add _ (d.log2 + 1)]
      _ ≤ 2 ^ n.log2 := Nat.pow_le_pow_right (by decide) (by omega)
      _ ≤ n := hnlog

/-- One step in the exponent halves the quotient. -/
theorem le_scaled_succ {e : Int} {k : Nat}
    (h : (scaled n d e).2 * Nat.pow 2 (k + 1) ≤ (scaled n d e).1) :
    (scaled n d (e + 1)).2 * Nat.pow 2 k ≤ (scaled n d (e + 1)).1 := by
  change _ * 2 ^ k ≤ _
  unfold scaled at h ⊢
  by_cases he : e < 0
  · rw [if_pos he] at h
    have hpow : n * 2 ^ e.natAbs = n * 2 ^ (e + 1).natAbs * 2 := by
      rw [Nat.mul_assoc, ← Nat.pow_succ]
      congr 2
      omega
    have hhalf : d * 2 ^ k ≤ n * 2 ^ (e + 1).natAbs := by
      have h' : d * 2 ^ (k + 1) ≤ n * 2 ^ e.natAbs := h
      rw [hpow, Nat.pow_succ, ← Nat.mul_assoc] at h'
      exact Nat.le_of_mul_le_mul_right h' (by decide)
    split
    · exact hhalf
    · next hlast =>
      have hzero : (e + 1).natAbs = 0 := by omega
      rw [hzero] at hhalf ⊢
      simpa using hhalf
  · rw [if_neg he] at h
    rw [if_neg (by omega)]
    have h' : d * 2 ^ e.natAbs * 2 ^ (k + 1) ≤ n := h
    have hsucc : (e + 1).natAbs = e.natAbs.succ := by omega
    have hswap : ∀ a b : Nat, d * (a * 2) * b = d * a * (b * 2) := fun a b => by ac_rfl
    rw [Nat.pow_succ, ← hswap, ← Nat.pow_succ, ← hsucc] at h'
    exact h'

end

/-- What rounding does once the exponent is chosen: a mantissa of one bit too many is halved. -/
def rounded (negative : Bool) (n d : Nat) (exponent : Int) : Binary64 :=
  let (mantissa, exponent) :=
    if roundQuotient n d = mantissaLimit then (mantissaLimit / 2, exponent + 1)
    else (roundQuotient n d, exponent)
  if 971 < exponent then .infinity negative else .finite negative mantissa exponent

theorem isDouble_rounded (negative : Bool) {n d : Nat} {e : Int} (hd : 0 < d)
    (he : -1074 ≤ e) (hupper : n < d * mantissaLimit)
    (hlower : e = -1074 ∨ d * (mantissaLimit / 2) ≤ n) : (rounded negative n d e).IsDouble := by
  have hle : roundQuotient n d ≤ mantissaLimit := roundQuotient_le hd hupper
  unfold rounded
  by_cases hlimit : roundQuotient n d = mantissaLimit
  · rw [if_pos hlimit]
    dsimp only
    split
    · trivial
    · exact ⟨⟨by decide, by omega, .inr (Nat.le_refl _)⟩, by omega⟩
  · rw [if_neg hlimit]
    dsimp only
    split
    · trivial
    · exact ⟨⟨Nat.lt_of_le_of_ne hle hlimit, he, hlower.imp_right (le_roundQuotient hd)⟩, by omega⟩

/-- The exponent is chosen so that the quotient has 53 bits, or it is the least one. -/
theorem ofRatio_eq_rounded (negative : Bool) {n d : Nat} (hn : n ≠ 0) (hd : 0 < d) :
    ∃ e, ofRatio negative n d = rounded negative (scaled n d e).1 (scaled n d e).2 e ∧ -1074 ≤ e ∧
      (scaled n d e).1 < (scaled n d e).2 * mantissaLimit ∧
      (e = -1074 ∨ (scaled n d e).2 * (mantissaLimit / 2) ≤ (scaled n d e).1) := by
  unfold ofRatio
  rw [if_neg hn]
  dsimp only
  generalize hlow : max (-1074 : Int) (Int.ofNat n.log2 - Int.ofNat d.log2 - 53) = low
  have hguess : (n.log2 : Int) - d.log2 - 53 ≤ low := hlow ▸ Int.le_max_right ..
  have hleast : -1074 ≤ low := hlow ▸ Int.le_max_left ..
  have hchoice : low = -1074 ∨ low = (n.log2 : Int) - d.log2 - 53 := by
    rw [← hlow, Int.max_def]
    split
    · exact .inr rfl
    · exact .inl rfl
  have hpos := scaled_pos (n := n) hd low
  split
  · next hlarge =>
    -- one bit too many, so the exponent is one more
    have hat : (scaled n d low).2 * Nat.pow 2 (52 + 1) ≤ (scaled n d low).1 := by
      rw [Nat.mul_comm]
      exact (Nat.le_div_iff_mul_le hpos).1 hlarge
    have hupper : (scaled n d (low + 1)).1 < (scaled n d (low + 1)).2 * Nat.pow 2 53 :=
      scaled_lt (by omega) (by omega)
    exact ⟨low + 1, rfl, by omega, hupper, .inr (le_scaled_succ hat)⟩
  · next hsmall =>
    have hupper : (scaled n d low).1 < (scaled n d low).2 * mantissaLimit := by
      rw [Nat.mul_comm]
      exact (Nat.div_lt_iff_lt_mul hpos).1 (Nat.lt_of_not_le hsmall)
    have hlower (hlow : low = (n.log2 : Int) - d.log2 - 53) :
        (scaled n d low).2 * Nat.pow 2 52 ≤ (scaled n d low).1 := le_scaled hn (by omega)
    exact ⟨low, rfl, hleast, hupper, hchoice.imp_right hlower⟩

theorem isDouble_ofRatio (negative : Bool) (n : Nat) {d : Nat} (hd : 0 < d) :
    (ofRatio negative n d).IsDouble := by
  by_cases hn : n = 0
  · rw [ofRatio, if_pos hn]
    exact isDouble_zero negative
  · obtain ⟨e, hround, hleast, hupper, hlower⟩ := ofRatio_eq_rounded negative hn hd
    rw [hround]
    exact isDouble_rounded negative (scaled_pos hd e) hleast hupper hlower

theorem isDouble_ofDecimal (negative : Bool) (digits : Nat) (exponent : Int) :
    (ofDecimal negative digits exponent).IsDouble := by
  unfold ofDecimal
  split
  · exact isDouble_zero negative
  · dsimp only
    split
    · trivial
    · split
      · exact isDouble_zero negative
      · split
        · exact isDouble_ofRatio negative _ Nat.one_pos
        · exact isDouble_ofRatio negative _ (Nat.pow_pos (by decide))

theorem isDouble_of_readFloat {t : Text} {x : Binary64} (h : Number.readFloat? t = some x) :
    x.IsDouble := by
  unfold Number.readFloat? at h
  dsimp only at h
  split at h
  · cases h
    trivial
  · split at h
    · cases h
      trivial
    · obtain ⟨parts, -, rfl⟩ := Option.map_eq_some_iff.1 h
      exact isDouble_ofDecimal _ _ _

/-! ## Equality -/

/-- Equal magnitudes with exponents in this order: the mantissas differ by a power of two. -/
theorem mantissa_eq_of_magnitude {m n : Nat} {e f : Int} (hef : e ≤ f)
    (h : (magnitude m e).1 * (magnitude n f).2 = (magnitude n f).1 * (magnitude m e).2) :
    m = n * Nat.pow 2 (f - e).natAbs := by
  change m = n * 2 ^ (f - e).natAbs
  unfold magnitude at h
  by_cases he : e < 0
  · by_cases hf : f < 0
    · rw [if_pos he, if_pos hf] at h
      have hsplit : e.natAbs = (f - e).natAbs + f.natAbs := by omega
      have h' : m * 2 ^ f.natAbs = n * 2 ^ (f - e).natAbs * 2 ^ f.natAbs := by
        rw [Nat.mul_assoc, ← Nat.pow_add, ← hsplit]
        exact h
      exact Nat.eq_of_mul_eq_mul_right (Nat.two_pow_pos _) h'
    · rw [if_pos he, if_neg hf] at h
      have hsplit : (f - e).natAbs = f.natAbs + e.natAbs := by omega
      rw [hsplit, Nat.pow_add, ← Nat.mul_assoc]
      exact (Nat.mul_one m).symm.trans h
  · rw [if_neg he, if_neg (by omega)] at h
    have hsplit : f.natAbs = (f - e).natAbs + e.natAbs := by omega
    have h' : m * 2 ^ e.natAbs = n * 2 ^ (f - e).natAbs * 2 ^ e.natAbs := by
      rw [Nat.mul_assoc, ← Nat.pow_add, ← hsplit]
      exact ((Nat.mul_one _).symm.trans h).trans (Nat.mul_one _)
    exact Nat.eq_of_mul_eq_mul_right (Nat.two_pow_pos _) h'

/-- In canonical form the larger exponent belongs to the larger number. -/
theorem exponent_le_of_magnitude {a b : Bool} {m n : Nat} {e f : Int}
    (hx : (finite a m e).Canonical) (hy : (finite b n f).Canonical)
    (h : (magnitude m e).1 * (magnitude n f).2 = (magnitude n f).1 * (magnitude m e).2) :
    f ≤ e := by
  by_cases hef : f ≤ e
  · exact hef
  · have hm := mantissa_eq_of_magnitude (by omega) h
    have hn : mantissaLimit / 2 ≤ n := hy.2.2.resolve_left (by have := hx.2.1; omega)
    have hpow : Nat.pow 2 1 ≤ Nat.pow 2 (f - e).natAbs :=
      Nat.pow_le_pow_right (by decide) (by omega)
    have hlarge : mantissaLimit ≤ n * Nat.pow 2 (f - e).natAbs := Nat.mul_le_mul hn hpow
    exact absurd hx.1 (hm ▸ Nat.not_lt.2 hlarge)

theorem eq_zero_of_canonical {a : Bool} {e : Int} (h : (finite a 0 e).Canonical) :
    finite a 0 e = zero a := by
  have he : e = -1074 := h.2.2.resolve_right (by decide)
  rw [he, zero]

/-- Equal numbers in canonical form are the same, or zeros of different signs. -/
theorem eq_or_zeros_of_equals {x y : Binary64} (hx : x.Canonical) (hy : y.Canonical)
    (h : x.equals y = true) : x = y ∨ ∃ a, x = zero a ∧ y = zero (!a) := by
  cases x with
  | nan => cases h
  | infinity a =>
    cases y with
    | infinity b => exact .inl (congrArg _ (beq_iff_eq.1 h))
    | nan | finite _ _ _ => cases h
  | finite a m e =>
    cases y with
    | nan | infinity _ => cases h
    | finite b n f =>
      rw [equals] at h
      split at h
      · next hm =>
        obtain rfl := hm
        obtain rfl := beq_iff_eq.1 h
        rw [eq_zero_of_canonical hx, eq_zero_of_canonical hy]
        by_cases hab : a = b
        · exact .inl (congrArg zero hab)
        · exact .inr ⟨a, rfl, by revert hab; cases a <;> cases b <;> decide⟩
      · simp only [Bool.and_eq_true, beq_iff_eq] at h
        obtain ⟨rfl, hmagnitude⟩ := h
        have hef : e = f := Int.le_antisymm (exponent_le_of_magnitude hy hx hmagnitude.symm)
          (exponent_le_of_magnitude hx hy hmagnitude)
        have hmn := mantissa_eq_of_magnitude (Int.le_of_eq hef) hmagnitude
        have hone : (f - e).natAbs = 0 := by omega
        have hsame : m = n := by simpa [hone] using hmn
        rw [hef, hsame]
        exact .inl rfl

end Hydration.Binary64
