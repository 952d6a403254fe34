import Hydration.Proofs.Number.Canonical
import Hydration.Proofs.Number.Numeral
import Mathlib.Algebra.Order.Field.Power
import Mathlib.Tactic.FieldSimp
import Mathlib.Tactic.Linarith
import Mathlib.Tactic.NormNum
import Mathlib.Tactic.Positivity
import Mathlib.Tactic.Ring
/-!
# Seventeen digits are enough

A quotient is rounded to a double if it differs from it by less than the 2^54th part, since half the
distance to the next double is more than that. A number cut to seventeen digits is off by half a
unit of the last one at most, which is less than that part. So one of the first seventeen grids has
a reading, and the digits that are written are read as the number.

* `ofRatio_of_isNear`: a quotient near a double is rounded to it.
* `onGrid?_seventeenth`: the seventeenth digit brings the number near enough.
* `ofDecimal_shortest`: the digits that are written are read as the number.
-/
namespace Hydration.Binary64

/-! ## Quotients as rational numbers -/

theorem zpow_of_neg {b : ℚ} {e : Int} (he : e < 0) : b ^ e = (b ^ e.natAbs)⁻¹ := by
  rw [← zpow_natCast, ← zpow_neg]
  congr 1
  omega

theorem zpow_of_nonneg {b : ℚ} {e : Int} (he : ¬ e < 0) : b ^ e = b ^ e.natAbs := by
  rw [← zpow_natCast]
  congr 1
  omega

/-- A quotient of natural numbers divided by a power of a base. -/
def shifted (b n d : Nat) (e : Int) : Nat × Nat :=
  if e < 0 then (n * Nat.pow b e.natAbs, d) else (n, d * Nat.pow b e.natAbs)

theorem ratio_shifted (b n d : Nat) (e : Int) :
    ((shifted b n d e).1 : ℚ) / (shifted b n d e).2 = n / d / (b : ℚ) ^ e := by
  unfold shifted
  by_cases he : e < 0
  · rw [if_pos he, zpow_of_neg he, div_inv_eq_mul, Nat.pow_eq]
    push_cast
    ring
  · rw [if_neg he, zpow_of_nonneg he, Nat.pow_eq, div_div]
    push_cast
    rfl

theorem shifted_pos {b n d : Nat} (hb : 0 < b) (hd : 0 < d) (e : Int) :
    0 < (shifted b n d e).2 := by
  unfold shifted
  split
  · exact hd
  · exact Nat.mul_pos hd (Nat.pow_pos hb)

theorem ratio_scaled (n d : Nat) (e : Int) :
    ((scaled n d e).1 : ℚ) / (scaled n d e).2 = n / d / 2 ^ e := ratio_shifted 2 n d e

theorem magnitude_pos (m : Nat) (e : Int) : 0 < (magnitude m e).2 := by
  unfold magnitude
  split
  · exact Nat.two_pow_pos _
  · exact Nat.one_pos

theorem ratio_magnitude (m : Nat) (e : Int) :
    ((magnitude m e).1 : ℚ) / (magnitude m e).2 = m * 2 ^ e := by
  unfold magnitude
  split
  · next he =>
    rw [zpow_of_neg he, Nat.pow_eq, div_eq_mul_inv]
    push_cast
    rfl
  · next he =>
    rw [zpow_of_nonneg he, Nat.pow_eq]
    push_cast
    rw [div_one]

/-! ## Rounding to the nearest number -/

/-- A quotient less than one half away from a natural number is rounded to it. -/
theorem roundQuotient_eq {n d k : Nat} (hd : 0 < d) (hlow : (k : ℚ) - 1 / 2 < n / d)
    (hhigh : (n : ℚ) / d < k + 1 / 2) : roundQuotient n d = k := by
  have hdq : (0 : ℚ) < d := by exact_mod_cast hd
  have hlow' : 2 * (d * k) < 2 * n + d := by
    rw [lt_div_iff₀ hdq] at hlow
    have hcast : (2 * (d * k) : ℚ) < 2 * n + d := by linarith
    exact_mod_cast hcast
  have hhigh' : 2 * n < 2 * (d * k) + d := by
    rw [div_lt_iff₀ hdq] at hhigh
    have hcast : (2 * n : ℚ) < 2 * (d * k) + d := by linarith
    exact_mod_cast hcast
  have hsplit := Nat.div_add_mod n d
  have hrest := Nat.mod_lt n hd
  have hkq : k = n / d ∨ k = n / d + 1 := by
    have hle : n / d ≤ k := by
      by_contra hlt
      have := Nat.mul_le_mul_left d (Nat.succ_le_of_lt (Nat.lt_of_not_le hlt))
      rw [Nat.mul_succ] at this
      omega
    have hge : k ≤ n / d + 1 := by
      by_contra hlt
      have := Nat.mul_le_mul_left d (Nat.succ_le_of_lt (Nat.lt_of_not_le hlt))
      rw [Nat.mul_succ, Nat.mul_succ] at this
      omega
    omega
  unfold roundQuotient
  dsimp only
  rcases hkq with hk | hk
  · rw [hk] at hhigh'
    rw [if_pos (by omega), hk]
  · rw [hk, Nat.mul_succ] at hlow'
    rw [if_neg (by omega), if_pos (by omega), hk]

/-- What is rounded moves by one half at most. -/
theorem roundQuotient_near (n : Nat) {d : Nat} (hd : 0 < d) :
    |(roundQuotient n d : ℚ) - n / d| ≤ 1 / 2 := by
  have hdq : (0 : ℚ) < d := by exact_mod_cast hd
  have hsplit : (n : ℚ) = d * (n / d : Nat) + (n % d : Nat) := by
    exact_mod_cast (Nat.div_add_mod n d).symm
  have hrest : ((n % d : Nat) : ℚ) < d := by exact_mod_cast Nat.mod_lt n hd
  have hratio : (n : ℚ) / d = (n / d : Nat) + (n % d : Nat) / d := by
    rw [hsplit]
    field_simp
  have hbelow : 2 * (n % d) ≤ d → |((n / d : Nat) : ℚ) - n / d| ≤ 1 / 2 := by
    intro h
    have hq : (2 * (n % d : Nat) : ℚ) ≤ d := by exact_mod_cast h
    rw [hratio, sub_add_cancel_left, abs_neg, abs_of_nonneg (by positivity), div_le_iff₀ hdq]
    linarith
  have habove : d ≤ 2 * (n % d) → |((n / d + 1 : Nat) : ℚ) - n / d| ≤ 1 / 2 := by
    intro h
    have hq : (d : ℚ) ≤ 2 * (n % d : Nat) := by exact_mod_cast h
    have hone : ((n % d : Nat) : ℚ) / d ≤ 1 := by
      rw [div_le_one hdq]
      exact hrest.le
    have hhalf : 1 / 2 ≤ ((n % d : Nat) : ℚ) / d := by
      rw [le_div_iff₀ hdq]
      linarith
    rw [hratio, Nat.cast_succ, abs_le]
    constructor <;> linarith
  unfold roundQuotient
  dsimp only
  split
  · exact hbelow (by omega)
  · split
    · exact habove (by omega)
    · split
      · exact hbelow (by omega)
      · exact habove (by omega)

/-- The quotient in units of a power of two, rounded. -/
theorem roundQuotient_scaled {n d k : Nat} {e : Int} (hd : 0 < d)
    (hlow : (k - 1 / 2) * (2 : ℚ) ^ e < n / d) (hhigh : (n : ℚ) / d < (k + 1 / 2) * 2 ^ e) :
    roundQuotient (scaled n d e).1 (scaled n d e).2 = k := by
  have hunit : (0 : ℚ) < 2 ^ e := zpow_pos (by norm_num) e
  refine roundQuotient_eq (scaled_pos hd e) ?_ ?_
  · rwa [ratio_scaled, lt_div_iff₀ hunit]
  · rwa [ratio_scaled, div_lt_iff₀ hunit]

theorem cast_mantissaLimit : (mantissaLimit : ℚ) = 2 ^ 53 := by norm_num [mantissaLimit]

theorem cast_leastMantissa : ((mantissaLimit / 2 : Nat) : ℚ) = 2 ^ 52 := by norm_num [mantissaLimit]

theorem zpow_two_pos (e : Int) : (0 : ℚ) < 2 ^ e := zpow_pos (by norm_num) e

theorem two_mul_zpow_le {f e : Int} (h : f < e) : 2 * (2 : ℚ) ^ f ≤ 2 ^ e := by
  rw [mul_comm, ← zpow_add_one₀ (by norm_num)]
  exact zpow_le_zpow_right₀ (by norm_num) h

/-- How the exponent is chosen, in rational numbers. -/
theorem ofRatio_eq_rounded_rat (negative : Bool) {n d : Nat} (hn : n ≠ 0) (hd : 0 < d) :
    ∃ e, ofRatio negative n d = rounded negative (scaled n d e).1 (scaled n d e).2 e ∧ -1074 ≤ e ∧
      (n : ℚ) / d < 2 ^ 53 * 2 ^ e ∧ (e = -1074 ∨ (2 : ℚ) ^ 52 * 2 ^ e ≤ n / d) := by
  obtain ⟨e, hround, hleast, hupper, hlower⟩ := ofRatio_eq_rounded negative hn hd
  have hden : (0 : ℚ) < (scaled n d e).2 := by exact_mod_cast scaled_pos hd e
  refine ⟨e, hround, hleast, ?_, hlower.imp_right fun h => ?_⟩
  · rw [← div_lt_iff₀ (zpow_two_pos e), ← ratio_scaled, div_lt_iff₀ hden, ← cast_mantissaLimit,
      mul_comm]
    exact_mod_cast hupper
  · rw [← le_div_iff₀ (zpow_two_pos e), ← ratio_scaled, le_div_iff₀ hden, ← cast_leastMantissa,
      mul_comm]
    exact_mod_cast h

/-! ## Near a number -/

/-- A rational number that differs from a positive one by less than its 2^54th part. -/
def IsNear (r x : ℚ) : Prop := |r - x| * 2 ^ 54 < x

/-- A number of 53 bits at most and all that is near it, in units of its last bit. -/
theorem IsNear.bounds {r u : ℚ} {m : Nat} (h : IsNear r (m * u)) (hu : 0 < u)
    (hm : m < mantissaLimit) :
    0 < m ∧ (m - 1 / 2) * u < r ∧ r < (m + 1 / 2) * u ∧
      (m = mantissaLimit / 2 → (m - 1 / 4) * u < r) := by
  unfold IsNear at h
  have hmq : (m : ℚ) < 2 ^ 53 := by
    rw [← cast_mantissaLimit]
    exact_mod_cast hm
  have hmu : 0 < m * u := lt_of_le_of_lt (by positivity) h
  have hpos : (0 : ℚ) < m := pos_of_mul_pos_left hmu hu.le
  have hhalf : m * u < 2 ^ 53 * u := mul_lt_mul_of_pos_right hmq hu
  obtain ⟨hlow, hhigh⟩ := abs_lt.1 ((lt_div_iff₀ (by positivity)).2 h)
  have hbit : m * u / 2 ^ 54 < 1 / 2 * u := by
    rw [div_lt_iff₀ (by positivity)]
    linarith
  refine ⟨by exact_mod_cast hpos, by linarith, by linarith, fun hleast => ?_⟩
  have hquarter : m * u / 2 ^ 54 = 1 / 4 * u := by
    rw [hleast, cast_leastMantissa]
    ring
  linarith

section
variable {negative : Bool} {m n d : Nat} {e : Int}

/-- Below the least mantissa the exponent is one less, and the quotient is rounded up to twice the
mantissa. -/
theorem rounded_of_lt {f : Int} (hd : 0 < d) (hm : m < mantissaLimit) (hfe : f < e)
    (hmost : e ≤ 971) (hfull : mantissaLimit / 2 ≤ m) (hnear : IsNear (n / d) (m * 2 ^ e))
    (hbelow : (n : ℚ) / d < 2 ^ 53 * 2 ^ f) :
    rounded negative (scaled n d f).1 (scaled n d f).2 f = finite negative m e := by
  obtain ⟨-, hlow, -, hlow'⟩ := hnear.bounds (zpow_two_pos e) hm
  have hleast : m = mantissaLimit / 2 := by
    have hlt : (m : ℚ) - 1 / 2 < 2 ^ 52 := by
      refine lt_of_mul_lt_mul_right ?_ (zpow_two_pos e).le
      linarith [two_mul_zpow_le hfe]
    have hcast : (m : ℚ) < (mantissaLimit / 2 + 1 : Nat) := by
      rw [Nat.cast_succ, cast_leastMantissa]
      linarith
    exact le_antisymm (Nat.lt_succ_iff.1 (by exact_mod_cast hcast)) hfull
  have hquarter := hlow' hleast
  rw [hleast, cast_leastMantissa] at hquarter
  have hlast : e = f + 1 := by
    by_contra hne
    linarith [two_mul_zpow_le (lt_add_one f), two_mul_zpow_le (show f + 1 < e by omega),
      zpow_two_pos f]
  have hhalf : (2 : ℚ) ^ e = 2 * 2 ^ f := by
    rw [hlast, zpow_add_one₀ (by norm_num), mul_comm]
  have hto : roundQuotient (scaled n d f).1 (scaled n d f).2 = mantissaLimit := by
    refine roundQuotient_scaled hd ?_ ?_
    · rw [cast_mantissaLimit]
      rw [hhalf] at hquarter
      linarith
    · rw [cast_mantissaLimit]
      linarith [zpow_two_pos f]
  unfold rounded
  rw [if_pos hto]
  dsimp only
  rw [if_neg (by omega), hleast, hlast]

/-- A quotient near a double is rounded to it. -/
theorem ofRatio_of_isNear (hx : (finite negative m e).IsDouble) (hd : 0 < d)
    (hnear : IsNear (n / d) (m * 2 ^ e)) : ofRatio negative n d = finite negative m e := by
  obtain ⟨⟨hm, hleast, hfull⟩, hmost⟩ := hx
  obtain ⟨hpos, hlow, hhigh, -⟩ := hnear.bounds (zpow_two_pos e) hm
  have hn : n ≠ 0 := by
    rintro rfl
    have hone : (1 : ℚ) ≤ m := by exact_mod_cast hpos
    have hpos' : 0 < (m - 1 / 2) * (2 : ℚ) ^ e := mul_pos (by linarith) (zpow_two_pos e)
    rw [Nat.cast_zero, zero_div] at hlow
    linarith
  obtain ⟨f, hround, hfleast, hbelow, habove⟩ := ofRatio_eq_rounded_rat negative hn hd
  rw [hround]
  rcases lt_trichotomy f e with hlt | rfl | hgt
  · exact rounded_of_lt hd hm hlt hmost (hfull.resolve_left (by omega)) hnear hbelow
  · have hto := roundQuotient_scaled hd hlow hhigh
    unfold rounded
    rw [hto, if_neg (by omega)]
    dsimp only
    rw [if_neg (by omega)]
  · -- with a greater exponent the quotient would have one bit more than the mantissa
    have hmq : (m : ℚ) + 1 ≤ 2 ^ 53 := by
      rw [← cast_mantissaLimit]
      exact_mod_cast hm
    have hbits : ((m : ℚ) + 1 / 2) * 2 ^ e < 2 ^ 53 * 2 ^ e :=
      mul_lt_mul_of_pos_right (by linarith) (zpow_two_pos e)
    linarith [habove.resolve_left (by omega), two_mul_zpow_le hgt]

end

/-! ## Decimal digits -/

theorem pow_length_le {n : Nat} (hn : n ≠ 0) : 10 ^ ((Text.ofNat n).length - 1) ≤ n := by
  have hpos : 0 < (Text.ofNat n).length := Nat.length_toDigits_pos
  by_contra hlt
  rcases Nat.eq_zero_or_pos ((Text.ofNat n).length - 1) with hone | hmore
  · rw [hone] at hlt
    omega
  · have hlen := (Nat.length_toDigits_le_iff (b := 10) (by decide) hmore).2 (Nat.lt_of_not_le hlt)
    change (Text.ofNat n).length ≤ _ at hlen
    omega

theorem lt_pow_length (n : Nat) : n < 10 ^ (Text.ofNat n).length :=
  (Nat.length_toDigits_le_iff (by decide) Nat.length_toDigits_pos).1 (Nat.le_refl _)

/-- The decimal exponents between which a number with digits before a power of ten lies. -/
theorem decimal_bounds {n : Nat} (hn : n ≠ 0) (p : Int) :
    (10 : ℚ) ^ ((Text.ofNat n).length + p - 1) ≤ n * 10 ^ p ∧
      (n * 10 ^ p : ℚ) < 10 ^ ((Text.ofNat n).length + p) := by
  have hpos : 0 < (Text.ofNat n).length := Nat.length_toDigits_pos
  have hten : (0 : ℚ) < 10 ^ p := zpow_pos (by norm_num) p
  constructor
  · have hsplit : ((Text.ofNat n).length : Int) + p - 1 =
        ((Text.ofNat n).length - 1 : Nat) + p := by omega
    rw [hsplit, zpow_add₀ (by norm_num), zpow_natCast]
    exact mul_le_mul_of_nonneg_right (by exact_mod_cast pow_length_le hn) hten.le
  · rw [zpow_add₀ (by norm_num), zpow_natCast]
    exact mul_lt_mul_of_pos_right (by exact_mod_cast lt_pow_length n) hten

/-- How large and how small doubles are. -/
theorem IsDouble.range {negative : Bool} {m : Nat} {e : Int} (hx : (finite negative m e).IsDouble)
    (hm : m ≠ 0) : (2 : ℚ) ^ (-1074 : Int) ≤ m * 2 ^ e ∧ (m * 2 ^ e : ℚ) < 2 ^ 1024 := by
  obtain ⟨⟨hlimit, hleast, -⟩, hmost⟩ := hx
  have hone : (1 : ℚ) ≤ m := by exact_mod_cast Nat.one_le_iff_ne_zero.2 hm
  have hmq : (m : ℚ) < 2 ^ 53 := by
    rw [← cast_mantissaLimit]
    exact_mod_cast hlimit
  constructor
  · calc (2 : ℚ) ^ (-1074 : Int) ≤ 2 ^ e := zpow_le_zpow_right₀ (by norm_num) hleast
      _ ≤ m * 2 ^ e := le_mul_of_one_le_left (zpow_two_pos e).le hone
  · calc (m : ℚ) * 2 ^ e < 2 ^ 53 * 2 ^ e := mul_lt_mul_of_pos_right hmq (zpow_two_pos e)
      _ ≤ 2 ^ 53 * 2 ^ (971 : Int) :=
        mul_le_mul_of_nonneg_left (zpow_le_zpow_right₀ (by norm_num) hmost) (by norm_num)
      _ = 2 ^ 1024 := by
        rw [← zpow_natCast, ← zpow_natCast, ← zpow_add₀ (by norm_num)]
        rfl

theorem IsNear.within {r x : ℚ} (h : IsNear r x) : x / 2 < r ∧ r < 2 * x := by
  unfold IsNear at h
  have hx : 0 < x := lt_of_le_of_lt (by positivity) h
  have hsmall : |r - x| < x / 2 := by
    have hle : |r - x| * 2 ≤ |r - x| * 2 ^ 54 :=
      mul_le_mul_of_nonneg_left (by norm_num) (abs_nonneg _)
    linarith
  obtain ⟨hlow, hhigh⟩ := abs_lt.1 hsmall
  constructor <;> linarith

/-- Digits are only read by the power of ten alone far outside the range of doubles. -/
theorem length_add_bounds {digits : Nat} {p : Int} (hdigits : digits ≠ 0)
    (hlow : (2 : ℚ) ^ (-1075 : Int) ≤ digits * 10 ^ p) (hhigh : (digits * 10 ^ p : ℚ) < 2 ^ 1025) :
    -330 ≤ Int.ofNat (Text.ofNat digits).length + p ∧
      Int.ofNat (Text.ofNat digits).length + p ≤ 320 := by
  obtain ⟨hfirst, hpast⟩ := decimal_bounds hdigits p
  rw [Int.ofNat_eq_natCast]
  constructor
  · by_contra hsmall
    have hnat : 2 ^ 1075 ≤ 10 ^ 331 := by decide +kernel
    have hpow : (10 : ℚ) ^ (-331 : Int) ≤ 2 ^ (-1075 : Int) := by
      rw [zpow_neg, zpow_neg]
      exact inv_anti₀ (zpow_pos (by norm_num) _) (by exact_mod_cast hnat)
    have hten : (10 : ℚ) ^ ((Text.ofNat digits).length + p) ≤ 10 ^ (-331 : Int) :=
      zpow_le_zpow_right₀ (by norm_num) (by omega)
    exact absurd hpast (not_lt.2 (hten.trans (hpow.trans hlow)))
  · by_contra hlarge
    have hnat : 2 ^ 1025 ≤ 10 ^ 320 := by decide +kernel
    have hpow : (2 : ℚ) ^ 1025 ≤ 10 ^ (320 : Int) := by exact_mod_cast hnat
    have hten : (10 : ℚ) ^ (320 : Int) ≤ 10 ^ ((Text.ofNat digits).length + p - 1) :=
      zpow_le_zpow_right₀ (by norm_num) (by omega)
    exact absurd hhigh (not_lt.2 (hpow.trans (hten.trans hfirst)))

/-- Digits near a double are read as it. -/
theorem ofDecimal_of_isNear {negative : Bool} {m digits : Nat} {e p : Int}
    (hx : (finite negative m e).IsDouble) (hnear : IsNear (digits * 10 ^ p) (m * 2 ^ e)) :
    ofDecimal negative digits p = finite negative m e := by
  obtain ⟨hm, -⟩ := hnear.bounds (zpow_two_pos e) hx.1.1
  obtain ⟨hleast, hmost⟩ := hx.range hm.ne'
  obtain ⟨hlow, hhigh⟩ := hnear.within
  have hlow' : (2 : ℚ) ^ (-1075 : Int) ≤ digits * 10 ^ p := by
    have htwice : 2 * (2 : ℚ) ^ (-1075 : Int) ≤ 2 ^ (-1074 : Int) := two_mul_zpow_le (by decide)
    linarith
  have hhigh' : (digits * 10 ^ p : ℚ) < 2 ^ 1025 := by
    rw [pow_succ']
    exact hhigh.trans (mul_lt_mul_of_pos_left hmost two_pos)
  have hdigits : digits ≠ 0 := by
    rintro rfl
    rw [Nat.cast_zero, zero_mul] at hlow'
    exact absurd (zpow_two_pos _) (not_lt.2 hlow')
  obtain ⟨hleastLength, hmostLength⟩ := length_add_bounds hdigits hlow' hhigh'
  unfold ofDecimal
  rw [if_neg hdigits]
  dsimp only
  rw [if_neg (not_lt.2 hmostLength), if_neg (not_lt.2 hleastLength)]
  split
  · next hp =>
    refine ofRatio_of_isNear hx Nat.one_pos ?_
    rw [zpow_of_nonneg (by omega)] at hnear
    rw [Nat.pow_eq]
    push_cast
    rwa [div_one]
  · next hp =>
    refine ofRatio_of_isNear hx (Nat.pow_pos (by decide)) ?_
    rw [zpow_of_neg (by omega)] at hnear
    rw [Nat.pow_eq]
    push_cast
    rwa [div_eq_mul_inv]

/-! ## The fewest digits -/

/-- The leading digit stands at this place or a higher one. -/
theorem pow_leadingExponent_le {m : Nat} (hm : m ≠ 0) (e : Int) :
    (10 : ℚ) ^ leadingExponent m e ≤ m * 2 ^ e := by
  unfold leadingExponent
  split
  · next he =>
    have hdigits : m * Nat.pow 5 e.natAbs ≠ 0 :=
      Nat.mul_ne_zero hm (Nat.pow_pos (by decide)).ne'
    have hbound := (decimal_bounds hdigits e).1
    rw [Int.ofNat_eq_natCast, show ∀ l : Int, l - 1 + e = l + e - 1 by intro l; omega]
    refine hbound.trans (le_of_eq ?_)
    rw [zpow_of_neg he, zpow_of_neg he, Nat.pow_eq]
    push_cast
    rw [show (10 : ℚ) = 5 * 2 by norm_num, mul_pow]
    field_simp
  · next he =>
    have hdigits : m * Nat.pow 2 e.natAbs ≠ 0 := Nat.mul_ne_zero hm (Nat.two_pow_pos _).ne'
    have hbound := (decimal_bounds hdigits 0).1
    rw [add_zero, zpow_zero, mul_one] at hbound
    refine hbound.trans (le_of_eq ?_)
    rw [zpow_of_nonneg he, Nat.pow_eq]
    push_cast
    rfl

/-- A number as a quotient in units of a power of ten. -/
def inUnits (m : Nat) (e power : Int) : Nat × Nat :=
  shifted 10 (magnitude m e).1 (magnitude m e).2 power

theorem inUnits_pos (m : Nat) (e power : Int) : 0 < (inUnits m e power).2 :=
  shifted_pos (by decide) (magnitude_pos m e) power

theorem ratio_inUnits (m : Nat) (e power : Int) :
    ((inUnits m e power).1 : ℚ) / (inUnits m e power).2 = m * 2 ^ e / 10 ^ power := by
  rw [inUnits, ratio_shifted, ratio_magnitude]
  rfl

theorem onGrid?_eq (m : Nat) (e power : Int) :
    onGrid? m e power =
      let (p, q) := inUnits m e power
      let nearest := roundQuotient p q
      let other := if nearest = p / q then p / q + 1 else p / q
      if ofDecimal false nearest power = .finite false m e then some nearest
      else if ofDecimal false other power = .finite false m e then some other
      else none := rfl

theorem ofDecimal_of_onGrid? {m digits : Nat} {e power : Int}
    (h : onGrid? m e power = some digits) : ofDecimal false digits power = finite false m e := by
  rw [onGrid?_eq] at h
  dsimp only at h
  generalize (if roundQuotient _ _ = _ then _ else _) = other at h
  split at h
  · next hnearest => exact Option.some.inj h ▸ hnearest
  · split at h
    · next hother => exact Option.some.inj h ▸ hother
    · cases h

/-- The seventeenth digit brings the number near enough. -/
theorem onGrid?_seventeenth {m : Nat} {e : Int} (hm : m ≠ 0) (hx : (finite false m e).IsDouble) :
    (onGrid? m e (leadingExponent m e - 16)).isSome := by
  generalize hpower : leadingExponent m e - 16 = power
  have hten : (0 : ℚ) < 10 ^ power := zpow_pos (by norm_num) power
  have hlead : (10 : ℚ) ^ 16 * 10 ^ power ≤ m * 2 ^ e := by
    refine le_trans (le_of_eq ?_) (pow_leadingExponent_le hm e)
    rw [← zpow_natCast, ← zpow_add₀ (by norm_num), ← hpower]
    congr 1
    push_cast
    omega
  have hround := roundQuotient_near (inUnits m e power).1 (inUnits_pos m e power)
  rw [ratio_inUnits] at hround
  have hnear : IsNear (roundQuotient (inUnits m e power).1 (inUnits m e power).2 * 10 ^ power)
      (m * 2 ^ e) := by
    have hoff : |(roundQuotient (inUnits m e power).1 (inUnits m e power).2 * 10 ^ power : ℚ) -
        m * 2 ^ e| ≤ 1 / 2 * 10 ^ power := by
      rw [← div_le_iff₀ hten, ← abs_of_pos hten, ← abs_div, sub_div, abs_of_pos hten,
        mul_div_cancel_right₀ _ hten.ne']
      exact hround
    unfold IsNear
    linarith
  rw [onGrid?_eq]
  dsimp only
  rw [if_pos (ofDecimal_of_isNear hx hnear)]
  rfl

/-- The search stops at a grid that has a reading, if the last one has. -/
theorem onGrid?_shortestFrom {m : Nat} {e : Int} :
    ∀ (finer : Nat) (power : Int), (onGrid? m e (power - finer)).isSome →
      onGrid? m e (shortestFrom m e finer power).2 = some (shortestFrom m e finer power).1
  | 0, power, h => by
    obtain ⟨digits, hdigits⟩ := Option.isSome_iff_exists.1 h
    rw [Nat.cast_zero, sub_zero] at hdigits
    rw [shortestFrom, hdigits]
    rfl
  | finer + 1, power, h => by
    rw [shortestFrom]
    split
    · next hdigits => exact hdigits
    · refine onGrid?_shortestFrom finer (power - 1) ?_
      rwa [show power - 1 - (finer : Int) = power - (finer + 1 : Nat) by push_cast; omega]

/-- **The digits that are written are read as the number.** -/
theorem ofDecimal_shortest {m : Nat} {e : Int} (hm : m ≠ 0) (hx : (finite false m e).IsDouble) :
    ofDecimal false (shortest m e).1 (shortest m e).2 = finite false m e :=
  ofDecimal_of_onGrid? (onGrid?_shortestFrom 16 _ (onGrid?_seventeenth hm hx))

theorem shortest_ne_zero {m : Nat} {e : Int} (hm : m ≠ 0) (hx : (finite false m e).IsDouble) :
    (shortest m e).1 ≠ 0 := by
  intro hzero
  have hread := ofDecimal_shortest hm hx
  rw [hzero, ofDecimal, if_pos rfl] at hread
  cases hread
  exact hm rfl

theorem stripZeros_ne_zero {digits : Nat} (h : digits ≠ 0) (fuel : Nat) (power : Int) :
    (stripZeros fuel digits power).1 ≠ 0 := by
  induction fuel generalizing digits power with
  | zero => exact h
  | succ fuel ih =>
    rw [stripZeros]
    split
    · exact ih (by omega) _
    · exact h

end Hydration.Binary64
