import Hydration.Proofs.Json.Grammar
import Hydration.Proofs.Number.Digits
import Hydration.Proofs.Number.Shown
/-!
# Written documents are JSON texts

The compact text of a document is a JSON text exactly if all its floating-point numbers are finite:
a finite double is written as a number of the grammar, and the others are written as words that the
grammar does not have. Names of fields are strings, whatever they were made from.

* `Binary64.numeral_toText`: a finite double is written as a number.
* `derives_write`: a document with finite numbers is written by the grammar.
* `isText_write_iff`: and only such a document is.
-/
namespace Hydration

/-! ## Numbers -/

namespace Json

/-- A number without its sign. -/
def Unsigned (t : Text) : Prop :=
  ∃ whole fraction exponent, t = whole ++ (fraction ++ exponent) ∧ Whole whole ∧
    Fraction fraction ∧ Exponent exponent

theorem Unsigned.numeral {t : Text} (h : Unsigned t) (negative : Bool) :
    Numeral (Binary64.signText negative ++ t) := by
  obtain ⟨whole, fraction, exponent, rfl, hwhole, hfraction, hexponent⟩ := h
  refine .intro ?_ hwhole hfraction hexponent
  cases negative
  · exact .inl rfl
  · exact .inr rfl

theorem Whole.unsigned {t : Text} (h : Whole t) : Unsigned t :=
  ⟨t, [], [], by simp, h, .none, .none⟩

/-- The digits of a positive number, with the first one apart. -/
theorem exists_leading_digit {n : Nat} (hn : n ≠ 0) :
    ∃ c more, Text.ofNat n = c :: more ∧ c.isDigit = true ∧ c ≠ '0' ∧
      ∀ d ∈ more, d.isDigit = true := by
  obtain ⟨c, more, hdigits⟩ := List.exists_cons_of_ne_nil (Number.ofNat_ne_nil n)
  have hall := Number.isDigit_ofNat (n := n)
  have hfirst := head?_ofNat (Nat.pos_of_ne_zero hn)
  rw [hdigits] at hall hfirst
  obtain ⟨hc, hmore⟩ := List.forall_mem_cons.1 hall
  exact ⟨c, more, hdigits, hc, fun h => hfirst (congrArg some h), hmore⟩

theorem whole_ofNat (n : Nat) : Whole (Text.ofNat n) := by
  by_cases hn : n = 0
  · rw [hn]
    exact .zero
  · obtain ⟨c, more, hdigits, hc, hzero, hmore⟩ := exists_leading_digit hn
    rw [hdigits]
    exact .digits hc hzero hmore

theorem numeral_writeInt (i : Int) : Numeral (writeInt i) := by
  unfold writeInt
  split
  · exact (whole_ofNat _).unsigned.numeral true
  · exact (whole_ofNat _).unsigned.numeral false

end Json

namespace Binary64
open Json (Unsigned Digits)

/-- Whether the number is neither infinite nor no number. -/
def IsFinite : Binary64 → Prop
  | .finite _ _ _ => True
  | _ => False

theorem isDigit_replicate (k : Nat) : ∀ c ∈ List.replicate k '0', c.isDigit = true := by
  intro c hc
  rw [(List.mem_replicate.1 hc).2]
  rfl

section
variable {c : Char} {more : Text}

theorem unsigned_positional (hc : c.isDigit = true) (hzero : c ≠ '0')
    (hmore : ∀ d ∈ more, d.isDigit = true) (point : Int) :
    Unsigned (positional (c :: more) point) := by
  have hall : ∀ d ∈ c :: more, d.isDigit = true := List.forall_mem_cons.2 ⟨hc, hmore⟩
  unfold positional
  split
  · refine ⟨['0'], '.' :: (List.replicate point.natAbs '0' ++ c :: more), [], ?_, .zero,
      .digits ⟨by simp, List.forall_mem_append.2 ⟨isDigit_replicate _, hall⟩⟩, .none⟩
    rw [List.append_nil]
    rfl
  · next hpoint =>
    split
    · refine ⟨c :: (more ++ List.replicate (point.natAbs - (c :: more).length) '0'), ['.', '0'], [],
        ?_, .digits hc hzero (List.forall_mem_append.2 ⟨hmore, isDigit_replicate _⟩),
        .digits ⟨by simp, isDigit_replicate 1⟩, .none⟩
      rw [List.append_nil]
      rfl
    · next hlength =>
      obtain ⟨k, hk⟩ : ∃ k, point.natAbs = k + 1 := ⟨point.natAbs - 1, by omega⟩
      rw [hk] at hlength ⊢
      refine ⟨c :: more.take k, '.' :: more.drop k, [], by simp,
        .digits hc hzero fun d hd => hmore d (List.mem_of_mem_take hd),
        .digits ⟨fun hnil => ?_, fun d hd => hmore d (List.mem_of_mem_drop hd)⟩, .none⟩
      rw [List.drop_eq_nil_iff] at hnil
      rw [List.length_cons] at hlength
      omega

theorem digits_ofNatPadded (width n : Nat) : Digits (Text.ofNatPadded width n) :=
  ⟨List.append_ne_nil_of_right_ne_nil _ (Number.ofNat_ne_nil n),
    List.forall_mem_append.2 ⟨isDigit_replicate _, Number.isDigit_ofNat⟩⟩

theorem exponent_scientific (exponent : Int) :
    Json.Exponent ((if exponent < 0 then "e-" else "e+" : String).toList ++
      Text.ofNatPadded 2 exponent.natAbs) := by
  split
  · exact @Json.Exponent.digits 'e' ['-'] _ (.inl rfl) (.inr (.inr rfl)) (digits_ofNatPadded 2 _)
  · exact @Json.Exponent.digits 'e' ['+'] _ (.inl rfl) (.inr (.inl rfl)) (digits_ofNatPadded 2 _)

theorem unsigned_scientific (hc : c.isDigit = true) (hzero : c ≠ '0')
    (hmore : ∀ d ∈ more, d.isDigit = true) (exponent : Int) :
    Unsigned (scientific (c :: more) exponent) := by
  have hexponent := exponent_scientific exponent
  unfold scientific
  rw [List.append_assoc]
  cases more with
  | nil =>
    refine ⟨[c], [], _, ?_, .digits hc hzero hmore, .none, hexponent⟩
    rfl
  | cons d rest =>
    refine ⟨[c], '.' :: d :: rest, _, ?_, .digits hc hzero (by simp),
      .digits ⟨by simp, hmore⟩, hexponent⟩
    rfl

end

/-- A finite double is written as a number. -/
theorem numeral_toText {negative : Bool} {m : Nat} {e : Int}
    (hx : (finite negative m e).IsDouble) : Json.Numeral (finite negative m e).toText := by
  rw [toText]
  by_cases hm : m = 0
  · rw [if_pos hm]
    exact Unsigned.numeral ⟨['0'], ['.', '0'], [], rfl, .zero,
      .digits ⟨by simp, isDigit_replicate 1⟩, .none⟩ negative
  · rw [if_neg hm]
    have hn := stripZeros_ne_zero (shortest_ne_zero hm hx) 400 (shortest m e).2
    obtain ⟨c, more, hdigits, hc, hzero, hmore⟩ := Json.exists_leading_digit hn
    dsimp only
    rw [hdigits]
    split
    · exact (unsigned_positional hc hzero hmore _).numeral negative
    · exact (unsigned_scientific hc hzero hmore _).numeral negative

theorem not_mem_toText (x : Binary64) : '"' ∉ x.toText := fun h =>
  absurd ((isFloatText_toText x).1 _ h) (by decide)

end Binary64

namespace Json
open Binary64 (IsDouble IsFinite)

mutual

/-- The floating-point numbers of a document. -/
def floats : Json → List Binary64
  | .float x => [x]
  | .array items => itemFloats items
  | .object fields => fieldFloats fields
  | _ => []

def itemFloats : List Json → List Binary64
  | [] => []
  | v :: rest => floats v ++ itemFloats rest

def fieldFloats : List (Text × Json) → List Binary64
  | [] => []
  | (_, v) :: rest => floats v ++ fieldFloats rest

end

/-! ## Documents with finite numbers -/

/-- All these numbers are finite doubles. -/
def Ordinary (xs : List Binary64) : Prop := ∀ x ∈ xs, x.IsDouble ∧ x.IsFinite

theorem ordinary_append {xs ys : List Binary64} :
    Ordinary (xs ++ ys) ↔ Ordinary xs ∧ Ordinary ys := List.forall_mem_append

theorem numeral_writeFloat {x : Binary64} (hdouble : x.IsDouble) (hfinite : x.IsFinite) :
    Numeral (writeFloat x) := by
  cases x with
  | finite _ _ _ => exact Binary64.numeral_toText hdouble
  | nan | infinity _ => exact hfinite.elim

mutual

theorem derives_write : ∀ v : Json, Ordinary v.floats → Derives .value v.write
  | .null, _ => .null
  | .bool b, _ => by
    cases b
    · exact .false
    · exact .true
  | .int i, _ => .number (numeral_writeInt i)
  | .float x, h => by
    obtain ⟨hdouble, hfinite⟩ := h x (List.mem_singleton.2 rfl)
    exact .number (numeral_writeFloat hdouble hfinite)
  | .string t, _ => .string (quoted_writeString t)
  | .array [], _ => .emptyArray blanks_nil
  | .array (v :: rest), h => by
    obtain ⟨hv, hrest⟩ := ordinary_append.1 h
    obtain ⟨t, ht, helements⟩ := derives_moreItems rest hrest (derives_write v hv).bare
    have hwrite : (Json.array (v :: rest)).write = '[' :: (t ++ [']']) := congrArg _ ht
    rw [hwrite]
    exact .array helements
  | .object [], _ => .emptyObject blanks_nil
  | .object ((k, v) :: rest), h => by
    obtain ⟨hv, hrest⟩ := ordinary_append.1 h
    obtain ⟨t, ht, hmembers⟩ := derives_moreFields rest hrest
      (.field (quoted_writeString k) (derives_write v hv).bare)
    have hwrite : (Json.object ((k, v) :: rest)).write = '{' :: (t ++ ['}']) := congrArg _ ht
    rw [hwrite]
    exact .object hmembers

/-- More items after an element, up to the closing bracket. -/
theorem derives_moreItems : ∀ (items : List Json), Ordinary (itemFloats items) → ∀ {a : Text},
    Derives .element a → ∃ t, a ++ writeMoreItems items = t ++ [']'] ∧ Derives .elements t
  | [], _, a, ha => ⟨a, rfl, .lastElement ha⟩
  | v :: rest, h, a, ha => by
    obtain ⟨hv, hrest⟩ := ordinary_append.1 h
    obtain ⟨t, ht, helements⟩ := derives_moreItems rest hrest (derives_write v hv).bare
    refine ⟨a ++ ',' :: t, ?_, .moreElements ha helements⟩
    rw [writeMoreItems, List.cons_append, ht, List.append_assoc, List.cons_append]

/-- More fields after a member, up to the closing brace. -/
theorem derives_moreFields : ∀ (fields : List (Text × Json)), Ordinary (fieldFloats fields) →
    ∀ {a : Text}, Derives .member a →
      ∃ t, a ++ writeMoreFields fields = t ++ ['}'] ∧ Derives .members t
  | [], _, a, ha => ⟨a, rfl, .lastMember ha⟩
  | (k, v) :: rest, h, a, ha => by
    obtain ⟨hv, hrest⟩ := ordinary_append.1 h
    obtain ⟨t, ht, hmembers⟩ := derives_moreFields rest hrest
      (.field (quoted_writeString k) (derives_write v hv).bare)
    refine ⟨a ++ ',' :: t, ?_, .moreMembers ha hmembers⟩
    rw [writeMoreFields, List.append_assoc a]
    exact congrArg (a ++ ',' :: ·) ht

end

/-! ## Documents with other numbers -/

/-- Outside strings the text has one of the letters that no JSON text has there, if the condition
holds. -/
def Shows (t : Text) (p : Prop) : Prop := ∃ kept, Skims t kept ∧ (p → 'N' ∈ kept ∨ 'I' ∈ kept)

section
variable {t u : Text} {p q : Prop}

theorem Shows.imp (hqp : q → p) (h : Shows t p) : Shows t q := by
  obtain ⟨k, hk, hp⟩ := h
  exact ⟨k, hk, hp ∘ hqp⟩

theorem Shows.append (ht : Shows t p) (hu : Shows u q) : Shows (t ++ u) (p ∨ q) := by
  obtain ⟨k, hk, hp⟩ := ht
  obtain ⟨l, hl, hq⟩ := hu
  refine ⟨k ++ l, hk.append hl, ?_⟩
  rintro (h | h)
  · exact (hp h).imp (List.mem_append_left l) (List.mem_append_left l)
  · exact (hq h).imp (List.mem_append_right k) (List.mem_append_right k)

theorem Shows.cons {c : Char} (hc : c ≠ '"') (h : Shows t p) : Shows (c :: t) p := by
  obtain ⟨k, hk, hp⟩ := h
  exact ⟨c :: k, hk.cons hc, fun h => (hp h).imp (List.mem_cons_of_mem c) (List.mem_cons_of_mem c)⟩

theorem shows_of_not_mem (h : '"' ∉ t) (hp : p → 'N' ∈ t ∨ 'I' ∈ t) : Shows t p :=
  ⟨t, skims_of_not_mem h, hp⟩

theorem shows_writeString (hp : ¬ p) (t : Text) : Shows (writeString t) p :=
  ⟨[], skims_of_quoted (quoted_writeString t), fun h => absurd h hp⟩

theorem Shows.not_isClean (h : Shows t p) (hp : p) : ¬ IsClean t := by
  rintro ⟨l, hl, hN, hI⟩
  obtain ⟨k, hk, hshown⟩ := h
  obtain rfl := hk.unique hl
  exact (hshown hp).elim hN hI

end

/-- One of these numbers is infinite or no number. -/
def Odd (xs : List Binary64) : Prop := ∃ x ∈ xs, ¬ x.IsFinite

theorem odd_append {xs ys : List Binary64} : Odd (xs ++ ys) ↔ Odd xs ∨ Odd ys := by
  simp [Odd, List.mem_append, or_and_right, exists_or]

theorem not_odd_nil : ¬ Odd [] := by simp [Odd]

theorem shows_writeFloat (x : Binary64) : Shows (writeFloat x) (Odd [x]) := by
  cases x with
  | nan => exact shows_of_not_mem (by decide) fun _ => by decide
  | infinity negative =>
    refine shows_of_not_mem (by cases negative <;> decide) fun _ => .inr ?_
    exact List.mem_append_right _ (by decide)
  | finite negative m e =>
    have hquote := Binary64.not_mem_toText (.finite negative m e)
    refine shows_of_not_mem hquote fun hodd => ?_
    obtain ⟨x, hx, hinfinite⟩ := hodd
    obtain rfl := List.mem_singleton.1 hx
    exact absurd trivial hinfinite

mutual

/-- The words for numbers that are not finite stand outside strings. -/
theorem shows_write : ∀ v : Json, Shows v.write (Odd v.floats)
  | .null => shows_of_not_mem (by decide) fun h => absurd h not_odd_nil
  | .bool b => shows_of_not_mem (by cases b <;> decide) fun h => absurd h not_odd_nil
  | .int i => shows_of_not_mem (not_mem_writeInt i (by decide) rfl) fun h => absurd h not_odd_nil
  | .float x => shows_writeFloat x
  | .string t => shows_writeString not_odd_nil t
  | .array items => (shows_writeItems items).cons (by decide)
  | .object fields => (shows_writeFields fields).cons (by decide)

theorem shows_writeItems : ∀ items : List Json, Shows (writeItems items) (Odd (itemFloats items))
  | [] => shows_of_not_mem (by decide) fun h => absurd h not_odd_nil
  | v :: rest => ((shows_write v).append (shows_writeMoreItems rest)).imp odd_append.1

theorem shows_writeMoreItems : ∀ items : List Json,
    Shows (writeMoreItems items) (Odd (itemFloats items))
  | [] => shows_of_not_mem (by decide) fun h => absurd h not_odd_nil
  | v :: rest =>
    (((shows_write v).append (shows_writeMoreItems rest)).cons (by decide)).imp odd_append.1

theorem shows_writeFields : ∀ fields : List (Text × Json),
    Shows (writeFields fields) (Odd (fieldFloats fields))
  | [] => shows_of_not_mem (by decide) fun h => absurd h not_odd_nil
  | (k, v) :: rest =>
    (((shows_writeString id k).append ((shows_write v).cons (by decide))).append
      (shows_writeMoreFields rest)).imp fun h => (odd_append.1 h).imp_left .inr

theorem shows_writeMoreFields : ∀ fields : List (Text × Json),
    Shows (writeMoreFields fields) (Odd (fieldFloats fields))
  | [] => shows_of_not_mem (by decide) fun h => absurd h not_odd_nil
  | (k, v) :: rest =>
    ((((shows_writeString id k).append ((shows_write v).cons (by decide))).append
      (shows_writeMoreFields rest)).cons (by decide)).imp fun h => (odd_append.1 h).imp_left .inr

end

/-- The text of a document is a JSON text exactly if all its numbers are finite. -/
theorem isText_write_iff {v : Json} (h : ∀ x ∈ v.floats, x.IsDouble) :
    IsText v.write ↔ ∀ x ∈ v.floats, x.IsFinite := by
  constructor
  · intro htext x hx
    by_contra hinfinite
    exact (shows_write v).not_isClean ⟨x, hx, hinfinite⟩ (Derives.isClean htext)
  · intro hfinite
    exact (derives_write v fun x hx => ⟨h x hx, hfinite x hx⟩).bare

end Json
end Hydration
