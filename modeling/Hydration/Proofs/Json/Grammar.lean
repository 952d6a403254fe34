import Hydration.Proofs.Json.Written
/-!
# The grammar of JSON

What a JSON text is, by its productions: an element is a value with white space around it, values
are constants, numbers, strings, arrays and objects. No production has a capital letter outside
strings other than the mark of an exponent, so no text with the words `NaN` or `Infinity` as values
is derived.

* `quoted_writeString`: strings are written by the grammar.
* `Skims.unique`: what stands outside the strings of a text.
* `Derives.isClean`: outside its strings a JSON text has no letter that such a word starts with.
-/
namespace Hydration.Json

/-! ## Productions -/

/-- White space. -/
def Blanks (t : Text) : Prop := ∀ c ∈ t, c = ' ' ∨ c = '\t' ∨ c = '\n' ∨ c = '\r'

/-- One digit or more. -/
def Digits (t : Text) : Prop := t ≠ [] ∧ ∀ c ∈ t, c.isDigit = true

/-- The whole part of a number: no zero before other digits. -/
inductive Whole : Text → Prop
  | zero : Whole ['0']
  | digits {c : Char} {more : Text} (hc : c.isDigit = true) (hzero : c ≠ '0')
    (hmore : ∀ d ∈ more, d.isDigit = true) : Whole (c :: more)

/-- The fraction of a number, which may be left out. -/
inductive Fraction : Text → Prop
  | none : Fraction []
  | digits {ds : Text} (h : Digits ds) : Fraction ('.' :: ds)

/-- The exponent of a number, which may be left out. -/
inductive Exponent : Text → Prop
  | none : Exponent []
  | digits {mark : Char} {sign ds : Text} (hmark : mark = 'e' ∨ mark = 'E')
    (hsign : sign = [] ∨ sign = ['+'] ∨ sign = ['-']) (h : Digits ds) :
    Exponent (mark :: (sign ++ ds))

/-- A number. -/
inductive Numeral : Text → Prop
  | intro {minus whole fraction exponent : Text} (hminus : minus = [] ∨ minus = ['-'])
    (hwhole : Whole whole) (hfraction : Fraction fraction) (hexponent : Exponent exponent) :
    Numeral (minus ++ (whole ++ (fraction ++ exponent)))

/-- A hexadecimal digit. -/
def IsHexDigit (c : Char) : Prop := c ∈ "0123456789abcdefABCDEF".toList

/-- The characters of a string, between its quotes. -/
inductive Characters : Text → Prop
  | nil : Characters []
  | plain {c : Char} {more : Text} (hcontrol : 32 ≤ c.toNat) (hquote : c ≠ '"')
    (hbackslash : c ≠ '\\') (h : Characters more) : Characters (c :: more)
  | escape {c : Char} {more : Text} (hc : c ∈ ['"', '\\', '/', 'b', 'f', 'n', 'r', 't'])
    (h : Characters more) : Characters ('\\' :: c :: more)
  | code {a b c d : Char} {more : Text} (ha : IsHexDigit a) (hb : IsHexDigit b)
    (hc : IsHexDigit c) (hd : IsHexDigit d) (h : Characters more) :
    Characters ('\\' :: 'u' :: a :: b :: c :: d :: more)

/-- A string. -/
inductive Quoted : Text → Prop
  | intro {body : Text} (h : Characters body) : Quoted ('"' :: (body ++ ['"']))

/-- The parts of a text that are made up of one another. -/
inductive Part
  | value
  | element
  | elements
  | member
  | members

/-- The texts of each part. -/
inductive Derives : Part → Text → Prop
  | null : Derives .value "null"
  | true : Derives .value "true"
  | false : Derives .value "false"
  | number {t : Text} (h : Numeral t) : Derives .value t
  | string {t : Text} (h : Quoted t) : Derives .value t
  | emptyArray {a : Text} (ha : Blanks a) : Derives .value ('[' :: (a ++ [']']))
  | array {t : Text} (h : Derives .elements t) : Derives .value ('[' :: (t ++ [']']))
  | emptyObject {a : Text} (ha : Blanks a) : Derives .value ('{' :: (a ++ ['}']))
  | object {t : Text} (h : Derives .members t) : Derives .value ('{' :: (t ++ ['}']))
  | element {a t b : Text} (ha : Blanks a) (h : Derives .value t) (hb : Blanks b) :
    Derives .element (a ++ (t ++ b))
  | lastElement {t : Text} (h : Derives .element t) : Derives .elements t
  | moreElements {t u : Text} (h : Derives .element t) (hmore : Derives .elements u) :
    Derives .elements (t ++ ',' :: u)
  | member {a k b t : Text} (ha : Blanks a) (hk : Quoted k) (hb : Blanks b)
    (h : Derives .element t) : Derives .member (a ++ (k ++ (b ++ ':' :: t)))
  | lastMember {t : Text} (h : Derives .member t) : Derives .members t
  | moreMembers {t u : Text} (h : Derives .member t) (hmore : Derives .members u) :
    Derives .members (t ++ ',' :: u)

/-- A JSON text. -/
def IsText (t : Text) : Prop := Derives .element t

theorem blanks_nil : Blanks [] := by simp [Blanks]

/-- A value without white space around it. -/
theorem Derives.bare {t : Text} (h : Derives .value t) : Derives .element t := by
  simpa using Derives.element blanks_nil h blanks_nil

theorem Derives.field {k t : Text} (hk : Quoted k) (h : Derives .element t) :
    Derives .member (k ++ ':' :: t) := by
  simpa using Derives.member blanks_nil hk blanks_nil h

/-! ## Written strings -/

/-- A character is written as itself or escaped. -/
theorem characters_writeChar (c : Char) {more : Text} (h : Characters more) :
    Characters (writeChar c ++ more) := by
  have hcontrol : ∀ n : Fin 32, IsHexDigit (Nat.digitChar (n / 16)) ∧
      IsHexDigit (Nat.digitChar (n % 16)) := by
    unfold IsHexDigit
    decide
  cases spelling c with
  | plain hq hb hc hwrite =>
    rw [hwrite]
    exact .plain (Nat.le_of_not_lt hc) hq hb h
  | letter e he hwrite =>
    rw [hwrite]
    exact .escape (mem_of_escape? he) h
  | number hc hwrite =>
    have htext := (ofHex_control ⟨c.toNat, hc⟩).1
    obtain ⟨hhigh, hlow⟩ := hcontrol ⟨c.toNat, hc⟩
    simp only at htext
    rw [hwrite, htext]
    exact .code (by unfold IsHexDigit; decide) (by unfold IsHexDigit; decide) hhigh hlow h

theorem quoted_writeString (t : Text) : Quoted (writeString t) := by
  refine .intro ?_
  induction t with
  | nil => exact .nil
  | cons c t ih => exact characters_writeChar c ih

/-! ## Outside strings -/

/-- Where a text is read from left to right. -/
inductive Place
  | outside
  | inside
  | escaped

/-- The characters outside strings, quotes left out. -/
def skim : Place → Text → Text
  | _, [] => []
  | .outside, c :: rest => if c = '"' then skim .inside rest else c :: skim .outside rest
  | .inside, c :: rest =>
    if c = '"' then skim .outside rest
    else if c = '\\' then skim .escaped rest
    else skim .inside rest
  | .escaped, _ :: rest => skim .inside rest

/-- Outside strings the text has the given characters, and it ends outside strings. -/
def Skims (t kept : Text) : Prop := ∀ rest, skim .outside (t ++ rest) = kept ++ skim .outside rest

section
variable {t u k l : Text}

theorem Skims.unique (h : Skims t k) (h' : Skims t l) : k = l := by
  have heq := (h []).symm.trans (h' [])
  simpa [skim] using heq

theorem Skims.append (ht : Skims t k) (hu : Skims u l) : Skims (t ++ u) (k ++ l) := by
  intro rest
  rw [List.append_assoc, ht, hu, List.append_assoc]

theorem Skims.cons {c : Char} (hc : c ≠ '"') (h : Skims t k) : Skims (c :: t) (c :: k) := by
  intro rest
  rw [List.cons_append, skim, if_neg hc, h]
  rfl

theorem skims_of_not_mem (h : '"' ∉ t) : Skims t t := by
  induction t with
  | nil => exact fun _ => rfl
  | cons c t ih =>
    obtain ⟨hc, ht⟩ := not_or.1 (mt List.mem_cons.2 h)
    exact (ih ht).cons (Ne.symm hc)

theorem skim_characters (h : Characters t) (rest : Text) :
    skim .inside (t ++ '"' :: rest) = skim .outside rest := by
  have hhex : ∀ c, IsHexDigit c → c ≠ '"' ∧ c ≠ '\\' := by
    unfold IsHexDigit
    rintro c hc
    constructor <;> rintro rfl <;> revert hc <;> decide
  induction h with
  | nil => rfl
  | plain _ hquote hbackslash _ ih =>
    rw [List.cons_append, skim, if_neg hquote, if_neg hbackslash, ih]
  | escape _ _ ih => exact ih
  | code ha hb hc hd _ ih =>
    simp only [List.cons_append, skim, hhex _ ha, hhex _ hb, hhex _ hc, hhex _ hd, if_false, ih]
    rfl

/-- Nothing is kept of a string. -/
theorem skims_of_quoted (h : Quoted t) : Skims t [] := by
  obtain ⟨h⟩ := h
  intro rest
  rw [List.cons_append, List.append_assoc]
  exact skim_characters h rest

end

/-! ## Letters outside strings -/

/-- Outside strings the text has neither of the letters that `NaN` and `Infinity` start with. -/
def IsClean (t : Text) : Prop := ∃ kept, Skims t kept ∧ 'N' ∉ kept ∧ 'I' ∉ kept

section
variable {t u : Text}

theorem IsClean.append (ht : IsClean t) (hu : IsClean u) : IsClean (t ++ u) := by
  obtain ⟨k, hk, hkN, hkI⟩ := ht
  obtain ⟨l, hl, hlN, hlI⟩ := hu
  exact ⟨k ++ l, hk.append hl, by simp [hkN, hlN], by simp [hkI, hlI]⟩

theorem isClean_of_not_mem (h : '"' ∉ t ∧ 'N' ∉ t ∧ 'I' ∉ t) : IsClean t :=
  ⟨t, skims_of_not_mem h.1, h.2⟩

theorem IsClean.cons {c : Char} (hc : c ≠ '"' ∧ c ≠ 'N' ∧ c ≠ 'I') (h : IsClean t) :
    IsClean (c :: t) := by
  have hfirst : IsClean [c] := isClean_of_not_mem (by simp [hc.1.symm, hc.2.1.symm, hc.2.2.symm])
  exact hfirst.append h

theorem isClean_of_quoted (h : Quoted t) : IsClean t := ⟨[], skims_of_quoted h, by simp, by simp⟩

theorem isClean_of_forall (h : ∀ c ∈ t, c ≠ '"' ∧ c ≠ 'N' ∧ c ≠ 'I') : IsClean t :=
  isClean_of_not_mem ⟨fun hc => (h _ hc).1 rfl, fun hc => (h _ hc).2.1 rfl,
    fun hc => (h _ hc).2.2 rfl⟩

theorem Blanks.isClean (h : Blanks t) : IsClean t := by
  refine isClean_of_forall fun c hc => ?_
  rcases h c hc with rfl | rfl | rfl | rfl <;> decide

theorem isClean_of_digits (h : ∀ c ∈ t, c.isDigit = true) : IsClean t := by
  refine isClean_of_forall fun c hc => ?_
  have hdigit := h c hc
  refine ⟨?_, ?_, ?_⟩ <;> (rintro rfl; cases hdigit)

theorem Whole.isClean (h : Whole t) : IsClean t := by
  cases h with
  | zero => exact isClean_of_not_mem (by decide)
  | digits hc _ hmore => exact isClean_of_digits (List.forall_mem_cons.2 ⟨hc, hmore⟩)

theorem Fraction.isClean (h : Fraction t) : IsClean t := by
  cases h with
  | none => exact isClean_of_not_mem (by decide)
  | digits h => exact .cons (by decide) (isClean_of_digits h.2)

theorem Exponent.isClean (h : Exponent t) : IsClean t := by
  cases h with
  | none => exact isClean_of_not_mem (by decide)
  | digits hmark hsign h =>
    refine .cons ?_ (.append ?_ (isClean_of_digits h.2))
    · rcases hmark with rfl | rfl <;> decide
    · rcases hsign with rfl | rfl | rfl <;> exact isClean_of_not_mem (by decide)

theorem Numeral.isClean (h : Numeral t) : IsClean t := by
  obtain ⟨hminus, hwhole, hfraction, hexponent⟩ := h
  refine .append ?_ (hwhole.isClean.append (hfraction.isClean.append hexponent.isClean))
  rcases hminus with rfl | rfl <;> exact isClean_of_not_mem (by decide)

/-- No production has such a letter outside strings. -/
theorem Derives.isClean {part : Part} (h : Derives part t) : IsClean t := by
  induction h with
  | null | true | false => exact isClean_of_not_mem (by decide)
  | number h => exact h.isClean
  | string h => exact isClean_of_quoted h
  | emptyArray ha | emptyObject ha =>
    exact .cons (by decide) (.append ha.isClean (isClean_of_not_mem (by decide)))
  | array _ ih | object _ ih => exact .cons (by decide) (ih.append (isClean_of_not_mem (by decide)))
  | element ha _ hb ih => exact ha.isClean.append (ih.append hb.isClean)
  | lastElement _ ih | lastMember _ ih => exact ih
  | moreElements _ _ ih ihmore | moreMembers _ _ ih ihmore =>
    exact ih.append (.cons (by decide) ihmore)
  | member ha hk hb _ ih =>
    exact ha.isClean.append
      ((isClean_of_quoted hk).append (hb.isClean.append (.cons (by decide) ih)))

end

end Hydration.Json
