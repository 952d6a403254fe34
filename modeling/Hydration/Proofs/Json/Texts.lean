import Hydration.Proofs.Json.Written
import Hydration.Proofs.Text.Reference
/-!
# The texts of a document

The texts of a document are its strings and the names of its fields, at any depth. Nothing else in
the written document can be taken for a reference to a double quote, and the letters of a reference
are written as themselves, so references stand in the written document exactly where one of its texts
holds one.

* `holdsReference_body`: in a written string.
* `holdsReference_write`: in a written document.
-/
namespace Hydration.Json
open Text (HoldsReference quoteReference referenceTail)

mutual

/-- The strings and field names of a document. -/
def texts : Json → List Text
  | .string t => [t]
  | .array items => itemTexts items
  | .object fields => fieldTexts fields
  | _ => []

def itemTexts : List Json → List Text
  | [] => []
  | v :: rest => texts v ++ itemTexts rest

def fieldTexts : List (Text × Json) → List Text
  | [] => []
  | (k, v) :: rest => k :: (texts v ++ fieldTexts rest)

end

theorem mem_itemTexts {t : Text} {items : List Json} :
    t ∈ itemTexts items ↔ ∃ v ∈ items, t ∈ v.texts := by
  induction items with
  | nil => simp [itemTexts]
  | cons v rest ih => simp [itemTexts, ih]

theorem mem_fieldTexts {t : Text} {fields : List (Text × Json)} :
    t ∈ fieldTexts fields ↔ ∃ e ∈ fields, t = e.1 ∨ t ∈ e.2.texts := by
  induction fields with
  | nil => simp [fieldTexts]
  | cons e rest ih => simp [fieldTexts, ih, or_assoc]

/-! ## Written strings -/

/-- A character is written as itself or escaped, and an escape has no ampersand. -/
theorem writeChar_cases (c : Char) :
    writeChar c = [c] ∨ ∃ more, writeChar c = '\\' :: more ∧ '&' ∉ more := by
  have hcontrol : ∀ n : Fin 32, '&' ∉ 'u' :: Text.ofHex 4 n := by decide
  cases spelling c with
  | plain _ _ _ h => exact .inl h
  | letter e he h =>
    refine .inr ⟨_, h, ?_⟩
    intro hamp
    cases List.mem_singleton.1 hamp
    exact absurd (mem_of_escape? he) (by decide)
  | number hc h => exact .inr ⟨_, h, hcontrol ⟨c.toNat, hc⟩⟩

theorem writeChar_plain {c : Char} (hq : c ≠ '"') (hb : c ≠ '\\') (hc : ¬ c.toNat < 32) :
    writeChar c = [c] := by
  have hne : ∀ d : Char, d.toNat < 32 → c ≠ d := by
    rintro d hd rfl
    exact hc hd
  simp [writeChar, hq, hb, hc, hne '\n' (by decide), hne '\r' (by decide), hne '\t' (by decide),
    hne '\x0c' (by decide), hne '\x08' (by decide)]

/-- A written string has a reference exactly where the string has one. -/
theorem holdsReference_body (t : Text) :
    HoldsReference (t.flatMap writeChar) ↔ HoldsReference t := by
  constructor
  · induction t with
    | nil => exact id
    | cons c t ih =>
      rw [List.flatMap_cons, Text.holdsReference_cons]
      rcases writeChar_cases c with hc | ⟨more, hc, hmore⟩
      · rw [hc, List.singleton_append, Text.holdsReference_cons]
        refine Or.imp (fun hstart => ?_) ih
        obtain ⟨rfl, htail⟩ := Text.reference_prefix_cons.1 hstart
        refine Text.reference_prefix_cons.2 ⟨rfl, Text.prefix_of_prefix_flatMap (fun d => ?_) htail⟩
        refine (writeChar_cases d).imp_right ?_
        rintro ⟨more, hd, -⟩
        exact ⟨'\\', more, hd, by decide⟩
      · have hamp : '&' ∉ '\\' :: more := by
          simpa using hmore
        rw [hc]
        exact fun h => .inr (ih ((Text.infix_append_iff_of_not_mem hamp).1 h))
  · rintro ⟨a, b, rfl⟩
    exact ⟨a.flatMap writeChar, b.flatMap writeChar, by simp [List.flatMap_append]; rfl⟩

theorem holdsReference_writeString (t : Text) :
    HoldsReference (writeString t) ↔ HoldsReference t := by
  have hquote : '"' ∉ quoteReference := by decide
  have hnil : ¬ HoldsReference [] := by decide
  rw [writeString, List.cons_append, Text.holdsReference_cons_of_not_mem hquote,
    Text.holdsReference_append_cons hquote, holdsReference_body]
  simp [hnil]

/-! ## Written documents -/

theorem not_mem_reference {c : Char} (hc : isMark c = true) : c ∉ quoteReference := by
  have hall : quoteReference.all (fun d => !isMark d) = true := by decide
  intro hmem
  simpa [hc] using List.all_eq_true.1 hall c hmem

/-- A reference does not reach over a mark. -/
theorem holdsReference_append_mark {a b : Text} {c : Char} (hc : isMark c = true) :
    HoldsReference (a ++ c :: b) ↔ HoldsReference a ∨ HoldsReference b :=
  Text.holdsReference_append_cons (not_mem_reference hc)

theorem holdsReference_mark {b : Text} {c : Char} (hc : isMark c = true) :
    HoldsReference (c :: b) ↔ HoldsReference b :=
  Text.holdsReference_cons_of_not_mem (not_mem_reference hc)

theorem not_holdsReference_of_suffix {a b : Text} (h : ¬ HoldsReference a) (hb : b <:+ a) :
    ¬ HoldsReference b :=
  fun hwithin => h (hwithin.trans hb.isInfix)

theorem not_holdsReference_of_not_mem {t : Text} (h : '&' ∉ t) : ¬ HoldsReference t := by
  intro hwithin
  exact h (hwithin.subset (by decide))

mutual

theorem holdsReference_write : ∀ v : Json, Exact v →
    (HoldsReference v.write ↔ ∃ t ∈ v.texts, HoldsReference t)
  | .null, _ => iff_of_false (by decide) (by simp [texts])
  | .bool b, _ => iff_of_false (by cases b <;> decide) (by simp [texts])
  | .int i, _ => by
    have hamp : '&' ∉ writeInt i := not_mem_writeInt i (by decide) rfl
    exact iff_of_false (not_holdsReference_of_not_mem hamp) (by simp [texts])
  | .float _, h => h.elim
  | .string t, _ => (holdsReference_writeString t).trans (by simp [texts])
  | .array items, h => (holdsReference_mark (by decide)).trans (holdsReference_writeItems items h)
  | .object fields, h =>
    (holdsReference_mark (by decide)).trans (holdsReference_writeFields fields h)

theorem holdsReference_writeItems : ∀ items : List Json, ExactItems items →
    (HoldsReference (writeItems items) ↔ ∃ t ∈ itemTexts items, HoldsReference t)
  | [], _ => iff_of_false (by decide) (by simp [itemTexts])
  | v :: rest, h => by
    rw [writeItems, holdsReference_append_moreItems v.write rest h.2, holdsReference_write v h.1]
    simp [itemTexts, or_and_right, exists_or]

theorem holdsReference_append_moreItems : ∀ (a : Text) (items : List Json), ExactItems items →
    (HoldsReference (a ++ writeMoreItems items) ↔
      HoldsReference a ∨ ∃ t ∈ itemTexts items, HoldsReference t)
  | a, [], _ => by
    rw [writeMoreItems, holdsReference_append_mark (by decide)]
    exact or_congr_right (iff_of_false (by decide) (by simp [itemTexts]))
  | a, v :: rest, h => by
    rw [writeMoreItems, List.cons_append, holdsReference_append_mark (by decide),
      holdsReference_append_moreItems v.write rest h.2, holdsReference_write v h.1]
    simp [itemTexts, or_and_right, exists_or]

theorem holdsReference_writeFields : ∀ fields : List (Text × Json), ExactFields fields →
    (HoldsReference (writeFields fields) ↔ ∃ t ∈ fieldTexts fields, HoldsReference t)
  | [], _ => iff_of_false (by decide) (by simp [fieldTexts])
  | (k, v) :: rest, h => by
    rw [writeFields, List.append_assoc, List.cons_append, holdsReference_append_mark (by decide),
      holdsReference_writeString, holdsReference_append_moreFields v.write rest h.2,
      holdsReference_write v h.1]
    simp [fieldTexts, or_and_right, exists_or]

theorem holdsReference_append_moreFields : ∀ (a : Text) (fields : List (Text × Json)),
    ExactFields fields →
    (HoldsReference (a ++ writeMoreFields fields) ↔
      HoldsReference a ∨ ∃ t ∈ fieldTexts fields, HoldsReference t)
  | a, [], _ => by
    rw [writeMoreFields, holdsReference_append_mark (by decide)]
    exact or_congr_right (iff_of_false (by decide) (by simp [fieldTexts]))
  | a, (k, v) :: rest, h => by
    simp only [writeMoreFields, List.cons_append, List.append_assoc]
    rw [holdsReference_append_mark (by decide), holdsReference_append_mark (by decide),
      holdsReference_writeString, holdsReference_append_moreFields v.write rest h.2,
      holdsReference_write v h.1]
    simp [fieldTexts, or_and_right, exists_or]

end

end Hydration.Json
