import Hydration.Json.Encode
import Hydration.Proofs.Json.Spelled
/-!
# Plain values as documents

Plain values are those that a document can give back: nothing, truth values, integers that can be
written, plain text, and lists and dicts of these whose keys are distinct texts. Each of them has a
document, and the value of the document is the value itself, with the same texts.

* `encode_plain`: a plain value is the value of its document.
* `mem_texts_toValue`: the value of a document has no other texts.
-/
namespace Hydration
open Json (Exact ExactItems ExactFields)

namespace Json

mutual

/-- The value of a document. Of several fields of one name the last one counts. -/
def toValue : Json → Value
  | .null => .none
  | .bool b => .bool b
  | .int i => .int i
  | .float x => .float x
  | .string t => .str t
  | .array items => .list (itemValues items)
  | .object fields => .dict (Value.ofEntries (fieldValues fields))

def itemValues : List Json → List Value
  | [] => []
  | v :: rest => toValue v :: itemValues rest

def fieldValues : List (Text × Json) → List (Value × Value)
  | [] => []
  | (k, v) :: rest => (.str k, toValue v) :: fieldValues rest

end

end Json

namespace Value

mutual

/-- The texts of a value and of the values in it, keys included. -/
def texts : Value → List Text
  | .text _ t => [t]
  | .list items => itemTexts items
  | .dict entries => entryTexts entries
  | _ => []

def itemTexts : List Value → List Text
  | [] => []
  | v :: rest => texts v ++ itemTexts rest

def entryTexts : List (Value × Value) → List Text
  | [] => []
  | (k, v) :: rest => texts k ++ (texts v ++ entryTexts rest)

end

mutual

/-- A value that a document can give back. -/
def IsPlain : Value → Prop
  | .none | .bool _ => True
  | .int i => i.natAbs < Nat.pow 10 Number.maxDigits
  | .text safe _ => safe = false
  | .list items => PlainItems items
  | .dict entries => PlainEntries entries ∧ (entries.map (·.1)).Nodup
  | _ => False

def PlainItems : List Value → Prop
  | [] => True
  | v :: rest => IsPlain v ∧ PlainItems rest

/-- The keys of a plain dict are plain texts. -/
def PlainEntries : List (Value × Value) → Prop
  | [] => True
  | (k, v) :: rest => (∃ t, k = .str t) ∧ IsPlain v ∧ PlainEntries rest

end

/-! ## Documents of plain values -/

theorem exists_str_of_mem {entries : List (Value × Value)} (h : PlainEntries entries) :
    ∀ e ∈ entries, ∃ t, e.1 = .str t := by
  induction entries with
  | nil => simp
  | cons e rest ih =>
    obtain ⟨hkey, -, hrest⟩ := h
    exact List.forall_mem_cons.2 ⟨hkey, ih hrest⟩

/-- The entries of a plain dict are put in as they are. -/
theorem ofEntries_of_plain {entries : List (Value × Value)} (h : PlainEntries entries)
    (hnodup : (entries.map (·.1)).Nodup) : ofEntries entries = entries := by
  refine ofEntries_of_pairwise ((List.pairwise_map.1 hnodup).imp_of_mem ?_)
  intro a b ha hb hne
  obtain ⟨s, hs⟩ := exists_str_of_mem h a ha
  obtain ⟨t, ht⟩ := exists_str_of_mem h b hb
  rw [hs, ht] at hne ⊢
  refine equals_str_of_ne false ?_
  rintro rfl
  exact hne rfl

theorem intText?_of_lt {i : Int} (h : i.natAbs < Nat.pow 10 Number.maxDigits) :
    Number.intText? i = some (Json.writeInt i) := by
  unfold Number.intText?
  -- the bound must not be evaluated
  generalize Nat.pow 10 Number.maxDigits = bound at *
  rw [if_pos h, Json.writeInt]

/-- An integer that has a text is a document. -/
theorem encode_int {i : Int} {t : Text} (h : Number.intText? i = some t) :
    encode (.int i) = .ok (.int i) := by
  have htext : intText i = .ok t := by
    unfold intText
    rw [h]
  have hleaf : encode (.int i) = (intText i).map fun _ => .int i := rfl
  rw [hleaf, htext]
  rfl

/-- The document gives the value back, with the same texts. -/
structure Gives (j : Json) (v : Value) : Prop where
  exact : j.Exact
  value : j.toValue = v
  texts : ∀ t, t ∈ j.texts ↔ t ∈ v.texts

mutual

theorem encode_plain : ∀ v : Value, v.IsPlain → ∃ j, v.encode = .ok j ∧ Gives j v
  | .none, _ => ⟨.null, rfl, trivial, rfl, fun _ => Iff.rfl⟩
  | .bool b, _ => ⟨.bool b, rfl, trivial, rfl, fun _ => Iff.rfl⟩
  | .int i, h => by
    rw [IsPlain] at h
    exact ⟨.int i, encode_int (intText?_of_lt h), trivial, rfl, fun _ => Iff.rfl⟩
  | .text _ t, h => by
    obtain rfl := h
    exact ⟨.string t, rfl, trivial, rfl, fun _ => Iff.rfl⟩
  | .list items, h => by
    obtain ⟨js, hencode, hexact, hvalue, htexts⟩ := encodeItems_plain items h
    exact ⟨.array js, by rw [encode, hencode]; rfl, hexact, by rw [Json.toValue, hvalue], htexts⟩
  | .dict entries, h => by
    obtain ⟨fields, hencode, hexact, hvalue, htexts⟩ := encodeEntries_plain entries h.1
    refine ⟨.object fields, by rw [encode, hencode]; rfl, hexact, ?_, htexts⟩
    rw [Json.toValue, hvalue, ofEntries_of_plain h.1 h.2]

theorem encodeItems_plain : ∀ items : List Value, PlainItems items →
    ∃ js, encodeItems items = .ok js ∧ ExactItems js ∧ Json.itemValues js = items ∧
      ∀ t, t ∈ Json.itemTexts js ↔ t ∈ itemTexts items
  | [], _ => ⟨[], rfl, trivial, rfl, fun _ => Iff.rfl⟩
  | v :: rest, h => by
    obtain ⟨j, hj, hgives⟩ := encode_plain v h.1
    obtain ⟨js, hencode, hexact, hvalue, htexts⟩ := encodeItems_plain rest h.2
    refine ⟨j :: js, by rw [encodeItems, hj, hencode]; rfl, ⟨hgives.exact, hexact⟩, ?_, fun t => ?_⟩
    · rw [Json.itemValues, hgives.value, hvalue]
    · simp [Json.itemTexts, itemTexts, hgives.texts, htexts]

theorem encodeEntries_plain : ∀ entries : List (Value × Value), PlainEntries entries →
    ∃ fields, encodeEntries entries = .ok fields ∧ ExactFields fields ∧
      Json.fieldValues fields = entries ∧
      ∀ t, t ∈ Json.fieldTexts fields ↔ t ∈ entryTexts entries
  | [], _ => ⟨[], rfl, trivial, rfl, fun _ => Iff.rfl⟩
  | (k, v) :: rest, h => by
    obtain ⟨⟨name, rfl⟩, hv, hrest⟩ := h
    obtain ⟨j, hj, hgives⟩ := encode_plain v hv
    obtain ⟨fields, hencode, hexact, hvalue, htexts⟩ := encodeEntries_plain rest hrest
    have hkey : encodeKey (.str name) = .ok name := rfl
    refine ⟨(name, j) :: fields, by rw [encodeEntries, hkey, hj, hencode]; rfl,
      ⟨hgives.exact, hexact⟩, ?_, fun t => ?_⟩
    · rw [Json.fieldValues, hgives.value, hvalue]
    · simp [Json.fieldTexts, entryTexts, texts, str, hgives.texts, htexts]

end

/-! ## Texts of the values of documents -/

theorem mem_itemTexts {t : Text} {items : List Value} :
    t ∈ itemTexts items ↔ ∃ v ∈ items, t ∈ v.texts := by
  induction items with
  | nil => simp [itemTexts]
  | cons v rest ih => simp [itemTexts, ih]

theorem mem_entryTexts {t : Text} {entries : List (Value × Value)} :
    t ∈ entryTexts entries ↔ ∃ e ∈ entries, t ∈ e.1.texts ∨ t ∈ e.2.texts := by
  induction entries with
  | nil => simp [entryTexts]
  | cons e rest ih => simp [entryTexts, ih, or_assoc]

mutual

/-- The value of a document has no texts but those of the document. -/
theorem mem_texts_toValue {t : Text} : ∀ j : Json, t ∈ j.toValue.texts → t ∈ j.texts
  | .null, h => h
  | .bool _, h => h
  | .int _, h => h
  | .float _, h => h
  | .string _, h => h
  | .array items, h => mem_texts_itemValues items h
  | .object fields, h => by
    obtain ⟨e, he, ht⟩ := mem_entryTexts.1 h
    have hfields := forall_ofEntries (P := fun k => t ∈ k.texts → t ∈ Json.fieldTexts fields)
      (Q := fun v => t ∈ v.texts → t ∈ Json.fieldTexts fields) (mem_texts_fieldValues fields) e he
    exact ht.elim hfields.1 hfields.2

theorem mem_texts_itemValues {t : Text} : ∀ items : List Json,
    t ∈ itemTexts (Json.itemValues items) → t ∈ Json.itemTexts items
  | [], h => h
  | v :: rest, h => by
    rw [Json.itemValues, itemTexts, List.mem_append] at h
    exact List.mem_append.2 (h.imp (mem_texts_toValue v) (mem_texts_itemValues rest))

theorem mem_texts_fieldValues {t : Text} : ∀ fields : List (Text × Json),
    ∀ e ∈ Json.fieldValues fields,
      (t ∈ e.1.texts → t ∈ Json.fieldTexts fields) ∧ (t ∈ e.2.texts → t ∈ Json.fieldTexts fields)
  | [], e, he => by cases he
  | (k, v) :: rest, e, he => by
    rw [Json.fieldTexts, List.mem_cons, List.mem_append]
    rcases List.mem_cons.1 he with rfl | he
    · exact ⟨fun h => .inl (List.mem_singleton.1 h), fun h => .inr (.inl (mem_texts_toValue v h))⟩
    · obtain ⟨hkey, hvalue⟩ := mem_texts_fieldValues rest e he
      exact ⟨fun h => .inr (.inr (hkey h)), fun h => .inr (.inr (hvalue h))⟩

end

end Value
end Hydration
