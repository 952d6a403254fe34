import Hydration.Markup
import Hydration.Proofs.Json.Values
/-!
# Reading the props back

The client takes the attribute for the props, reads every reference to a double quote as a quote and
the rest as a document. A quote that was escaped is read back, but so is a reference that stood in a
text of the props, as no ampersand is escaped. So plain props come back exactly if no text in them,
at any depth, holds the reference `&quot;`, and only for such props does the attribute tell which
props it was written for.

* `decodeProps?_serializeProps`: which plain props come back.
* `plain_props_roundtrip`: and which attributes belong to one value of the props only.
-/
namespace Hydration.Markup
open Text (HoldsReference)

/-- The props that a client reads from the attribute. -/
def decodeProps? (json : Text) : Option Value :=
  (Json.read? true (Text.unescapeQuotes json)).map Json.toValue

/-- No text in the value holds a reference to a double quote. -/
def WithoutReferences (v : Value) : Prop := ∀ t ∈ v.texts, ¬ HoldsReference t

theorem decodeProps?_escapeQuotes (document : Text) :
    decodeProps? (Text.escapeQuotes document) =
      (Json.read? true (Text.unescapeQuotes document)).map Json.toValue := by
  rw [decodeProps?, Text.unescapeQuotes_escapeQuotes]

/-- Plain props have JSON, and they come back exactly if they hold no reference. -/
theorem decodeProps?_serializeProps {v : Value} (h : v.IsPlain) :
    ∃ json, serializeProps v = .ok json ∧
      (decodeProps? json = some v ↔ WithoutReferences v) := by
  obtain ⟨j, hencode, hgives⟩ := Value.encode_plain v h
  refine ⟨Text.escapeQuotes j.write, by rw [serializeProps, hencode]; rfl, ?_⟩
  rw [decodeProps?_escapeQuotes]
  constructor
  · intro hdecode t ht
    obtain ⟨read, hread, rfl⟩ := Option.map_eq_some_iff.1 hdecode
    have hspelled := Json.spelled_unescapeQuotes (Json.spelled_write j hgives.exact)
    exact Json.not_holdsReference_of_read? hspelled (Text.not_holdsReference_unescapeQuotes _) hread
      t (Value.mem_texts_toValue read ht)
  · intro hfree
    have hread : Json.read? true (Text.unescapeQuotes j.write) = some j :=
      (Json.read?_unescapeQuotes_write hgives.exact).2 fun t ht => hfree t ((hgives.texts t).1 ht)
    rw [hread, Option.map_some, hgives.value]

/-- **Plain props come back exactly if no text in them holds `&quot;`.** Plain props, of nothing,
truth values, integers, texts, lists and dicts to any depth, have JSON. A client that reads the
references of its attribute and then the document finds the same props, in the same order and of the
same types, if and only if no text or key in them holds the reference; and among the props without
one the attribute belongs to one value only. -/
theorem plain_props_roundtrip {v : Value} (h : v.IsPlain) :
    ∃ json, serializeProps v = .ok json ∧
      (decodeProps? json = some v ↔ WithoutReferences v) ∧
      (WithoutReferences v → ∀ w : Value, w.IsPlain → WithoutReferences w →
        serializeProps w = .ok json → w = v) := by
  obtain ⟨json, hserialize, hdecode⟩ := decodeProps?_serializeProps h
  refine ⟨json, hserialize, hdecode, fun hv w hw hfree hsame => ?_⟩
  obtain ⟨other, hother, hdecoded⟩ := decodeProps?_serializeProps hw
  obtain rfl : json = other := Except.ok.inj (hsame.symm.trans hother)
  exact Option.some.inj ((hdecoded.2 hfree).symm.trans (hdecode.2 hv))

/-- The props `name` with the given value. -/
def singleProp (name : Text) (v : Value) : Value := .dict [(.str name, v)]

theorem isPlain_singleProp (name t : Text) : (singleProp name (.str t)).IsPlain :=
  ⟨⟨⟨name, rfl⟩, rfl, trivial⟩, by simp⟩

/-- A quote and a backslash in a text come back. -/
theorem plain_props_roundtrip_quote :
    (singleProp "a" (.str "\"\\")).IsPlain ∧
      ∃ json, serializeProps (singleProp "a" (.str "\"\\")) = .ok json ∧
        decodeProps? json = some (singleProp "a" (.str "\"\\")) := by
  have hplain := isPlain_singleProp "a" "\"\\"
  obtain ⟨json, hserialize, hdecode, -⟩ := plain_props_roundtrip hplain
  refine ⟨hplain, json, hserialize, hdecode.2 ?_⟩
  have htexts : (singleProp "a" (.str "\"\\")).texts = ["a", "\"\\"] := rfl
  rw [WithoutReferences, htexts]
  decide

/-- A reference in a text does not come back, and props that differ by references and by the marks
between texts have the same attribute. -/
theorem props_with_reference :
    (∃ json, serializeProps (singleProp "a" (.str "&quot;")) = .ok json ∧
      decodeProps? json ≠ some (singleProp "a" (.str "&quot;"))) ∧
    serializeProps (singleProp "a" (.list [.str "x&quot;,&quot;y"])) =
      serializeProps (singleProp "a" (.list [.str "x", .str "y"])) ∧
    singleProp "a" (.list [.str "x&quot;,&quot;y"]) ≠
      singleProp "a" (.list [.str "x", .str "y"]) := by
  refine ⟨?_, rfl, ?_⟩
  · obtain ⟨json, hserialize, hdecode⟩ :=
      decodeProps?_serializeProps (isPlain_singleProp "a" "&quot;")
    have htext : ("&quot;" : Text) ∈ (singleProp "a" (.str "&quot;")).texts := by decide
    exact ⟨json, hserialize, fun hread => hdecode.1 hread _ htext (List.infix_refl _)⟩
  · simp [singleProp, Value.str]

end Hydration.Markup
