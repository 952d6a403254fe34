import Hydration.Proofs.Literal.Grammar
import Hydration.Proofs.Value.Text
/-!
# What the text of a clause means

An atom is a word, a number or a filter expression. What the text of a clause is compiled to comes of
atoms and strings by putting them into arrays, and into objects with distinct keys.

* `readAtom`: what an atom is compiled to.
* `meaning_of_compile`: what the text of a clause is compiled to.
-/
namespace Hydration.Literal

/-! ## Atoms -/

/-- The values of words. -/
inductive ReadWord : Value → Prop
  | bool (b : Bool) : ReadWord (.bool b)
  | none : ReadWord .none

theorem readWord {t : Text} {v : Value} (h : wordConstant? t = some v) : ReadWord v := by
  unfold wordConstant? at h
  split at h
  · cases h
    exact .bool true
  · split at h
    · cases h
      exact .bool false
    · split at h <;> cases h
      exact .none

/-- The values of numbers. -/
inductive ReadNumber (t : Text) : Value → Prop
  | float : ReadNumber t (.float ((Number.readFloat? t).getD .nan))
  | int {n : Number.Numeral} (hn : (Number.readNumeral? t).getD ⟨false, []⟩ = n)
    (hlength : n.digits.length ≤ Number.maxDigits) : ReadNumber t (.int n.value)

theorem readNumber {t : Text} {v : Value} (h : numberValue t = .ok v) : ReadNumber t v := by
  unfold numberValue at h
  split at h
  · cases h
    exact .float
  · dsimp only at h
    split at h
    · next hlength =>
      cases h
      exact .int rfl hlength
    · cases h

/-- What atoms are compiled to. -/
inductive ReadAtom (reader : Option FilterReader) (t : Text) : Expression → Prop
  | word {v : Value} (h : ReadWord v) : ReadAtom reader t (.constant v)
  | number {v : Value} (ht : isNumber t = true) (h : numberValue t = .ok v) :
    ReadAtom reader t (.constant v)
  | filter {read : FilterReader} {pipe : Pipe} (hreader : reader = some read)
    (h : read t = .ok pipe) : ReadAtom reader t (.variable t pipe)

section
variable {reader : Option FilterReader}

theorem readAtom {t : Text} {e : Expression} (h : compileAtom reader t = .ok e) :
    ReadAtom reader t e := by
  unfold compileAtom at h
  split at h
  · next hword =>
    cases h
    exact .word (readWord hword)
  split at h
  · next hnumber =>
    obtain ⟨v, hv, rfl⟩ := Failure.map_ok h
    exact .number hnumber hv
  split at h
  · cases h
  · obtain ⟨pipe, hpipe, rfl⟩ := Failure.map_ok h
    exact .filter rfl hpipe

/-! ## Clauses -/

variable (reader) in
/-- What the text of a clause may mean. -/
inductive Meaning : Expression → Prop
  | atom {t : Text} {e : Expression} (h : compileAtom reader t = .ok e) : Meaning e
  | string (t : Text) : Meaning (.constant (.str t))
  | object {entries : List (Text × Expression)} (hnodup : (Expression.keys entries).Nodup)
    (h : ∀ entry ∈ entries, Meaning entry.2) : Meaning (.object entries)
  | array {items : List Expression} (h : ∀ e ∈ items, Meaning e) : Meaning (.array items)

mutual

theorem meaning_of_value? : ∀ (d : Derivation) {e : Expression},
    d.value? reader = some e → Meaning reader e
  | .atom _, _, h => .atom (Derivation.value?_atom_iff.1 h)
  | .string _, _, h => by
    cases h
    exact .string _
  | .emptyObject, _, h => by
    cases h
    exact .object List.nodup_nil (List.forall_mem_nil _)
  | .emptyArray, _, h => by
    cases h
    exact .array (List.forall_mem_nil _)
  | .object key value more _, _, h => by
    obtain ⟨v, entries, hv, hentries, hnodup, rfl⟩ := Derivation.value?_object_iff.1 h
    exact .object hnodup (List.forall_mem_cons.2
      ⟨meaning_of_value? value hv, meaning_of_fieldValues? more hentries⟩)
  | .array item more _, _, h => by
    obtain ⟨v, items, hv, hitems, rfl⟩ := Derivation.value?_array_iff.1 h
    exact .array (List.forall_mem_cons.2
      ⟨meaning_of_value? item hv, meaning_of_itemValues? more hitems⟩)

theorem meaning_of_fieldValues? : ∀ (more : List (Key × Derivation))
    {entries : List (Text × Expression)}, Derivation.fieldValues? reader more = some entries →
    ∀ entry ∈ entries, Meaning reader entry.2
  | [], _, h => by
    cases h
    exact List.forall_mem_nil _
  | (key, value) :: more, _, h => by
    obtain ⟨v, rest, hv, hrest, rfl⟩ := Derivation.fieldValues?_cons_iff.1 h
    exact List.forall_mem_cons.2 ⟨meaning_of_value? value hv, meaning_of_fieldValues? more hrest⟩

theorem meaning_of_itemValues? : ∀ (more : List Derivation) {items : List Expression},
    Derivation.itemValues? reader more = some items → ∀ e ∈ items, Meaning reader e
  | [], _, h => by
    cases h
    exact List.forall_mem_nil _
  | item :: more, _, h => by
    obtain ⟨v, rest, hv, hrest, rfl⟩ := Derivation.itemValues?_cons_iff.1 h
    exact List.forall_mem_cons.2 ⟨meaning_of_value? item hv, meaning_of_itemValues? more hrest⟩

end

/-- What is compiled is a meaning, so that what every meaning is can be shown by induction. -/
theorem meaning_of_compile {text : Text} {e : Expression}
    (h : Expression.compile reader text = .ok e) : Meaning reader e := by
  unfold Expression.compile at h
  dsimp only at h
  split at h
  · obtain ⟨lexemes, -, hread⟩ := (read_eq_ok_iff reader _ e).1 h
    obtain ⟨d, -, hd⟩ := (readAll_eq_ok_iff reader _ e).1 hread
    exact meaning_of_value? d hd
  · split at h
    · cases h
      exact .string _
    · exact .atom h

end

end Hydration.Literal
