import Hydration.Proofs.Literal.Derivation
import Mathlib.Data.List.Nodup
/-!
# The automaton and the grammar

The automaton of inline literals accepts what has a derivation and nothing else. One direction
follows the derivation; for the other one, what the automaton can read next is said for each state
by the `_cases` lemmas, and an induction on the number of lexemes puts the derivation together.

* `run_value`: the automaton reads what is derived as what it means.
* `derived`: whatever the automaton accepts starts with a derivation.
* `compile_literal_iff`: a literal is accepted exactly if all its lexemes are derived together.
-/
namespace Hydration.Literal
open Hydration.Literal.Derivation

/-! ## What is derived is read -/

section
variable (reader : Option FilterReader)

theorem run_closing_object (comma : Bool) (before : List (Text × Expression)) (outer : List Frame)
    (rest : List Lexeme) :
    run reader (.afterField before outer) (closing comma '}' ++ rest) =
      run reader (deliver (.object before.reverse) outer) rest := by
  cases comma <;> simp [closing, run, step]

theorem run_closing_array (comma : Bool) (before : List Expression) (outer : List Frame)
    (rest : List Lexeme) :
    run reader (.afterItem before outer) (closing comma ']' ++ rest) =
      run reader (deliver (.array before.reverse) outer) rest := by
  cases comma <;> simp [closing, run, step]

theorem run_key {before : List (Text × Expression)} {key : Key}
    (h : key.text ∉ Expression.keys before) (outer : List Frame) (rest : List Lexeme) :
    run reader (.entry before outer) (key.lexeme :: .mark ':' :: rest) =
      run reader (.value (.field before key.text :: outer)) rest := by
  cases key <;> simp_all [run, step, Key.lexeme, Key.text, readKey]

/-- A value that starts an item of an array is read like any other. -/
theorem run_item (d : Derivation) (before : List Expression) (outer : List Frame)
    (rest : List Lexeme) :
    run reader (.item before outer) (d.lexemes ++ rest) =
      run reader (.value (.element before :: outer)) (d.lexemes ++ rest) := by
  cases d <;> simp [lexemes, run, step]

mutual

theorem run_value : ∀ (d : Derivation) {e : Expression} (outer : List Frame) (rest : List Lexeme),
    d.value? reader = some e →
      run reader (.value outer) (d.lexemes ++ rest) = run reader (deliver e outer) rest
  | .atom t, e, outer, rest, h => by
    simp [lexemes, run, step, readValue, value?_atom_iff.1 h]
  | .string t, e, outer, rest, h => by
    simp only [value?, Option.some.injEq] at h
    simp [lexemes, run, step, readValue, h]
  | .emptyObject, e, outer, rest, h => by
    simp only [value?, Option.some.injEq] at h
    simp [lexemes, run, step, readValue, ← h]
  | .emptyArray, e, outer, rest, h => by
    simp only [value?, Option.some.injEq] at h
    simp [lexemes, run, step, readValue, ← h]
  | .object key value more comma, e, outer, rest, h => by
    obtain ⟨v, entries, hv, hentries, hnd, rfl⟩ := value?_object_iff.1 h
    have hk : key.text ∉ Expression.keys [] := by simp [Expression.keys]
    simp only [lexemes, List.cons_append, List.append_assoc]
    show run reader (.entry [] outer) _ = _
    rw [run_key reader hk, run_value value _ _ hv]
    show run reader (.afterField [(key.text, v)] outer) _ = _
    rw [run_fields more _ _ _ hentries (by simpa [Expression.keys] using hnd),
      run_closing_object]
    simp
  | .array item more comma, e, outer, rest, h => by
    obtain ⟨v, items, hv, hitems, rfl⟩ := value?_array_iff.1 h
    simp only [lexemes, List.cons_append, List.append_assoc]
    show run reader (.item [] outer) _ = _
    rw [run_item, run_value item _ _ hv]
    show run reader (.afterItem [v] outer) _ = _
    rw [run_items more _ _ _ hitems, run_closing_array]
    simp

theorem run_fields : ∀ (more : List (Key × Derivation)) {entries : List (Text × Expression)}
    (before : List (Text × Expression)) (outer : List Frame) (rest : List Lexeme),
    fieldValues? reader more = some entries →
      (Expression.keys (before.reverse ++ entries)).Nodup →
        run reader (.afterField before outer) (moreFields more ++ rest) =
          run reader (.afterField (entries.reverse ++ before) outer) rest
  | [], entries, before, outer, rest, h, _ => by
    simp only [fieldValues?, Option.some.injEq] at h
    simp [moreFields, ← h]
  | (key, value) :: more, entries, before, outer, rest, h, hnd => by
    obtain ⟨v, entries, hv, hentries, rfl⟩ := fieldValues?_cons_iff.1 h
    have hk : key.text ∉ Expression.keys before := by
      intro hmem
      simp only [Expression.keys, List.map_append, List.map_reverse, List.map_cons] at hnd hmem
      exact (List.nodup_append.1 hnd).2.2 _ (List.mem_reverse.2 hmem) _ List.mem_cons_self rfl
    simp only [moreFields, List.cons_append, List.append_assoc]
    show run reader (.entry before outer) _ = _
    rw [run_key reader hk, run_value value _ _ hv]
    show run reader (.afterField ((key.text, v) :: before) outer) _ = _
    rw [run_fields more _ _ _ hentries (by simpa using hnd)]
    simp

theorem run_items : ∀ (more : List Derivation) {items : List Expression}
    (before : List Expression) (outer : List Frame) (rest : List Lexeme),
    itemValues? reader more = some items →
      run reader (.afterItem before outer) (moreItems more ++ rest) =
        run reader (.afterItem (items.reverse ++ before) outer) rest
  | [], items, before, outer, rest, h => by
    simp only [itemValues?, Option.some.injEq] at h
    simp [moreItems, ← h]
  | item :: more, items, before, outer, rest, h => by
    obtain ⟨v, items, hv, hitems, rfl⟩ := itemValues?_cons_iff.1 h
    simp only [moreItems, List.cons_append, List.append_assoc]
    show run reader (.item before outer) _ = _
    rw [run_item, run_value item _ _ hv]
    show run reader (.afterItem (v :: before) outer) _ = _
    rw [run_items more _ _ _ hitems]
    simp

end

theorem readAll_derivation {d : Derivation} {e : Expression} (h : d.value? reader = some e) :
    readAll reader d.lexemes = .ok e := by
  have := run_value reader d [] [] h
  rw [List.append_nil] at this
  simp [readAll, this, deliver, run, finish]

/-! ## What is read is derived -/

/-- Reads lexemes from a state to the end of the literal. -/
def readFrom (s : State) (lexemes : List Lexeme) : Except Refusal Expression :=
  match run reader s lexemes with
  | .ok s => finish s
  | .error r => .error r

theorem readFrom_cons {s s' : State} {l : Lexeme} (h : step reader s l = .ok s')
    (rest : List Lexeme) : readFrom reader s (l :: rest) = readFrom reader s' rest := by
  simp [readFrom, run, h]

theorem step_of_readFrom {s : State} {l : Lexeme} {rest : List Lexeme} {e : Expression}
    (h : readFrom reader s (l :: rest) = .ok e) :
    ∃ s', step reader s l = .ok s' ∧ readFrom reader s' rest = .ok e := by
  cases hs : step reader s l with
  | error r => simp [readFrom, run, hs] at h
  | ok s' => exact ⟨s', rfl, by rwa [readFrom_cons reader hs] at h⟩

theorem value_cases {outer : List Frame} {lexemes : List Lexeme} {e : Expression}
    (h : readFrom reader (.value outer) lexemes = .ok e) :
    (∃ d v rest, lexemes = Derivation.lexemes d ++ rest ∧ d.value? reader = some v ∧
      readFrom reader (deliver v outer) rest = .ok e) ∨
    (∃ rest, lexemes = .mark '{' :: rest ∧ readFrom reader (.entry [] outer) rest = .ok e) ∨
    ∃ rest, lexemes = .mark '[' :: rest ∧ readFrom reader (.item [] outer) rest = .ok e := by
  cases lexemes with
  | nil => cases h
  | cons l rest =>
    obtain ⟨s, hs, h⟩ := step_of_readFrom reader h
    simp only [step] at hs
    unfold readValue at hs
    split at hs
    · cases hs
      exact Or.inr (Or.inl ⟨rest, rfl, h⟩)
    · cases hs
      exact Or.inr (Or.inr ⟨rest, rfl, h⟩)
    · cases hs
    · rename_i t
      cases hs
      exact Or.inl ⟨.string t, _, rest, rfl, rfl, h⟩
    · rename_i t
      split at hs
      · rename_i v hv
        cases hs
        exact Or.inl ⟨.atom t, v, rest, rfl, by simp [value?, hv, Except.toOption], h⟩
      · cases hs

theorem key_cases {before : List (Text × Expression)} {outer : List Frame} {key : Text} {s : State}
    {rest : List Lexeme} {e : Expression} (hs : readKey before outer key = .ok s)
    (h : readFrom reader s rest = .ok e) :
    key ∉ Expression.keys before ∧ ∃ tail, rest = .mark ':' :: tail ∧
      readFrom reader (.value (.field before key :: outer)) tail = .ok e := by
  unfold readKey at hs
  split at hs
  · cases hs
  · rename_i hk
    cases hs
    refine ⟨by simpa using hk, ?_⟩
    cases rest with
    | nil => cases h
    | cons l tail =>
      obtain ⟨s, hs, htail⟩ := step_of_readFrom reader h
      simp only [step] at hs
      split at hs
      · rename_i hl
        cases hs
        exact ⟨tail, by rw [hl], htail⟩
      · cases hs

theorem entry_cases {before : List (Text × Expression)} {outer : List Frame}
    {lexemes : List Lexeme} {e : Expression}
    (h : readFrom reader (.entry before outer) lexemes = .ok e) :
    (∃ rest, lexemes = .mark '}' :: rest ∧
      readFrom reader (deliver (.object before.reverse) outer) rest = .ok e) ∨
    ∃ key rest, lexemes = Key.lexeme key :: .mark ':' :: rest ∧
      key.text ∉ Expression.keys before ∧
      readFrom reader (.value (.field before key.text :: outer)) rest = .ok e := by
  cases lexemes with
  | nil => cases h
  | cons l rest =>
    obtain ⟨s, hs, hrest⟩ := step_of_readFrom reader h
    simp only [step] at hs
    split at hs
    · cases hs
      exact Or.inl ⟨rest, rfl, hrest⟩
    · cases hs
    · rename_i t
      obtain ⟨hk, tail, rfl, htail⟩ := key_cases reader hs hrest
      exact Or.inr ⟨.quoted t, tail, rfl, hk, htail⟩
    · rename_i t
      obtain ⟨hk, tail, rfl, htail⟩ := key_cases reader hs hrest
      exact Or.inr ⟨.bare t, tail, rfl, hk, htail⟩

theorem item_cases {before : List Expression} {outer : List Frame} {lexemes : List Lexeme}
    {e : Expression} (h : readFrom reader (.item before outer) lexemes = .ok e) :
    (∃ rest, lexemes = .mark ']' :: rest ∧
      readFrom reader (deliver (.array before.reverse) outer) rest = .ok e) ∨
    readFrom reader (.value (.element before :: outer)) lexemes = .ok e := by
  cases lexemes with
  | nil => cases h
  | cons l rest =>
    obtain ⟨s, hs, h⟩ := step_of_readFrom reader h
    simp only [step] at hs
    split at hs
    · rename_i hl
      cases hs
      exact Or.inl ⟨rest, by rw [hl], h⟩
    · right
      rwa [readFrom_cons reader (s := .value _) hs]

theorem afterField_cases {before : List (Text × Expression)} {outer : List Frame}
    {lexemes : List Lexeme} {e : Expression}
    (h : readFrom reader (.afterField before outer) lexemes = .ok e) :
    (∃ rest, lexemes = .mark '}' :: rest ∧
      readFrom reader (deliver (.object before.reverse) outer) rest = .ok e) ∨
    ∃ rest, lexemes = .mark ',' :: rest ∧ readFrom reader (.entry before outer) rest = .ok e := by
  cases lexemes with
  | nil => cases h
  | cons l rest =>
    obtain ⟨s, hs, h⟩ := step_of_readFrom reader h
    simp only [step] at hs
    split at hs
    · rename_i hl
      cases hs
      exact Or.inl ⟨rest, by rw [hl], h⟩
    · split at hs
      · rename_i hl
        cases hs
        exact Or.inr ⟨rest, by rw [hl], h⟩
      · cases hs

theorem afterItem_cases {before : List Expression} {outer : List Frame} {lexemes : List Lexeme}
    {e : Expression} (h : readFrom reader (.afterItem before outer) lexemes = .ok e) :
    (∃ rest, lexemes = .mark ']' :: rest ∧
      readFrom reader (deliver (.array before.reverse) outer) rest = .ok e) ∨
    ∃ rest, lexemes = .mark ',' :: rest ∧ readFrom reader (.item before outer) rest = .ok e := by
  cases lexemes with
  | nil => cases h
  | cons l rest =>
    obtain ⟨s, hs, h⟩ := step_of_readFrom reader h
    simp only [step] at hs
    split at hs
    · rename_i hl
      cases hs
      exact Or.inl ⟨rest, by rw [hl], h⟩
    · split at hs
      · rename_i hl
        cases hs
        exact Or.inr ⟨rest, by rw [hl], h⟩
      · cases hs

/-- What the automaton accepts from a value on starts with a derivation of one. -/
def ValueDerived (lexemes : List Lexeme) : Prop :=
  ∀ outer e, readFrom reader (.value outer) lexemes = .ok e →
    ∃ d v rest, lexemes = Derivation.lexemes d ++ rest ∧ d.value? reader = some v ∧
      readFrom reader (deliver v outer) rest = .ok e

/-- What it accepts after an entry starts with further entries and the end of the object. -/
def FieldsDerived (lexemes : List Lexeme) : Prop :=
  ∀ before outer e, (Expression.keys before).Nodup →
    readFrom reader (.afterField before outer) lexemes = .ok e →
      ∃ more comma entries rest, lexemes = moreFields more ++ (closing comma '}' ++ rest) ∧
        fieldValues? reader more = some entries ∧
        (Expression.keys (before.reverse ++ entries)).Nodup ∧
        readFrom reader (deliver (.object (before.reverse ++ entries)) outer) rest = .ok e

/-- What it accepts after an item starts with further items and the end of the array. -/
def ItemsDerived (lexemes : List Lexeme) : Prop :=
  ∀ before outer e, readFrom reader (.afterItem before outer) lexemes = .ok e →
    ∃ more comma items rest, lexemes = moreItems more ++ (closing comma ']' ++ rest) ∧
      itemValues? reader more = some items ∧
      readFrom reader (deliver (.array (before.reverse ++ items)) outer) rest = .ok e

theorem shorter_item (l : Lexeme) (a b : List Lexeme) : b.length < (l :: (a ++ b)).length := by
  simp only [List.length_cons, List.length_append]
  omega

theorem shorter_field (l k m : Lexeme) (a b : List Lexeme) :
    b.length < (l :: k :: m :: (a ++ b)).length := by
  simp only [List.length_cons, List.length_append]
  omega

theorem valueDerived_of_shorter {lexemes : List Lexeme}
    (hf : ∀ tail : List Lexeme, tail.length < lexemes.length → FieldsDerived reader tail)
    (hi : ∀ tail : List Lexeme, tail.length < lexemes.length → ItemsDerived reader tail)
    (hv : ∀ tail : List Lexeme, tail.length < lexemes.length → ValueDerived reader tail) :
    ValueDerived reader lexemes := by
  intro outer e h
  rcases value_cases reader h with hleaf | ⟨rest, rfl, hobject⟩ | ⟨rest, rfl, harray⟩
  · exact hleaf
  · rcases entry_cases reader hobject with ⟨tail, rfl, hend⟩ | ⟨key, tail, rfl, -, hvalue⟩
    · exact ⟨.emptyObject, .object [], tail, rfl, rfl, hend⟩
    · obtain ⟨d, v, after, rfl, hd, hmore⟩ := hv tail (shorter_field _ _ _ [] tail) _ _ hvalue
      obtain ⟨more, comma, entries, left, rfl, hm, hnd, hend⟩ :=
        hf after (shorter_field _ _ _ _ _) [(key.text, v)] outer e (by simp [Expression.keys]) hmore
      refine ⟨.object key d more comma, .object ((key.text, v) :: entries), left, ?_, ?_, ?_⟩
      · simp [lexemes]
      · simp only [value?, hd, hm, Option.bind_eq_bind, Option.bind_some]
        rw [if_pos (by simpa [Expression.keys] using hnd)]
      · simpa using hend
  · rcases item_cases reader harray with ⟨tail, rfl, hend⟩ | hvalue
    · exact ⟨.emptyArray, .array [], tail, rfl, rfl, hend⟩
    · obtain ⟨d, v, after, rfl, hd, hmore⟩ := hv rest (by simp) _ _ hvalue
      obtain ⟨more, comma, items, left, rfl, hm, hend⟩ :=
        hi after (shorter_item _ _ _) [v] outer e hmore
      refine ⟨.array d more comma, .array (v :: items), left, ?_, ?_, ?_⟩
      · simp [lexemes]
      · simp [value?, hd, hm]
      · simpa using hend

theorem fieldsDerived_of_shorter {lexemes : List Lexeme}
    (hf : ∀ tail : List Lexeme, tail.length < lexemes.length → FieldsDerived reader tail)
    (hv : ∀ tail : List Lexeme, tail.length < lexemes.length → ValueDerived reader tail) :
    FieldsDerived reader lexemes := by
  intro before outer e hnd h
  rcases afterField_cases reader h with ⟨rest, rfl, hend⟩ | ⟨rest, rfl, hentry⟩
  · refine ⟨[], false, [], rest, by simp [moreFields, closing], rfl, ?_, by simpa using hend⟩
    simpa [Expression.keys, List.map_reverse, List.nodup_reverse] using hnd
  · rcases entry_cases reader hentry with ⟨tail, rfl, hend⟩ | ⟨key, tail, rfl, hk, hvalue⟩
    · refine ⟨[], true, [], tail, by simp [moreFields, closing], rfl, ?_, by simpa using hend⟩
      simpa [Expression.keys, List.map_reverse, List.nodup_reverse] using hnd
    · obtain ⟨d, v, after, rfl, hd, hmore⟩ := hv tail (shorter_field _ _ _ [] tail) _ _ hvalue
      obtain ⟨more, comma, entries, left, rfl, hm, hnd', hend⟩ :=
        hf after (shorter_field _ _ _ _ _) ((key.text, v) :: before) outer e
          (List.nodup_cons.2 ⟨hk, hnd⟩) hmore
      refine ⟨(key, d) :: more, comma, (key.text, v) :: entries, left, ?_, ?_, ?_, ?_⟩
      · simp [moreFields]
      · simp [fieldValues?, hd, hm]
      · simpa using hnd'
      · simpa using hend

theorem itemsDerived_of_shorter {lexemes : List Lexeme}
    (hi : ∀ tail : List Lexeme, tail.length < lexemes.length → ItemsDerived reader tail)
    (hv : ∀ tail : List Lexeme, tail.length < lexemes.length → ValueDerived reader tail) :
    ItemsDerived reader lexemes := by
  intro before outer e h
  rcases afterItem_cases reader h with ⟨rest, rfl, hend⟩ | ⟨rest, rfl, hitem⟩
  · exact ⟨[], false, [], rest, by simp [moreItems, closing], rfl, by simpa using hend⟩
  · rcases item_cases reader hitem with ⟨tail, rfl, hend⟩ | hvalue
    · exact ⟨[], true, [], tail, by simp [moreItems, closing], rfl, by simpa using hend⟩
    · obtain ⟨d, v, after, rfl, hd, hmore⟩ := hv rest (by simp) _ _ hvalue
      obtain ⟨more, comma, items, left, rfl, hm, hend⟩ :=
        hi after (shorter_item _ _ _) (v :: before) outer e hmore
      refine ⟨d :: more, comma, v :: items, left, ?_, ?_, ?_⟩
      · simp [moreItems]
      · simp [itemValues?, hd, hm]
      · simpa using hend

theorem derived (lexemes : List Lexeme) :
    ValueDerived reader lexemes ∧ FieldsDerived reader lexemes ∧ ItemsDerived reader lexemes := by
  induction h : lexemes.length using Nat.strongRecOn generalizing lexemes with
  | ind n ih =>
    subst h
    have hv := fun (tail : List Lexeme) hl => (ih tail.length hl tail rfl).1
    have hf := fun (tail : List Lexeme) hl => (ih tail.length hl tail rfl).2.1
    have hi := fun (tail : List Lexeme) hl => (ih tail.length hl tail rfl).2.2
    exact ⟨valueDerived_of_shorter reader hf hi hv, fieldsDerived_of_shorter reader hf hv,
      itemsDerived_of_shorter reader hi hv⟩

theorem derivation_of_readAll {lexemes : List Lexeme} {e : Expression}
    (h : readAll reader lexemes = .ok e) :
    ∃ d : Derivation, d.lexemes = lexemes ∧ d.value? reader = some e := by
  obtain ⟨d, v, rest, rfl, hd, hend⟩ := (derived reader lexemes).1 [] e h
  cases rest with
  | nil =>
    simp only [deliver, readFrom, run, finish, Except.ok.injEq] at hend
    exact ⟨d, by simp, by rw [hd, hend]⟩
  | cons l rest => cases hend

/-- Exactly the derived lexemes are accepted, as what they mean. -/
theorem readAll_eq_ok_iff (lexemes : List Lexeme) (e : Expression) :
    readAll reader lexemes = .ok e ↔
      ∃ d : Derivation, d.lexemes = lexemes ∧ d.value? reader = some e := by
  constructor
  · exact derivation_of_readAll reader
  · rintro ⟨d, rfl, hd⟩
    exact readAll_derivation reader hd

/-! ## Refusals -/

theorem readValue_refusal {outer : List Frame} {l : Lexeme} {f : Failure}
    (h : readValue reader outer l = .error (.atom f)) :
    ∃ a, l = .atom a ∧ compileAtom reader a = .error f := by
  unfold readValue at h
  split at h
  · cases h
  · cases h
  · cases h
  · cases h
  · rename_i a
    split at h
    · cases h
    · rename_i hc
      cases h
      exact ⟨a, rfl, hc⟩

theorem step_refusal {s : State} {l : Lexeme} {f : Failure}
    (h : step reader s l = .error (.atom f)) :
    ∃ a, l = .atom a ∧ compileAtom reader a = .error f := by
  cases s with
  | value outer => exact readValue_refusal reader h
  | entry before outer =>
    simp only [step, readKey] at h
    split at h
    · cases h
    · cases h
    · split at h <;> cases h
    · split at h <;> cases h
  | colon before key outer =>
    simp only [step] at h
    split at h <;> cases h
  | afterField before outer =>
    simp only [step] at h
    split at h
    · cases h
    · split at h <;> cases h
  | item before outer =>
    simp only [step] at h
    split at h
    · cases h
    · exact readValue_refusal reader h
  | afterItem before outer =>
    simp only [step] at h
    split at h
    · cases h
    · split at h <;> cases h
  | done e => cases h

theorem readFrom_refusal {s : State} {lexemes : List Lexeme} {f : Failure}
    (h : readFrom reader s lexemes = .error (.atom f)) :
    ∃ a, .atom a ∈ lexemes ∧ compileAtom reader a = .error f := by
  induction lexemes generalizing s with
  | nil => cases s <;> cases h
  | cons l rest ih =>
    cases hs : step reader s l with
    | ok s' =>
      rw [readFrom_cons reader hs] at h
      obtain ⟨a, ha, hc⟩ := ih h
      exact ⟨a, List.mem_cons_of_mem _ ha, hc⟩
    | error r =>
      simp only [readFrom, run, hs, Except.error.injEq] at h
      subst h
      obtain ⟨a, rfl, hc⟩ := step_refusal reader hs
      exact ⟨a, List.mem_cons_self, hc⟩

end

/-! ## Inline literals -/

theorem lex_eq_ok_iff (t : Text) (lexemes : List Lexeme) :
    lex t = .ok lexemes ↔ lexFrom t = .ok lexemes := by
  unfold lex
  split
  · rename_i h
    simp [h]
  · rename_i h
    simp [h]

theorem lex_eq_error {t : Text} {f : Failure} (h : lex t = .error f) :
    ∃ c, f = .literal t (.unexpectedCharacter c) := by
  unfold lex at h
  split at h
  · cases h
  · rename_i c _
    cases h
    exact ⟨c, rfl⟩

section
variable (reader : Option FilterReader)

theorem read_eq_ok_iff (t : Text) (e : Expression) :
    read reader t = .ok e ↔ ∃ lexemes, lex t = .ok lexemes ∧ readAll reader lexemes = .ok e := by
  unfold read
  split
  · rename_i hl
    simp [hl]
  · rename_i lexemes hl
    simp only [hl, Except.ok.injEq, exists_eq_left']
    split
    · rename_i hr
      simp [hr]
    · rename_i hr
      simp [hr]
    · rename_i hr
      simp [hr]

theorem read_eq_error {t : Text} {f : Failure} (h : read reader t = .error f) :
    (∃ fault, f = .literal t fault) ∨
      ∃ lexemes a, lex t = .ok lexemes ∧ .atom a ∈ lexemes ∧ compileAtom reader a = .error f := by
  unfold read at h
  split at h
  · rename_i hl
    cases h
    obtain ⟨c, rfl⟩ := lex_eq_error hl
    exact Or.inl ⟨_, rfl⟩
  · rename_i lexemes hl
    split at h
    · cases h
    · cases h
      exact Or.inl ⟨_, rfl⟩
    · rename_i hr
      cases h
      obtain ⟨a, ha, hc⟩ := readFrom_refusal reader hr
      exact Or.inr ⟨lexemes, a, hl, ha, hc⟩

/-- A text whose lexemes are derived is read as what they mean, if that is something. -/
theorem toOption_read {t : Text} {d : Derivation} (h : lex t = .ok d.lexemes) :
    (read reader t).toOption = d.value? reader := by
  ext e
  rw [toOption_eq_some_iff, read_eq_ok_iff]
  constructor
  · rintro ⟨lexemes, hl, hr⟩
    rw [h] at hl
    cases hl
    obtain ⟨d', hd', hvalue⟩ := (readAll_eq_ok_iff reader _ e).1 hr
    rwa [eq_of_lexemes hd'] at hvalue
  · exact fun hd => ⟨_, h, readAll_derivation reader hd⟩

theorem compile_eq_read {t : Text} (ht : opens (Text.trim t) = true) :
    Expression.compile reader t = read reader (Text.trim t) := by
  simp [Expression.compile, ht]

/-- **The grammar of inline literals.** A text that opens an inline literal is accepted if and only
if its lexemes have a derivation that means something, and as what it means; the lexemes of a text
have one derivation at most; a text that is refused has a fault of its own, or an atom that is
refused in this way. -/
theorem compile_literal_iff {t : Text} (ht : opens (Text.trim t) = true) :
    (∀ e, Expression.compile reader t = .ok e ↔
      ∃ d : Derivation, lex (Text.trim t) = .ok d.lexemes ∧ d.value? reader = some e) ∧
    (∀ lexemes, lex (Text.trim t) = .ok lexemes →
      ∀ a b : Derivation, a.lexemes = lexemes → b.lexemes = lexemes → a = b) ∧
    ∀ f, Expression.compile reader t = .error f →
      (∃ fault, f = .literal (Text.trim t) fault) ∨
      ∃ lexemes a, lex (Text.trim t) = .ok lexemes ∧ .atom a ∈ lexemes ∧
        compileAtom reader a = .error f := by
  rw [compile_eq_read reader ht]
  refine ⟨fun e => ?_, fun lexemes _ a b ha hb => eq_of_lexemes (ha.trans hb.symm), fun f => ?_⟩
  · rw [read_eq_ok_iff]
    constructor
    · rintro ⟨lexemes, hl, hr⟩
      obtain ⟨d, rfl, hd⟩ := (readAll_eq_ok_iff reader lexemes e).1 hr
      exact ⟨d, hl, hd⟩
    · rintro ⟨d, hl, hd⟩
      exact ⟨_, hl, (readAll_eq_ok_iff reader _ e).2 ⟨d, rfl, hd⟩⟩
  · exact read_eq_error reader

end

/-- A nested literal with commas at its ends. -/
theorem compile_literal_nested :
    opens (Text.trim " \x7ba: [null, \"b\",],\x7d ".toList) = true ∧
    Expression.compile none " \x7ba: [null, \"b\",],\x7d ".toList =
      .ok (.object [("a".toList, .array [.constant .none, .constant (.str "b".toList)])]) := by
  have h : opens (Text.trim " \x7ba: [null, \"b\",],\x7d ".toList) = true := by decide
  refine ⟨h, ((compile_literal_iff none h).1 _).2
    ⟨.object (.bare "a".toList)
      (.array (.atom "null".toList) [.string "\"b\"".toList] true) [] true, ?_, ?_⟩⟩
  · cbv
  · rfl

end Hydration.Literal
