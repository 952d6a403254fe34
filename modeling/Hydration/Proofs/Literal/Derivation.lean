import Hydration.Literal.Reader
/-!
# Derivations of inline literals

    value  := object | array | atom | string
    object := '{' [pair (',' pair)* [',']] '}'      pair := (atom | string) ':' value
    array  := '[' [value (',' value)* [',']] ']'

`Derivation` is a derivation in this grammar: `lexemes` is what it derives and `value?` what that
means, which is nothing if an atom cannot be compiled or an object has a key twice.

* `Derivation.eq_of_append`: no derived text starts with another one.
* `Derivation.eq_of_lexemes`: lexemes have one derivation at most.
-/
namespace Hydration.Literal

theorem toOption_eq_some_iff {α ε : Type} {r : Except ε α} {x : α} :
    r.toOption = some x ↔ r = .ok x := by
  cases r <;> simp [Except.toOption]

/-- A key as it is written. -/
inductive Key
  | bare (t : Text)
  | quoted (t : Text)

def Key.lexeme : Key → Lexeme
  | .bare t => .atom t
  | .quoted t => .string t

/-- The text that a key stands for: an atom for itself, a string for its value. -/
def Key.text : Key → Text
  | .bare t => t
  | .quoted t => (Text.Quoted.decode? t).getD []

/-- A derivation of a value. What is in brackets is nothing, or a first part, more parts with a
comma before each, and perhaps a comma at the end. -/
inductive Derivation
  | atom (t : Text)
  | string (t : Text)
  | emptyObject
  | object (key : Key) (value : Derivation) (more : List (Key × Derivation)) (comma : Bool)
  | emptyArray
  | array (item : Derivation) (more : List Derivation) (comma : Bool)

/-- The end of an object or array. -/
def closing (comma : Bool) (bracket : Char) : List Lexeme :=
  (if comma then [.mark ','] else []) ++ [.mark bracket]

namespace Derivation

mutual

/-- The lexemes that are derived. -/
def lexemes : Derivation → List Lexeme
  | .atom t => [.atom t]
  | .string t => [.string t]
  | .emptyObject => [.mark '{', .mark '}']
  | .object key value more comma =>
    .mark '{' :: key.lexeme :: .mark ':' ::
      (lexemes value ++ (moreFields more ++ closing comma '}'))
  | .emptyArray => [.mark '[', .mark ']']
  | .array item more comma =>
    .mark '[' :: (lexemes item ++ (moreItems more ++ closing comma ']'))

/-- The lexemes of further entries, each after a comma. -/
def moreFields : List (Key × Derivation) → List Lexeme
  | [] => []
  | (key, value) :: more =>
    .mark ',' :: key.lexeme :: .mark ':' :: (lexemes value ++ moreFields more)

/-- The lexemes of further items, each after a comma. -/
def moreItems : List Derivation → List Lexeme
  | [] => []
  | item :: more => .mark ',' :: (lexemes item ++ moreItems more)

end

mutual

/-- What a derivation means, if all its atoms can be compiled and the keys of each object differ. -/
def value? (reader : Option FilterReader) : Derivation → Option Expression
  | .atom t => (compileAtom reader t).toOption
  | .string t => some (.constant (.str ((Text.Quoted.decode? t).getD [])))
  | .emptyObject => some (.object [])
  | .object key value more _ => do
    let e ← value? reader value
    let entries ← fieldValues? reader more
    if (key.text :: Expression.keys entries).Nodup then some (.object ((key.text, e) :: entries))
    else none
  | .emptyArray => some (.array [])
  | .array item more _ => do
    let e ← value? reader item
    let items ← itemValues? reader more
    some (.array (e :: items))

def fieldValues? (reader : Option FilterReader) :
    List (Key × Derivation) → Option (List (Text × Expression))
  | [] => some []
  | (key, value) :: more => do
    let e ← value? reader value
    let entries ← fieldValues? reader more
    some ((key.text, e) :: entries)

def itemValues? (reader : Option FilterReader) : List Derivation → Option (List Expression)
  | [] => some []
  | item :: more => do
    let e ← value? reader item
    let items ← itemValues? reader more
    some (e :: items)

end

section
variable {reader : Option FilterReader}

theorem value?_atom_iff {t : Text} {e : Expression} :
    value? reader (.atom t) = some e ↔ compileAtom reader t = .ok e := by
  rw [value?, toOption_eq_some_iff]

theorem value?_object_iff {key : Key} {value : Derivation} {more : List (Key × Derivation)}
    {comma : Bool} {e : Expression} :
    value? reader (.object key value more comma) = some e ↔
      ∃ v entries, value? reader value = some v ∧ fieldValues? reader more = some entries ∧
        (key.text :: Expression.keys entries).Nodup ∧ .object ((key.text, v) :: entries) = e := by
  simp only [value?, Option.bind_eq_bind, Option.bind_eq_some_iff, Option.ite_none_right_eq_some,
    Option.some.injEq, exists_and_left]

theorem value?_array_iff {item : Derivation} {more : List Derivation} {comma : Bool}
    {e : Expression} :
    value? reader (.array item more comma) = some e ↔
      ∃ v items, value? reader item = some v ∧ itemValues? reader more = some items ∧
        .array (v :: items) = e := by
  simp only [value?, Option.bind_eq_bind, Option.bind_eq_some_iff, Option.some.injEq,
    exists_and_left]

theorem fieldValues?_cons_iff {key : Key} {value : Derivation} {more : List (Key × Derivation)}
    {entries : List (Text × Expression)} :
    fieldValues? reader ((key, value) :: more) = some entries ↔
      ∃ v rest, value? reader value = some v ∧ fieldValues? reader more = some rest ∧
        (key.text, v) :: rest = entries := by
  simp only [fieldValues?, Option.bind_eq_bind, Option.bind_eq_some_iff, Option.some.injEq,
    exists_and_left]

theorem itemValues?_cons_iff {item : Derivation} {more : List Derivation}
    {items : List Expression} :
    itemValues? reader (item :: more) = some items ↔
      ∃ v rest, value? reader item = some v ∧ itemValues? reader more = some rest ∧
        v :: rest = items := by
  simp only [itemValues?, Option.bind_eq_bind, Option.bind_eq_some_iff, Option.some.injEq,
    exists_and_left]

end

/-! ## One derivation at most -/

theorem Key.eq_of_lexeme {a b : Key} (h : a.lexeme = b.lexeme) : a = b := by
  cases a <;> cases b <;> simp_all [Key.lexeme]

theorem closing_inj {c d : Bool} {bracket : Char} {u v : List Lexeme} (hb : bracket ≠ ',')
    (h : closing c bracket ++ u = closing d bracket ++ v) : c = d ∧ u = v := by
  cases c <;> cases d <;> simp_all [closing, eq_comm]

/-- A value does not start with a closing bracket. -/
theorem lexemes_ne_bracket (d : Derivation) {bracket : Char} (hb : bracket = ']' ∨ bracket = '}')
    (u v : List Lexeme) : .mark bracket :: u ≠ d.lexemes ++ v := by
  rcases hb with rfl | rfl <;> cases d <;> simp [lexemes]

theorem closing_ne_item (c : Bool) (d : Derivation) (u v : List Lexeme) :
    closing c ']' ++ u ≠ .mark ',' :: (d.lexemes ++ v) := by
  cases c
  · simp [closing]
  · simpa [closing] using lexemes_ne_bracket d (Or.inl rfl) u v

theorem closing_ne_field (c : Bool) (key : Key) (u v : List Lexeme) :
    closing c '}' ++ u ≠ .mark ',' :: key.lexeme :: v := by
  cases c <;> cases key <;> simp [closing, Key.lexeme]

mutual

theorem eq_of_append : ∀ (a b : Derivation) {u v : List Lexeme},
    a.lexemes ++ u = b.lexemes ++ v → a = b ∧ u = v
  | .atom s, b, u, v, h => by
    cases b <;> simp_all [lexemes]
  | .string s, b, u, v, h => by
    cases b <;> simp_all [lexemes]
  | .emptyObject, b, u, v, h => by
    cases b with
    | object key value more comma => cases key <;> simp [lexemes, Key.lexeme] at h
    | _ => simp_all [lexemes]
  | .emptyArray, b, u, v, h => by
    cases b with
    | array item more comma =>
      simp only [lexemes, List.cons_append, List.nil_append, List.cons.injEq, true_and,
        List.append_assoc] at h
      exact absurd h (lexemes_ne_bracket item (Or.inl rfl) _ _)
    | _ => simp_all [lexemes]
  | .object key value more comma, b, u, v, h => by
    cases b with
    | object key' value' more' comma' =>
      simp only [lexemes, List.cons_append, List.cons.injEq, true_and, List.append_assoc] at h
      obtain ⟨hk, h⟩ := h
      obtain ⟨rfl, hmore⟩ := eq_of_append value value' h
      obtain ⟨rfl, rfl, rfl⟩ := moreFields_inj more more' hmore
      exact ⟨by rw [Key.eq_of_lexeme hk], rfl⟩
    | emptyObject => cases key <;> simp [lexemes, Key.lexeme] at h
    | _ => simp [lexemes] at h
  | .array item more comma, b, u, v, h => by
    cases b with
    | array item' more' comma' =>
      simp only [lexemes, List.cons_append, List.cons.injEq, true_and, List.append_assoc] at h
      obtain ⟨rfl, hmore⟩ := eq_of_append item item' h
      obtain ⟨rfl, rfl, rfl⟩ := moreItems_inj more more' hmore
      exact ⟨rfl, rfl⟩
    | emptyArray =>
      simp only [lexemes, List.cons_append, List.nil_append, List.cons.injEq, true_and,
        List.append_assoc] at h
      exact absurd h.symm (lexemes_ne_bracket item (Or.inl rfl) _ _)
    | _ => simp [lexemes] at h

theorem moreFields_inj : ∀ (a b : List (Key × Derivation)) {c d : Bool} {u v : List Lexeme},
    moreFields a ++ (closing c '}' ++ u) = moreFields b ++ (closing d '}' ++ v) →
      a = b ∧ c = d ∧ u = v
  | [], [], c, d, u, v, h => by
    obtain ⟨rfl, rfl⟩ := closing_inj (by decide) h
    exact ⟨rfl, rfl, rfl⟩
  | [], (key, value) :: b, c, d, u, v, h => by
    exact absurd h (by simpa [moreFields] using closing_ne_field c key u _)
  | (key, value) :: a, [], c, d, u, v, h => by
    exact absurd h.symm (by simpa [moreFields] using closing_ne_field d key v _)
  | (key, value) :: a, (key', value') :: b, c, d, u, v, h => by
    simp only [moreFields, List.cons_append, List.cons.injEq, true_and, List.append_assoc] at h
    obtain ⟨hk, h⟩ := h
    obtain ⟨rfl, hmore⟩ := eq_of_append value value' h
    obtain ⟨rfl, rfl, rfl⟩ := moreFields_inj a b hmore
    exact ⟨by rw [Key.eq_of_lexeme hk], rfl, rfl⟩

theorem moreItems_inj : ∀ (a b : List Derivation) {c d : Bool} {u v : List Lexeme},
    moreItems a ++ (closing c ']' ++ u) = moreItems b ++ (closing d ']' ++ v) →
      a = b ∧ c = d ∧ u = v
  | [], [], c, d, u, v, h => by
    obtain ⟨rfl, rfl⟩ := closing_inj (by decide) h
    exact ⟨rfl, rfl, rfl⟩
  | [], item :: b, c, d, u, v, h => by
    exact absurd h (by simpa [moreItems] using closing_ne_item c item u _)
  | item :: a, [], c, d, u, v, h => by
    exact absurd h.symm (by simpa [moreItems] using closing_ne_item d item v _)
  | item :: a, item' :: b, c, d, u, v, h => by
    simp only [moreItems, List.cons_append, List.cons.injEq, true_and, List.append_assoc] at h
    obtain ⟨rfl, hmore⟩ := eq_of_append item item' h
    obtain ⟨rfl, rfl, rfl⟩ := moreItems_inj a b hmore
    exact ⟨rfl, rfl, rfl⟩

end

theorem eq_of_lexemes {a b : Derivation} (h : a.lexemes = b.lexemes) : a = b :=
  (eq_of_append a b (congrArg (· ++ []) h)).1

end Derivation
end Hydration.Literal
