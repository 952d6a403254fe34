import Hydration.Proofs.Literal.Depth
import Mathlib.Data.List.Chain
/-!
# Balanced lexemes

The brackets of what is derived are balanced, whether or not it means something: none is closed
before it was opened, and none is left open. So an object or array is open from its first lexeme up
to its last one. Strings and atoms stand next to marks only.

* `balanced_lexemes`: what is derived is balanced.
* `weight_pos_of_bracketed`: an object or array is open until it ends.
* `apart_lexemes`: no two strings or atoms are neighbours.
-/
namespace Hydration.Literal

@[simp] theorem weight_append (a b : List Lexeme) : weight (a ++ b) = weight a + weight b := by
  induction a with
  | nil => simp
  | cons l a ih =>
    rw [List.cons_append, weight_cons, weight_cons, ih]
    omega

/-! ## Brackets -/

/-- No bracket is closed before it was opened, and none is left open. -/
structure Balanced (lexemes : List Lexeme) : Prop where
  closed : weight lexemes = 0
  opened : ∀ a, a <+: lexemes → 0 ≤ weight a

theorem balanced_nil : Balanced [] where
  closed := rfl
  opened := by
    intro a ha
    have hweight : weight a = 0 := by rw [List.prefix_nil.1 ha, weight_nil]
    omega

theorem Balanced.append {a b : List Lexeme} (ha : Balanced a) (hb : Balanced b) :
    Balanced (a ++ b) where
  closed := by rw [weight_append, ha.closed, hb.closed, Int.add_zero]
  opened := by
    intro p hp
    rcases List.prefix_or_prefix_of_prefix hp (List.prefix_append a b) with h | ⟨q, rfl⟩
    · exact ha.opened p h
    · rw [weight_append, ha.closed, Int.zero_add]
      exact hb.opened q ((List.prefix_append_right_inj a).1 hp)

/-- A lexeme that is no bracket does not matter. -/
theorem Balanced.cons {l : Lexeme} {rest : List Lexeme} (hl : l.weight = 0)
    (h : Balanced rest) : Balanced (l :: rest) where
  closed := by rw [weight_cons, hl, h.closed, Int.add_zero]
  opened := by
    intro p hp
    rcases List.prefix_cons_iff.1 hp with rfl | ⟨q, rfl, hq⟩
    · exact Int.le_refl 0
    · rw [weight_cons, hl, Int.zero_add]
      exact h.opened q hq

/-- Between brackets something is open from the first bracket up to the last one. -/
theorem Balanced.weight_pos {l r : Lexeme} {inner a b : List Lexeme} (hl : l.weight = 1)
    (h : Balanced inner) (hab : l :: (inner ++ [r]) = a ++ b) (ha : a ≠ []) (hb : b ≠ []) :
    0 < weight a := by
  obtain ⟨x, a, rfl⟩ := List.exists_cons_of_ne_nil ha
  rw [List.cons_append, List.cons.injEq] at hab
  obtain ⟨rfl, hinner⟩ := hab
  obtain ⟨b, y, rfl⟩ : ∃ init last, b = init ++ [last] :=
    ⟨_, _, (List.dropLast_concat_getLast hb).symm⟩
  rw [← List.append_assoc] at hinner
  have := h.opened a ⟨b, (List.append_inj_left' hinner rfl).symm⟩
  rw [weight_cons, hl]
  omega

theorem Balanced.bracketed {l r : Lexeme} {inner : List Lexeme} (hl : l.weight = 1)
    (hr : r.weight = -1) (h : Balanced inner) : Balanced (l :: (inner ++ [r])) where
  closed := by
    simp only [weight_cons, weight_append, weight_nil, hl, hr, h.closed]
    omega
  opened := by
    rintro a ⟨b, hab⟩
    by_cases ha : a = []
    · have hweight : weight a = 0 := by rw [ha, weight_nil]
      omega
    · by_cases hb : b = []
      · rw [hb, List.append_nil] at hab
        simp only [hab, weight_cons, weight_append, weight_nil, hl, hr, h.closed]
        omega
      · exact Int.le_of_lt (h.weight_pos hl hab.symm ha hb)

namespace Derivation

/-- The derivation is one of an object or array. -/
def isBracketed : Derivation → Bool
  | .atom _ | .string _ => false
  | .emptyObject | .object _ _ _ _ | .emptyArray | .array _ _ _ => true

/-- A comma at the end, if there is one. -/
def lastComma (comma : Bool) : List Lexeme := if comma then [.mark ','] else []

/-- The lexemes between the brackets of an object or array. -/
def inner : Derivation → List Lexeme
  | .object key value more comma =>
    key.lexeme :: .mark ':' :: (value.lexemes ++ (moreFields more ++ lastComma comma))
  | .array item more comma => item.lexemes ++ (moreItems more ++ lastComma comma)
  | _ => []

theorem lexemes_bracketed {d : Derivation} (h : d.isBracketed = true) :
    ∃ l r : Lexeme, l.weight = 1 ∧ r.weight = -1 ∧ d.lexemes = l :: (d.inner ++ [r]) := by
  cases d with
  | atom _ | string _ => cases h
  | emptyObject => exact ⟨.mark '{', .mark '}', rfl, rfl, rfl⟩
  | emptyArray => exact ⟨.mark '[', .mark ']', rfl, rfl, rfl⟩
  | object key value more comma =>
    exact ⟨.mark '{', .mark '}', rfl, rfl, by simp [lexemes, inner, closing, lastComma]⟩
  | array item more comma =>
    exact ⟨.mark '[', .mark ']', rfl, rfl, by simp [lexemes, inner, closing, lastComma]⟩

theorem balanced_lastComma (comma : Bool) : Balanced (lastComma comma) := by
  cases comma
  · exact balanced_nil
  · exact .cons rfl balanced_nil

theorem Key.weight_lexeme (key : Key) : key.lexeme.weight = 0 := by
  cases key <;> rfl

/-- What is derived is balanced if it is between its brackets. -/
theorem balanced_of_inner {d : Derivation} (h : Balanced d.inner) : Balanced d.lexemes := by
  cases hd : d.isBracketed with
  | true =>
    obtain ⟨l, r, hl, hr, hlexemes⟩ := lexemes_bracketed hd
    rw [hlexemes]
    exact h.bracketed hl hr
  | false =>
    cases d with
    | atom _ | string _ => exact .cons rfl balanced_nil
    | _ => cases hd

mutual

theorem balanced_inner : ∀ d : Derivation, Balanced d.inner
  | .atom _ | .string _ | .emptyObject | .emptyArray => balanced_nil
  | .object key value more comma => by
    have hvalue := balanced_of_inner (balanced_inner value)
    have hmore := (balanced_moreFields more).append (balanced_lastComma comma)
    exact .cons (Key.weight_lexeme key) (.cons rfl (hvalue.append hmore))
  | .array item more comma => by
    have hitem := balanced_of_inner (balanced_inner item)
    exact hitem.append ((balanced_moreItems more).append (balanced_lastComma comma))

theorem balanced_moreFields : ∀ more : List (Key × Derivation), Balanced (moreFields more)
  | [] => balanced_nil
  | (key, value) :: more => by
    have hvalue := balanced_of_inner (balanced_inner value)
    have hmore := balanced_moreFields more
    exact .cons rfl (.cons (Key.weight_lexeme key) (.cons rfl (hvalue.append hmore)))

theorem balanced_moreItems : ∀ more : List Derivation, Balanced (moreItems more)
  | [] => balanced_nil
  | item :: more => by
    have hitem := balanced_of_inner (balanced_inner item)
    exact .cons rfl (hitem.append (balanced_moreItems more))

end

theorem balanced_lexemes (d : Derivation) : Balanced d.lexemes :=
  balanced_of_inner (balanced_inner d)

theorem weight_pos_of_bracketed {d : Derivation} (hd : d.isBracketed = true) {a b : List Lexeme}
    (hab : d.lexemes = a ++ b) (ha : a ≠ []) (hb : b ≠ []) : 0 < weight a := by
  obtain ⟨l, r, hl, -, h⟩ := lexemes_bracketed hd
  rw [h] at hab
  exact (balanced_inner d).weight_pos hl hab ha hb

end Derivation

/-! ## Neighbours -/

/-- One of the two lexemes is a mark. -/
def Apart (l m : Lexeme) : Prop := (∃ c, l = .mark c) ∨ ∃ c, m = .mark c

theorem apart_mark_left (c : Char) (m : Lexeme) : Apart (.mark c) m := .inl ⟨c, rfl⟩

theorem apart_mark_right (l : Lexeme) (c : Char) : Apart l (.mark c) := .inr ⟨c, rfl⟩

/-- Lexemes that may follow a value: none, or a mark first, and no two that are no marks are
neighbours. -/
def MayFollow (rest : List Lexeme) : Prop :=
  (∀ l ∈ rest.head?, ∃ c, l = .mark c) ∧ rest.IsChain Apart

theorem mayFollow_nil : MayFollow [] := ⟨by simp, .nil⟩

theorem mayFollow_mark {c : Char} {rest : List Lexeme} (h : rest.IsChain Apart) :
    MayFollow (.mark c :: rest) :=
  ⟨by simp, h.cons fun m _ => apart_mark_left c m⟩

theorem isChain_leaf {l : Lexeme} {rest : List Lexeme} (h : MayFollow rest) :
    (l :: rest).IsChain Apart := by
  refine h.2.cons fun m hm => ?_
  obtain ⟨c, rfl⟩ := h.1 m hm
  exact apart_mark_right l c

namespace Derivation

theorem mayFollow_closing (comma : Bool) (c : Char) {rest : List Lexeme} (h : MayFollow rest) :
    MayFollow (closing comma c ++ rest) := by
  have hend : MayFollow (.mark c :: rest) := mayFollow_mark h.2
  cases comma
  · exact hend
  · exact mayFollow_mark hend.2

/-- The start of a field in front of the rest of it. -/
theorem isChain_field (key : Key) {rest : List Lexeme} (h : rest.IsChain Apart) (c : Char) :
    (.mark c :: key.lexeme :: .mark ':' :: rest).IsChain Apart :=
  (mayFollow_mark (isChain_leaf (mayFollow_mark h))).2

mutual

/-- Strings and atoms stand next to marks only, also in front of what may follow. -/
theorem apart_append : ∀ (d : Derivation) {rest : List Lexeme}, MayFollow rest →
    (d.lexemes ++ rest).IsChain Apart
  | .atom _, _, h | .string _, _, h => isChain_leaf h
  | .emptyObject, _, h | .emptyArray, _, h => (mayFollow_mark (mayFollow_mark h.2).2).2
  | .object key value more comma, rest, h => by
    have hmore := mayFollow_moreFields more (mayFollow_closing comma '}' h)
    simpa [lexemes] using isChain_field key (apart_append value hmore) '{'
  | .array item more comma, rest, h => by
    have hmore := mayFollow_moreItems more (mayFollow_closing comma ']' h)
    simpa [lexemes] using (mayFollow_mark (c := '[') (apart_append item hmore)).2

theorem mayFollow_moreFields : ∀ (more : List (Key × Derivation)) {rest : List Lexeme},
    MayFollow rest → MayFollow (moreFields more ++ rest)
  | [], _, h => h
  | (key, value) :: more, rest, h => by
    refine ⟨by simp [moreFields], ?_⟩
    have hvalue := apart_append value (mayFollow_moreFields more h)
    simpa [moreFields] using isChain_field key hvalue ','

theorem mayFollow_moreItems : ∀ (more : List Derivation) {rest : List Lexeme},
    MayFollow rest → MayFollow (moreItems more ++ rest)
  | [], _, h => h
  | item :: more, rest, h => by
    refine ⟨by simp [moreItems], ?_⟩
    have hitem := apart_append item (mayFollow_moreItems more h)
    simpa [moreItems] using (mayFollow_mark (c := ',') hitem).2

end

theorem apart_lexemes (d : Derivation) : d.lexemes.IsChain Apart := by
  simpa using d.apart_append mayFollow_nil

end Derivation
end Hydration.Literal
