import Hydration.Proofs.Literal.Balance
import Hydration.Proofs.Tag.Extent
/-!
# The words of a literal

Words whose lexemes are derived are one expression of a tag, and joined again they are read as what
the derivation means, if that is something. A derivation of a single lexeme has that as its only
word, and the words of an object or array are open up to the last one.

* `WordsOf.isExpression`: the words of a derivation are one expression.
* `WordsOf.toOption_compile`: joined again, they are read as what the derivation means.
-/
namespace Hydration.Tag
open Text (isBlank)
open Text.Quoted (Closed IsBody isQuote)
open Literal (Derivation Lexeme FilterReader Lexed lexFrom opens)

/-- The words have the lexemes that are derived. -/
structure WordsOf (ws : List Text) (d : Derivation) : Prop where
  solid : ∀ w ∈ ws, Solid w ∧ w ≠ []
  lexemes : ws.flatMap lexemesOf = d.lexemes

/-! ## Words of one lexeme -/

theorem Solid.lexed {w : Text} (h : Solid w) : Lexed w (lexemesOf w) :=
  Literal.lexed_of_lexFrom (lexFrom_solid h)

/-- Nothing is left of a word after its last lexeme. -/
theorem Solid.nil_of_lexed {a rest : Text} (h : Solid (a ++ rest)) (hrest : Lexed rest []) :
    rest = [] := by
  rcases List.eq_nil_or_concat rest with hnil | ⟨init, c, rfl⟩
  · exact hnil
  · rw [List.concat_eq_append] at h hrest
    have hblank := hrest.blank_of_nil rfl c (by simp)
    rw [h.last c (by simp)] at hblank
    cases hblank

/-- A word starts with its first lexeme. -/
theorem Solid.cons_lexemes {w : Text} {l : Lexeme} {more : List Lexeme} (h : Solid w)
    (hl : lexemesOf w = l :: more) : ∃ rest, w = l.text ++ rest ∧ Lexed rest more := by
  have hlexed := h.lexed
  rw [hl] at hlexed
  cases hlexed with
  | @string q body rest _ hq hb hrest => exact ⟨rest, by simp [Lexeme.text], hrest⟩
  | @mark c rest _ hc hrest => exact ⟨rest, rfl, hrest⟩
  | blank hc _ =>
    rw [h.head] at hc
    cases hc
  | @atom a rest _ hne ha he hrest => exact ⟨rest, rfl, hrest⟩

theorem Solid.eq_text {w : Text} {l : Lexeme} (h : Solid w) (hl : lexemesOf w = [l]) :
    w = l.text := by
  obtain ⟨rest, rfl, hrest⟩ := h.cons_lexemes hl
  rw [h.nil_of_lexed hrest, List.append_nil]

/-! ## Texts of one lexeme -/

theorem opens_of_weight {l : Lexeme} (hl : l.weight = 1) (rest : Text) :
    opens (l.text ++ rest) = true := by
  cases l with
  | mark c =>
    simp only [Lexeme.weight, bracketWeight] at hl
    split at hl
    · rename_i hc
      rcases hc with rfl | rfl <;> rfl
    · split at hl <;> cases hl
  | _ => cases hl

theorem opens_string {q : Char} (hq : isQuote q = true) (body : Text) :
    opens (q :: body) = false := by
  simp only [isQuote, Bool.or_eq_true, beq_iff_eq] at hq
  rcases hq with rfl | rfl <;> rfl

theorem opens_atom {t : Text} (ht : ∀ c ∈ t, Literal.isAtomChar c = true) : opens t = false := by
  cases t with
  | nil => rfl
  | cons c rest =>
    obtain ⟨-, hm, -⟩ := Literal.isAtomChar_iff.1 (ht c List.mem_cons_self)
    refine Bool.eq_false_iff.2 fun ho => ?_
    simp only [opens, Bool.or_eq_true, beq_iff_eq] at ho
    rcases ho with rfl | rfl <;> cases hm

theorem isString_string {q : Char} {body : Text} (hq : isQuote q = true)
    (hb : IsBody true q body) : Text.Quoted.isString (q :: body ++ [q]) = true := by
  rw [List.cons_append, Text.Quoted.isString, hq, hb []]
  rfl

theorem isString_atom {t : Text} (ht : ∀ c ∈ t, Literal.isAtomChar c = true) :
    Text.Quoted.isString t = false := by
  cases t with
  | nil => rfl
  | cons c rest =>
    obtain ⟨hq, -, -⟩ := Literal.isAtomChar_iff.1 (ht c List.mem_cons_self)
    rw [Text.Quoted.isString, hq]
    rfl

namespace WordsOf
variable {ws : List Text} {d : Derivation}

/-- A single lexeme is a single word. -/
theorem eq_singleton (h : WordsOf ws d) {l : Lexeme} (hl : d.lexemes = [l]) : ws = [l.text] := by
  have hlexemes := h.lexemes
  rw [hl] at hlexemes
  cases ws with
  | nil => cases hlexemes
  | cons w ws =>
    obtain ⟨⟨hw, hne⟩, hws⟩ := List.forall_mem_cons.1 h.solid
    rw [List.flatMap_cons] at hlexemes
    rcases List.append_eq_singleton_iff.1 hlexemes with ⟨hnil, -⟩ | ⟨hone, hrest⟩
    · exact absurd hnil (lexemesOf_ne_nil hw hne)
    · obtain rfl : ws = [] := by
        by_contra hws'
        exact flatMap_lexemesOf_ne_nil hws hws' hrest
      rw [hw.eq_text hone]

theorem isLexeme (h : WordsOf ws d) : ∀ l ∈ d.lexemes, Literal.IsLexeme l := by
  rw [← h.lexemes]
  exact (Literal.lexed_of_lexFrom (lexFrom_worded (worded_spaced h.solid))).isLexeme

/-- The words of an object or array start with its bracket. -/
theorem opens (h : WordsOf ws d) (hd : d.isBracketed = true) :
    ∃ w more, ws = w :: more ∧ opens w = true := by
  obtain ⟨l, r, hl, -, hlexemes⟩ := Derivation.lexemes_bracketed hd
  have hws := h.lexemes
  rw [hlexemes] at hws
  cases ws with
  | nil => cases hws
  | cons w ws =>
    obtain ⟨hw, hne⟩ := h.solid w List.mem_cons_self
    obtain ⟨m, more, hm⟩ := List.exists_cons_of_ne_nil (lexemesOf_ne_nil hw hne)
    rw [List.flatMap_cons, hm, List.cons_append, List.cons.injEq] at hws
    rw [hws.1] at hm
    obtain ⟨tail, rfl, -⟩ := hw.cons_lexemes hm
    exact ⟨_, ws, rfl, opens_of_weight hl tail⟩

theorem joinTranslations (h : WordsOf ws d) : joinTranslations none ws = .ok ws := by
  refine joinTranslations_plain (translationEnd?_word h.solid fun before a t after hab => ?_)
  rw [h.lexemes] at hab
  have happart := List.isChain_iff_forall_rel_of_append_cons_cons.1 d.apart_lexemes hab
  rcases happart with ⟨_, h⟩ | ⟨_, h⟩ <;> cases h

theorem isExpression (h : WordsOf ws d) : IsExpression (ws.map classify) := by
  cases hd : d.isBracketed with
  | true =>
    refine isExpression_of_weight h.solid (h.opens hd) ?_ fun a b hab ha hb => ?_
    · rw [h.lexemes]
      exact d.balanced_lexemes.closed
    · rw [h.lexemes] at hab
      exact d.weight_pos_of_bracketed hd hab ha hb
  | false =>
    cases d with
    | atom t =>
      obtain rfl := h.eq_singleton (l := .atom t) rfl
      obtain ⟨-, ht⟩ := h.isLexeme (.atom t) (by simp [Derivation.lexemes])
      simp [IsExpression, classify_text, Lexeme.text, opens_atom ht]
    | string t =>
      obtain rfl := h.eq_singleton (l := .string t) rfl
      obtain ⟨q, body, hq, -, rfl⟩ := h.isLexeme (.string t) (by simp [Derivation.lexemes])
      simp [IsExpression, classify_text, Lexeme.text, opens_string hq]
    | _ => cases hd

/-- Joined again, the words are read as what the derivation means. -/
theorem toOption_compile (h : WordsOf ws d) (reader : Option FilterReader) :
    (Expression.compile reader (spaced ws)).toOption = d.value? reader := by
  have htrim := trim_spaced h.solid
  cases hd : d.isBracketed with
  | true =>
    have hopens : Literal.opens (spaced ws) = true := by
      obtain ⟨w, more, rfl, hw⟩ := h.opens hd
      rw [← joined_classify, List.map_cons, opens_joined, classify_text, hw]
    have hlex := (Literal.lex_eq_ok_iff _ _).2 (lexFrom_worded (worded_spaced h.solid))
    rw [h.lexemes] at hlex
    rw [Literal.compile_eq_read reader (by rw [htrim, hopens]), htrim,
      Literal.toOption_read reader hlex]
  | false =>
    cases d with
    | atom t =>
      obtain rfl := h.eq_singleton (l := .atom t) rfl
      obtain ⟨-, ht⟩ := h.isLexeme (.atom t) (by simp [Derivation.lexemes])
      simp only [spaced, List.intercalate_singleton, Lexeme.text] at htrim ⊢
      simp only [Expression.compile, htrim, opens_atom ht, isString_atom ht, Derivation.value?,
        Bool.false_eq_true, if_false]
    | string t =>
      obtain rfl := h.eq_singleton (l := .string t) rfl
      obtain ⟨q, body, hq, hb, rfl⟩ := h.isLexeme (.string t) (by simp [Derivation.lexemes])
      simp only [spaced, List.intercalate_singleton, Lexeme.text] at htrim ⊢
      simp only [Expression.compile, htrim, isString_string hq hb, Derivation.value?]
      rw [List.cons_append, opens_string hq]
      rfl
    | _ => cases hd

theorem compile_eq (h : WordsOf ws d) {reader : Option FilterReader} {e : Expression}
    (he : d.value? reader = some e) : Expression.compile reader (spaced ws) = .ok e :=
  Literal.toOption_eq_some_iff.1 ((h.toOption_compile reader).trans he)

end WordsOf

/-- A text whose strings can stand in a tag has the words of what its lexemes are derived from. -/
theorem wordsOf_of_bits {t : Text} {ws : List Text} {d : Derivation} (hclosed : Closed false t)
    (hlex : lexFrom t = .ok d.lexemes) (hbits : bits t = ws) : WordsOf ws d := by
  obtain ⟨ws', hw⟩ := worded_of_closed hclosed
  rw [lexFrom_worded hw, Except.ok.injEq] at hlex
  rw [hw.bits] at hbits
  exact hbits ▸ ⟨hw.solid, hlex⟩

end Hydration.Tag
