import Hydration.Proofs.Literal.Grammar
import Hydration.Proofs.Literal.Lexemes
import Mathlib.Data.List.Chain
/-!
# Lexemes and the blanks between them

Cutting a literal loses nothing but blanks: the text is its lexemes in order with blanks around them
(`woven`), and two atoms in a row never touch (`IsSpacing`). Every such text is cut into the same
lexemes, whatever blanks are chosen. What cannot be cut is a text in which a scan over closed
strings comes to a quote that opens none (`Meets`, `OpensString`).

* `lexFrom_eq_error_iff`: the quote at which a text cannot be cut.
* `lexFrom_iff_woven`: which texts are cut into given lexemes.
* `endsAtom_woven`, `endsAtom_reverse_woven`: an atom stands between characters that belong to no
  atom.
* `lex_lossless`: what this says of the literal as a whole.
-/
namespace Hydration.Literal
open Text.Quoted (IsBody isQuote scan)

/-! ## Strings and quotes that open none -/

/-- What stands between the quotes of a string: escapes, and characters that neither start an escape
nor close the string. -/
inductive Body (q : Char) : Text → Prop
  | nil : Body q []
  | escape (c : Char) {rest : Text} (h : Body q rest) : Body q ('\\' :: c :: rest)
  | plain {c : Char} {rest : Text} (hb : c ≠ '\\') (hq : c ≠ q) (h : Body q rest) :
    Body q (c :: rest)

/-- Behind a quote, a body and the same quote again close a string. -/
def OpensString (q : Char) (behind : Text) : Prop :=
  ∃ body rest, Body q body ∧ behind = body ++ q :: rest

/-- A scan from left to right, over closed strings and characters that are no quotes, comes to the
quote `q` with some text behind it. -/
inductive Meets : Text → Char → Text → Prop
  | here {q : Char} {behind : Text} (hq : isQuote q = true) : Meets (q :: behind) q behind
  | string {p q : Char} {body rest behind : Text} (hp : isQuote p = true) (hb : Body p body)
    (h : Meets rest q behind) : Meets (p :: (body ++ p :: rest)) q behind
  | char {c q : Char} {rest behind : Text} (hc : isQuote c = false) (h : Meets rest q behind) :
    Meets (c :: rest) q behind

theorem Body.isBody {q : Char} {body : Text} (hq : q ≠ '\\') (h : Body q body) :
    IsBody true q body := by
  induction h with
  | nil => exact Text.Quoted.isBody_nil true hq
  | escape c _ ih => exact Text.Quoted.isBody_escape (by simp) ih
  | plain hb hc _ ih => exact Text.Quoted.isBody_cons hb hc ih

theorem body_of_scan {q : Char} {t body after : Text}
    (h : scan true q t = some (body, after)) : Body q body := by
  fun_induction scan true q t generalizing body after with
  | case1 => cases h
  | case2 => cases h
  | case3 c rest _ ih =>
    obtain ⟨⟨b, a⟩, hs, he⟩ := Option.map_eq_some_iff.1 h
    cases he
    exact .escape c (ih hs)
  | case4 =>
    cases h
    exact .nil
  | case5 c rest hescape hne ih =>
    obtain ⟨⟨b, a⟩, hs, he⟩ := Option.map_eq_some_iff.1 h
    cases he
    refine .plain ?_ hne (ih hs)
    -- a backslash with nothing behind it closes no string
    rintro rfl
    cases rest with
    | nil => cases hs
    | cons d rest => exact hescape d rest rfl rfl

/-- A quote opens a string exactly if a scan finds its end. -/
theorem scan_eq_none_iff {q : Char} {behind : Text} (hq : q ≠ '\\') :
    scan true q behind = none ↔ ¬ OpensString q behind := by
  constructor
  · rintro h ⟨body, rest, hb, rfl⟩
    rw [hb.isBody hq rest] at h
    cases h
  · intro h
    cases hs : scan true q behind with
    | none => rfl
    | some found =>
      obtain ⟨body, rest⟩ := found
      exact absurd ⟨body, rest, body_of_scan hs, Text.Quoted.scan_eq_some hs⟩ h

theorem Meets.append {a t behind : Text} {q : Char} (ha : ∀ c ∈ a, isQuote c = false)
    (h : Meets t q behind) : Meets (a ++ t) q behind := by
  induction a with
  | nil => exact h
  | cons c a ih =>
    obtain ⟨hc, ha⟩ := List.forall_mem_cons.1 ha
    exact .char hc (ih ha)

theorem map_eq_error_iff {l : Lexeme} {r : Except Char (List Lexeme)} {q : Char} :
    (l :: ·) <$> r = .error q ↔ r = .error q := by
  cases r <;> simp [Functor.map, Except.map]

/-- A character that is no quote neither helps nor harms. -/
theorem lexFrom_cons_eq_error_iff {c q : Char} (hc : isQuote c = false) (rest : Text) :
    lexFrom (c :: rest) = .error q ↔ lexFrom rest = .error q := by
  cases hm : isMark c with
  | true => rw [lexFrom_mark hm, map_eq_error_iff]
  | false =>
    cases hb : Text.isBlank c with
    | true => rw [lexFrom_blank hb]
    | false =>
      rw [lexFrom_atom (isAtomChar_iff.2 ⟨hc, hm, hb⟩), map_eq_error_iff]
      -- what follows is the rest, or the rest starts with an atom as well
      cases rest with
      | nil => rfl
      | cons d rest =>
        cases hd : isAtomChar d with
        | true => rw [List.dropWhile_cons_of_pos hd, lexFrom_atom hd, map_eq_error_iff]
        | false => rw [List.dropWhile_cons_of_neg (by simp [hd])]

theorem meets_of_lexFrom {t : Text} {q : Char} (h : lexFrom t = .error q) :
    ∃ behind, Meets t q behind ∧ ¬ OpensString q behind := by
  fun_induction lexFrom t with
  | case1 => cases h
  | case2 c rest hq hs =>
    cases h
    exact ⟨rest, .here hq, (scan_eq_none_iff (Text.Quoted.ne_of_isQuote hq (by decide))).1 hs⟩
  | case3 p rest hp body after hs ih =>
    obtain ⟨behind, hmeets, hopens⟩ := ih (map_eq_error_iff.1 h)
    rw [Text.Quoted.scan_eq_some hs]
    exact ⟨behind, .string hp (body_of_scan hs) hmeets, hopens⟩
  | case4 c rest hq hm ih =>
    obtain ⟨behind, hmeets, hopens⟩ := ih (map_eq_error_iff.1 h)
    exact ⟨behind, .char (by simpa using hq) hmeets, hopens⟩
  | case5 c rest hq hm hb ih =>
    obtain ⟨behind, hmeets, hopens⟩ := ih h
    exact ⟨behind, .char (by simpa using hq) hmeets, hopens⟩
  | case6 c rest hq hm hb ih =>
    obtain ⟨behind, hmeets, hopens⟩ := ih (map_eq_error_iff.1 h)
    refine ⟨behind, .char (by simpa using hq) ?_, hopens⟩
    rw [← List.takeWhile_append_dropWhile (p := isAtomChar) (l := rest)]
    refine hmeets.append fun d hd => ?_
    exact (isAtomChar_iff.1 (List.all_eq_true.1 List.all_takeWhile d hd)).1

theorem lexFrom_of_meets {t behind : Text} {q : Char} (h : Meets t q behind)
    (hopens : ¬ OpensString q behind) : lexFrom t = .error q := by
  induction h with
  | @here q behind hq =>
    rw [lexFrom, if_pos hq]
    have hs := (scan_eq_none_iff (Text.Quoted.ne_of_isQuote hq (by decide))).2 hopens
    split
    · rfl
    · next hs' =>
      rw [hs] at hs'
      cases hs'
  | string hp hb _ ih =>
    rw [lexFrom_string hp (hb.isBody (Text.Quoted.ne_of_isQuote hp (by decide))),
      map_eq_error_iff]
    exact ih hopens
  | char hc _ ih => exact (lexFrom_cons_eq_error_iff hc _).2 (ih hopens)

/-- A text cannot be cut at the quote, and only there, that a scan meets and that opens no
string. -/
theorem lexFrom_eq_error_iff {t : Text} {q : Char} :
    lexFrom t = .error q ↔ ∃ behind, Meets t q behind ∧ ¬ OpensString q behind :=
  ⟨meets_of_lexFrom, fun ⟨_, h, hopens⟩ => lexFrom_of_meets h hopens⟩

/-! ## Lexemes with blanks around them -/

/-- The text of lexemes, each with what stands behind it, after what stands before all of them. -/
def woven (before : Text) : List (Lexeme × Text) → Text
  | [] => before
  | (l, gap) :: rest => before ++ (l.text ++ woven gap rest)

def Lexeme.isAtom : Lexeme → Bool
  | .atom _ => true
  | _ => false

/-- Only blanks stand around the lexemes, and between two atoms there is at least one. -/
structure IsSpacing (before : Text) (pieces : List (Lexeme × Text)) : Prop where
  before : ∀ c ∈ before, Text.isBlank c = true
  lexemes : ∀ p ∈ pieces, IsLexeme p.1
  gaps : ∀ p ∈ pieces, ∀ c ∈ p.2, Text.isBlank c = true
  apart : pieces.IsChain fun a b => a.1.isAtom = true → b.1.isAtom = true → a.2 ≠ []

theorem woven_append (before : Text) (a : List (Lexeme × Text)) (l : Lexeme) (gap : Text)
    (b : List (Lexeme × Text)) :
    woven before (a ++ (l, gap) :: b) = woven before a ++ (l.text ++ woven gap b) := by
  induction a generalizing before with
  | nil => rfl
  | cons p a ih => simp [woven, ih]

theorem isSpacing_nil : IsSpacing [] [] := ⟨by simp, by simp, by simp, .nil⟩

theorem IsSpacing.tail {before gap : Text} {l : Lexeme} {rest : List (Lexeme × Text)}
    (h : IsSpacing before ((l, gap) :: rest)) : IsSpacing gap rest where
  before := h.gaps _ List.mem_cons_self
  lexemes p hp := h.lexemes p (List.mem_cons_of_mem _ hp)
  gaps p hp := h.gaps p (List.mem_cons_of_mem _ hp)
  apart := h.apart.tail

/-- One more lexeme in front, with what stood before the others behind it. -/
theorem IsSpacing.cons {gap : Text} {l : Lexeme} {rest : List (Lexeme × Text)}
    (h : IsSpacing gap rest) (hl : IsLexeme l)
    (hapart : ∀ p ∈ rest.head?, l.isAtom = true → p.1.isAtom = true → gap ≠ []) :
    IsSpacing [] ((l, gap) :: rest) where
  before := by simp
  lexemes := List.forall_mem_cons.2 ⟨hl, h.lexemes⟩
  gaps := List.forall_mem_cons.2 ⟨h.before, h.gaps⟩
  apart := List.isChain_cons.2 ⟨hapart, h.apart⟩

/-- A blank belongs to no atom. -/
theorem isAtomChar_of_isBlank {c : Char} (h : Text.isBlank c = true) : isAtomChar c = false := by
  simp [isAtomChar, h]

theorem endsAtom_of_blanks {gap : Text} (hne : gap ≠ []) (h : ∀ c ∈ gap, Text.isBlank c = true)
    (t : Text) : EndsAtom (gap ++ t) := by
  obtain ⟨c, gap, rfl⟩ := List.exists_cons_of_ne_nil hne
  exact endsAtom_cons (isAtomChar_of_isBlank (h c List.mem_cons_self)) _

theorem isAtomChar_of_isQuote {q : Char} (h : isQuote q = true) : isAtomChar q = false := by
  simp [isAtomChar, h]

theorem isAtomChar_of_isMark {c : Char} (h : isMark c = true) : isAtomChar c = false := by
  simp [isAtomChar, h]

/-- A string or a mark ends an atom in front of it, and with the text read backwards one behind
it. -/
theorem endsAtom_of_not_isAtom {l : Lexeme} (hl : IsLexeme l) (h : l.isAtom = false) (t : Text) :
    EndsAtom (l.text ++ t) ∧ EndsAtom (l.text.reverse ++ t) := by
  cases l with
  | string =>
    obtain ⟨q, body, hq, -, rfl⟩ := hl
    have hends := isAtomChar_of_isQuote hq
    exact ⟨endsAtom_cons hends _, by simpa [Lexeme.text] using endsAtom_cons hends _⟩
  | mark =>
    exact ⟨endsAtom_cons (isAtomChar_of_isMark hl) _, endsAtom_cons (isAtomChar_of_isMark hl) _⟩
  | atom => cases h

namespace IsSpacing
variable {before gap : Text} {l : Lexeme} {pieces rest : List (Lexeme × Text)}

/-- What stands behind an atom belongs to no atom. -/
theorem endsAtom_woven (h : IsSpacing before ((l, gap) :: rest)) (hl : l.isAtom = true) :
    EndsAtom (woven gap rest) := by
  have htail := h.tail
  cases rest with
  | nil =>
    by_cases hgap : gap = []
    · rw [hgap]
      exact endsAtom_nil
    · simpa [woven] using endsAtom_of_blanks hgap htail.before []
  | cons p rest =>
    obtain ⟨m, after⟩ := p
    by_cases hgap : gap = []
    · have hm : m.isAtom = false := by
        by_contra hm
        have hatom := (List.isChain_cons_cons.1 h.apart).1 hl (by simpa using hm)
        exact hatom hgap
      subst hgap
      exact (endsAtom_of_not_isAtom (htail.lexemes _ List.mem_cons_self) hm _).1
    · exact endsAtom_of_blanks hgap htail.before _

/-- What stands in front of an atom belongs to no atom either. -/
theorem endsAtom_reverse_woven {a : List (Lexeme × Text)}
    (h : IsSpacing before (a ++ (l, gap) :: rest)) (hl : l.isAtom = true) :
    EndsAtom (woven before a).reverse := by
  rcases List.eq_nil_or_concat a with rfl | ⟨a, ⟨m, after⟩, rfl⟩
  · by_cases hbefore : before = []
    · rw [hbefore]
      exact endsAtom_nil
    · have hne : before.reverse ≠ [] := by simpa using hbefore
      have hblank : ∀ c ∈ before.reverse, Text.isBlank c = true := by simpa using h.before
      simpa [woven] using endsAtom_of_blanks hne hblank []
  · rw [List.concat_eq_append] at h ⊢
    have hmem : (m, after) ∈ a ++ [(m, after)] ++ (l, gap) :: rest := by simp
    rw [woven_append, woven, List.reverse_append, List.reverse_append]
    by_cases hafter : after = []
    · have hm : m.isAtom = false := by
        by_contra hm
        rw [List.append_assoc] at h
        have happart := (List.isChain_append.1 h.apart).2.1
        exact (List.isChain_cons_cons.1 happart).1 (by simpa using hm) hl hafter
      subst hafter
      exact (endsAtom_of_not_isAtom (h.lexemes _ hmem) hm _).2
    · have hne : after.reverse ≠ [] := by simpa using hafter
      have hblank : ∀ c ∈ after.reverse, Text.isBlank c = true := by
        simpa using h.gaps _ hmem
      rw [List.append_assoc]
      exact endsAtom_of_blanks hne hblank _

/-- Lexemes with blanks around them are cut into these lexemes. -/
theorem lexFrom (h : IsSpacing before pieces) :
    lexFrom (woven before pieces) = .ok (pieces.map (·.1)) := by
  induction pieces generalizing before with
  | nil =>
    rw [woven, ← List.append_nil before, lexFrom_blanks h.before, Literal.lexFrom]
    rfl
  | cons p rest ih =>
    obtain ⟨l, gap⟩ := p
    have hl : IsLexeme l := h.lexemes _ List.mem_cons_self
    have hrest := ih h.tail
    rw [woven, lexFrom_blanks h.before]
    cases l with
    | string t =>
      obtain ⟨q, body, hq, hb, rfl⟩ := hl
      have htext : (Lexeme.string (q :: body ++ [q])).text ++ woven gap rest =
          q :: (body ++ q :: woven gap rest) := by simp [Lexeme.text]
      rw [htext, lexFrom_string hq hb, hrest]
      rfl
    | mark c =>
      rw [Lexeme.text, List.singleton_append, lexFrom_mark hl, hrest]
      rfl
    | atom t =>
      rw [Lexeme.text, lexFrom_atom_append hl.1 hl.2 (h.endsAtom_woven rfl), hrest]
      rfl

end IsSpacing

/-- A text that can be cut consists of its lexemes and blanks. -/
theorem Lexed.woven {t : Text} {lexemes : List Lexeme} (h : Lexed t lexemes) :
    ∃ before pieces, IsSpacing before pieces ∧ pieces.map (·.1) = lexemes ∧
      t = woven before pieces := by
  induction h with
  | nil => exact ⟨[], [], isSpacing_nil, rfl, rfl⟩
  | @string q body rest lexemes hq hb _ ih =>
    obtain ⟨gap, pieces, hspacing, rfl, rfl⟩ := ih
    refine ⟨[], (.string (q :: body ++ [q]), gap) :: pieces,
      hspacing.cons ⟨q, body, hq, hb, rfl⟩ ?_, rfl, ?_⟩
    · intro _ _ hatom
      cases hatom
    · simp [Literal.woven, Lexeme.text]
  | @mark c rest lexemes hc _ ih =>
    obtain ⟨gap, pieces, hspacing, rfl, rfl⟩ := ih
    refine ⟨[], (.mark c, gap) :: pieces, hspacing.cons hc ?_, rfl, rfl⟩
    intro _ _ hatom
    cases hatom
  | @blank c rest lexemes hc _ ih =>
    obtain ⟨before, pieces, hspacing, rfl, rfl⟩ := ih
    refine ⟨c :: before, pieces, { hspacing with
      before := List.forall_mem_cons.2 ⟨hc, hspacing.before⟩ }, rfl, ?_⟩
    cases pieces <;> rfl
  | @atom a rest lexemes hne ha he _ ih =>
    obtain ⟨gap, pieces, hspacing, rfl, rfl⟩ := ih
    refine ⟨[], (.atom a, gap) :: pieces, hspacing.cons ⟨hne, ha⟩ ?_, rfl, rfl⟩
    -- an atom that follows at once would go on with this one
    rintro ⟨l, after⟩ hp - hatom rfl
    obtain ⟨more, rfl⟩ := List.head?_eq_some_iff.1 hp
    cases l with
    | atom b =>
      obtain ⟨hb, hchars⟩ := hspacing.lexemes _ List.mem_cons_self
      obtain ⟨c, b, rfl⟩ := List.exists_cons_of_ne_nil hb
      have hstop := he c _ rfl
      rw [hchars c List.mem_cons_self] at hstop
      cases hstop
    | _ => cases hatom

/-- A text is cut into the lexemes that it is made of. -/
theorem lexFrom_iff_woven {t : Text} {lexemes : List Lexeme} :
    lexFrom t = .ok lexemes ↔ ∃ before pieces, IsSpacing before pieces ∧
      pieces.map (·.1) = lexemes ∧ t = woven before pieces := by
  constructor
  · intro h
    exact (lexed_of_lexFrom h).woven
  · rintro ⟨before, pieces, hspacing, rfl, rfl⟩
    exact hspacing.lexFrom

/-! ## Other blanks -/

/-- Lexemes with the same blanks between any two of them. -/
theorem isSpacing_intercalate {sep : Text} (hne : sep ≠ [])
    (hsep : ∀ c ∈ sep, Text.isBlank c = true) {lexemes : List Lexeme}
    (h : ∀ l ∈ lexemes, IsLexeme l) :
    ∃ pieces, IsSpacing [] pieces ∧ pieces.map (·.1) = lexemes ∧
      woven [] pieces = sep.intercalate (lexemes.map Lexeme.text) := by
  induction lexemes with
  | nil => exact ⟨[], isSpacing_nil, rfl, rfl⟩
  | cons l rest ih =>
    obtain ⟨hl, hrest⟩ := List.forall_mem_cons.1 h
    obtain ⟨pieces, hspacing, hmap, hwoven⟩ := ih hrest
    cases rest with
    | nil =>
      obtain rfl := List.map_eq_nil_iff.1 hmap
      refine ⟨[(l, [])], isSpacing_nil.cons hl (by simp), rfl, ?_⟩
      simp [woven]
    | cons m rest =>
      refine ⟨(l, sep) :: pieces, IsSpacing.cons { hspacing with before := hsep } hl
        (fun _ _ _ _ => hne), by rw [List.map_cons, hmap], ?_⟩
      have hsplit : ∀ before, woven before pieces = before ++ woven [] pieces := by
        intro before
        cases pieces <;> simp [woven]
      rw [woven, hsplit, hwoven]
      simp [List.intercalate_cons_cons]

theorem lex_eq_error_iff {t : Text} {f : Failure} :
    lex t = .error f ↔ ∃ q, lexFrom t = .error q ∧ f = .literal t (.unexpectedCharacter q) := by
  unfold lex
  cases lexFrom t <;> simp [eq_comm]

/-- A text is cut into lexemes exactly if each quote that is met opens a closed string. -/
theorem exists_lex_iff {t : Text} :
    (∃ lexemes, lex t = .ok lexemes) ↔ ∀ q behind, Meets t q behind → OpensString q behind := by
  constructor
  · rintro ⟨lexemes, h⟩ q behind hmeets
    by_contra hopens
    have herror := lexFrom_eq_error_iff.2 ⟨behind, hmeets, hopens⟩
    rw [(lex_eq_ok_iff _ _).1 h] at herror
    cases herror
  · intro hall
    cases hcut : lexFrom t with
    | ok lexemes => exact ⟨lexemes, (lex_eq_ok_iff _ _).2 hcut⟩
    | error q =>
      obtain ⟨behind, hmeets, hopens⟩ := lexFrom_eq_error_iff.1 hcut
      exact absurd (hall q behind hmeets) hopens

/-- Otherwise the failure names the first quote that opens none. -/
theorem lex_eq_error_iff_meets {t : Text} {f : Failure} :
    lex t = .error f ↔ ∃ q behind, Meets t q behind ∧ ¬ OpensString q behind ∧
      f = .literal t (.unexpectedCharacter q) := by
  rw [lex_eq_error_iff]
  constructor
  · rintro ⟨q, h, rfl⟩
    obtain ⟨behind, hmeets, hopens⟩ := lexFrom_eq_error_iff.1 h
    exact ⟨q, behind, hmeets, hopens, rfl⟩
  · rintro ⟨q, behind, hmeets, hopens, rfl⟩
    exact ⟨q, lexFrom_eq_error_iff.2 ⟨behind, hmeets, hopens⟩, rfl⟩

/-- Every atom stands between characters that belong to no atom. -/
theorem IsSpacing.endsAtom_around {before text gap : Text} {a b : List (Lexeme × Text)}
    (h : IsSpacing before (a ++ (.atom text, gap) :: b)) :
    EndsAtom (woven before a).reverse ∧ EndsAtom (woven gap b) := by
  have hrest : IsSpacing before ((.atom text, gap) :: b) := {
    h with
    lexemes := fun p hp => h.lexemes p (List.mem_append_right _ hp)
    gaps := fun p hp => h.gaps p (List.mem_append_right _ hp)
    apart := (List.isChain_append.1 h.apart).2.1 }
  exact ⟨h.endsAtom_reverse_woven rfl, hrest.endsAtom_woven rfl⟩

/-- **Cutting a literal loses nothing but blanks.** A text is cut into lexemes exactly if each quote
that a scan over closed strings meets opens a closed string, and otherwise the failure names the
first quote that opens none. The text is then its lexemes, in order and as they were written, with
blanks around them and nothing else, and every atom stands between characters that belong to no
atom. Whatever blanks are put around the lexemes instead, as long as there is one between any two
atoms, the new text is cut into the same lexemes: so are the lexemes joined with a single space or
with other blanks. And two texts with a space between them are cut into the lexemes of both. -/
theorem lex_lossless (t : Text) :
    ((∃ lexemes, lex t = .ok lexemes) ↔ ∀ q behind, Meets t q behind → OpensString q behind) ∧
      (∀ f, lex t = .error f ↔ ∃ q behind, Meets t q behind ∧ ¬ OpensString q behind ∧
        f = .literal t (.unexpectedCharacter q)) ∧
      ∀ lexemes, lex t = .ok lexemes →
        (∃ before pieces, IsSpacing before pieces ∧ pieces.map (·.1) = lexemes ∧
          t = woven before pieces ∧
          ∀ a text gap b, pieces = a ++ (.atom text, gap) :: b →
            EndsAtom (woven before a).reverse ∧ EndsAtom (woven gap b)) ∧
        (∀ before pieces, IsSpacing before pieces → pieces.map (·.1) = lexemes →
          lex (woven before pieces) = .ok lexemes) ∧
        (∀ sep, sep ≠ [] → (∀ c ∈ sep, Text.isBlank c = true) →
          lex (sep.intercalate (lexemes.map Lexeme.text)) = .ok lexemes) ∧
        ∀ other more, lex other = .ok more → lex (t ++ ' ' :: other) = .ok (lexemes ++ more) := by
  refine ⟨exists_lex_iff, fun f => lex_eq_error_iff_meets, fun lexemes h => ?_⟩
  have hcut := (lex_eq_ok_iff t lexemes).1 h
  refine ⟨?written, ?respaced, ?joined, ?together⟩
  case written =>
    obtain ⟨before, pieces, hspacing, hmap, hwoven⟩ := lexFrom_iff_woven.1 hcut
    refine ⟨before, pieces, hspacing, hmap, hwoven, ?_⟩
    rintro a text gap b rfl
    exact hspacing.endsAtom_around
  case respaced =>
    rintro before pieces hspacing rfl
    exact (lex_eq_ok_iff _ _).2 hspacing.lexFrom
  case joined =>
    intro sep hne hsep
    obtain ⟨pieces, hspacing, hmap, hwoven⟩ :=
      isSpacing_intercalate hne hsep (lexed_of_lexFrom hcut).isLexeme
    rw [← hwoven, lex_eq_ok_iff, hspacing.lexFrom, hmap]
  case together =>
    intro other more hother
    have hspace : EndsAtom (' ' :: other) := endsAtom_cons (by decide) _
    rw [lex_eq_ok_iff, lexFrom_append hcut hspace, lexFrom_blank (by decide),
      (lex_eq_ok_iff _ _).1 hother]
    rfl

end Hydration.Literal
