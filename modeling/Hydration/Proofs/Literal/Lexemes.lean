import Hydration.Literal.Lexeme
import Hydration.Proofs.Text.Quoted
import Mathlib.Data.List.TakeWhile
/-!
# Cutting literals piece by piece

Lexemes end where nothing can be added to an atom, so a text that stops there is cut like the texts
it is made of. What cannot be cut is a text with a quote that opens no closed string.

* `lexFrom_eq_ok_iff`: what is cut into which lexemes, as a relation (`Lexed`).
* `lexFrom_append`: in front of blanks, marks and quotes a text is cut as if it stood alone.
* `lexed_iff_closed`: exactly the closed texts are cut.
-/
namespace Hydration.Literal
open Text.Quoted (Closed IsBody isQuote)

/-- The text is empty or starts with a character that ends an atom. -/
def EndsAtom (t : Text) : Prop := Text.Stops isAtomChar t

theorem endsAtom_nil : EndsAtom [] := by
  intro c rest h
  cases h

theorem endsAtom_cons {c : Char} (hc : isAtomChar c = false) (rest : Text) :
    EndsAtom (c :: rest) := by
  intro d r h
  cases h
  exact hc

theorem endsAtom_of_startsBlank {t : Text} (h : Text.StartsBlank t) : EndsAtom t := by
  refine h.stops fun c hc => ?_
  simp only [isAtomChar, Bool.not_eq_true', Bool.or_eq_false_iff] at hc
  exact hc.1.1

theorem isQuote_of_isMark {c : Char} (h : isMark c = true) : isQuote c = false := by
  simp only [isMark, Bool.or_eq_true, beq_iff_eq] at h
  rcases h with ((((rfl | rfl) | rfl) | rfl) | rfl) | rfl <;> decide

theorem isAtomChar_iff {c : Char} :
    isAtomChar c = true ↔ isQuote c = false ∧ isMark c = false ∧ Text.isBlank c = false := by
  simp only [isAtomChar, Bool.not_eq_true', Bool.or_eq_false_iff]
  constructor
  · rintro ⟨⟨hb, hm⟩, hq⟩
    exact ⟨hq, hm, hb⟩
  · rintro ⟨hq, hm, hb⟩
    exact ⟨⟨hb, hm⟩, hq⟩

/-! ## The first lexeme -/

theorem lexFrom_string {q : Char} {body : Text} (hq : isQuote q = true) (hb : IsBody true q body)
    (rest : Text) :
    lexFrom (q :: (body ++ q :: rest)) = (.string (q :: body ++ [q]) :: ·) <$> lexFrom rest := by
  rw [lexFrom, if_pos hq]
  split
  · rename_i hs
    rw [hb rest] at hs
    cases hs
  · rename_i hs
    rw [hb rest] at hs
    cases hs
    rfl

theorem lexFrom_mark {c : Char} (hc : isMark c = true) (rest : Text) :
    lexFrom (c :: rest) = (.mark c :: ·) <$> lexFrom rest := by
  rw [lexFrom, isQuote_of_isMark hc, hc]
  rfl

theorem lexFrom_atom {c : Char} (hc : isAtomChar c = true) (rest : Text) :
    lexFrom (c :: rest) =
      (.atom (c :: rest.takeWhile isAtomChar) :: ·) <$> lexFrom (rest.dropWhile isAtomChar) := by
  obtain ⟨hq, hm, hb⟩ := isAtomChar_iff.1 hc
  rw [lexFrom, hq, hm, hb]
  rfl

/-- An atom in front of something that ends it. -/
theorem lexFrom_atom_append {a t : Text} (hne : a ≠ []) (ha : ∀ c ∈ a, isAtomChar c = true)
    (ht : EndsAtom t) : lexFrom (a ++ t) = (.atom a :: ·) <$> lexFrom t := by
  obtain ⟨c, a, rfl⟩ := List.exists_cons_of_ne_nil hne
  have hall : ∀ d ∈ a, isAtomChar d = true := fun d hd => ha d (List.mem_cons_of_mem _ hd)
  rw [List.cons_append, lexFrom_atom (ha c List.mem_cons_self), Text.takeWhile_run ht hall,
    Text.dropWhile_run ht hall]

theorem lexFrom_blanks {gap : Text} (h : ∀ c ∈ gap, Text.isBlank c = true) (t : Text) :
    lexFrom (gap ++ t) = lexFrom t := by
  induction gap with
  | nil => rfl
  | cons c rest ih =>
    rw [List.cons_append, lexFrom_blank (h c List.mem_cons_self),
      ih fun d hd => h d (List.mem_cons_of_mem _ hd)]

/-! ## Lexemes as a relation -/

/-- The text is made of the lexemes, in order and with blanks between them. -/
inductive Lexed : Text → List Lexeme → Prop
  | nil : Lexed [] []
  | string {q : Char} {body rest : Text} {lexemes : List Lexeme} (hq : isQuote q = true)
    (hb : IsBody true q body) (h : Lexed rest lexemes) :
    Lexed (q :: (body ++ q :: rest)) (.string (q :: body ++ [q]) :: lexemes)
  | mark {c : Char} {rest : Text} {lexemes : List Lexeme} (hc : isMark c = true)
    (h : Lexed rest lexemes) : Lexed (c :: rest) (.mark c :: lexemes)
  | blank {c : Char} {rest : Text} {lexemes : List Lexeme} (hc : Text.isBlank c = true)
    (h : Lexed rest lexemes) : Lexed (c :: rest) lexemes
  | atom {a rest : Text} {lexemes : List Lexeme} (hne : a ≠ [])
    (ha : ∀ c ∈ a, isAtomChar c = true) (he : EndsAtom rest) (h : Lexed rest lexemes) :
    Lexed (a ++ rest) (.atom a :: lexemes)

/-- A string is a body between quotes, a mark one character, and an atom has characters of its
own. -/
def IsLexeme : Lexeme → Prop
  | .string t => ∃ q body, isQuote q = true ∧ IsBody true q body ∧ t = q :: body ++ [q]
  | .mark c => isMark c = true
  | .atom t => t ≠ [] ∧ ∀ c ∈ t, isAtomChar c = true

theorem Lexed.isLexeme {t : Text} {lexemes : List Lexeme} (h : Lexed t lexemes) :
    ∀ l ∈ lexemes, IsLexeme l := by
  induction h with
  | nil => simp
  | string hq hb _ ih => exact List.forall_mem_cons.2 ⟨⟨_, _, hq, hb, rfl⟩, ih⟩
  | mark hc _ ih => exact List.forall_mem_cons.2 ⟨hc, ih⟩
  | blank _ _ ih => exact ih
  | atom hne ha _ _ ih => exact List.forall_mem_cons.2 ⟨⟨hne, ha⟩, ih⟩

theorem map_cons_eq_ok {l : Lexeme} {r : Except Char (List Lexeme)} {lexemes : List Lexeme}
    (h : (l :: ·) <$> r = .ok lexemes) : ∃ more, r = .ok more ∧ lexemes = l :: more := by
  cases r with
  | error c => cases h
  | ok more =>
    cases h
    exact ⟨more, rfl, rfl⟩

theorem lexed_of_lexFrom {t : Text} {lexemes : List Lexeme} (h : lexFrom t = .ok lexemes) :
    Lexed t lexemes := by
  fun_induction lexFrom t generalizing lexemes with
  | case1 =>
    cases h
    exact .nil
  | case2 => cases h
  | case3 q rest hq body after hs ih =>
    obtain ⟨more, hm, rfl⟩ := map_cons_eq_ok h
    rw [Text.Quoted.scan_eq_some hs]
    exact .string hq (Text.Quoted.isBody_of_scan (Text.Quoted.ne_of_isQuote hq (by decide)) hs)
      (ih hm)
  | case4 c rest hq hc ih =>
    obtain ⟨more, hm, rfl⟩ := map_cons_eq_ok h
    exact .mark hc (ih hm)
  | case5 c rest hq hc hb ih => exact .blank hb (ih h)
  | case6 c rest hq hc hb ih =>
    obtain ⟨more, hm, rfl⟩ := map_cons_eq_ok h
    have happ : c :: rest = (c :: rest.takeWhile isAtomChar) ++ rest.dropWhile isAtomChar := by
      rw [List.cons_append, List.takeWhile_append_dropWhile]
    rw [happ]
    refine .atom (List.cons_ne_nil _ _) ?_ ?_ (ih hm)
    · refine List.forall_mem_cons.2 ⟨isAtomChar_iff.2 (by simp_all), fun d hd => ?_⟩
      exact List.all_eq_true.1 List.all_takeWhile d hd
    · intro d r hd
      have := List.head?_dropWhile_not isAtomChar rest
      rw [hd] at this
      simpa using this

theorem lexFrom_of_lexed {t : Text} {lexemes : List Lexeme} (h : Lexed t lexemes) :
    lexFrom t = .ok lexemes := by
  induction h with
  | nil => rw [lexFrom]
  | string hq hb _ ih => rw [lexFrom_string hq hb, ih]; rfl
  | mark hc _ ih => rw [lexFrom_mark hc, ih]; rfl
  | blank hc _ ih => rw [lexFrom_blank hc, ih]
  | atom hne ha he _ ih => rw [lexFrom_atom_append hne ha he, ih]; rfl

theorem lexFrom_eq_ok_iff (t : Text) (lexemes : List Lexeme) :
    lexFrom t = .ok lexemes ↔ Lexed t lexemes :=
  ⟨lexed_of_lexFrom, lexFrom_of_lexed⟩

/-! ## Side by side -/

theorem EndsAtom.append {a b : Text} (ha : EndsAtom a) (hb : EndsAtom b) : EndsAtom (a ++ b) := by
  cases a with
  | nil => exact hb
  | cons c rest => exact endsAtom_cons (ha c rest rfl) _

theorem lexFrom_append {a b : Text} {lexemes : List Lexeme} (ha : lexFrom a = .ok lexemes)
    (hb : EndsAtom b) : lexFrom (a ++ b) = (lexemes ++ ·) <$> lexFrom b := by
  rw [lexFrom_eq_ok_iff] at ha
  induction ha with
  | nil => simp
  | string hq hbody _ ih =>
    rw [List.cons_append, List.append_assoc, List.cons_append, lexFrom_string hq hbody, ih,
      ← comp_map]
    rfl
  | mark hc _ ih =>
    rw [List.cons_append, lexFrom_mark hc, ih, ← comp_map]
    rfl
  | blank hc _ ih => rw [List.cons_append, lexFrom_blank hc, ih]
  | atom hne hatom he _ ih =>
    rw [List.append_assoc, lexFrom_atom_append hne hatom (he.append hb), ih, ← comp_map]
    rfl

/-! ## Closed texts -/

theorem closed_atom {breaks : Bool} {a : Text} (h : ∀ c ∈ a, isAtomChar c = true) :
    Closed breaks a :=
  Text.Quoted.closed_of_forall fun c hc => (isAtomChar_iff.1 (h c hc)).1

theorem Lexed.closed {t : Text} {lexemes : List Lexeme} (h : Lexed t lexemes) : Closed true t := by
  induction h with
  | nil => exact .nil
  | string hq hb _ ih => exact .string hq hb ih
  | mark hc _ ih => exact .char (isQuote_of_isMark hc) ih
  | blank hc _ ih => exact .char (Text.Quoted.isQuote_of_isBlank hc) ih
  | atom _ ha _ _ ih => exact (closed_atom ha).append ih

/-- A character in front of lexemes is one more, or a blank, or belongs to the first atom. -/
theorem Lexed.cons {c : Char} {t : Text} {lexemes : List Lexeme} (hc : isQuote c = false)
    (h : Lexed t lexemes) : ∃ more, Lexed (c :: t) more := by
  cases hm : isMark c with
  | true => exact ⟨_, .mark hm h⟩
  | false =>
    cases hb : Text.isBlank c with
    | true => exact ⟨_, .blank hb h⟩
    | false =>
      have ha : isAtomChar c = true := isAtomChar_iff.2 ⟨hc, hm, hb⟩
      have single : ∀ d ∈ [c], isAtomChar d = true := by
        intro d hd
        rwa [List.mem_singleton.1 hd]
      cases h with
      | nil => exact ⟨_, .atom (a := [c]) (by simp) single endsAtom_nil .nil⟩
      | string hq hbody hrest =>
        refine ⟨_, .atom (a := [c]) (by simp) single (endsAtom_cons ?_ _) (.string hq hbody hrest)⟩
        simp [isAtomChar, hq]
      | mark hd hrest =>
        refine ⟨_, .atom (a := [c]) (by simp) single (endsAtom_cons ?_ _) (.mark hd hrest)⟩
        simp [isAtomChar, hd]
      | blank hd hrest =>
        refine ⟨_, .atom (a := [c]) (by simp) single (endsAtom_cons ?_ _) (.blank hd hrest)⟩
        simp [isAtomChar, hd]
      | atom hne hatom he hrest =>
        rw [← List.cons_append]
        exact ⟨_, .atom (by simp) (List.forall_mem_cons.2 ⟨ha, hatom⟩) he hrest⟩

theorem lexed_iff_closed (t : Text) : (∃ lexemes, Lexed t lexemes) ↔ Closed true t := by
  constructor
  · rintro ⟨lexemes, h⟩
    exact h.closed
  · intro h
    induction h with
    | nil => exact ⟨[], .nil⟩
    | string hq hb _ ih =>
      obtain ⟨lexemes, h⟩ := ih
      exact ⟨_, .string hq hb h⟩
    | char hc _ ih =>
      obtain ⟨lexemes, h⟩ := ih
      exact h.cons hc

theorem Lexed.blank_of_nil {t : Text} {lexemes : List Lexeme} (h : Lexed t lexemes)
    (hl : lexemes = []) : ∀ c ∈ t, Text.isBlank c = true := by
  induction h with
  | nil => simp
  | blank hc _ ih => exact List.forall_mem_cons.2 ⟨hc, ih hl⟩
  | string => cases hl
  | mark => cases hl
  | atom => cases hl

end Hydration.Literal
