import Hydration.Proofs.Literal.Depth
/-!
# Brackets up to a boundary

Two scanners find the strings of a literal: one leaves them out and counts the brackets that remain,
the other one cuts the text into lexemes. Wherever the second one stands between two lexemes, the
first one has counted the brackets among the lexemes in front of it (`LexedUpTo`). An accepted
literal therefore has depth zero, and a positive depth at every boundary inside of it.

* `Lexed.upTo`: there is a boundary wherever the lexemes are divided.
* `LexedUpTo.exists_append`: what is in front of it and what is behind it.
* `bracketDepth_upTo`: the depth of a text up to a boundary.
* `bracketDepth_agrees`: both counts agree, on the text and up to every boundary.
-/
namespace Hydration.Literal
open Text.Quoted (IsBody isQuote)

/-- Cutting the text from its start takes the lexemes and comes to what is left. -/
inductive LexedUpTo : Text → List Lexeme → Text → Prop
  | start (t : Text) : LexedUpTo t [] t
  | string {q : Char} {body rest left : Text} {taken : List Lexeme} (hq : isQuote q = true)
    (hb : IsBody true q body) (h : LexedUpTo rest taken left) :
    LexedUpTo (q :: (body ++ q :: rest)) (.string (q :: body ++ [q]) :: taken) left
  | mark {c : Char} {rest left : Text} {taken : List Lexeme} (hc : isMark c = true)
    (h : LexedUpTo rest taken left) : LexedUpTo (c :: rest) (.mark c :: taken) left
  | blank {c : Char} {rest left : Text} {taken : List Lexeme} (hc : Text.isBlank c = true)
    (h : LexedUpTo rest taken left) : LexedUpTo (c :: rest) taken left
  | atom {a rest left : Text} {taken : List Lexeme} (hne : a ≠ [])
    (ha : ∀ c ∈ a, isAtomChar c = true) (he : EndsAtom rest) (h : LexedUpTo rest taken left) :
    LexedUpTo (a ++ rest) (.atom a :: taken) left

variable {t front left : Text} {lexemes taken more : List Lexeme}

theorem EndsAtom.of_append (h : EndsAtom (front ++ left)) : EndsAtom front := by
  cases front with
  | nil => exact endsAtom_nil
  | cons c rest => exact endsAtom_cons (h c _ rfl) rest

/-- What is in front of a boundary is cut into the lexemes that were taken. -/
theorem LexedUpTo.split (h : LexedUpTo t taken left) :
    ∃ front, t = front ++ left ∧ Lexed front taken := by
  induction h with
  | start t => exact ⟨[], rfl, .nil⟩
  | @string q body _ _ _ hq hb _ ih =>
    obtain ⟨front, rfl, hfront⟩ := ih
    exact ⟨q :: (body ++ q :: front), by simp, .string hq hb hfront⟩
  | @mark c _ _ _ hc _ ih =>
    obtain ⟨front, rfl, hfront⟩ := ih
    exact ⟨c :: front, rfl, .mark hc hfront⟩
  | @blank c _ _ _ hc _ ih =>
    obtain ⟨front, rfl, hfront⟩ := ih
    exact ⟨c :: front, rfl, .blank hc hfront⟩
  | @atom a _ _ _ hne ha he _ ih =>
    obtain ⟨front, rfl, hfront⟩ := ih
    exact ⟨a ++ front, (List.append_assoc a front _).symm, .atom hne ha he.of_append hfront⟩

/-- What is behind a boundary is cut as if it stood alone. -/
theorem LexedUpTo.lexFrom (h : LexedUpTo t taken left) :
    lexFrom t = (taken ++ ·) <$> lexFrom left := by
  induction h with
  | start => simp
  | string hq hb _ ih =>
    rw [lexFrom_string hq hb, ih, ← comp_map]
    rfl
  | mark hc _ ih =>
    rw [lexFrom_mark hc, ih, ← comp_map]
    rfl
  | blank hc _ ih => rw [lexFrom_blank hc, ih]
  | atom hne ha he _ ih =>
    rw [lexFrom_atom_append hne ha he, ih, ← comp_map]
    rfl

/-- Wherever the lexemes of a text are divided, the text has a boundary. -/
theorem Lexed.upTo (h : Lexed t (taken ++ more)) :
    ∃ left, LexedUpTo t taken left := by
  generalize hall : taken ++ more = lexemes at h
  induction h generalizing taken with
  | nil =>
    obtain ⟨rfl, rfl⟩ := List.append_eq_nil_iff.1 hall
    exact ⟨[], .start []⟩
  | string hq hb _ ih =>
    rcases List.append_eq_cons_iff.1 hall with ⟨rfl, rfl⟩ | ⟨taken, rfl, hmore⟩
    · exact ⟨_, .start _⟩
    · obtain ⟨left, hupTo⟩ := ih hmore.symm
      exact ⟨left, .string hq hb hupTo⟩
  | mark hc _ ih =>
    rcases List.append_eq_cons_iff.1 hall with ⟨rfl, rfl⟩ | ⟨taken, rfl, hmore⟩
    · exact ⟨_, .start _⟩
    · obtain ⟨left, hupTo⟩ := ih hmore.symm
      exact ⟨left, .mark hc hupTo⟩
  | blank hc _ ih =>
    obtain ⟨left, hupTo⟩ := ih hall
    exact ⟨left, .blank hc hupTo⟩
  | atom hne ha he _ ih =>
    rcases List.append_eq_cons_iff.1 hall with ⟨rfl, rfl⟩ | ⟨taken, rfl, hmore⟩
    · exact ⟨_, .start _⟩
    · obtain ⟨left, hupTo⟩ := ih hmore.symm
      exact ⟨left, .atom hne ha he hupTo⟩

/-- The lexemes of a text start with those that were taken up to a boundary. -/
theorem LexedUpTo.exists_append (h : LexedUpTo t taken left)
    (hall : Literal.lexFrom t = .ok lexemes) :
    ∃ more, Literal.lexFrom left = .ok more ∧ lexemes = taken ++ more := by
  rw [h.lexFrom] at hall
  cases hleft : Literal.lexFrom left with
  | error c =>
    rw [hleft] at hall
    cases hall
  | ok more =>
    rw [hleft] at hall
    cases hall
    exact ⟨more, rfl, rfl⟩

/-! ## Counting brackets -/

/-- Opening brackets less closing ones, counted as lexemes. -/
def balance (lexemes : List Lexeme) : Int :=
  (lexemes.count (.mark '{') + lexemes.count (.mark '[')) -
    (lexemes.count (.mark '}') + lexemes.count (.mark ']'))

theorem balance_cons (l : Lexeme) (rest : List Lexeme) :
    balance (l :: rest) = balance [l] + balance rest := by
  rw [← List.singleton_append]
  simp only [balance, List.count_append]
  omega

theorem balance_singleton (l : Lexeme) : balance [l] = l.weight := by
  cases l with
  | string t => rfl
  | atom t => rfl
  | mark c =>
    simp only [balance, Lexeme.weight, Tag.bracketWeight, List.count_singleton, beq_iff_eq,
      Lexeme.mark.injEq]
    by_cases h₁ : c = '{'
    · subst h₁
      rfl
    by_cases h₂ : c = '['
    · subst h₂
      rfl
    by_cases h₃ : c = '}'
    · subst h₃
      rfl
    by_cases h₄ : c = ']'
    · subst h₄
      rfl
    simp [h₁, h₂, h₃, h₄]

theorem balance_eq_weight (lexemes : List Lexeme) : balance lexemes = weight lexemes := by
  induction lexemes with
  | nil => rfl
  | cons l rest ih => rw [balance_cons, balance_singleton, ih, weight_cons]

/-- Up to a boundary, the depth of the text is that of the lexemes that were taken. -/
theorem bracketDepth_upTo (h : LexedUpTo (front ++ left) taken left) :
    Tag.bracketDepth front = balance taken := by
  obtain ⟨front', hsplit, hfront⟩ := h.split
  rw [List.append_cancel_right hsplit, bracketDepth_of_lexed hfront, balance_eq_weight]

/-- **The count of brackets agrees with the lexemes.** The depth of a text that can be cut is the
number of its opening brackets less that of its closing brackets, counted as lexemes; and the text
has a boundary wherever its lexemes are divided. If the text is accepted as a literal, the depth is
zero on the whole of it; and it is positive on every part in front of a boundary that holds some of
the lexemes and not all of them. -/
theorem bracketDepth_agrees (h : lex t = .ok lexemes) :
    Tag.bracketDepth t = balance lexemes ∧
    (∀ taken more, lexemes = taken ++ more → ∃ left, LexedUpTo t taken left) ∧
    ∀ (reader : Option FilterReader) (e : Expression), read reader t = .ok e →
      Tag.bracketDepth t = 0 ∧
      ∀ front left taken, t = front ++ left → LexedUpTo t taken left → taken ≠ [] →
        taken ≠ lexemes → 0 < Tag.bracketDepth front := by
  have hlex : lexFrom t = .ok lexemes := (lex_eq_ok_iff t lexemes).1 h
  have hlexed : Lexed t lexemes := lexed_of_lexFrom hlex
  have hdepth := bracketDepth_of_lexed hlexed
  refine ⟨hdepth.trans (balance_eq_weight lexemes).symm, ?_, fun reader e hread => ?_⟩
  · rintro taken more rfl
    exact hlexed.upTo
  obtain ⟨all, hall, hreadAll⟩ := (read_eq_ok_iff reader t e).1 hread
  cases h.symm.trans hall
  refine ⟨hdepth.trans (weight_of_readAll reader hreadAll), ?_⟩
  rintro front left taken rfl hupTo hsome hnotAll
  obtain ⟨more, -, rfl⟩ := hupTo.exists_append hlex
  have hmore : more ≠ [] := by
    rintro rfl
    exact hnotAll (List.append_nil taken).symm
  rw [bracketDepth_upTo hupTo, balance_eq_weight]
  exact weight_pos_of_readAll reader hsome hmore hreadAll

/-- A brace in a string closes nothing: the object is open up to its own brace. -/
theorem bracketDepth_agrees_string :
    lex "\x7ba: \"\x7d\", b: [1]\x7d" =
      .ok [.mark '{', .atom "a", .mark ':', .string "\"\x7d\"", .mark ',', .atom "b", .mark ':',
        .mark '[', .atom "1", .mark ']', .mark '}'] ∧
    read none "\x7ba: \"\x7d\", b: [1]\x7d" =
      .ok (.object [("a", .constant (.str "\x7d")), ("b", .array [.constant (.int 1)])]) ∧
    LexedUpTo "\x7ba: \"\x7d\", b: [1]\x7d"
      [.mark '{', .atom "a", .mark ':', .string "\"\x7d\""] ", b: [1]\x7d" ∧
    0 < Tag.bracketDepth "\x7ba: \"\x7d\"" := by
  have hlex : lex "\x7ba: \"\x7d\", b: [1]\x7d" =
      .ok [.mark '{', .atom "a", .mark ':', .string "\"\x7d\"", .mark ',', .atom "b", .mark ':',
        .mark '[', .atom "1", .mark ']', .mark '}'] := by
    cbv
  have hread : read none "\x7ba: \"\x7d\", b: [1]\x7d" =
      .ok (.object [("a", .constant (.str "\x7d")), ("b", .array [.constant (.int 1)])]) := by
    rw [read, hlex]
    rfl
  have hupTo : LexedUpTo "\x7ba: \"\x7d\", b: [1]\x7d"
      [.mark '{', .atom "a", .mark ':', .string "\"\x7d\""] ", b: [1]\x7d" := by
    have hbody : IsBody true '"' ['\x7d'] :=
      Text.Quoted.isBody_cons (by decide) (by decide) (Text.Quoted.isBody_nil true (by decide))
    have hstring := LexedUpTo.string (by decide) hbody (.start ", b: [1]\x7d")
    have hcolon := LexedUpTo.mark (c := ':') (by decide) (.blank (c := ' ') (by decide) hstring)
    exact .mark (by decide) (.atom (List.cons_ne_nil 'a' [])
      (List.forall_mem_singleton.2 (by decide)) (endsAtom_cons (by decide) _) hcolon)
  exact ⟨hlex, hread, hupTo, ((bracketDepth_agrees hlex).2.2 none _ hread).2 _ _ _ rfl hupTo
    (by simp) (by simp)⟩

end Hydration.Literal
