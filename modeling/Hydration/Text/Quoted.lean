import Hydration.Text.Blank
/-!
# Quoted strings

A string stands between two double or two single quotes. Inside, a backslash takes the next
character with it, so an escaped quote does not close the string. `scan` finds where a string
ends, `decode?` gives its value and `encode` writes a value.

* `scan_eq_some`: what `scan` read is the body, the closing quote and what follows.
* `decode?_encode`: reading a written string gives the text back.
* `isBlank_of_isQuote`: quotes are no blanks.
-/
namespace Hydration.Text.Quoted

/-- The characters that open and close a string. -/
def isQuote (c : Char) : Bool := c == '"' || c == '\''

theorem isBlank_of_isQuote {c : Char} (h : isQuote c = true) : isBlank c = false := by
  simp only [isQuote, Bool.or_eq_true, beq_iff_eq] at h
  rcases h with rfl | rfl <;> decide

theorem isQuote_of_isBlank {c : Char} (h : isBlank c = true) : isQuote c = false := by
  refine Bool.eq_false_iff.2 fun hq => ?_
  rw [isBlank_of_isQuote hq] at h
  cases h

/-- Cuts the text after an opening quote at the quote that closes the string: the body, escapes
as written, and what follows. With `breaks` a backslash may take a line feed, else such a string
is no string. -/
def scan (breaks : Bool) (q : Char) : Text → Option (Text × Text)
  | [] => none
  | '\\' :: c :: rest =>
    if c = '\n' && !breaks then none
    else (scan breaks q rest).map fun (body, after) => ('\\' :: c :: body, after)
  | c :: rest =>
    if c = q then some ([], rest)
    else (scan breaks q rest).map fun (body, after) => (c :: body, after)

theorem scan_escape (breaks : Bool) (q c : Char) (rest : Text) :
    scan breaks q ('\\' :: c :: rest) =
      if c = '\n' && !breaks then none
      else (scan breaks q rest).map fun (body, after) => ('\\' :: c :: body, after) := rfl

/-- A character that takes none with it closes the string, or is a part of it. -/
theorem scan_cons {breaks : Bool} {q c : Char} {rest : Text}
    (h : ∀ d more, c = '\\' → rest = d :: more → False) :
    scan breaks q (c :: rest) =
      if c = q then some ([], rest)
      else (scan breaks q rest).map fun (body, after) => (c :: body, after) := by
  rw [scan]
  exact h

theorem scan_eq_some {breaks : Bool} {q : Char} {t body after : Text}
    (h : scan breaks q t = some (body, after)) : t = body ++ q :: after := by
  fun_induction scan breaks q t generalizing body after with
  | case1 => simp at h
  | case2 => simp at h
  | case3 c rest _ ih =>
    obtain ⟨⟨b, a⟩, hs, he⟩ := Option.map_eq_some_iff.1 h
    simp only [Prod.mk.injEq] at he
    obtain ⟨rfl, rfl⟩ := he
    simp [ih hs]
  | case4 rest _ =>
    simp only [Option.some.injEq, Prod.mk.injEq] at h
    obtain ⟨rfl, rfl⟩ := h
    rfl
  | case5 c rest _ _ ih =>
    obtain ⟨⟨b, a⟩, hs, he⟩ := Option.map_eq_some_iff.1 h
    simp only [Prod.mk.injEq] at he
    obtain ⟨rfl, rfl⟩ := he
    simp [ih hs]

theorem scan_length {breaks : Bool} {q : Char} {t body after : Text}
    (h : scan breaks q t = some (body, after)) : after.length < t.length := by
  rw [scan_eq_some h]
  simp
  omega

/-- Whether the whole text is one string. -/
def isString : Text → Bool
  | [] => false
  | q :: rest =>
    isQuote q &&
      match scan true q rest with
      | some (_, after) => after.isEmpty
      | none => false

/-- Writes a backslash followed by `x` as `x` alone, wherever it stands. -/
def collapse (x : Char) : Text → Text
  | '\\' :: c :: rest => if c = x then x :: collapse x rest else '\\' :: collapse x (c :: rest)
  | c :: rest => c :: collapse x rest
  | [] => []

/-- The value of a string: the quotes dropped, then escaped quotes and after them escaped
backslashes undone. Text that does not start and end with one quote character has none. -/
def decode? : Text → Option Text
  | [] => none
  | q :: rest =>
    if isQuote q && (q :: rest).getLast? == some q then
      some (collapse '\\' (collapse q rest.dropLast))
    else none

/-- A text between quotes, with a backslash before every backslash and every such quote. -/
def encode (q : Char) (t : Text) : Text :=
  q :: (t.flatMap fun c => if c = q ∨ c = '\\' then ['\\', c] else [c]) ++ [q]

/-- The text without the strings in it; a quote that opens no string stays. -/
def outside : Text → Text
  | [] => []
  | c :: rest =>
    if isQuote c then
      match _h : scan true c rest with
      | some (_, after) => outside after
      | none => c :: outside rest
    else c :: outside rest
termination_by t => t.length
decreasing_by
  · have := scan_length _h
    simp
    omega
  · simp
  · simp

/-! ## Reading what was written -/

/-- Escaped quotes undone, escaped backslashes still doubled. -/
private def doubled (t : Text) : Text := t.flatMap fun c => if c = '\\' then ['\\', '\\'] else [c]

private theorem collapse_cons_of_ne {x c : Char} (h : c ≠ '\\') (t : Text) :
    collapse x (c :: t) = c :: collapse x t := by
  rw [collapse]
  intro _ _ hc _
  exact h hc

private theorem collapse_quote {q : Char} (hq : q ≠ '\\') (t : Text) :
    collapse q (t.flatMap fun c => if c = q ∨ c = '\\' then ['\\', c] else [c]) = doubled t := by
  induction t with
  | nil => rfl
  | cons c rest ih =>
    by_cases hc : c = q
    · subst hc
      simp only [List.flatMap_cons, true_or, if_true, List.cons_append, List.nil_append, doubled,
        if_neg hq]
      simp only [collapse, if_true, ih]
      rfl
    · by_cases hb : c = '\\'
      · subst hb
        simp only [List.flatMap_cons, or_true, if_true, List.cons_append, List.nil_append, doubled]
        have h1 : ∀ u : Text, collapse q ('\\' :: '\\' :: u) = '\\' :: collapse q ('\\' :: u) := by
          intro u
          simp [collapse, Ne.symm hq]
        rw [h1]
        have h2 : ∀ u : Text, collapse q ('\\' :: (u.flatMap fun c =>
            if c = q ∨ c = '\\' then ['\\', c] else [c])) = '\\' :: collapse q (u.flatMap fun c =>
            if c = q ∨ c = '\\' then ['\\', c] else [c]) := by
          intro u
          cases u with
          | nil => simp [collapse]
          | cons d v =>
            by_cases hd : d = q ∨ d = '\\'
            · simp only [List.flatMap_cons, if_pos hd, List.cons_append, List.nil_append]
              simp [collapse, Ne.symm hq]
            · have hdq : d ≠ q := fun e => hd (Or.inl e)
              simp only [List.flatMap_cons, if_neg hd, List.cons_append, List.nil_append]
              simp [collapse, hdq]
        rw [h2, ih]
        rfl
      · simp only [List.flatMap_cons, hc, hb, or_self, if_false, List.cons_append, List.nil_append,
          doubled]
        rw [collapse_cons_of_ne hb, ih]
        rfl

private theorem collapse_doubled (t : Text) : collapse '\\' (doubled t) = t := by
  induction t with
  | nil => rfl
  | cons c rest ih =>
    by_cases hb : c = '\\'
    · subst hb
      simp only [doubled, List.flatMap_cons, if_true, List.cons_append, List.nil_append]
      simp only [collapse, if_true]
      rw [show (List.flatMap _ rest) = doubled rest from rfl, ih]
    · simp only [doubled, List.flatMap_cons, hb, if_false, List.cons_append, List.nil_append]
      rw [collapse_cons_of_ne hb, show (List.flatMap _ rest) = doubled rest from rfl, ih]

theorem decode?_encode {q : Char} (hq : isQuote q = true) (t : Text) :
    decode? (encode q t) = some t := by
  have hne : q ≠ '\\' := by
    rintro rfl
    simp [isQuote] at hq
  simp only [encode, decode?, List.cons_append]
  rw [if_pos]
  · rw [List.dropLast_concat, collapse_quote hne, collapse_doubled]
  · rw [hq, ← List.cons_append, List.getLast?_concat]
    simp

end Hydration.Text.Quoted
