import Hydration.Text.Classes
/-!
# Forms of a text

A text with its first character raised, with the cases swapped, cut into lines, or with spaces in
place of tabs.

* `isEnd_of_mem_linesBy`: no character that ends a line stands in one.
-/
namespace Hydration.Text

/-- The first character in title case and the others in lower case. -/
def capitalize : Text → Text
  | [] => []
  | c :: rest => titleChar c ++ lower.go [c] rest

/-- Upper case in place of lower case, and lower case in place of upper case. -/
def swapCase (t : Text) : Text :=
  go [] t
where
  /-- Goes on with the characters already read, last one first. -/
  go (before : Text) : Text → Text
    | [] => []
    | c :: after =>
      (if isUpper c then lowerAt before c after
        else if isLower c then upperChar c
        else [c]) ++ go (c :: before) after

/-- The characters that end a line. -/
def isLineEnd (c : Char) : Bool :=
  let n := c.toNat
  (10 ≤ n && n ≤ 13) || (28 ≤ n && n ≤ 30) || n == 0x85 || n == 0x2028 || n == 0x2029

/-- The lines of a text without the given ends; a carriage return and a line feed after it end one
line. -/
def linesBy (isEnd : Char → Bool) (t : Text) : List Text :=
  go [] t
where
  /-- Goes on with the characters of the current line, last one first. -/
  go : Text → Text → List Text
    | [], [] => []
    | line, [] => [line.reverse]
    | line, '\r' :: '\n' :: rest => line.reverse :: go [] rest
    | line, c :: rest => if isEnd c then line.reverse :: go [] rest else go (c :: line) rest

theorem isEnd_of_mem_linesBy {isEnd : Char → Bool} {t line : Text} (h : line ∈ linesBy isEnd t) :
    ∀ c ∈ line, isEnd c = false := by
  have hgo : ∀ (current t : Text), (∀ c ∈ current, isEnd c = false) →
      ∀ line ∈ linesBy.go isEnd current t, ∀ c ∈ line, isEnd c = false := by
    intro current t
    induction current, t using linesBy.go.induct isEnd with
    | case1 => simp [linesBy.go]
    | case2 current hne =>
      intro hcurrent line hline
      rw [linesBy.go] at hline
      · obtain rfl := List.mem_singleton.1 hline
        exact fun c hc => hcurrent c (List.mem_reverse.1 hc)
      · exact hne
    | case3 current rest ih =>
      intro hcurrent line hline
      rw [linesBy.go] at hline
      rcases List.mem_cons.1 hline with rfl | hline
      · exact fun c hc => hcurrent c (List.mem_reverse.1 hc)
      · exact ih (by simp) line hline
    | case4 current c rest hne hend ih =>
      intro hcurrent line hline
      rw [linesBy.go, if_pos hend] at hline
      · rcases List.mem_cons.1 hline with rfl | hline
        · exact fun c hc => hcurrent c (List.mem_reverse.1 hc)
        · exact ih (by simp) line hline
      · exact hne
    | case5 current c rest hne hkept ih =>
      intro hcurrent line hline
      rw [linesBy.go, if_neg hkept] at hline
      · exact ih (List.forall_mem_cons.2 ⟨Bool.eq_false_iff.2 hkept, hcurrent⟩) line hline
      · exact hne
  exact hgo [] t (by simp) line h

/-- The lines of a text. -/
def lines (t : Text) : List Text := linesBy isLineEnd t

/-- The width of a tab. -/
def tabWidth : Nat := 8

/-- Spaces up to the next multiple of the tab's width in place of each tab. -/
def expandTabs (t : Text) : Text :=
  go 0 t
where
  /-- Goes on at a column. -/
  go (column : Nat) : Text → Text
    | [] => []
    | c :: rest =>
      if c = '\t' then
        let width := tabWidth - column % tabWidth
        List.replicate width ' ' ++ go (column + width) rest
      else if c = '\n' ∨ c = '\r' then c :: go 0 rest
      else c :: go (column + 1) rest

end Hydration.Text
