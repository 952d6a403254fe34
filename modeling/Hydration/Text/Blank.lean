import Hydration.Text.Basic
/-!
# Blank characters

The white space of Unicode together with the four ASCII separators U+001C to U+001F. The same set
separates bits of a tag, is trimmed at the ends of a text, and stands between lexemes.

* `isBlank_of_isWhitespace`: every ASCII white space character is blank.
-/
namespace Hydration.Text

/-- White space: tab to carriage return, the separators from U+001C, the space, next line, the
no-break space and the typographic spaces. The zero-width space is not blank. -/
def isBlank (c : Char) : Bool :=
  let n := c.toNat
  (9 ≤ n && n ≤ 13) || (28 ≤ n && n ≤ 32) || n == 0x85 || n == 0xA0 || n == 0x1680 ||
    (0x2000 ≤ n && n ≤ 0x200A) || n == 0x2028 || n == 0x2029 || n == 0x202F || n == 0x205F ||
    n == 0x3000

theorem isBlank_of_isWhitespace {c : Char} (h : c.isWhitespace = true) : isBlank c = true := by
  simp only [Char.isWhitespace, Bool.or_eq_true, decide_eq_true_eq] at h
  rcases h with ((h | h) | h) | h <;> subst h <;> decide

/-- The text without blanks at its start. -/
def trimLeft (t : Text) : Text := t.dropWhile isBlank

/-- The text without blanks at its end. -/
def trimRight (t : Text) : Text := (t.reverse.dropWhile isBlank).reverse

/-- The text without blanks at either end. -/
def trim (t : Text) : Text := trimRight (trimLeft t)

/-- Whether the text has no character but blanks. -/
def isAllBlank (t : Text) : Bool := t.all isBlank

/-- The words between runs of characters of a class. -/
def wordsBy (isGap : Char → Bool) (t : Text) : List Text :=
  go t []
where
  /-- Reads on with the letters of the current word in reverse. -/
  go : Text → Text → List Text
    | [], [] => []
    | [], word => [word.reverse]
    | c :: rest, word =>
      if isGap c then
        match word with
        | [] => go rest []
        | _ => word.reverse :: go rest []
      else go rest (c :: word)

/-- The words between runs of blanks. -/
def words (t : Text) : List Text := wordsBy isBlank t

end Hydration.Text
