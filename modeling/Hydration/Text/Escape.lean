import Hydration.Text.Basic
/-!
# Escaping for markup

Text that stands between tags or in an attribute has its reserved characters written as
references. Attribute values that this library writes need only their double quotes escaped, since
they stand between double quotes.

* `escapeQuotes_quote`: an escaped text has no double quote.
-/
namespace Hydration.Text

/-- The reference for a reserved character, or the character itself. -/
def escapeChar (c : Char) : Text :=
  if c = '&' then "&amp;"
  else if c = '<' then "&lt;"
  else if c = '>' then "&gt;"
  else if c = '"' then "&quot;"
  else if c = '\'' then "&#x27;"
  else [c]

/-- The text with every reserved character of markup as a reference. -/
def escape (t : Text) : Text := t.flatMap escapeChar

/-- The text with every double quote as a reference. -/
def escapeQuotes (t : Text) : Text := replaceChar '"' "&quot;" t

theorem escapeQuotes_quote (t : Text) : '"' ∉ escapeQuotes t := by
  simp only [escapeQuotes, replaceChar, List.mem_flatMap, not_exists, not_and]
  intro c _
  by_cases h : c = '"'
  · simp only [h, if_true]
    decide
  · simp [h, Ne.symm h]

end Hydration.Text
