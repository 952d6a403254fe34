import Hydration.Text.Forms
/-!
# Bytes as ASCII text

Bytes below 128 are taken for the ASCII characters; the others are no letters, no digits and no
blanks, and stay as they are.

* `ofChars_chars`: the characters of bytes give the bytes back.
-/
namespace Hydration.Bytes

/-- The character of the number that a byte is. -/
def char (b : UInt8) : Char := Char.ofNat b.toNat

/-- The characters of the numbers that bytes are. -/
def chars (b : List UInt8) : Text := b.map char

/-- The bytes of characters below 256. -/
def ofChars (t : Text) : List UInt8 := t.map fun c => c.toNat.toUInt8

theorem ofChars_chars (b : List UInt8) : ofChars (chars b) = b := by
  induction b with
  | nil => rfl
  | cons x rest ih =>
    have hx : (char x).toNat.toUInt8 = x := by
      have h : x.toNat.isValidChar := Or.inl (Nat.lt_of_lt_of_le x.toNat_lt (by decide))
      have hc : char x = Char.ofNatAux x.toNat h := dif_pos h
      rw [hc]
      exact UInt8.ofNat_toNat
    simpa [ofChars, chars, hx] using ih

/-- Whether the character is white space of ASCII. -/
def isBlank (c : Char) : Bool := c == ' ' || (9 ≤ c.toNat && c.toNat ≤ 13)

/-- Whether there are bytes and all of them are of the class. -/
def isAll (p : Char → Bool) (b : List UInt8) : Bool := Text.isAll p (chars b)

/-- The bytes of a form of their text. -/
def through (f : Text → Text) (b : List UInt8) : List UInt8 := ofChars (f (chars b))

/-! ## Case -/

/-- Letters in lower case. -/
def lower : List UInt8 → List UInt8 := through (·.map Char.toLower)

/-- Letters in upper case. -/
def upper : List UInt8 → List UInt8 := through (·.map Char.toUpper)

/-- The first letter in upper case and the others in lower case. -/
def capitalize : List UInt8 → List UInt8 := through fun t =>
  match t with
  | [] => []
  | c :: rest => c.toUpper :: rest.map Char.toLower

/-- Letters in the other case. -/
def swapCase : List UInt8 → List UInt8 :=
  through (·.map fun c => if c.isUpper then c.toLower else c.toUpper)

/-- The first letter of each run of letters in upper case and the others in lower case. -/
def title : List UInt8 → List UInt8 := through (go false)
where
  /-- Goes on inside a run of letters or outside. -/
  go (inside : Bool) : Text → Text
    | [] => []
    | c :: rest => (if inside then c.toLower else c.toUpper) :: go c.isAlpha rest

/-- Whether there are letters and all of them are in lower case. -/
def isLower (b : List UInt8) : Bool := (chars b).any Char.isLower && !(chars b).any Char.isUpper

/-- Whether there are letters and all of them are in upper case. -/
def isUpper (b : List UInt8) : Bool := (chars b).any Char.isUpper && !(chars b).any Char.isLower

/-- Whether there are letters, and each run of them starts in upper case and goes on in lower
case. -/
def isTitle (b : List UInt8) : Bool := (chars b).any Char.isAlpha && title b == b

/-! ## Parts -/

/-- The bytes without blanks at their start. -/
def trimLeft : List UInt8 → List UInt8 := through (·.dropWhile isBlank)

/-- The bytes without blanks at their end. -/
def trimRight : List UInt8 → List UInt8 := through fun t => (t.reverse.dropWhile isBlank).reverse

/-- The words between runs of blanks. -/
def words (b : List UInt8) : List (List UInt8) :=
  (Text.wordsBy isBlank (chars b)).map ofChars

/-- The lines, which end with a line feed, a carriage return or both. -/
def lines (b : List UInt8) : List (List UInt8) :=
  (Text.linesBy (fun c => c == '\n' || c == '\r') (chars b)).map ofChars

/-- Spaces in place of tabs. -/
def expandTabs : List UInt8 → List UInt8 := through Text.expandTabs

end Hydration.Bytes
