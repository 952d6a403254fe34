/-!
# Text

Text is a list of Unicode scalar values, so that every scanner of the library is a recursion on
its input and every statement about one is an induction on it. String literals may stand where
text is expected.

Here are the few operations that the scanners, writers and filters share: cutting at a separator,
replacing, the order of texts, and the decimal digits of a number.

* `parts_ne_nil`: a text has at least one part.
* `precedes_refl`: a text does not come after itself.
-/
namespace Hydration

/-- A text, character by character. -/
abbrev Text := List Char

instance : Coe String Text := ⟨String.toList⟩

namespace Text

/-- The parts between the separators: one more part than there are separators. -/
def parts (sep : Char) : Text → List Text
  | [] => [[]]
  | c :: rest =>
    if c = sep then [] :: parts sep rest
    else
      match parts sep rest with
      | [] => [[c]]
      | part :: more => (c :: part) :: more

theorem parts_ne_nil (sep : Char) (t : Text) : parts sep t ≠ [] := by
  cases t with
  | nil => simp [parts]
  | cons c rest =>
    unfold parts
    split
    · simp
    · split <;> simp

/-- Whether the text starts with the given opening. -/
def opensWith (opening t : Text) : Bool := opening.isPrefixOf t

/-- Whether the text stops with the given ending. -/
def endsWith (ending t : Text) : Bool := ending.isSuffixOf t

/-- Whether a pattern stands somewhere in a text. -/
def occursIn (pattern : Text) : Text → Bool
  | [] => pattern.isEmpty
  | c :: rest => opensWith pattern (c :: rest) || occursIn pattern rest

/-- The text after an opening, if it has that opening. -/
def after? (opening t : Text) : Option Text :=
  if opensWith opening t then some (t.drop opening.length) else none

/-- Every occurrence of one character written as another text. -/
def replaceChar (c : Char) (by' : Text) (t : Text) : Text :=
  t.flatMap fun x => if x = c then by' else [x]

/-- The text without the occurrences of a pattern, found left to right without overlap; an empty
pattern occurs nowhere. -/
def without (pattern : Text) (t : Text) : Text :=
  go t 0
where
  /-- Drops the rest of an occurrence that was found, then looks for the next one. -/
  go : Text → Nat → Text
    | [], _ => []
    | _ :: rest, skip + 1 => go rest skip
    | c :: rest, 0 =>
      if pattern ≠ [] ∧ opensWith pattern (c :: rest) then go rest (pattern.length - 1)
      else c :: go rest 0

/-- Cuts at the first separator; the second part is absent if there is none. -/
def cutAt (sep : Char) (t : Text) : Text × Option Text :=
  match t.dropWhile (· ≠ sep) with
  | [] => (t, none)
  | _ :: rest => (t.takeWhile (· ≠ sep), some rest)

/-- Whether the first text does not come after the second one, by the numbers of their
characters. -/
def precedes : Text → Text → Bool
  | [], _ => true
  | _ :: _, [] => false
  | a :: s, b :: t => if a = b then precedes s t else decide (a.toNat < b.toNat)

theorem precedes_refl (t : Text) : precedes t t = true := by
  induction t with
  | nil => rfl
  | cons c rest ih => simp [precedes, ih]

/-- The decimal digits of a natural number. -/
def ofNat (n : Nat) : Text := Nat.toDigits 10 n

/-- A natural number in the given number of decimal places, filled with zeros on the left. -/
def ofNatPadded (width n : Nat) : Text :=
  let digits := ofNat n
  List.replicate (width - digits.length) '0' ++ digits

/-- The value of an ASCII hexadecimal digit. -/
def hexValue? (c : Char) : Option Nat :=
  if '0' ≤ c ∧ c ≤ '9' then some (c.toNat - 48)
  else if 'a' ≤ c ∧ c ≤ 'f' then some (c.toNat - 87)
  else if 'A' ≤ c ∧ c ≤ 'F' then some (c.toNat - 55)
  else none

/-- A natural number in lower-case hexadecimal, filled with zeros on the left. -/
def ofHex (width n : Nat) : Text :=
  let digits := Nat.toDigits 16 n
  List.replicate (width - digits.length) '0' ++ digits

end Text
end Hydration
