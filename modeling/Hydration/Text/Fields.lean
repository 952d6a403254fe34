import Hydration.Failure
import Hydration.Text.Digit
/-!
# Fields in braces

    a {{ b }} c

A text with fields in braces, for which no values are given: doubled braces stand for single ones,
and the first field is a failure, by its position or by its name.

* `withoutFields_plain`: a text without braces stays as it is.
-/
namespace Hydration.Text.Fields

/-- Positions are below this number, 2^63. -/
def positionLimit : Nat := 9223372036854775808

/-- Reads a position of decimal digits: nothing if the name is none. -/
def readPosition (n : Nat) : Text → Except FieldFault (Option Nat)
  | [] => .ok (some n)
  | c :: rest =>
    match digitValue? c with
    | none => .ok none
    | some d =>
      if positionLimit ≤ 10 * n + d then .error .tooManyDigits else readPosition (10 * n + d) rest

/-- What is missing for a field of the given name. The field without a name is the first one. -/
def missing (name : Text) : FieldFault :=
  let first := name.takeWhile fun c => c != '.' && c != '['
  match readPosition 0 first with
  | .error fault => fault
  | .ok (some n) => .noPosition n
  | .ok none => .noName first

/-- What is wrong with the format of a field, at the given depth of braces, if it is not closed. -/
def formatFault? : Nat → Text → Option FieldFault
  | _, [] => some .unmatched
  | depth, c :: rest =>
    if c = '\x7b' then formatFault? (depth + 1) rest
    else if c = '\x7d' then
      match depth with
      | 0 => none
      | depth + 1 => formatFault? depth rest
    else formatFault? depth rest

/-- What is wrong with the conversion of a field and what follows it. -/
def conversionFault? : Text → Option FieldFault
  | [] => some .conversionEnds
  | [_] => some .unmatched
  | _ :: c :: rest =>
    if c = '\x7d' then none
    else if c = ':' then formatFault? 0 rest
    else some .afterConversion

/-- What is wrong with a field, after its opening brace. The first argument is the name as far as it
was read, last character first; inside square brackets every character belongs to it. -/
def fieldFault (inside : Bool) (name : Text) : Text → FieldFault
  | [] => .unclosed
  | c :: rest =>
    if inside then fieldFault (c != ']') (c :: name) rest
    else if c = '\x7b' then .braceInName
    else if c = '[' then fieldFault true (c :: name) rest
    else if c = '\x7d' then missing name.reverse
    else if c = ':' then (formatFault? 0 rest).getD (missing name.reverse)
    else if c = '!' then (conversionFault? rest).getD (missing name.reverse)
    else fieldFault false (c :: name) rest

/-- The text with single braces in place of doubled ones, if it has no fields. -/
def withoutFields : Text → Except FieldFault Text
  | [] => .ok []
  | '\x7b' :: '\x7b' :: rest => (withoutFields rest).map ('\x7b' :: ·)
  | '\x7d' :: '\x7d' :: rest => (withoutFields rest).map ('\x7d' :: ·)
  | ['\x7b'] => .error (.single '\x7b')
  | '\x7d' :: _ => .error (.single '\x7d')
  | '\x7b' :: rest => .error (fieldFault false [] rest)
  | c :: rest => (withoutFields rest).map (c :: ·)

theorem withoutFields_plain {t : Text} (h : ∀ c ∈ t, c ≠ '\x7b' ∧ c ≠ '\x7d') :
    withoutFields t = .ok t := by
  induction t with
  | nil => rfl
  | cons c rest ih =>
    obtain ⟨h1, h2⟩ := h c (by simp)
    have hr := ih fun d hd => h d (by simp [hd])
    rw [withoutFields]
    · rw [hr]
      rfl
    all_goals simp [h1, h2]

end Hydration.Text.Fields
