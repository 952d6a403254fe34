import Hydration.Calendar.Week
import Hydration.Number.Reading
/-!
# Reading dates and times

    2024-01-02   20240102   2024-W01-2   2024W012
    03:04:05.678   030405,678   03:04   03

Days and times in the forms of ISO 8601, with hyphens and colons between all numbers or between none.
A day may be given by its week, and a week alone is its Monday. The time of a moment follows any one
character after the day; a distance from universal time follows the time.

* `readNumber?_length`: a number of fixed width takes that many characters.
-/
namespace Hydration

/-- A number of exactly the given count of ASCII digits, and the rest. -/
def readNumber? (width : Nat) (t : Text) : Option (Nat × Text) :=
  let head := t.take width
  if head.length = width ∧ head.all Char.isDigit then
    some (Number.valueOf (head.map fun c => c.toNat - 48), t.drop width)
  else none

theorem readNumber?_length {width n : Nat} {t rest : Text}
    (h : readNumber? width t = some (n, rest)) : rest.length + width = t.length := by
  simp only [readNumber?] at h
  split at h
  · next hw =>
    simp only [Option.some.injEq, Prod.mk.injEq] at h
    obtain ⟨-, rfl⟩ := h
    have := hw.1
    simp only [List.length_take, List.length_drop] at this ⊢
    omega
  · cases h

/-- The text after a hyphen, if there must be one. -/
def skipHyphen? (wanted : Bool) (t : Text) : Option Text :=
  if wanted then Text.after? "-" t else some t

/-! ## Days -/

namespace Day

/-- The day of a week of a year: the first week has the fourth of January. -/
def ofWeek (year week weekday : Nat) : Day :=
  let fourth : Day := ⟨year, 1, 4⟩
  ofOrdinal (fourth.ordinal + 7 * (week - 1) + (weekday - 1) - fourth.weekday)

/-- Reads what follows the year and the letter of a week. -/
def readWeek? (year : Nat) (hyphens : Bool) (t : Text) : Option Day := do
  let (week, t) ← readNumber? 2 t
  if t.isEmpty then some (ofWeek year week 1)
  else
    let (weekday, t) ← readNumber? 1 (← skipHyphen? hyphens t)
    if t.isEmpty then some (ofWeek year week weekday) else none

/-- Reads a day that is the whole text. -/
def read? (t : Text) : Option Day := do
  let (year, t) ← readNumber? 4 t
  let hyphens := Text.opensWith "-" t
  let t ← skipHyphen? hyphens t
  match Text.after? "W" t with
  | some t => readWeek? year hyphens t
  | none =>
    let (month, t) ← readNumber? 2 t
    let (day, t) ← readNumber? 2 (← skipHyphen? hyphens t)
    if t.isEmpty then some ⟨year, month, day⟩ else none

/-- How many characters of a text are its day, where a time may follow. A digit after a week and a
hyphen may be the day in it, or the hyphen is the mark before a time. After a week without hyphens an
odd count of digits in all holds the day in the week. -/
def extent (t : Text) : Nat :=
  if t.length ≤ 7 then t.length
  else if t[4]? = some '-' then
    if t[5]? = some 'W' then
      if t[8]? = some '-' ∧ ¬ (t[10]?.any Char.isDigit) then 10 else 8
    else 10
  else if t[4]? = some 'W' then
    let digits := ((t.drop 7).takeWhile Char.isDigit).length
    if digits < 2 then 7 + digits else if digits % 2 = 1 then 7 else 8
  else 8

end Day

/-! ## Times -/

/-- Reads the digits after the mark of a fraction as microseconds; those after the sixth are left
out. -/
def readFraction? (t : Text) : Option Nat :=
  if t.isEmpty ∨ ¬ t.all Char.isDigit then none
  else
    let six := (t ++ List.replicate 6 '0').take 6
    some (Number.valueOf (six.map fun c => c.toNat - 48))

/-- Reads as many numbers of two digits as the count says at most, with colons between all of them or
none, and the microseconds that follow them. One more character is passed over if the time is followed
by a distance from universal time. -/
def readClock? (zoned : Bool) (count : Nat) (colons : Option Bool) (t : Text) :
    Option (List Nat × Nat) :=
  match count with
  | 0 => (readFraction? t).map fun n => ([], n)
  | count + 1 => do
    let (n, rest) ← readNumber? 2 t
    match rest with
    | [] => some ([n], 0)
    | [_] => if zoned then some ([n], 0) else none
    | c :: more =>
      let colons := colons.getD (c == ':')
      if colons && c == ':' then
        let (numbers, fraction) ← readClock? zoned count (some colons) more
        some (n :: numbers, fraction)
      else if c == '.' || c == ',' then (readFraction? more).map fun fraction => ([n], fraction)
      else if colons then none
      else
        let (numbers, fraction) ← readClock? zoned count (some colons) rest
        some (n :: numbers, fraction)

/-- The span since the start of the day. -/
def clockSpan (numbers : List Nat) (fraction : Nat) : Span :=
  let seconds := (numbers[0]?.getD 0 * 60 + numbers[1]?.getD 0) * 60 + numbers[2]?.getD 0
  Span.ofParts 0 (Int.ofNat seconds) (Int.ofNat fraction)

/-- Reads a distance from universal time with its sign; `Z` is no distance, and neither is less than a
second. -/
def readZone? : Text → Option Span
  | 'Z' :: rest => if rest.isEmpty then some ⟨0, 0, 0⟩ else none
  | c :: rest => do
    let (numbers, fraction) ← readClock? false 3 none rest
    let span := if numbers.all (· == 0) then ⟨0, 0, 0⟩ else clockSpan numbers fraction
    some (if c = '-' then Span.ofTotal (-span.total) else span)
  | [] => none

/-- Whether a character starts a distance from universal time. -/
def startsZone (c : Char) : Bool := c == '+' || c == '-' || c == 'Z'

/-- Reads a time of day. A letter may stand before it. -/
def Clock.read? (t : Text) : Option Clock := do
  let t := (Text.after? "T" t).getD t
  let (time, zone) := (t.takeWhile fun c => !startsZone c, t.dropWhile fun c => !startsZone c)
  let (numbers, fraction) ← readClock? (!zone.isEmpty) 3 none time
  let zone ← match zone with
    | [] => some none
    | c :: rest => (readZone? (c :: rest)).map some
  some ⟨numbers[0]?.getD 0, numbers[1]?.getD 0, numbers[2]?.getD 0, fraction, zone⟩

/-! ## Moments -/

/-- Reads a moment; a day alone is its first instant. -/
def Moment.read? (t : Text) : Option Moment := do
  let day ← Day.read? (t.take (Day.extent t))
  match t.drop (Day.extent t) with
  | [] | [_] => some ⟨day, Clock.midnight⟩
  | _ :: rest =>
    let clock ← Clock.read? rest
    some ⟨day, clock⟩

end Hydration
