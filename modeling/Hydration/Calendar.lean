import Hydration.Number.Reading
/-!
# Dates, times and spans

Calendar values as they come with the data of a page: days, times of day, moments and spans, and
how they are written in ISO 8601. A time or a moment may carry a distance from universal time.

* `Span.ofTotal_total`: a span in normal form is given by its microseconds.
-/
namespace Hydration

/-- A day of the Gregorian calendar. -/
structure Day where
  year : Nat
  month : Nat
  day : Nat
  deriving DecidableEq, Repr

/-- A span of time in normal form: seconds below a day, microseconds below a second. -/
structure Span where
  days : Int
  seconds : Nat
  microseconds : Nat
  deriving DecidableEq, Repr

/-- A time of day, with its distance from universal time if it has one. -/
structure Clock where
  hour : Nat
  minute : Nat
  second : Nat
  microsecond : Nat
  zone : Option Span
  deriving DecidableEq, Repr

/-- A time on a day. -/
structure Moment where
  day : Day
  clock : Clock
  deriving DecidableEq, Repr

private def padded (width n : Nat) : Text := Text.ofNatPadded width n

/-! ## Spans -/

namespace Span

/-- The span in microseconds. -/
def total (s : Span) : Int :=
  (s.days * 86400 + Int.ofNat s.seconds) * 1000000 + Int.ofNat s.microseconds

/-- The span of the given number of microseconds. -/
def ofTotal (n : Int) : Span :=
  let seconds := n.fdiv 1000000
  ⟨seconds.fdiv 86400, (seconds.fmod 86400).toNat, (n.fmod 1000000).toNat⟩

/-- A span from parts of any size. -/
def ofParts (days seconds microseconds : Int) : Span :=
  ofTotal ((days * 86400 + seconds) * 1000000 + microseconds)

/-- The most days of a span. -/
def maxDays : Nat := 999999999

/-- The sum of two spans, unless it has too many days. -/
def add? (a b : Span) : Option Span :=
  let sum := ofTotal (a.total + b.total)
  if sum.days.natAbs ≤ maxDays then some sum else none

theorem ofTotal_total {s : Span} (hs : s.seconds < 86400) (hm : s.microseconds < 1000000) :
    ofTotal s.total = s := by
  obtain ⟨d, sec, mic⟩ := s
  simp only at hs hm
  simp only [ofTotal, total, Int.ofNat_eq_natCast, Span.mk.injEq]
  have h1 : (((d * 86400 + (sec : Int)) * 1000000 + (mic : Int)).fdiv 1000000)
      = d * 86400 + sec := by
    rw [Int.fdiv_eq_ediv_of_nonneg _ (by omega)]
    omega
  rw [h1, Int.fdiv_eq_ediv_of_nonneg _ (by omega), Int.fmod_eq_emod_of_nonneg _ (by omega),
    Int.fmod_eq_emod_of_nonneg _ (by omega)]
  omega

/-- Whole days, then hours, minutes and seconds of the rest. -/
def toText (s : Span) : Text :=
  let days : Text :=
    if s.days = 0 then []
    else
      (if s.days < 0 then ['-'] else []) ++ Text.ofNat s.days.natAbs ++
        (if s.days.natAbs = 1 then " day, " else " days, ")
  days ++ Text.ofNat (s.seconds / 3600) ++ ':' :: padded 2 (s.seconds / 60 % 60) ++
    ':' :: padded 2 (s.seconds % 60) ++
    if s.microseconds = 0 then [] else '.' :: padded 6 s.microseconds

/-- The ISO 8601 duration: sign, days, and hours, minutes and seconds of two digits. -/
def toDuration (s : Span) : Text :=
  let negative : Bool := s.days < 0
  let p := if negative then ofTotal (-s.total) else s
  (if negative then ['-'] else []) ++ 'P' :: Text.ofNat p.days.natAbs ++ "DT" ++
    padded 2 (p.seconds / 3600) ++ 'H' :: padded 2 (p.seconds / 60 % 60) ++
    'M' :: padded 2 (p.seconds % 60) ++
    (if p.microseconds = 0 then [] else '.' :: padded 6 p.microseconds) ++ ['S']

/-- The parts that are not zero, by name. -/
def inspectParts (s : Span) : Text :=
  let part (name : Text) (n : Int) : List Text :=
    if n = 0 then []
    else [name ++ '=' :: (if n < 0 then '-' :: Text.ofNat n.natAbs else Text.ofNat n.natAbs)]
  match part "days" s.days ++ part "seconds" s.seconds ++ part "microseconds" s.microseconds with
  | [] => "0"
  | parts => (", ".toList).intercalate parts

/-- A distance from universal time: sign, hours, minutes and what else is not zero. -/
def toOffset (s : Span) : Text :=
  let negative : Bool := s.days < 0
  let p := if negative then ofTotal (-s.total) else s
  (if negative then '-' else '+') :: padded 2 (p.seconds / 3600) ++
    ':' :: padded 2 (p.seconds / 60 % 60) ++
    (if p.seconds % 60 = 0 ∧ p.microseconds = 0 then []
      else ':' :: padded 2 (p.seconds % 60) ++
        if p.microseconds = 0 then [] else '.' :: padded 6 p.microseconds)

end Span

/-! ## Days -/

namespace Day

/-- Year, month and day with hyphens. -/
def toText (d : Day) : Text := padded 4 d.year ++ '-' :: padded 2 d.month ++ '-' :: padded 2 d.day

/-- Whether February has 29 days. -/
def isLeap (year : Nat) : Bool := year % 4 == 0 && (year % 100 != 0 || year % 400 == 0)

/-- The days of a month. -/
def daysIn (year month : Nat) : Nat :=
  if month = 2 then if isLeap year then 29 else 28
  else if month = 4 ∨ month = 6 ∨ month = 9 ∨ month = 11 then 30
  else 31

/-- The days of the first months of a year. -/
def daysBefore (year : Nat) : Nat → Nat
  | 0 => 0
  | month + 1 => daysBefore year month + daysIn year (month + 1)

/-- The number of the day, counted from the first day of the year 1. -/
def ordinal (d : Day) : Nat :=
  let y := d.year - 1
  y * 365 + y / 4 - y / 100 + y / 400 +
    daysBefore d.year (d.month - 1) + d.day

/-- The last day that is counted, the end of the year 9999. -/
def lastOrdinal : Nat := 3652059

/-- The month and the day of the day with the given number in a year, where the search starts at the
given month and may pass over the given number of months. -/
def monthOfYear (year month : Nat) : Nat → Nat → Nat × Nat
  | 0, n => (month, n)
  | passes + 1, n =>
    if n ≤ daysIn year month then (month, n)
    else monthOfYear year (month + 1) passes (n - daysIn year month)

/-- The day with the given number, where the first day of the year 1 has number 1. Four hundred
years have 146097 days. -/
def ofOrdinal (ordinal : Nat) : Day :=
  let n := ordinal - 1
  let (eras, n) := (n / 146097, n % 146097)
  let (centuries, n) := (n / 36524, n % 36524)
  let (cycles, n) := (n / 1461, n % 1461)
  let (years, n) := (n / 365, n % 365)
  let year := eras * 400 + centuries * 100 + cycles * 4 + years + 1
  if years = 4 ∨ centuries = 4 then ⟨year - 1, 12, 31⟩
  else
    let (month, day) := monthOfYear year 1 11 (n + 1)
    ⟨year, month, day⟩

/-- The day that many days later, if it is counted. -/
def add? (d : Day) (days : Int) : Option Day :=
  let n := Int.ofNat d.ordinal + days
  if 1 ≤ n ∧ n ≤ Int.ofNat lastOrdinal then some (ofOrdinal n.toNat) else none

/-- The months as a page names them. -/
def monthName (month : Nat) : Text :=
  (["Jan.", "Feb.", "March", "April", "May", "June", "July", "Aug.", "Sept.", "Oct.", "Nov.",
    "Dec."][month - 1]?.getD "").toList

/-- The day as a page shows it: month, day, year. -/
def toDisplay (d : Day) : Text :=
  monthName d.month ++ ' ' :: Text.ofNat d.day ++ ", " ++ padded 4 d.year

end Day

/-! ## Times -/

namespace Clock

/-- The distance from universal time, written after the time. -/
def zoneText (c : Clock) : Text :=
  match c.zone with
  | none => []
  | some s => s.toOffset

/-- The time without its distance from universal time. -/
def timeText (c : Clock) : Text :=
  padded 2 c.hour ++ ':' :: padded 2 c.minute ++ ':' :: padded 2 c.second ++
    if c.microsecond = 0 then [] else '.' :: padded 6 c.microsecond

/-- Hours, minutes, seconds and microseconds if there are any. -/
def toText (c : Clock) : Text := c.timeText ++ c.zoneText

/-- The time with three places of a second in place of six. -/
def toMilliseconds (c : Clock) : Text :=
  padded 2 c.hour ++ ':' :: padded 2 c.minute ++ ':' :: padded 2 c.second ++
    if c.microsecond = 0 then [] else '.' :: padded 3 (c.microsecond / 1000)

/-- The time of day in microseconds, as universal time if the distance is known. -/
def instant (c : Clock) : Int :=
  Int.ofNat (((c.hour * 60 + c.minute) * 60 + c.second) * 1000000 + c.microsecond) -
    (c.zone.map Span.total).getD 0

/-- The hours and minutes as a page shows them, with words for midnight and noon. -/
def toDisplay (c : Clock) : Text :=
  if c.minute = 0 ∧ c.hour = 0 then "midnight"
  else if c.minute = 0 ∧ c.hour = 12 then "noon"
  else
    let hour := if c.hour % 12 = 0 then 12 else c.hour % 12
    Text.ofNat hour ++ (if c.minute = 0 then [] else ':' :: padded 2 c.minute) ++
      (if c.hour < 12 then " a.m." else " p.m.")

/-- Equality of times: both without a distance, or the same time in universal time. -/
def equals (a b : Clock) : Bool := a.zone.isSome == b.zone.isSome && a.instant == b.instant

end Clock

namespace Moment

/-- The day, the mark between and the time. -/
def toIso (mark : Char) (m : Moment) : Text := m.day.toText ++ mark :: m.clock.toText

/-- The moment with a blank between day and time. -/
def toText (m : Moment) : Text := m.toIso ' '

/-- The moment with three places of a second and `Z` for universal time. -/
def toMilliseconds (m : Moment) : Text :=
  m.day.toText ++ 'T' :: m.clock.toMilliseconds ++
    if m.clock.zoneText = "+00:00".toList then ['Z'] else m.clock.zoneText

/-- The moment as a page shows it. -/
def toDisplay (m : Moment) : Text := m.day.toDisplay ++ ", " ++ m.clock.toDisplay

/-- The moment with the given number of microseconds, which count days from one. -/
def ofMicroseconds? (n : Int) (zone : Option Span) : Option Moment :=
  let s := Span.ofTotal n
  if 1 ≤ s.days ∧ s.days ≤ Int.ofNat Day.lastOrdinal then
    some ⟨Day.ofOrdinal s.days.toNat,
      ⟨s.seconds / 3600, s.seconds / 60 % 60, s.seconds % 60, s.microseconds, zone⟩⟩
  else none

/-- The microseconds on the clock and the calendar of the moment, whatever its distance from
universal time. -/
def microseconds (m : Moment) : Int :=
  Int.ofNat m.day.ordinal * 86400000000 + { m.clock with zone := none }.instant

/-- The moment that much later by its own clock, if its day is counted. -/
def add? (m : Moment) (s : Span) : Option Moment :=
  ofMicroseconds? (m.microseconds + s.total) m.clock.zone

/-- Equality of moments: both without a distance, or the same instant. -/
def equals (a b : Moment) : Bool :=
  a.clock.zone.isSome == b.clock.zone.isSome &&
    Int.ofNat a.day.ordinal * 86400000000 + a.clock.instant ==
      Int.ofNat b.day.ordinal * 86400000000 + b.clock.instant

end Moment

/-! ## Showing in messages -/

/-- The distance from universal time as a message shows it. -/
def Span.inspectZone (s : Span) : Text :=
  if s = ⟨0, 0, 0⟩ then "datetime.timezone.utc"
  else "datetime.timezone(datetime.timedelta(" ++ s.inspectParts ++ "))"

/-- The span as a message shows it. -/
def Span.inspect (s : Span) : Text := "datetime.timedelta(" ++ s.inspectParts ++ ")"

/-- The day as a message shows it. -/
def Day.inspect (d : Day) : Text :=
  "datetime.date(" ++ (", ".toList).intercalate ([d.year, d.month, d.day].map Text.ofNat) ++ ")"

/-- The numbers of a time, without zeros at the end beyond the minute, and the distance from
universal time. -/
private def Clock.inspectParts (c : Clock) : List Text :=
  let seconds :=
    if c.microsecond ≠ 0 then [c.second, c.microsecond]
    else if c.second ≠ 0 then [c.second]
    else []
  ([c.hour, c.minute] ++ seconds).map Text.ofNat ++
    match c.zone with
    | none => []
    | some s => ["tzinfo=" ++ s.inspectZone]

/-- The time as a message shows it. -/
def Clock.inspect (c : Clock) : Text :=
  "datetime.time(" ++ (", ".toList).intercalate c.inspectParts ++ ")"

/-- The moment as a message shows it. -/
def Moment.inspect (m : Moment) : Text :=
  "datetime.datetime(" ++
    (", ".toList).intercalate
      ([m.day.year, m.day.month, m.day.day].map Text.ofNat ++ m.clock.inspectParts) ++ ")"

end Hydration
