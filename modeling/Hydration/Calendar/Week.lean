import Hydration.Calendar
/-!
# Days in their week and year

The day of the week, the number of a day in its year, and the week of a day, which belongs to the
year that has its Thursday.

* `weekday_lt`: there are seven days of the week.
* `dayOfYear_january`: in January the number of a day in its year is that in its month.
-/
namespace Hydration

namespace Day

/-- The day of the week, from Monday as zero. -/
def weekday (d : Day) : Nat := (d.ordinal + 6) % 7

theorem weekday_lt (d : Day) : d.weekday < 7 := Nat.mod_lt _ (by decide)

/-- The number of the day in its year. -/
def dayOfYear (d : Day) : Nat := daysBefore d.year (d.month - 1) + d.day

theorem dayOfYear_january (year day : Nat) : dayOfYear ⟨year, 1, day⟩ = day := by
  simp [dayOfYear, daysBefore]

/-- The year of the week of a day, the number of the week in it, and the day in the week, from
Monday as one. -/
def week (d : Day) : Nat × Nat × Nat :=
  let thursday := ofOrdinal (d.ordinal + 3 - d.weekday)
  (thursday.year, (thursday.dayOfYear - 1) / 7 + 1, d.weekday + 1)

/-- The short names of the days of the week. -/
def weekdayNames : List Text := ["Mon", "Tue", "Wed", "Thu", "Fri", "Sat", "Sun"]

/-- The short names of the months. -/
def monthNames : List Text :=
  ["Jan", "Feb", "Mar", "Apr", "May", "Jun", "Jul", "Aug", "Sep", "Oct", "Nov", "Dec"]

/-- The first day. -/
def first : Day := ⟨1, 1, 1⟩

/-- The last day that is counted. -/
def last : Day := ⟨9999, 12, 31⟩

end Day

namespace Clock

/-- The first instant of a day. -/
def midnight : Clock := ⟨0, 0, 0, 0, none⟩

/-- The last instant of a day. -/
def last : Clock := ⟨23, 59, 59, 999999, none⟩

end Clock

namespace Moment

/-- Day of the week, month, day, time and year in fixed places. -/
def fixedText (m : Moment) : Text :=
  let day := Text.ofNat m.day.day
  Day.weekdayNames[m.day.weekday]?.getD [] ++ ' ' :: Day.monthNames[m.day.month - 1]?.getD [] ++
    ' ' :: List.replicate (2 - day.length) ' ' ++ day ++
    ' ' :: { m.clock with microsecond := 0 }.timeText ++ ' ' :: Text.ofNatPadded 4 m.day.year

end Moment

/-- The name of the time with a distance from universal time. -/
def Span.zoneName (s : Span) : Text := if s = ⟨0, 0, 0⟩ then "UTC" else "UTC" ++ s.toOffset

end Hydration
