import Hydration.Calendar.Local
import Hydration.Calendar.Week
import Hydration.Member.Basic
/-!
# Members of days, times and spans

The parts of a day, of a time of day and of a moment, their forms as text and as tuples, the ends of
the calendar, and the distance from universal time. A moment has what its day and its time have.
-/
namespace Hydration.Member

/-- A number that counts. -/
def natural (n : Nat) : Member := .found (.int n)

/-! ## Tuples of a calendar -/

/-- A moment as a tuple: the parts of day and time, the day in the week and in the year, and whether
it is in summer time, where minus one says that this is not known. -/
def calendarTuple (m : Moment) (summer : Int) : Value :=
  .record .calendar
    [.int m.day.year, .int m.day.month, .int m.day.day, .int m.clock.hour, .int m.clock.minute,
      .int m.clock.second, .int m.day.weekday, .int m.day.dayOfYear, .int summer]

/-- The day in the week of its year. -/
def weekTuple (d : Day) : Value :=
  let (year, week, weekday) := d.week
  .record .week [.int year, .int week, .int weekday]

/-- The distance from universal time as an object. -/
def zoneObject (s : Span) : Value := .object ⟨"datetime.timezone", s.zoneName, s.inspectZone⟩ []

/-- The distance from universal time of a time, if it has one, shown in some way. -/
def zoned (show? : Span → Value) (c : Clock) : Member := .found ((c.zone.map show?).getD .none)

/-! ## Spans -/

/-- The shortest span. -/
def microsecond : Value := .span ⟨0, 0, 1⟩

/-- The members of a span. -/
def spanTable : Table Span :=
  [("days", fun s => .found (.int s.days)),
    ("seconds", fun s => natural s.seconds),
    ("microseconds", fun s => natural s.microseconds),
    ("total_seconds", fun s =>
      .found (.float (.ofDecimal (s.total < 0) s.total.natAbs (-6)))),
    ("min", fun _ => .found (.span ⟨-Int.ofNat Span.maxDays, 0, 0⟩)),
    ("max", fun _ => .found (.span ⟨Span.maxDays, 86399, 999999⟩)),
    ("resolution", fun _ => .found microsecond)]

/-! ## Days -/

/-- The members that a day shares with a moment of it. -/
def dayParts : Table Day :=
  [("year", fun d => natural d.year),
    ("month", fun d => natural d.month),
    ("day", fun d => natural d.day),
    ("weekday", fun d => natural d.weekday),
    ("isoweekday", fun d => natural (d.weekday + 1)),
    ("toordinal", fun d => natural d.ordinal),
    ("isocalendar", fun d => .found (weekTuple d))]

/-- The first instant of a day. -/
def startOf (d : Day) : Moment := ⟨d, Clock.midnight⟩

/-- The members of a day alone. -/
def dayTable : Table Day :=
  [("isoformat", fun d => .found (.str d.toText)),
    ("ctime", fun d => .found (.str (startOf d).fixedText)),
    ("timetuple", fun d => .found (calendarTuple (startOf d) (-1))),
    ("replace", fun d => .found (.day d)),
    ("min", fun _ => .found (.day Day.first)),
    ("max", fun _ => .found (.day Day.last)),
    ("resolution", fun _ => .found (.span ⟨1, 0, 0⟩))]

/-- The methods of a day that want arguments. -/
def dayWanting : List Text :=
  ["fromisocalendar", "fromisoformat", "fromordinal", "fromtimestamp", "strftime"]

/-- What a day has under a name. -/
def ofDay? (name : Text) (d : Day) : Option Member :=
  ((dayParts.find? name d).or (dayTable.find? name d)).or (wanting? dayWanting name)

/-! ## Times of day -/

/-- The members that a time of day shares with a moment at it. -/
def clockParts : Table Clock :=
  [("hour", fun c => natural c.hour),
    ("minute", fun c => natural c.minute),
    ("second", fun c => natural c.second),
    ("microsecond", fun c => natural c.microsecond),
    ("fold", fun _ => natural 0),
    ("tzinfo", zoned zoneObject),
    ("tzname", zoned fun s => .str s.zoneName),
    ("utcoffset", zoned .span),
    ("dst", fun _ => .found .none),
    ("resolution", fun _ => .found microsecond)]

/-- The members of a time of day alone. -/
def clockTable : Table Clock :=
  [("isoformat", fun c => .found (.str c.toText)),
    ("replace", fun c => .found (.clock c)),
    ("min", fun _ => .found (.clock Clock.midnight)),
    ("max", fun _ => .found (.clock Clock.last))]

/-- What a time of day has under a name. -/
def ofClock? (name : Text) (c : Clock) : Option Member :=
  ((clockParts.find? name c).or (clockTable.find? name c)).or
    (wanting? ["fromisoformat", "strftime"] name)

/-! ## Moments -/

/-- The microseconds from the first day to the start of 1970. -/
def epoch : Int := Int.ofNat (Day.ordinal ⟨1970, 1, 1⟩) * 86400000000

/-- The seconds since the start of 1970; a moment without a distance from universal time counts as
universal time. -/
def timestamp (m : Moment) : Binary64 :=
  let n := m.microseconds - (m.clock.zone.map Span.total).getD 0 - epoch
  .ofDecimal (n < 0) n.natAbs (-6)

/-- What is made of a moment that has a place in local time. A moment without a distance from
universal time has none on the first day of the calendar, since the day before is looked at. -/
def located (make : Moment → Member) (m : Moment) : Member :=
  if m.clock.zone.isNone && m.day.ordinal ≤ 1 then .failed (.value .beforeYearOne) else make m

/-- What is made of the moment in universal time. -/
def inUniversal (make : Moment → Value) (m : Moment) : Member :=
  match m.toUniversal? with
  | some universal => .found (make universal)
  | none => .failed (.overflow .dateRange)

/-- The members of a moment alone. -/
def momentTable : Table Moment :=
  [("date", fun m => .found (.day m.day)),
    ("time", fun m => .found (.clock { m.clock with zone := none })),
    ("timetz", fun m => .found (.clock m.clock)),
    ("isoformat", fun m => .found (.str (m.toIso 'T'))),
    ("ctime", fun m => .found (.str m.fixedText)),
    ("timetuple", fun m => .found (calendarTuple m (-1))),
    ("utctimetuple", inUniversal fun m => calendarTuple m 0),
    ("astimezone", located (inUniversal .moment)),
    ("timestamp", located fun m => .found (.float (timestamp m))),
    ("replace", fun m => .found (.moment m)),
    ("min", fun _ => .found (.moment ⟨Day.first, Clock.midnight⟩)),
    ("max", fun _ => .found (.moment ⟨Day.last, Clock.last⟩))]

/-- What a moment has under a name. -/
def ofMoment? (name : Text) (m : Moment) : Option Member :=
  (((dayParts.find? name m.day).or (clockParts.find? name m.clock)).or
    (momentTable.find? name m)).or
      (wanting? ("combine" :: "strptime" :: "utcfromtimestamp" :: dayWanting) name)

end Hydration.Member
