import Hydration.Calendar
import Hydration.Text.Ranges
/-!
# Local time

A page shows moments in the time of its place, which is Central time in North America: six hours
behind universal time, five in summer, and until 1883 the time of the sun in Chicago. From 2007 on
summer runs from the second Sunday of March to the first Sunday of November.
-/
namespace Hydration.LocalTime

/-- The hour in which standard time began, in universal time. Hours are counted from the day before
the year 1. -/
def firstHour : Nat := 16505010

/-- The hours at which summer time began and ended before the rule of 2007. -/
def summerBoundaries : List Nat :=
  [16806224, 16811263, 16814960, 16819999, 16825544, 16828903, 16832432, 16837639, 16842008,
   16845535, 16850744, 16854439, 16859480, 16863175, 16868216, 16871911, 16876952, 16880647,
   16885688, 16889383, 16894592, 16898287, 16903328, 16907023, 16912064, 16915759, 16920800,
   16924495, 16929536, 16933231, 16938440, 16941967, 16947176, 16950871, 16955912, 16959607,
   16963304, 16969519, 16973384, 16977079, 16982120, 16985815, 16991024, 16994551, 16999760,
   17003455, 17008496, 17012191, 17015408, 17047303, 17052344, 17056039, 17061080, 17064775,
   17069816, 17073511, 17078552, 17082247, 17087456, 17090983, 17096192, 17099887, 17104928,
   17108623, 17113664, 17117359, 17122400, 17126095, 17131136, 17135671, 17140040, 17144407,
   17148776, 17153143, 17157512, 17161879, 17166248, 17170615, 17174984, 17179519, 17183888,
   17188255, 17192624, 17196991, 17201360, 17205727, 17210096, 17214463, 17218832, 17223367,
   17227568, 17232103, 17236472, 17240839, 17245208, 17249575, 17253944, 17258311, 17262680,
   17267047, 17271416, 17275951, 17280320, 17284687, 17289056, 17293423, 17295104, 17302159,
   17305016, 17310895, 17315264, 17319799, 17324000, 17328535, 17332904, 17337271, 17341640,
   17346007, 17350376, 17354743, 17359112, 17363479, 17367848, 17372383, 17376584, 17381119,
   17385488, 17389855, 17394224, 17398591, 17402960, 17407327, 17411192, 17416063, 17419928,
   17424967, 17428664, 17433703, 17437400, 17442439, 17446304, 17451175, 17455040, 17459911,
   17463776, 17468815, 17472512, 17477551, 17481248, 17486287, 17490152, 17495023, 17498888,
   17503759, 17507624, 17512495, 17516360, 17521399, 17525096, 17530135, 17533832, 17538871,
   17542736, 17547607, 17551472, 17556343, 17560208, 17565247, 17568944, 17573983, 17577680,
   17582719]

/-- The number of the first Sunday from a day on. -/
def sundayFrom (d : Day) : Nat := d.ordinal + (7 - d.ordinal % 7) % 7

/-- Whether summer time holds in an hour of the given year, by the rule of 2007. -/
def isSummerByRule (year hour : Nat) : Bool :=
  sundayFrom ⟨year, 3, 8⟩ * 24 + 8 ≤ hour && hour < sundayFrom ⟨year, 11, 1⟩ * 24 + 7

/-- Whether summer time holds in an hour of universal time. -/
def isSummer (hour : Nat) : Bool :=
  let year := (Day.ofOrdinal (hour / 24)).year
  if year < 2007 then Ranges.inside summerBoundaries hour else isSummerByRule year hour

/-- The distance of local time from universal time in an hour of universal time. -/
def offset (hour : Nat) : Span :=
  if hour < firstHour then Span.ofParts 0 (-21036) 0
  else if isSummer hour then Span.ofParts 0 (-18000) 0
  else Span.ofParts 0 (-21600) 0

end Hydration.LocalTime

namespace Hydration.Moment

/-- The moment in universal time, of a moment with a distance from it. -/
def toUniversal? (m : Moment) : Option Moment :=
  let zone := m.clock.zone.getD ⟨0, 0, 0⟩
  ofMicroseconds? (m.microseconds - zone.total) (some ⟨0, 0, 0⟩)

/-- The moment in local time, if it has a distance from universal time and its days are counted. -/
def toLocal? (m : Moment) : Option Moment := do
  let universal ← m.toUniversal?
  let zone := LocalTime.offset (universal.microseconds / 3600000000).toNat
  ofMicroseconds? (universal.microseconds + zone.total) (some zone)

end Hydration.Moment
