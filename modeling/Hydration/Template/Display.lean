import Hydration.Calendar.Local
import Hydration.Template.Filter
/-!
# Values in a page

How a value that is put into a page is shown: numbers without an exponent as long as they are not
too long, days and times in words, text escaped unless it is safe, and everything else by its
escaped text. A moment with a distance from universal time is shown in local time.

* `displayMoment_of_none`: a moment without a distance is shown as it is.
-/
namespace Hydration

namespace Decimal

/-- The most places that are written without an exponent. -/
def maxPlaces : Nat := 200

/-- A number in a page: without an exponent unless it has too many places. Only a finite number has
places. -/
def display (d : Decimal) : Except Failure Text :=
  match d with
  | .finite _ digits exponent =>
    if exponent.natAbs + (Text.ofNat digits).length > maxPlaces then .ok d.scientificText
    else .ok d.fixedText
  | _ => .error (.type (.badOperand "str"))

end Decimal

namespace Value

/-- A floating-point number in a page, by its shortest digits. -/
def displayFloat (x : Binary64) : Except Failure Text :=
  let t := x.toText
  if t.contains 'e' then
    match Decimal.read? t with
    | some d => d.display
    | Option.none => .ok t
  else .ok t

/-- A moment in a page: in local time, if it is known where it is. -/
def displayMoment (m : Moment) : Except Failure Text :=
  if m.clock.zone.isNone then .ok (Text.escape m.toDisplay)
  else
    match m.toLocal? with
    | some shown => .ok (Text.escape shown.toDisplay)
    | Option.none => .error (.overflow .dateRange)

theorem displayMoment_of_none {m : Moment} (h : m.clock.zone = Option.none) :
    displayMoment m = .ok (Text.escape m.toDisplay) := by
  simp [displayMoment, h]

/-- The value as a page shows it. -/
def display : Value → Except Failure Text
  | .float x => displayFloat x
  | .decimal d => d.display
  | .moment m => displayMoment m
  | .day d => .ok (Text.escape d.toDisplay)
  | .clock c => .ok (Text.escape c.toDisplay)
  | v => v.escaped

end Value
end Hydration
