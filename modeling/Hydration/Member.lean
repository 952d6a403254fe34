import Hydration.Member.Calendar
import Hydration.Member.Collection
import Hydration.Member.Identifier
import Hydration.Member.Number
import Hydration.Member.Text
/-!
# What a value has under a name

The members of all types in one place, and the attributes of objects.

* `member?_attribute`: an attribute of an object is found under its name.
-/
namespace Hydration

namespace Member

/-- The members of a distance from universal time. -/
def zoneTable : List (Text × Value) :=
  [("utc", zoneObject ⟨0, 0, 0⟩), ("max", zoneObject ⟨0, 86340, 0⟩),
    ("min", zoneObject (Span.ofTotal (-86340000000)))]

/-- What an object has under a name beside its attributes. -/
def ofObject? (name : Text) (form : ObjectForm) : Option Member :=
  if form.type = "datetime.timezone".toList then
    ((zoneTable.lookup name).map .found).or
      (wanting? ["dst", "fromutc", "tzname", "utcoffset"] name)
  else none

end Member

namespace Value

/-- What a value has under a name beside entries and positions. -/
def member? (name : Text) : Value → Option Member
  | .none => Option.none
  | .bool b => Member.ofInt? name (boolInt b)
  | .int i => Member.ofInt? name i
  | .float x => Member.ofFloat? name x
  | .text _ t => Member.ofText? name t
  | .lazy _ t => Member.ofLazy? name t
  | .bytes b => Member.ofBytes? name b
  | .list items => Member.ofList? name items
  | .tuple _ => Member.ofTuple? name
  | .set items => Member.ofSet? name items
  | .dict entries => Member.ofDict? name entries
  | .mapping entries => Member.ofMapping? name entries
  | .view part entries => Member.ofView? name part entries
  | .record kind items => Member.ofRecord? name kind items
  | .decimal d => Member.ofDecimal? name d
  | .uuid t => Member.ofIdentifier? name t
  | .day d => Member.ofDay? name d
  | .moment m => Member.ofMoment? name m
  | .clock c => Member.ofClock? name c
  | .span s => Member.spanTable.find? name s
  | .object form attributes =>
    ((attributes.lookup name).map .found).or (Member.ofObject? name form)
  | .call _ => Option.none

theorem member?_attribute {form : ObjectForm} {attributes : List (Text × Value)} {name : Text}
    {v : Value} (h : attributes.lookup name = some v) :
    member? name (.object form attributes) = some (.found v) := by
  simp [member?, h]

end Value
end Hydration
