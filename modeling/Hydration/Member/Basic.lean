import Hydration.Value.Text
/-!
# Members of values

Beside its parts a value has members under names of its type: properties, and methods. A page calls
a method as soon as it finds it, without arguments, so a member is what the method gives. Some
methods change the value that they belong to, some fail, and some cannot do without arguments.

* `Table.find?_cons_self`: the first entry of a table is found under its name.
-/
namespace Hydration

/-- What a name stands for in a value: a value, what a method gives and what it leaves of the value,
a failure, or a method that wants arguments. -/
inductive Member
  | found (v : Value)
  | changed (result after : Value)
  | failed (f : Failure)
  | wantsArguments

namespace Member

/-- The member that a computation gives. -/
def ofExcept : Except Failure Value → Member
  | .ok v => .found v
  | .error f => .failed f

/-- Members by name, each as a function of what the value holds. -/
abbrev Table (α : Type) := List (Text × (α → Member))

/-- The member of a name. -/
def Table.find? {α : Type} (table : Table α) (name : Text) (x : α) : Option Member :=
  (table.lookup name).map fun member => member x

theorem Table.find?_cons_self {α : Type} (name : Text) (member : α → Member) (rest : Table α)
    (x : α) : Table.find? ((name, member) :: rest) name x = some (member x) := by
  simp [Table.find?]

/-- A method that wants arguments, if the name is among the given ones. -/
def wanting? (names : List Text) (name : Text) : Option Member :=
  if names.contains name then some .wantsArguments else none

end Member
end Hydration
