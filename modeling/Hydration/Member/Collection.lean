import Hydration.Member.Basic
import Hydration.Value.Order
/-!
# Members of lists, sets and mappings

The methods that copy a collection or show a part of it, and those that change it: a page that calls
one finds the collection changed from there on.

* `list_pop`: taking the last item of a list leaves the others.
* `dict_popitem`: taking the last entry of a dict leaves the others.
-/
namespace Hydration.Member

/-- Nothing, of a method that leaves the value as given. -/
def leaving (after : Value) : Member := .changed .none after

/-! ## Lists and tuples -/

/-- The last item of a list, taken out. -/
def popItem (items : List Value) : Member :=
  match items.getLast? with
  | some v => .changed v (.list items.dropLast)
  | none => .failed (.index .emptyList)

/-- The list in order. -/
def sorted (items : List Value) : Member :=
  match Value.sort items with
  | .ok items => leaving (.list items)
  | .error f => .failed f

/-- The methods of a list. -/
def listTable : Table (List Value) :=
  [("clear", fun _ => leaving (.list [])),
    ("copy", fun items => .found (.list items)),
    ("pop", popItem),
    ("reverse", fun items => leaving (.list items.reverse)),
    ("sort", sorted)]

/-- What a list has under a name. -/
def ofList? (name : Text) (items : List Value) : Option Member :=
  (listTable.find? name items).or
    (wanting? ["append", "count", "extend", "index", "insert", "remove"] name)

theorem list_pop (items : List Value) (v : Value) :
    ofList? "pop" (items ++ [v]) = some (.changed v (.list items)) := by
  have h : ofList? "pop" (items ++ [v]) = some (popItem (items ++ [v])) := rfl
  rw [h]
  simp [popItem]

/-- What a tuple has under a name beside the names of its items. -/
def ofTuple? (name : Text) : Option Member := wanting? ["count", "index"] name

/-- What a record has under a name: its items, and for a time of a calendar also how many they
are. -/
def ofRecord? (name : Text) (kind : RecordKind) (items : List Value) : Option Member :=
  let more : List (Text × Value) := match kind with
    | .calendar =>
      [("tm_zone", .none), ("tm_gmtoff", .none), ("n_fields", .int 11),
        ("n_sequence_fields", .int 9), ("n_unnamed_fields", .int 0)]
    | _ => []
  (((kind.fields.zip items ++ more).lookup name).map .found).or (ofTuple? name)

/-! ## Sets -/

/-- An item of a set, taken out. -/
def popElement : List Value → Member
  | v :: rest => .changed v (.set rest)
  | [] => .failed (.key (Text.inspect "pop from an empty set"))

/-- The methods of a set. -/
def setTable : Table (List Value) :=
  [("clear", fun _ => leaving (.set [])),
    ("copy", fun items => .found (.set items)),
    ("difference", fun items => .found (.set items)),
    ("difference_update", fun _ => .found .none),
    ("intersection", fun items => .found (.set items)),
    ("intersection_update", fun _ => .found .none),
    ("pop", popElement),
    ("union", fun items => .found (.set items)),
    ("update", fun _ => .found .none)]

/-- What a set has under a name. -/
def ofSet? (name : Text) (items : List Value) : Option Member :=
  (setTable.find? name items).or
    (wanting? ["add", "discard", "isdisjoint", "issubset", "issuperset", "remove",
      "symmetric_difference", "symmetric_difference_update"] name)

/-! ## Mappings -/

/-- The last entry of a dict, taken out. -/
def popEntry (entries : List (Value × Value)) : Member :=
  match entries.getLast? with
  | some (k, v) => .changed (.tuple [k, v]) (.dict entries.dropLast)
  | none => .failed (.key (Text.inspect "popitem(): dictionary is empty"))

/-- The methods of all mappings. -/
def mappingTable : Table (List (Value × Value)) :=
  [("copy", fun entries => .found (.dict entries)),
    ("items", fun entries => .found (.view .items entries)),
    ("keys", fun entries => .found (.view .keys entries)),
    ("values", fun entries => .found (.view .values entries))]

/-- What a mapping that cannot be changed has under a name. -/
def ofMapping? (name : Text) (entries : List (Value × Value)) : Option Member :=
  (mappingTable.find? name entries).or (wanting? ["get"] name)

/-- The methods of a dict that may change it. -/
def dictTable : Table (List (Value × Value)) :=
  [("clear", fun _ => leaving (.dict [])),
    ("popitem", popEntry),
    ("update", fun _ => .found .none)]

/-- What a dict has under a name beside its entries. -/
def ofDict? (name : Text) (entries : List (Value × Value)) : Option Member :=
  ((dictTable.find? name entries).or (ofMapping? name entries)).or
    (wanting? ["fromkeys", "pop", "setdefault"] name)

theorem dict_popitem (entries : List (Value × Value)) (k v : Value) :
    ofDict? "popitem" (entries ++ [(k, v)]) = some (.changed (.tuple [k, v]) (.dict entries)) := by
  have h : ofDict? "popitem" (entries ++ [(k, v)]) = some (popEntry (entries ++ [(k, v)])) := rfl
  rw [h]
  simp [popEntry]

/-- What a view has under a name. Values cannot be told to be disjoint. -/
def ofView? (name : Text) (part : ViewPart) (entries : List (Value × Value)) : Option Member :=
  if name = "mapping".toList then some (.found (.mapping entries))
  else if part = .values then none
  else wanting? ["isdisjoint"] name

end Hydration.Member
