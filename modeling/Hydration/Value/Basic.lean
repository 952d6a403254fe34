import Hydration.Number.Decimal
import Hydration.Calendar
import Hydration.Failure
/-!
# Values

The data of a page: what the context of a template holds, what props and containers are made of
and what settings contain. Mappings keep their entries in the order in which they came.

* `lookup?_insert`: an entry that was put in is found.
* `keys_insert_of_mem`: putting in under a key that is there keeps the keys and their order.
-/
namespace Hydration

/-- What a view of a mapping shows of its entries. -/
inductive ViewPart
  | keys
  | values
  | items
  deriving DecidableEq, Repr

/-- The tuples that have a name for each item: the day of a week in its year, a time of a calendar
with all that follows from it, and the parts of a decimal number. -/
inductive RecordKind
  | week
  | calendar
  | decimal
  deriving DecidableEq, Repr

/-- The names of the items of a record. -/
def RecordKind.fields : RecordKind → List Text
  | .week => ["year", "week", "weekday"]
  | .calendar =>
    ["tm_year", "tm_mon", "tm_mday", "tm_hour", "tm_min", "tm_sec", "tm_wday", "tm_yday",
      "tm_isdst"]
  | .decimal => ["sign", "digits", "exponent"]

/-- The name of a type of records, after its module. -/
def RecordKind.fullName : RecordKind → Text
  | .week => "datetime.IsoCalendarDate"
  | .calendar => "time.struct_time"
  | .decimal => "DecimalTuple"

/-- The part of a dotted name after the last point. -/
def lastName (name : Text) : Text := (Text.parts '.' name).getLast?.getD name

/-- The type of an object after its module, the object as text, and as a message shows it. -/
structure ObjectForm where
  type : Text
  text : Text
  shown : Text
  deriving DecidableEq, Repr

/-- Objects that come with the data of a page. -/
def ObjectForm.plain : ObjectForm := ⟨"Obj", "Obj", "Obj"⟩

/-- A value. Text may be marked as safe to stand in a page; lazy text is not a text by type, but may
stand for one that is safe. A `view` shows a part of the entries of a mapping, a `record` is a tuple
of named items, an `object` has named attributes, a `call` is a function without arguments and its
result. -/
inductive Value
  | none
  | bool (b : Bool)
  | int (i : Int)
  | float (x : Binary64)
  | text (safe : Bool) (t : Text)
  | lazy (safe : Bool) (t : Text)
  | bytes (b : List UInt8)
  | list (items : List Value)
  | tuple (items : List Value)
  | set (items : List Value)
  | dict (entries : List (Value × Value))
  | mapping (entries : List (Value × Value))
  | view (part : ViewPart) (entries : List (Value × Value))
  | record (kind : RecordKind) (items : List Value)
  | decimal (d : Decimal)
  | uuid (t : Text)
  | day (d : Day)
  | moment (m : Moment)
  | clock (c : Clock)
  | span (s : Span)
  | object (form : ObjectForm) (attributes : List (Text × Value))
  | call (result : Value)
  deriving Inhabited

namespace Value

/-- Plain text. -/
def str (t : Text) : Value := .text false t

/-- The entries of a value that maps keys to values. -/
def entries? : Value → Option (List (Value × Value))
  | .dict entries => some entries
  | .mapping entries => some entries
  | _ => Option.none

/-! ## Equality

Numbers are equal across their types, truth values count as one and zero, and text is equal to
text whatever its marks. Mappings are equal if they map equal keys to equal values. -/

/-- The number that a truth value counts as. -/
def boolInt (b : Bool) : Int := if b then 1 else 0

/-- Equality of an integer with a number of another type. -/
private def intEquals (i : Int) : Value → Bool
  | .bool b => i == boolInt b
  | .int j => i == j
  | .float x => x.equalsRatio i 1
  | .decimal d => d.equals (.finite (i < 0) i.natAbs 0)
  | _ => false

mutual

/-- Equality as templates and mappings see it. -/
def equals : Value → Value → Bool
  | .none, .none => true
  | .bool a, b => intEquals (boolInt a) b
  | .int i, b => intEquals i b
  | .float x, .bool b => x.equalsRatio (boolInt b) 1
  | .float x, .int i => x.equalsRatio i 1
  | .float x, .float y => x.equals y
  | .float x, .decimal d => d.equalsBinary x
  | .decimal d, .bool b => d.equals (.finite false (boolInt b).natAbs 0)
  | .decimal d, .int i => d.equals (.finite (i < 0) i.natAbs 0)
  | .decimal d, .float x => d.equalsBinary x
  | .decimal d, .decimal e => d.equals e
  | .text _ a, .text _ b => a == b
  | .text _ a, .lazy _ b => a == b
  | .lazy _ a, .text _ b => a == b
  | .lazy _ a, .lazy _ b => a == b
  | .bytes a, .bytes b => a == b
  | .list a, .list b => equalsAll a b
  | .tuple a, .tuple b | .tuple a, .record _ b | .record _ a, .tuple b | .record _ a, .record _ b =>
    equalsAll a b
  | .set a, .set b => a.length == b.length && within a b
  | .dict a, .dict b => a.length == b.length && entriesWithin a b
  | .dict a, .mapping b => a.length == b.length && entriesWithin a b
  | .mapping a, .dict b => a.length == b.length && entriesWithin a b
  | .mapping a, .mapping b => a.length == b.length && entriesWithin a b
  | .uuid a, .uuid b => a == b
  | .day a, .day b => a == b
  | .moment a, .moment b => a.equals b
  | .clock a, .clock b => a.equals b
  | .span a, .span b => a == b
  | _, _ => false

/-- Equality item by item. -/
def equalsAll : List Value → List Value → Bool
  | [], [] => true
  | a :: as, b :: bs => equals a b && equalsAll as bs
  | _, _ => false

/-- Whether each item equals some item of the other list. -/
def within : List Value → List Value → Bool
  | [], _ => true
  | a :: as, bs => bs.any (equals a) && within as bs

/-- Whether each entry equals some entry of the other list. -/
def entriesWithin : List (Value × Value) → List (Value × Value) → Bool
  | [], _ => true
  | (k, v) :: rest, bs =>
    bs.any (fun e => equals k e.1 && equals v e.2) && entriesWithin rest bs

end

/-- Text equals plain text of the same characters. -/
theorem equals_str (safe : Bool) (s t : Text) : equals (.text safe s) (str t) = (s == t) := by
  simp [equals, str]

theorem equals_str_of_ne (safe : Bool) {s t : Text} (h : s ≠ t) :
    equals (.text safe s) (str t) = false :=
  (equals_str safe s t).trans (beq_false_of_ne h)

/-! ## Look-up in entries -/

/-- The value under a key. -/
def lookup? (key : Value) (entries : List (Value × Value)) : Option Value :=
  (entries.find? fun e => equals e.1 key).map (·.2)

/-- Puts a value under a key: in place if the key is there, else at the end. -/
def insert (key value : Value) : List (Value × Value) → List (Value × Value)
  | [] => [(key, value)]
  | (k, v) :: rest => if equals k key then (k, value) :: rest else (k, v) :: insert key value rest

/-- The entries put in one after the other. -/
def ofEntries (entries : List (Value × Value)) : List (Value × Value) :=
  entries.foldl (fun acc e => insert e.1 e.2 acc) []

theorem lookup?_insert {key : Value} (value : Value) (entries : List (Value × Value))
    (hk : equals key key = true) : lookup? key (insert key value entries) = some value := by
  induction entries with
  | nil => simp [insert, lookup?, hk]
  | cons e rest ih =>
    obtain ⟨k, v⟩ := e
    by_cases h : equals k key = true
    · simp [insert, lookup?, h]
    · simp only [Bool.not_eq_true] at h
      rw [show insert key value ((k, v) :: rest) = (k, v) :: insert key value rest by
        simp [insert, h]]
      simpa [lookup?, List.find?_cons, h] using ih

theorem keys_insert_of_mem {key : Value} (value : Value) {entries : List (Value × Value)}
    (h : ∃ e ∈ entries, equals e.1 key = true) :
    (insert key value entries).map (·.1) = entries.map (·.1) := by
  induction entries with
  | nil => simp at h
  | cons e rest ih =>
    obtain ⟨k, v⟩ := e
    by_cases hk : equals k key = true
    · simp [insert, hk]
    · simp only [insert, hk, if_false, List.map_cons, List.cons.injEq, true_and, Bool.false_eq_true]
      refine ih ?_
      obtain ⟨e, he, heq⟩ := h
      rcases List.mem_cons.1 he with rfl | he
      · exact absurd heq hk
      · exact ⟨e, he, heq⟩

/-- A new key is put at the end. -/
theorem insert_of_not_mem {key value : Value} {entries : List (Value × Value)}
    (h : ∀ e ∈ entries, equals e.1 key = false) :
    insert key value entries = entries ++ [(key, value)] := by
  induction entries with
  | nil => rfl
  | cons e rest ih =>
    obtain ⟨he, hrest⟩ := List.forall_mem_cons.1 h
    simp [insert, he, ih hrest]

/-- What holds of every key and every value still holds if it holds of those that are put in. -/
theorem forall_insert {P Q : Value → Prop} {key value : Value} {entries : List (Value × Value)}
    (hkey : P key) (hvalue : Q value) (h : ∀ e ∈ entries, P e.1 ∧ Q e.2) :
    ∀ e ∈ insert key value entries, P e.1 ∧ Q e.2 := by
  induction entries with
  | nil => simpa [insert] using ⟨hkey, hvalue⟩
  | cons d rest ih =>
    obtain ⟨hd, hrest⟩ := List.forall_mem_cons.1 h
    rw [insert]
    split
    · exact List.forall_mem_cons.2 ⟨⟨hd.1, hvalue⟩, hrest⟩
    · exact List.forall_mem_cons.2 ⟨hd, ih hrest⟩

theorem forall_ofEntries {P Q : Value → Prop} {entries : List (Value × Value)}
    (h : ∀ e ∈ entries, P e.1 ∧ Q e.2) : ∀ e ∈ ofEntries entries, P e.1 ∧ Q e.2 := by
  suffices hfold : ∀ acc : List (Value × Value), (∀ e ∈ acc, P e.1 ∧ Q e.2) →
      ∀ e ∈ entries.foldl (fun acc d => insert d.1 d.2 acc) acc, P e.1 ∧ Q e.2 from
    hfold [] (by simp)
  intro acc hacc
  induction entries generalizing acc with
  | nil => exact hacc
  | cons d rest ih =>
    obtain ⟨hd, hrest⟩ := List.forall_mem_cons.1 h
    exact ih hrest _ (forall_insert hd.1 hd.2 hacc)

/-- Entries under different keys are put in as they are. -/
theorem ofEntries_of_pairwise {entries : List (Value × Value)}
    (h : entries.Pairwise fun a b => equals a.1 b.1 = false) : ofEntries entries = entries := by
  suffices hfold : ∀ acc : List (Value × Value),
      (acc ++ entries).Pairwise (fun a b => equals a.1 b.1 = false) →
      entries.foldl (fun acc d => insert d.1 d.2 acc) acc = acc ++ entries from
    hfold [] h
  clear h
  intro acc h
  induction entries generalizing acc with
  | nil => simp
  | cons d rest ih =>
    have hnew : ∀ e ∈ acc, equals e.1 d.1 = false := fun e he =>
      (List.pairwise_append.1 h).2.2 e he d List.mem_cons_self
    rw [List.append_cons] at h ⊢
    rw [List.foldl_cons, insert_of_not_mem hnew]
    exact ih _ h

/-- The values without those that equal an earlier one. -/
def distinct (items : List Value) : List Value :=
  items.foldl (fun seen v => if seen.any fun w => equals w v then seen else seen ++ [v]) []

/-! ## Truth -/

/-- Whether a condition takes the value for true: not nothing, not zero, not empty. -/
def isTrue : Value → Bool
  | .none => false
  | .bool b => b
  | .int i => i != 0
  | .float x => !x.isZero
  | .text _ t | .lazy _ t => !t.isEmpty
  | .bytes b => !b.isEmpty
  | .list items | .tuple items | .set items => !items.isEmpty
  | .dict entries | .mapping entries | .view _ entries => !entries.isEmpty
  | .decimal d => !d.isZero
  | .span s => s != ⟨0, 0, 0⟩
  | _ => true

/-! ## Types -/

/-- The name of the type of a view. -/
def viewName : ViewPart → Text
  | .keys => "dict_keys"
  | .values => "dict_values"
  | .items => "dict_items"

/-- The name of a value's type. -/
def typeName : Value → Text
  | .none => "NoneType"
  | .bool _ => "bool"
  | .int _ => "int"
  | .float _ => "float"
  | .text false _ => "str"
  | .text true _ => "SafeString"
  | .lazy _ _ => "__proxy__"
  | .bytes _ => "bytes"
  | .list _ => "list"
  | .tuple _ => "tuple"
  | .set _ => "set"
  | .dict _ => "dict"
  | .mapping _ => "mappingproxy"
  | .decimal _ => "Decimal"
  | .uuid _ => "UUID"
  | .day _ => "date"
  | .moment _ => "datetime"
  | .clock _ => "time"
  | .span _ => "timedelta"
  | .view part _ => viewName part
  | .record kind _ => lastName kind.fullName
  | .object form _ => lastName form.type
  | .call _ => "function"

/-- The name of a value's type together with the module that it comes from, where it is not one of
the plain types. -/
def fullTypeName : Value → Text
  | .decimal _ => "decimal.Decimal"
  | .day _ => "datetime.date"
  | .moment _ => "datetime.datetime"
  | .clock _ => "datetime.time"
  | .span _ => "datetime.timedelta"
  | .record kind _ => kind.fullName
  | .object form _ => form.type
  | v => v.typeName

mutual

/-- The name of the first part of the value that cannot be a key, if there is one. -/
def unhashable? : Value → Option Text
  | .list _ => some "list"
  | .set _ => some "set"
  | .dict _ => some "dict"
  | .mapping _ => some "mappingproxy"
  | .view .keys _ => some "dict_keys"
  | .view .items _ => some "dict_items"
  | .tuple items | .record _ items => unhashableIn? items
  | _ => Option.none

/-- The name of the first item that cannot be a key. -/
def unhashableIn? : List Value → Option Text
  | [] => Option.none
  | v :: rest =>
    match unhashable? v with
    | some name => some name
    | Option.none => unhashableIn? rest

end

end Value
end Hydration
