import Hydration.Template.Filter
/-!
# Places in values

A part of a value together with the value that comes of it when another part stands there: an entry
under a key, an attribute of an object, an item at a position, or what a function gives.

* `insert_lookup?`: putting an entry where it stands changes nothing.
* `keyed?_replace_part`, `attribute?_replace_part`, `positioned?_replace_part`: putting a part where
  it stands changes nothing.
-/
namespace Hydration

/-- A part of a value, and the value with another part in its place. -/
structure Place where
  part : Value
  replace : Value → Value

/-- Entries by name with another value under the first entry of that name. -/
def putFirst {α : Type} (name : Text) (new : α) : List (Text × α) → List (Text × α)
  | [] => []
  | (k, v) :: rest => if name == k then (k, new) :: rest else (k, v) :: putFirst name new rest

theorem putFirst_lookup {α : Type} {name : Text} {entries : List (Text × α)} {v : α}
    (h : entries.lookup name = some v) : putFirst name v entries = entries := by
  induction entries with
  | nil => rfl
  | cons e rest ih =>
    obtain ⟨k, w⟩ := e
    by_cases hk : (name == k) = true
    · rw [List.lookup_cons, hk] at h
      cases h
      simp [putFirst, hk]
    · simp only [Bool.not_eq_true] at hk
      rw [List.lookup_cons, hk] at h
      simp [putFirst, hk, ih h]

theorem lookup_putFirst {α : Type} {name : Text} {entries : List (Text × α)} {v : α} (new : α)
    (h : entries.lookup name = some v) : (putFirst name new entries).lookup name = some new := by
  induction entries with
  | nil => cases h
  | cons e rest ih =>
    obtain ⟨k, w⟩ := e
    by_cases hk : (name == k) = true
    · simp [putFirst, hk, List.lookup_cons]
    · simp only [Bool.not_eq_true] at hk
      rw [List.lookup_cons, hk] at h
      simp [putFirst, hk, List.lookup_cons, ih h]

namespace Place

/-- The whole of a value. -/
def whole (v : Value) : Place := ⟨v, fun w => w⟩

/-- What a function gives, in place of the function; any other part is itself. -/
def called (p : Place) : Place :=
  match p.part with
  | .call v => ⟨v, fun w => p.replace (.call w)⟩
  | _ => p

theorem called_replace_part {p : Place} {v : Value} (h : p.replace p.part = v) :
    p.called.replace p.called.part = v := by
  unfold called
  split
  · next w hw => rw [hw] at h; exact h
  · exact h

end Place

namespace Value

theorem insert_lookup? {key v : Value} {entries : List (Value × Value)}
    (h : lookup? key entries = some v) : insert key v entries = entries := by
  induction entries with
  | nil => cases h
  | cons e rest ih =>
    obtain ⟨k, w⟩ := e
    by_cases hk : equals k key = true
    · simp only [lookup?, List.find?_cons, hk, Option.map_some, Option.some.injEq] at h
      simp [insert, hk, h]
    · simp only [Bool.not_eq_true] at hk
      have h' : lookup? key rest = some v := by
        simpa [lookup?, List.find?_cons, hk] using h
      simp [insert, hk, ih h']

/-- The entry under a name. -/
def keyed? (name : Text) : Value → Option Place
  | .dict entries =>
    (lookup? (str name) entries).map fun part =>
      ⟨part, fun w => .dict (insert (str name) w entries)⟩
  | .mapping entries =>
    (lookup? (str name) entries).map fun part =>
      ⟨part, fun w => .mapping (insert (str name) w entries)⟩
  | _ => Option.none

theorem keyed?_replace_part {name : Text} {v : Value} {p : Place} (h : keyed? name v = some p) :
    p.replace p.part = v := by
  unfold keyed? at h
  split at h
  · obtain ⟨w, hw, rfl⟩ := Option.map_eq_some_iff.1 h
    exact congrArg Value.dict (insert_lookup? hw)
  · obtain ⟨w, hw, rfl⟩ := Option.map_eq_some_iff.1 h
    exact congrArg Value.mapping (insert_lookup? hw)
  · cases h

/-- The attribute of a name. -/
def attribute? (name : Text) : Value → Option Place
  | .object form attributes =>
    (attributes.lookup name).map fun part =>
      ⟨part, fun w => .object form (putFirst name w attributes)⟩
  | _ => Option.none

theorem attribute?_replace_part {name : Text} {v : Value} {p : Place}
    (h : attribute? name v = some p) : p.replace p.part = v := by
  unfold attribute? at h
  split at h
  · next form attributes =>
    obtain ⟨w, hw, rfl⟩ := Option.map_eq_some_iff.1 h
    exact congrArg (Value.object form) (putFirst_lookup hw)
  · cases h

/-- An item of a list with another one in its place, at a position that may be counted from the
end. -/
def putAt (i : Int) (new : Value) (items : List Value) : List Value :=
  items.set (if i < 0 then i + items.length else i).toNat new

theorem putAt_subscript {i : Int} {items : List Value} {v : Value}
    (h : subscript.ofList i items = .found v) : putAt i v items = items := by
  unfold subscript.ofList at h
  unfold putAt
  generalize (if i < 0 then i + (items.length : Int) else i) = position at h ⊢
  dsimp only at h
  by_cases hp : position < 0
  · rw [if_pos hp] at h
    cases h
  · rw [if_neg hp] at h
    split at h
    · next w hw =>
      cases h
      obtain ⟨hlt, rfl⟩ := List.getElem?_eq_some_iff.1 hw
      exact List.set_getElem_self hlt
    · cases h

/-- The item at a position. -/
def positioned? (i : Int) (v : Value) : Option Place :=
  match v.subscript i with
  | .found part =>
    some ⟨part, fun w =>
      match v with
      | .list items => .list (putAt i w items)
      | .tuple items => .tuple (putAt i w items)
      | .record kind items => .record kind (putAt i w items)
      | .dict entries => .dict (insert (.int i) w entries)
      | .mapping entries => .mapping (insert (.int i) w entries)
      | v => v⟩
  | _ => Option.none

theorem positioned?_replace_part {i : Int} {v : Value} {p : Place}
    (h : positioned? i v = some p) : p.replace p.part = v := by
  unfold positioned? at h
  split at h
  · next part hs =>
    cases h
    cases v <;> simp only [subscript] at hs ⊢
    case list => exact congrArg _ (putAt_subscript hs)
    case tuple => exact congrArg _ (putAt_subscript hs)
    case record => exact congrArg _ (putAt_subscript hs)
    case dict =>
      split at hs
      · next hl => cases hs; exact congrArg _ (insert_lookup? hl)
      · cases hs
    case mapping =>
      split at hs
      · next hl => cases hs; exact congrArg _ (insert_lookup? hl)
      · cases hs
  · cases h

end Value
end Hydration
