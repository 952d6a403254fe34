import Hydration.Value.Basic
/-!
# The order of values

Numbers are compared across their types, texts by their characters, days and times by the calendar,
lists and tuples by the first items that differ. Sets are ordered by inclusion. Other values have no
order, and asking for it is a fault.

A list is sorted by binary insertion into the run that it starts with, so that values which are
never less than one another keep their order.

* `sort_perm`: sorting moves items and does nothing else.
-/
namespace Hydration.Value

/-! ## Numbers -/

/-- The place of a number: a quotient, beyond all quotients on either side, or nowhere. -/
inductive Level
  | below
  | at (numerator : Int) (denominator : Nat)
  | above
  | nowhere

/-- The place of infinity. -/
private def Level.infinite (negative : Bool) : Level := if negative then .below else .above

/-- The place of a value that is a number. -/
def level? : Value → Option Level
  | .bool b => some (.at (boolInt b) 1)
  | .int i => some (.at i 1)
  | .float .nan => some .nowhere
  | .float (.infinity negative) => some (Level.infinite negative)
  | .float (.finite negative mantissa exponent) =>
    let (p, q) := Binary64.magnitude mantissa exponent
    some (.at (if negative then -Int.ofNat p else Int.ofNat p) q)
  | .decimal (.nan _ _ _) => some .nowhere
  | .decimal (.infinity negative) => some (Level.infinite negative)
  | .decimal d => d.ratio?.map fun (p, q) => .at p q
  | _ => Option.none

/-- Whether one place is before another; one that is nowhere is not. -/
def Level.before : Level → Level → Bool
  | .below, .at _ _ | .below, .above | .at _ _, .above => true
  | .at p q, .at r s => p * Int.ofNat s < r * Int.ofNat q
  | _, _ => false

/-- Whether a value is a decimal number. -/
private def isDecimal : Value → Bool
  | .decimal _ => true
  | _ => false

/-- Whether a place is nowhere. -/
private def Level.isNowhere : Level → Bool
  | .nowhere => true
  | _ => false

/-! ## Values -/

/-- Whether bytes come before others. -/
private def bytesBefore (a b : List UInt8) : Bool :=
  let letters (bytes : List UInt8) : Text := bytes.map fun x => Char.ofNat x.toNat
  !Text.precedes (letters b) (letters a)

/-- Whether one instant is before another, of times that both have a distance from universal time or
both have none. -/
private def instantBefore (onDays : Bool) (a b : Option Span) (s t : Int) : Except Failure Bool :=
  if a.isSome == b.isSome then .ok (s < t) else .error (.type (.unorderedMoments onDays))

/-- Whether a value that is no list and no tuple is less than another. -/
def plainLess (v w : Value) : Except Failure Bool :=
  match v, w with
  | .text _ a, .text _ b | .text _ a, .lazy _ b | .lazy _ a, .text _ b | .lazy _ a, .lazy _ b =>
    .ok (!Text.precedes b a)
  | .mapping _, .mapping _ => unordered '>' "dict" "dict"
  | .lazy _ _, .mapping _ => unordered '>' "dict" "str"
  | v, .mapping _ => unordered '>' "dict" v.fullTypeName
  | .mapping _, .lazy _ _ => unordered '<' "str" "dict"
  | .mapping _, w => unordered '<' "dict" w.fullTypeName
  | .lazy _ _, w => unordered '<' "str" w.fullTypeName
  | v, .lazy _ _ => unordered '<' "str" v.fullTypeName
  | .bytes a, .bytes b => .ok (bytesBefore a b)
  | .set a, .set b => .ok (a.length < b.length && within a b)
  | .uuid a, .uuid b => .ok (!Text.precedes b a)
  | .day a, .day b => .ok (a.ordinal < b.ordinal)
  | .moment _, .day _ | .day _, .moment _ => .error (.type .unorderedDays)
  | .moment a, .moment b =>
    instantBefore true a.clock.zone b.clock.zone
      (a.microseconds - (a.clock.zone.map Span.total).getD 0)
      (b.microseconds - (b.clock.zone.map Span.total).getD 0)
  | .clock a, .clock b => instantBefore false a.zone b.zone a.instant b.instant
  | .span a, .span b => .ok (a.total < b.total)
  | v, w =>
    match v.level?, w.level? with
    | some a, some b =>
      if (a.isNowhere || b.isNowhere) && (v.isDecimal || w.isDecimal) then
        .error (.decimal .invalid)
      else .ok (a.before b)
    | _, _ => unordered '<' v.fullTypeName w.fullTypeName
where
  /-- The fault of two values that have no order. A mapping that cannot be changed is asked with its
  entries as a dict, from the other side if it stands on the right. -/
  unordered (sign : Char) (left right : Text) : Except Failure Bool :=
    .error (.type (.unordered sign left right))

mutual

/-- Whether a value is less than another. -/
def less : Value → Value → Except Failure Bool
  | .list a, .list b => lessItems a b
  | .tuple a, .tuple b | .tuple a, .record _ b | .record _ a, .tuple b | .record _ a, .record _ b =>
    lessItems a b
  | v, w => plainLess v w

/-- Whether a list of items comes before another: by the first items that differ, or as its start. -/
def lessItems : List Value → List Value → Except Failure Bool
  | [], [] => .ok false
  | [], _ :: _ => .ok true
  | _ :: _, [] => .ok false
  | a :: as, b :: bs => if equals a b then lessItems as bs else less a b

end

/-! ## Sorting -/

/-- How many items go on with a run after the given item: each less than the one before, or none of
them. -/
def runLength (descending : Bool) : Value → List Value → Except Failure Nat
  | _, [] => .ok 0
  | last, v :: rest => do
    if (← less v last) == descending then
      let n ← runLength descending v rest
      pure (n + 1)
    else pure 0

/-- The place of an item in a sorted list between two places, behind the items that it is not less
than, found by halving the distance. -/
def insertionPlace (v : Value) (items : List Value) (low high : Nat) : Except Failure Nat := do
  if h : low < high then
    let middle := low + (high - low) / 2
    if ← less v (items[middle]?.getD .none) then insertionPlace v items low middle
    else insertionPlace v items (middle + 1) high
  else pure low
termination_by high - low

/-- Puts items into a sorted list one after the other. -/
def insertSorted (sorted : List Value) : List Value → Except Failure (List Value)
  | [] => .ok sorted
  | v :: rest => do
    let n ← insertionPlace v sorted 0 sorted.length
    insertSorted (sorted.take n ++ v :: sorted.drop n) rest

/-- The run at the start of a list, in order, and the items after it. -/
def firstRun : List Value → Except Failure (List Value × List Value)
  | v :: w :: rest => do
    let descending ← less w v
    let n ← runLength descending w rest
    let run := (v :: w :: rest).take (n + 2)
    pure (if descending then run.reverse else run, (v :: w :: rest).drop (n + 2))
  | items => .ok (items, [])

/-- The items in order. -/
def sort (items : List Value) : Except Failure (List Value) := do
  let (run, rest) ← firstRun items
  insertSorted run rest

theorem insertSorted_perm {items sorted result : List Value}
    (h : insertSorted sorted items = .ok result) : result.Perm (sorted ++ items) := by
  induction items generalizing sorted with
  | nil =>
    cases h
    simp
  | cons v rest ih =>
    simp only [insertSorted] at h
    cases hn : insertionPlace v sorted 0 sorted.length with
    | error f => rw [hn] at h; cases h
    | ok n =>
      rw [hn] at h
      refine (ih h).trans ?_
      rw [List.append_assoc, List.cons_append]
      refine List.perm_middle.trans ?_
      rw [← List.append_assoc, List.take_append_drop]
      exact List.perm_middle.symm

theorem firstRun_perm {items run rest : List Value} (h : firstRun items = .ok (run, rest)) :
    (run ++ rest).Perm items := by
  unfold firstRun at h
  split at h
  · next v w more =>
    cases hd : less w v with
    | error f => rw [hd] at h; cases h
    | ok descending =>
      rw [hd] at h
      cases hn : runLength descending w more with
      | error f => simp only [bind, Except.bind, hn] at h; cases h
      | ok n =>
        simp only [bind, Except.bind, hn, pure, Except.pure] at h
        cases h
        have split := List.take_append_drop (n + 2) (v :: w :: more)
        cases descending with
        | false => simp
        | true =>
          exact ((List.reverse_perm _).append_right _).trans (List.Perm.of_eq split)
  · cases h
    simp

theorem sort_perm {items result : List Value} (h : sort items = .ok result) :
    result.Perm items := by
  unfold sort at h
  cases hr : firstRun items with
  | error f => rw [hr] at h; cases h
  | ok pair =>
    obtain ⟨run, rest⟩ := pair
    rw [hr] at h
    exact (insertSorted_perm h).trans (firstRun_perm hr)

end Hydration.Value
