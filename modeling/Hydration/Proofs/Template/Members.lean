import Hydration.Proofs.Value.Text
import Hydration.Template.Lookup
/-!
# What members can be

A name stands in a value for a part of it, for what a method gives, for a method that wants
arguments, or for a failure. Five names stand for methods that change the value that they belong to,
and no member fails as a component that is not found.

* `Value.ofValues_sort`: the order of values, which a list can be put into.
* `Member.allows_member?`: what a name can stand for in any value.
-/
namespace Hydration

/-! ## Computations on values -/

/-- The computation does not fail as a component that is not found. -/
def OfValues {α : Type} (r : Except Failure α) : Prop :=
  ∀ path fault, r ≠ .error (.resolution path fault)

namespace OfValues
variable {α β : Type} {r : Except Failure α}

theorem ok (x : α) : OfValues (.ok x : Except Failure α) := fun _ _ h => nomatch h

theorem error {f : Failure} (h : ∀ path fault, f ≠ .resolution path fault) :
    OfValues (.error f : Except Failure α) := fun path fault hf => h path fault (Except.error.inj hf)

theorem ite {p : Prop} [Decidable p] {a b : Except Failure α} (ha : OfValues a)
    (hb : OfValues b) : OfValues (if p then a else b) := by
  split
  · exact ha
  · exact hb

theorem bind {f : α → Except Failure β} (hr : OfValues r) (hf : ∀ x, OfValues (f x)) :
    OfValues (r >>= f) := by
  intro path fault h
  rcases Failure.bind_error h with h | ⟨x, -, h⟩
  · exact hr path fault h
  · exact hf x path fault h

theorem map (f : α → β) (hr : OfValues r) : OfValues (r.map f) :=
  fun path fault h => hr path fault (Failure.map_error h)

theorem mapM {f : α → Except Failure β} (hf : ∀ x, OfValues (f x)) :
    ∀ items : List α, OfValues (items.mapM f)
  | [] => by
    rw [List.mapM_nil]
    exact ok []
  | x :: rest => by
    rw [List.mapM_cons]
    exact (hf x).bind fun y => (mapM hf rest).bind fun more => ok (y :: more)

end OfValues

/-! ## Order -/

namespace Value

theorem ofValues_plainLess (v w : Value) : OfValues (plainLess v w) := by
  unfold plainLess
  split
  case h_18 | h_19 => exact .ite (.ok _) (.error nofun)
  case h_21 =>
    split
    · exact .ite (.error nofun) (.ok _)
    · exact .error nofun
  all_goals first | exact .ok _ | exact .error nofun

mutual

theorem ofValues_less (v w : Value) : OfValues (less v w) := by
  unfold less
  split
  · exact ofValues_lessItems _ _
  · exact ofValues_lessItems _ _
  · exact ofValues_lessItems _ _
  · exact ofValues_lessItems _ _
  · exact ofValues_lessItems _ _
  · exact ofValues_plainLess _ _

theorem ofValues_lessItems : ∀ v w : List Value, OfValues (lessItems v w)
  | [], [] => .ok _
  | [], _ :: _ => .ok _
  | _ :: _, [] => .ok _
  | a :: as, b :: bs => by
    rw [lessItems]
    split
    · exact ofValues_lessItems as bs
    · exact ofValues_less a b

end

theorem ofValues_runLength (descending : Bool) : ∀ (last : Value) (items : List Value),
    OfValues (runLength descending last items)
  | _, [] => .ok 0
  | last, v :: rest => by
    refine (ofValues_less v last).bind fun b => ?_
    split
    · exact (ofValues_runLength descending v rest).bind fun n => .ok (n + 1)
    · exact .ok 0

theorem ofValues_insertionPlace (v : Value) (items : List Value) (low high : Nat) :
    OfValues (insertionPlace v items low high) := by
  fun_induction insertionPlace v items low high with
  | case1 low high h middle ih1 ih2 =>
    refine (ofValues_less _ _).bind fun b => ?_
    split
    · exact ih1
    · exact ih2
  | case2 => exact .ok _

theorem ofValues_insertSorted (sorted items : List Value) : OfValues (insertSorted sorted items) := by
  induction items generalizing sorted with
  | nil => exact .ok sorted
  | cons v rest ih => exact (ofValues_insertionPlace v sorted 0 _).bind fun n => ih _

theorem ofValues_firstRun (items : List Value) : OfValues (firstRun items) := by
  unfold firstRun
  split
  · next v w rest =>
    exact (ofValues_less w v).bind fun d => (ofValues_runLength d w rest).bind fun n => .ok _
  · exact .ok _

theorem ofValues_sort (items : List Value) : OfValues (sort items) :=
  (ofValues_firstRun items).bind fun _ => ofValues_insertSorted _ _

end Value
/-! ## Members -/

namespace Member

/-- The methods that may change the value that they belong to. -/
def changing : List Text := ["clear", "pop", "popitem", "reverse", "sort"]

/-- What a name can stand for. Only some names change a value, and no name fails as a component that
is not found. -/
inductive Allowed (name : Text) : Member → Prop
  | found (v : Value) : Allowed name (.found v)
  | changed (result after : Value) (h : name ∈ changing) : Allowed name (.changed result after)
  | failed {f : Failure} (h : ∀ path fault, f ≠ .resolution path fault) : Allowed name (.failed f)
  | wantsArguments : Allowed name .wantsArguments

/-- If the name stands for something, then for something that it can stand for. -/
def Allows (name : Text) (o : Option Member) : Prop := ∀ m, o = some m → Allowed name m

variable {name : Text}

theorem allowed_ofExcept {r : Except Failure Value} (h : OfValues r) :
    Allowed name (ofExcept r) := by
  cases r with
  | ok v => exact .found v
  | error f => exact .failed fun path fault hf => h path fault (by rw [hf])

namespace Allows
variable {α : Type} {a b : Option Member}

theorem none : Allows name Option.none := nofun

theorem some {m : Member} (h : Allowed name m) : Allows name (some m) := by
  intro m' hm
  cases hm
  exact h

theorem map {f : α → Member} (h : ∀ x, Allowed name (f x)) (o : Option α) :
    Allows name (o.map f) := by
  cases o with
  | none => exact none
  | some x => exact some (h x)

theorem or (ha : Allows name a) (hb : Allows name b) : Allows name (a.or b) := by
  cases a with
  | none => exact hb
  | some m => exact ha

theorem table {table : Table α} (h : ∀ e ∈ table, ∀ x, Allowed e.1 (e.2 x)) (name : Text) (x : α) :
    Allows name (table.find? name x) := by
  intro m hm
  obtain ⟨member, hlookup, rfl⟩ := Option.map_eq_some_iff.1 hm
  obtain ⟨before, after, rfl, -⟩ := List.lookup_eq_some_iff.1 hlookup
  exact h _ (List.mem_append_right before List.mem_cons_self) x

theorem wanting (names : List Text) (name : Text) : Allows name (wanting? names name) := by
  unfold wanting?
  split
  · exact some .wantsArguments
  · exact none

end Allows

/-! ### Numbers -/

theorem allows_ofInt? (name : Text) (i : Int) : Allows name (ofInt? name i) := by
  refine .table ?_ name i
  simp only [intTable, List.forall_mem_cons, List.not_mem_nil, false_implies, implies_true,
    Allowed.found, Allowed.wantsArguments, true_and, and_true]
  intro i
  split
  · exact .found _
  · exact .failed nofun

theorem allows_ofFloat? (name : Text) (x : Binary64) : Allows name (ofFloat? name x) := by
  have hratio : ∀ (name : Text) (x : Binary64), Allowed name (ofExcept (x.ratio.map pair)) := by
    intro name x
    refine allowed_ofExcept (.map pair ?_)
    cases x <;> first | exact .ok _ | exact .error nofun
  refine .table ?_ name x
  simp [floatTable, Allowed.found, Allowed.wantsArguments, hratio]

theorem allowed_ofDecimalResult (r : Except DecimalSignal Decimal) :
    Allowed name (ofDecimalResult r) := by
  cases r with
  | ok d => exact .found _
  | error signal => exact .failed nofun

theorem allows_ofDecimal? (name : Text) (d : Decimal) : Allows name (ofDecimal? name d) := by
  have hratio : ∀ (name : Text) (d : Decimal), Allowed name (ofExcept (d.ratio.map pair)) := by
    intro name d
    refine allowed_ofExcept (.map pair ?_)
    cases d <;> first | exact .ok _ | exact .error nofun
  refine .or (.or (.table ?_ name d) (.map (fun test => .found _) _)) (.wanting _ name)
  simp [decimalTable, Allowed.found, allowed_ofDecimalResult, hratio]

/-! ### Texts and bytes -/

theorem allows_textPlain? (name t : Text) : Allows name (textPlain? name t) := by
  have hfilled : OfValues (filled t) := by
    unfold filled
    split
    · exact .ok _
    · exact .error nofun
  unfold textPlain?
  split
  · exact .some (allowed_ofExcept hfilled)
  · exact .map (fun method => .found _) _

theorem allows_ofText? (name t : Text) : Allows name (ofText? name t) :=
  .or (allows_textPlain? name t) (.map (fun _ => .wantsArguments) _)

theorem allows_ofLazy? (name t : Text) : Allows name (ofLazy? name t) :=
  .or (allows_textPlain? name t) (.map (fun _ => .failed fun _ _ => Failure.noConfusion) _)

theorem allows_ofBytes? (name : Text) (b : List UInt8) : Allows name (ofBytes? name b) := by
  have hdecoded : OfValues (decoded b) := by
    unfold decoded
    split
    · exact .ok _
    · exact .error nofun
    · exact .ok _
  unfold ofBytes?
  split
  · exact .some (allowed_ofExcept hdecoded)
  · exact .or (.map (fun method => .found _) _) (.wanting _ name)

/-! ### Collections -/

theorem allows_ofList? (name : Text) (items : List Value) : Allows name (ofList? name items) := by
  have hpop : ∀ items, Allowed "pop" (popItem items) := by
    intro items
    unfold popItem
    split
    · exact .changed _ _ (by decide)
    · exact .failed nofun
  have hsorted : ∀ items, Allowed "sort" (sorted items) := by
    intro items
    unfold sorted
    split
    · exact .changed _ _ (by decide)
    · next hsort =>
      exact .failed fun path fault hf => Value.ofValues_sort items path fault (by rw [hsort, hf])
  refine .or (.table ?_ name items) (.wanting _ name)
  simp only [listTable, List.forall_mem_cons, List.not_mem_nil, false_implies, implies_true]
  exact ⟨fun _ => .changed _ _ (by decide), fun _ => .found _, hpop,
    fun _ => .changed _ _ (by decide), hsorted, trivial⟩

theorem allows_ofSet? (name : Text) (items : List Value) : Allows name (ofSet? name items) := by
  have hpop : ∀ items, Allowed "pop" (popElement items) := by
    intro items
    cases items with
    | nil => exact .failed nofun
    | cons v rest => exact .changed _ _ (by decide)
  refine .or (.table ?_ name items) (.wanting _ name)
  simp only [setTable, List.forall_mem_cons, List.not_mem_nil, false_implies, implies_true,
    Allowed.found, true_and, and_true]
  exact ⟨fun _ => .changed _ _ (by decide), hpop⟩

theorem allows_ofRecord? (name : Text) (kind : RecordKind) (items : List Value) :
    Allows name (ofRecord? name kind items) :=
  .or (.map .found _) (.wanting _ name)

theorem allows_ofMapping? (name : Text) (entries : List (Value × Value)) :
    Allows name (ofMapping? name entries) := by
  refine .or (.table ?_ name entries) (.wanting _ name)
  simp [mappingTable, Allowed.found]

theorem allows_ofDict? (name : Text) (entries : List (Value × Value)) :
    Allows name (ofDict? name entries) := by
  have hpop : ∀ entries, Allowed "popitem" (popEntry entries) := by
    intro entries
    unfold popEntry
    split
    · exact .changed _ _ (by decide)
    · exact .failed nofun
  refine .or (.or (.table ?_ name entries) (allows_ofMapping? name entries)) (.wanting _ name)
  simp only [dictTable, List.forall_mem_cons, List.not_mem_nil, false_implies, implies_true]
  exact ⟨fun _ => .changed _ _ (by decide), hpop, fun _ => .found _, trivial⟩

theorem allows_ofView? (name : Text) (part : ViewPart) (entries : List (Value × Value)) :
    Allows name (ofView? name part entries) := by
  unfold ofView?
  split
  · exact .some (.found _)
  · split
    · exact .none
    · exact .wanting _ name

/-! ### Days and times -/

theorem allows_dayParts (name : Text) (d : Day) : Allows name (dayParts.find? name d) := by
  refine .table ?_ name d
  simp [dayParts, natural, Allowed.found]

theorem allows_clockParts (name : Text) (c : Clock) : Allows name (clockParts.find? name c) := by
  refine .table ?_ name c
  simp [clockParts, natural, zoned, Allowed.found]

theorem allows_ofDay? (name : Text) (d : Day) : Allows name (ofDay? name d) := by
  refine .or (.or (allows_dayParts name d) (.table ?_ name d)) (.wanting _ name)
  simp [dayTable, Allowed.found]

theorem allows_ofClock? (name : Text) (c : Clock) : Allows name (ofClock? name c) := by
  refine .or (.or (allows_clockParts name c) (.table ?_ name c)) (.wanting _ name)
  simp [clockTable, Allowed.found]

theorem allowed_inUniversal (make : Moment → Value) (m : Moment) :
    Allowed name (inUniversal make m) := by
  unfold inUniversal
  split
  · exact .found _
  · exact .failed nofun

theorem allowed_located {make : Moment → Member} {m : Moment} (h : Allowed name (make m)) :
    Allowed name (located make m) := by
  unfold located
  split
  · exact .failed nofun
  · exact h

theorem allows_ofMoment? (name : Text) (m : Moment) : Allows name (ofMoment? name m) := by
  refine .or (.or (.or (allows_dayParts name _) (allows_clockParts name _)) (.table ?_ name m))
    (.wanting _ name)
  simp [momentTable, Allowed.found, allowed_inUniversal, allowed_located]

theorem allows_ofSpan (name : Text) (s : Span) : Allows name (spanTable.find? name s) := by
  refine .table ?_ name s
  simp [spanTable, natural, Allowed.found]

/-! ### All values -/

theorem allows_ofObject? (name : Text) (form : ObjectForm) : Allows name (ofObject? name form) := by
  unfold ofObject?
  split
  · exact .or (.map .found _) (.wanting _ name)
  · exact .none

/-- What a name can stand for in a value. -/
theorem allows_member? (name : Text) (v : Value) : Allows name (v.member? name) := by
  cases v with
  | none => exact .none
  | bool b => exact allows_ofInt? name _
  | int i => exact allows_ofInt? name i
  | float x => exact allows_ofFloat? name x
  | text safe t => exact allows_ofText? name t
  | lazy safe t => exact allows_ofLazy? name t
  | bytes b => exact allows_ofBytes? name b
  | list items => exact allows_ofList? name items
  | tuple items => exact .wanting _ name
  | set items => exact allows_ofSet? name items
  | dict entries => exact allows_ofDict? name entries
  | mapping entries => exact allows_ofMapping? name entries
  | view part entries => exact allows_ofView? name part entries
  | record kind items => exact allows_ofRecord? name kind items
  | decimal d => exact allows_ofDecimal? name d
  | uuid t => exact .map (fun method => .found _) _
  | day d => exact allows_ofDay? name d
  | moment m => exact allows_ofMoment? name m
  | clock c => exact allows_ofClock? name c
  | span s => exact allows_ofSpan name s
  | object form attributes => exact .or (.map .found _) (allows_ofObject? name form)
  | call result => exact .none

end Member

/-- A member that a way leads to is what the name stands for. -/
theorem Value.member?_of_way? {name : Text} {v : Value} {m : Member}
    (h : v.way? name = some (.member m)) : v.member? name = some m := by
  unfold Value.way? at h
  rcases Option.or_eq_some_iff.1 h with h | ⟨-, h⟩
  · obtain ⟨_, -, h⟩ := Option.map_eq_some_iff.1 h
    cases h
  · rcases Option.or_eq_some_iff.1 h with h | ⟨-, h⟩
    · obtain ⟨_, hm, h⟩ := Option.map_eq_some_iff.1 h
      cases h
      exact hm
    · obtain ⟨_, -, h⟩ := Option.map_eq_some_iff.1 h
      cases h

end Hydration
