import Hydration.Value.Text
/-!
# Values without text

Every value has a text but for integers of too many digits. So a value has no text if there is such
an integer in it, and that is the only way in which it fails.

* `inspect_error`: how a value cannot be shown in a message.
* `toText_error`: how a value cannot be written.
* `exists_inspect`, `exists_toText`: values whose integers are all short enough have a text.
-/
namespace Hydration

/-- The failure of a value that has no text. -/
abbrev Failure.noText : Failure := .value (.tooManyDigits none)

theorem Value.intText_error {i : Int} {f : Failure} (h : Value.intText i = .error f) :
    f = .noText := by
  unfold Value.intText at h
  split at h <;> cases h
  rfl

/-- A failing computation failed at its start, or after it. -/
theorem Failure.bind_error {α β : Type} {a : Except Failure α} {g : α → Except Failure β}
    {f : Failure} (h : a.bind g = .error f) : a = .error f ∨ ∃ x, a = .ok x ∧ g x = .error f := by
  cases a with
  | error e =>
    cases h
    exact .inl rfl
  | ok x => exact .inr ⟨x, rfl, h⟩

/-- A computation that succeeds did so at its start, and after it. -/
theorem Failure.bind_ok {α β : Type} {a : Except Failure α} {g : α → Except Failure β} {y : β}
    (h : a.bind g = .ok y) : ∃ x, a = .ok x ∧ g x = .ok y := by
  cases a with
  | error e => cases h
  | ok x => exact ⟨x, rfl, h⟩

theorem Failure.map_ok {α β : Type} {a : Except Failure α} {g : α → β} {y : β}
    (h : a.map g = .ok y) : ∃ x, a = .ok x ∧ g x = y := by
  cases a with
  | error e => cases h
  | ok x => exact ⟨x, rfl, Except.ok.inj h⟩

theorem Failure.map_error {α β : Type} {a : Except Failure α} {g : α → β} {f : Failure}
    (h : a.map g = .error f) : a = .error f := by
  cases a with
  | error e =>
    cases h
    rfl
  | ok x => cases h

namespace Value

mutual

theorem inspect_error : ∀ (v : Value) {f : Failure}, v.inspect = .error f → f = .noText
  | .int i, f => by
    rw [inspect]
    exact intText_error
  | .list items, f | .tuple items, f | .set items, f | .record _ items, f => fun h =>
    inspectItems_error items (Failure.map_error h)
  | .dict entries, f | .mapping entries, f => fun h =>
    inspectEntries_error entries (Failure.map_error h)
  | .view .keys entries, f => fun h => inspectKeys_error entries (Failure.map_error h)
  | .view .values entries, f => fun h => inspectValues_error entries (Failure.map_error h)
  | .view .items entries, f => fun h => inspectPairs_error entries (Failure.map_error h)
  | .none, _ | .bool _, _ | .float _, _ | .text _ _, _ | .lazy _ _, _ | .bytes _, _
  | .decimal _, _ | .uuid _, _ | .day _, _ | .moment _, _ | .clock _, _ | .span _, _
  | .object _ _, _ | .call _, _ => fun h => by cases h

theorem inspectItems_error : ∀ (items : List Value) {f : Failure},
    inspectItems items = .error f → f = .noText
  | [], _, h => by cases h
  | v :: rest, f, h => by
    rcases Failure.bind_error h with h | ⟨_, -, h⟩
    · exact inspect_error v h
    · exact inspectItems_error rest (Failure.map_error h)

theorem inspectEntries_error : ∀ (entries : List (Value × Value)) {f : Failure},
    inspectEntries entries = .error f → f = .noText
  | [], _, h => by cases h
  | (k, v) :: rest, f, h => by
    rcases Failure.bind_error h with h | ⟨_, -, h⟩
    · exact inspect_error k h
    · rcases Failure.bind_error h with h | ⟨_, -, h⟩
      · exact inspect_error v h
      · exact inspectEntries_error rest (Failure.map_error h)

theorem inspectKeys_error : ∀ (entries : List (Value × Value)) {f : Failure},
    inspectKeys entries = .error f → f = .noText
  | [], _, h => by cases h
  | (k, _) :: rest, f, h => by
    rcases Failure.bind_error h with h | ⟨_, -, h⟩
    · exact inspect_error k h
    · exact inspectKeys_error rest (Failure.map_error h)

theorem inspectValues_error : ∀ (entries : List (Value × Value)) {f : Failure},
    inspectValues entries = .error f → f = .noText
  | [], _, h => by cases h
  | (_, v) :: rest, f, h => by
    rcases Failure.bind_error h with h | ⟨_, -, h⟩
    · exact inspect_error v h
    · exact inspectValues_error rest (Failure.map_error h)

theorem inspectPairs_error : ∀ (entries : List (Value × Value)) {f : Failure},
    inspectPairs entries = .error f → f = .noText
  | [], _, h => by cases h
  | (k, v) :: rest, f, h => by
    rcases Failure.bind_error h with h | ⟨_, -, h⟩
    · exact inspect_error k h
    · rcases Failure.bind_error h with h | ⟨_, -, h⟩
      · exact inspect_error v h
      · exact inspectPairs_error rest (Failure.map_error h)

end

theorem toText_error {v : Value} {f : Failure} (h : v.toText = .error f) : f = .noText := by
  cases v with
  | mapping entries => exact inspect_error (.dict entries) h
  | text _ _ | lazy _ _ | decimal _ | uuid _ | day _ | moment _ | clock _ | span _ | object _ _ =>
    cases h
  | _ => exact inspect_error _ h

/-! ## Values with text -/

mutual

/-- No integer that is written with the value has too many digits. -/
def HasShortIntegers : Value → Prop
  | .int i => i.natAbs < Nat.pow 10 Number.maxDigits
  | .list items | .tuple items | .set items | .record _ items => ShortItems items
  | .dict entries | .mapping entries | .view _ entries => ShortEntries entries
  | _ => True

def ShortItems : List Value → Prop
  | [] => True
  | v :: rest => HasShortIntegers v ∧ ShortItems rest

def ShortEntries : List (Value × Value) → Prop
  | [] => True
  | (k, v) :: rest => HasShortIntegers k ∧ HasShortIntegers v ∧ ShortEntries rest

end

theorem ShortEntries.of_mem {entries : List (Value × Value)} (h : ShortEntries entries) :
    ∀ e ∈ entries, HasShortIntegers e.1 ∧ HasShortIntegers e.2 := by
  induction entries with
  | nil => simp
  | cons e rest ih =>
    obtain ⟨hkey, hvalue, hrest⟩ := h
    exact List.forall_mem_cons.2 ⟨⟨hkey, hvalue⟩, ih hrest⟩

theorem exists_intText {i : Int} (h : i.natAbs < Nat.pow 10 Number.maxDigits) :
    ∃ t, intText i = .ok t := by
  unfold intText Number.intText?
  -- the bound must not be evaluated
  generalize Nat.pow 10 Number.maxDigits = bound at *
  rw [if_pos h]
  exact ⟨_, rfl⟩

/-- Two parts in a row that both have a text. -/
theorem exists_bind_map {α β γ : Type} {a : Except Failure α} {b : α → Except Failure β}
    {g : α → β → γ} (ha : ∃ x, a = .ok x) (hb : ∀ x, ∃ y, b x = .ok y) :
    ∃ z, (a.bind fun x => (b x).map (g x)) = .ok z := by
  obtain ⟨x, rfl⟩ := ha
  obtain ⟨y, hy⟩ := hb x
  exact ⟨g x y, by simp [Except.bind, hy, Except.map]⟩

theorem exists_map {α β : Type} {a : Except Failure α} (g : α → β) (ha : ∃ x, a = .ok x) :
    ∃ y, a.map g = .ok y := by
  obtain ⟨x, rfl⟩ := ha
  exact ⟨g x, rfl⟩

mutual

theorem exists_inspect : ∀ (v : Value), v.HasShortIntegers → ∃ t, v.inspect = .ok t
  | .int _, h => by
    rw [inspect]
    exact exists_intText h
  | .list items, h | .tuple items, h | .set items, h | .record _ items, h =>
    exists_map _ (exists_inspectItems items h)
  | .dict entries, h | .mapping entries, h => exists_map _ (exists_inspectEntries entries h)
  | .view .keys entries, h => exists_map _ (exists_inspectKeys entries h)
  | .view .values entries, h => exists_map _ (exists_inspectValues entries h)
  | .view .items entries, h => exists_map _ (exists_inspectPairs entries h)
  | .none, _ | .bool _, _ | .float _, _ | .text _ _, _ | .lazy _ _, _ | .bytes _, _
  | .decimal _, _ | .uuid _, _ | .day _, _ | .moment _, _ | .clock _, _ | .span _, _
  | .object _ _, _ | .call _, _ => ⟨_, rfl⟩

theorem exists_inspectItems : ∀ (items : List Value), ShortItems items →
    ∃ parts, inspectItems items = .ok parts
  | [], _ => ⟨_, rfl⟩
  | v :: rest, ⟨hv, hrest⟩ =>
    exists_bind_map (exists_inspect v hv) fun _ => exists_inspectItems rest hrest

theorem exists_inspectEntries : ∀ (entries : List (Value × Value)), ShortEntries entries →
    ∃ parts, inspectEntries entries = .ok parts
  | [], _ => ⟨_, rfl⟩
  | (k, v) :: rest, ⟨hk, hv, hrest⟩ => by
    obtain ⟨key, hkey⟩ := exists_inspect k hk
    obtain ⟨parts, hparts⟩ := exists_bind_map
      (g := fun value parts => (key ++ ": " ++ value) :: parts)
      (exists_inspect v hv) fun _ => exists_inspectEntries rest hrest
    exact ⟨parts, by rw [inspectEntries, hkey]; exact hparts⟩

theorem exists_inspectKeys : ∀ (entries : List (Value × Value)), ShortEntries entries →
    ∃ parts, inspectKeys entries = .ok parts
  | [], _ => ⟨_, rfl⟩
  | (k, _) :: rest, ⟨hk, _, hrest⟩ =>
    exists_bind_map (exists_inspect k hk) fun _ => exists_inspectKeys rest hrest

theorem exists_inspectValues : ∀ (entries : List (Value × Value)), ShortEntries entries →
    ∃ parts, inspectValues entries = .ok parts
  | [], _ => ⟨_, rfl⟩
  | (_, v) :: rest, ⟨_, hv, hrest⟩ =>
    exists_bind_map (exists_inspect v hv) fun _ => exists_inspectValues rest hrest

theorem exists_inspectPairs : ∀ (entries : List (Value × Value)), ShortEntries entries →
    ∃ parts, inspectPairs entries = .ok parts
  | [], _ => ⟨_, rfl⟩
  | (k, v) :: rest, ⟨hk, hv, hrest⟩ => by
    obtain ⟨key, hkey⟩ := exists_inspect k hk
    obtain ⟨parts, hparts⟩ := exists_bind_map
      (g := fun value parts => tupleText [key, value] :: parts)
      (exists_inspect v hv) fun _ => exists_inspectPairs rest hrest
    exact ⟨parts, by rw [inspectPairs, hkey]; exact hparts⟩

end

theorem exists_toText {v : Value} (h : v.HasShortIntegers) : ∃ t, v.toText = .ok t := by
  cases v with
  | mapping entries => exact exists_inspect (.dict entries) h
  | text _ _ | lazy _ _ | decimal _ | uuid _ | day _ | moment _ | clock _ | span _ | object _ _ =>
    exact ⟨_, rfl⟩
  | _ => exact exists_inspect _ h

end Value
end Hydration
