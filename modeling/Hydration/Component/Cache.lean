import Hydration.Text.Basic
/-!
# A cache with a bound

Results by name, the one that was used last in front. A result that is found comes to the front; a
new one is put there, and the one that was not used for the longest time goes if there are too many.

* `lookup?_store`: what was stored is found.
* `store_length`: the bound is kept.
* `lookup?_use`: using a result loses none.
* `forall_use`, `forall_storeWithin`: what holds of the results that come in holds of all.
-/
namespace Hydration

/-- Results by name, the one that was used last first. -/
structure Cache (α : Type) where
  entries : List (Text × α)

namespace Cache

variable {α : Type}

/-- The most results that are kept. -/
def capacity : Nat := 128

/-- The cache without results. -/
def empty : Cache α := ⟨[]⟩

/-- The result under a name. -/
def lookup? (c : Cache α) (name : Text) : Option α := c.entries.lookup name

/-- The entries under other names. -/
def others (c : Cache α) (name : Text) : List (Text × α) := c.entries.filter fun e => e.1 != name

/-- Brings a result to the front, as it is now. -/
def use (c : Cache α) (name : Text) (result : α) : Cache α := ⟨(name, result) :: c.others name⟩

/-- Stores a new result, and keeps as many as the bound says. -/
def storeWithin (bound : Nat) (c : Cache α) (name : Text) (result : α) : Cache α :=
  ⟨(name, result) :: (c.others name).take (bound - 1)⟩

/-- Stores a new result. -/
def store (c : Cache α) (name : Text) (result : α) : Cache α := c.storeWithin capacity name result

@[simp] theorem lookup?_empty (name : Text) : (empty : Cache α).lookup? name = none := rfl

@[simp] theorem lookup?_store (c : Cache α) (name : Text) (result : α) :
    (c.store name result).lookup? name = some result := by
  simp [store, storeWithin, lookup?]

theorem store_length (c : Cache α) (name : Text) (result : α) :
    (c.store name result).entries.length ≤ capacity := by
  have h := List.length_take_le (capacity - 1) (c.others name)
  simp only [store, storeWithin, List.length_cons, capacity] at h ⊢
  omega

theorem lookup?_use (c : Cache α) (name other : Text) (result : α) :
    (c.use name result).lookup? other = if other = name then some result else c.lookup? other := by
  simp only [use, lookup?, others, List.lookup_cons]
  by_cases h : other = name
  · simp [h]
  · have hb : (other == name) = false := by simp [h]
    simp only [hb, h, if_false]
    induction c.entries with
    | nil => rfl
    | cons e rest ih =>
      obtain ⟨k, v⟩ := e
      by_cases hk : k = name
      · subst hk
        simpa [List.lookup_cons, hb] using ih
      · have hkb : (k != name) = true := by simp [hk]
        simp only [List.filter_cons, hkb, if_true, List.lookup_cons, ih]

section
variable {P : Text × α → Prop} {c : Cache α} (h : ∀ e ∈ c.entries, P e) {name : Text} {result : α}
  (hnew : P (name, result))
include h hnew

theorem forall_use : ∀ e ∈ (c.use name result).entries, P e := by
  intro e he
  rcases List.mem_cons.1 he with rfl | he
  · exact hnew
  · exact h e (List.mem_filter.1 he).1

theorem forall_storeWithin (bound : Nat) :
    ∀ e ∈ (c.storeWithin bound name result).entries, P e := by
  intro e he
  rcases List.mem_cons.1 he with rfl | he
  · exact hnew
  · exact h e (List.mem_filter.1 (List.mem_of_mem_take he)).1

end

theorem mem_of_lookup? {c : Cache α} {name : Text} {result : α}
    (h : c.lookup? name = some result) : (name, result) ∈ c.entries := by
  obtain ⟨before, after, hentries, -⟩ := List.lookup_eq_some_iff.1 h
  rw [hentries]
  exact List.mem_append_right _ List.mem_cons_self

end Cache
end Hydration
