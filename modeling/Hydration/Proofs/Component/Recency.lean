import Hydration.Component.Cache
import Mathlib.Data.List.Dedup
/-!
# What a cache with a bound keeps

The names in a cache are the names that were used last, as many as the bound says, in the order of
their use. So a name that was used is still there as long as fewer others than that came after it.

* `names_store`, `names_use`: storing and using a result bring its name to the front of the names
  that were used.
* `mem_take_iff`: which names are among the first.
-/
namespace Hydration

section
variable {α : Type} {front rest l : List α} {p : α}

/-- One name that is left out makes room for at most one more. -/
theorem take_filter_ne [BEq α] [LawfulBEq α] (h : l.Nodup) (p : α) (n : Nat) :
    ((l.take (n + 1)).filter (· != p)).take n = (l.filter (· != p)).take n := by
  induction l generalizing n with
  | nil => rfl
  | cons q l ih =>
    obtain ⟨hq, hl⟩ := List.nodup_cons.1 h
    cases hp : q != p with
    | false =>
      obtain rfl : q = p := by simpa using hp
      have hkeep : ∀ r ∈ l, (r != q) = true := fun r hr => by
        rw [bne_iff_ne]
        rintro rfl
        exact hq hr
      have hall : l.filter (· != q) = l := List.filter_eq_self.2 hkeep
      have htake : (l.take n).filter (· != q) = l.take n :=
        List.filter_eq_self.2 fun r hr => hkeep r (List.mem_of_mem_take hr)
      have hself : ¬ (q != q) = true := by simp
      rw [List.take_succ_cons, List.filter_cons, List.filter_cons, if_neg hself, if_neg hself, hall,
        htake, List.take_take, Nat.min_self]
    | true =>
      rw [List.take_succ_cons, List.filter_cons, List.filter_cons, if_pos hp, if_pos hp]
      cases n with
      | zero => rfl
      | succ m => rw [List.take_succ_cons, List.take_succ_cons, ih hl]

theorem mem_take_iff (h : p ∉ front) (n : Nat) :
    p ∈ (front ++ p :: rest).take n ↔ front.length < n := by
  rw [List.take_append, List.mem_append]
  constructor
  · rintro (hmem | hmem)
    · exact absurd (List.mem_of_mem_take hmem) h
    · have hpos : n - front.length ≠ 0 := by
        intro hzero
        rw [hzero] at hmem
        cases hmem
      omega
  · intro hn
    obtain ⟨k, hk⟩ := Nat.exists_eq_succ_of_ne_zero (Nat.sub_ne_zero_of_lt hn)
    rw [hk, Nat.succ_eq_add_one, List.take_succ_cons]
    exact .inr List.mem_cons_self

end

namespace Cache
variable {α : Type} {c : Cache α} {name : Text} {result : α} {used : List Text}

/-- The names of the results, the one that was used last first. -/
def names (c : Cache α) : List Text := c.entries.map Prod.fst

theorem map_others (c : Cache α) (name : Text) :
    (c.others name).map Prod.fst = c.names.filter (· != name) := by
  rw [others, names, List.filter_map]
  rfl

theorem lookup?_eq_none_iff : c.lookup? name = none ↔ name ∉ c.names := by
  rw [lookup?, List.lookup_eq_none_iff, names, List.mem_map]
  constructor
  · rintro h ⟨e, he, rfl⟩
    simpa using h e he
  · intro h e he
    rw [bne_iff_ne]
    rintro rfl
    exact h ⟨e, he, rfl⟩

section
variable (h : c.names = used.take capacity) (hused : used.Nodup)
include h hused

theorem names_store :
    (c.store name result).names = (name :: used.filter (· != name)).take capacity := by
  rw [names, store, storeWithin, List.map_cons, List.map_take, map_others, h]
  exact congrArg (name :: ·) (take_filter_ne hused name (capacity - 1))

theorem names_use (hname : name ∈ c.names) :
    (c.use name result).names = (name :: used.filter (· != name)).take capacity := by
  rw [names, use, List.map_cons, map_others, h]
  have hlength : ((used.take capacity).filter (· != name)).length ≤ capacity - 1 := by
    have hlt : ((used.take capacity).filter (· != name)).length < (used.take capacity).length :=
      List.length_filter_lt_length_iff_exists.2 ⟨name, h ▸ hname, by simp⟩
    have hle := List.length_take_le capacity used
    omega
  rw [← List.take_of_length_le hlength]
  exact congrArg (name :: ·) (take_filter_ne hused name (capacity - 1))

end

/-- What is found after storing another result was there before. -/
theorem lookup?_of_store {other : Text} {found : α} (hother : other ≠ name)
    (h : (c.store name result).lookup? other = some found) : c.lookup? other = some found := by
  have hb : (other == name) = false := by simpa using hother
  have hkept : (c.others name).lookup other = some found := by
    rw [lookup?, store, storeWithin, List.lookup_cons, hb] at h
    dsimp only at h
    rw [← List.take_append_drop (capacity - 1) (c.others name), List.lookup_append, h]
    rfl
  have huse := lookup?_use c name other result
  rw [if_neg hother, lookup?, use, List.lookup_cons, hb] at huse
  dsimp only at huse
  exact huse.symm.trans hkept

end Cache
end Hydration
