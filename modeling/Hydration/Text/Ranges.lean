/-!
# Sets of code points as boundaries

A set of natural numbers is written as the increasing list of the numbers at which membership
changes: the numbers below the first boundary are outside, those from the first to the second are
inside, and so on. The tables of character properties are such lists.

* `inside_append_of_lt`: boundaries above a number do not matter for it.
-/
namespace Hydration.Ranges

/-- Whether a number lies inside: an odd count of boundaries is at most the number. -/
def inside : List Nat → Nat → Bool
  | [], _ => false
  | a :: rest, n => if n < a then false else !inside rest n

theorem inside_cons_of_lt {a n : Nat} (rest : List Nat) (h : n < a) :
    inside (a :: rest) n = false := by
  simp [inside, h]

theorem inside_append_of_lt {as bs : List Nat} {n : Nat} (h : ∀ b ∈ bs, n < b) :
    inside (as ++ bs) n = inside as n := by
  induction as with
  | nil =>
    cases bs with
    | nil => rfl
    | cons b rest => simp [inside, h b (by simp)]
  | cons a rest ih =>
    by_cases ha : n < a
    · simp [inside, ha]
    · simp [inside, ha, ih]

end Hydration.Ranges
