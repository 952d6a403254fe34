import Hydration.Text.Basic
/-!
# Parts of a text and their separator

A text is cut into parts that do not hold the separator, and is put together from them again.

* `parts_eq_splitOn`: cutting is what the library of lists does.
* `parts_append_cons`: texts with a separator between them are cut one after the other.
* `intercalate_concat`: the last part of several comes after a separator.
-/
namespace Hydration.Text

theorem parts_eq_splitOn (sep : Char) (t : Text) : parts sep t = t.splitOn sep := by
  induction t with
  | nil => rfl
  | cons c rest ih =>
    rw [parts, List.splitOn, List.splitOnP_cons_eq_if_modifyHead, ih]
    by_cases hc : c = sep
    · simp [hc, List.splitOn]
    · obtain ⟨part, more, h⟩ := List.exists_cons_of_ne_nil (List.splitOnP_ne_nil (· == sep) rest)
      simp [hc, List.splitOn, h]

theorem not_mem_of_mem_parts {sep : Char} {t part : Text} (h : part ∈ parts sep t) :
    sep ∉ part := by
  induction t generalizing part with
  | nil =>
    obtain rfl : part = [] := by simpa [parts] using h
    exact List.not_mem_nil
  | cons c rest ih =>
    rw [parts] at h
    split at h
    · rcases List.mem_cons.1 h with rfl | h
      · exact List.not_mem_nil
      · exact ih h
    · next hc =>
      split at h
      · next hnone => exact absurd hnone (parts_ne_nil sep rest)
      · next first more hparts =>
        rcases List.mem_cons.1 h with rfl | h
        · have hfirst := ih (hparts ▸ List.mem_cons_self)
          simp [hfirst, Ne.symm hc]
        · exact ih (hparts ▸ List.mem_cons_of_mem _ h)

theorem parts_append_cons (sep : Char) (s t : Text) :
    parts sep (s ++ sep :: t) = parts sep s ++ parts sep t := by
  induction s with
  | nil => simp [parts]
  | cons c rest ih =>
    rw [List.cons_append, parts, parts, ih]
    by_cases hc : c = sep
    · simp [hc]
    · obtain ⟨part, more, h⟩ := List.exists_cons_of_ne_nil (parts_ne_nil sep rest)
      simp [hc, h]

theorem intercalate_parts (sep : Char) (t : Text) : [sep].intercalate (parts sep t) = t := by
  rw [parts_eq_splitOn]
  exact List.intercalate_splitOn sep

theorem intercalate_concat (sep last : Text) {before : List Text} (h : before ≠ []) :
    sep.intercalate (before ++ [last]) = sep.intercalate before ++ sep ++ last := by
  induction before with
  | nil => exact absurd rfl h
  | cons part rest ih =>
    by_cases hrest : rest = []
    · rw [hrest, List.cons_append, List.nil_append, List.intercalate_cons_cons,
        List.intercalate_singleton, List.intercalate_singleton]
    · rw [List.cons_append, List.intercalate_cons_of_ne_nil (by simp), ih hrest,
        List.intercalate_cons_of_ne_nil hrest]
      simp only [List.append_assoc]

end Hydration.Text
