import Hydration.Proofs.Text.Blank
import Hydration.Text.Escape
/-!
# Texts that are put together

What a text is put together from can be told where nothing in a part can be taken for what comes
after it. Escaping quotes treats each part on its own.

* `intercalate_comma`: parts with commas between them.
* `escapeQuotes_append`: escaping part by part.
* `run_inj`: a run in front of a text that ends it.
-/
namespace Hydration

/-- Texts after a first one, with a comma before each. -/
def commaBefore (parts : List Text) : Text := parts.flatMap fun part => ',' :: ' ' :: part

theorem commaBefore_cons (part : Text) (more : List Text) :
    commaBefore (part :: more) = ',' :: ' ' :: (part ++ commaBefore more) := rfl

theorem intercalate_comma (part : Text) (more : List Text) :
    [',', ' '].intercalate (part :: more) = part ++ commaBefore more := by
  induction more generalizing part with
  | nil => simp [commaBefore]
  | cons next more ih =>
    rw [List.intercalate_cons_cons, ih next]
    simp [commaBefore]

namespace Text

theorem escapeQuotes_append (a b : Text) :
    escapeQuotes (a ++ b) = escapeQuotes a ++ escapeQuotes b := List.flatMap_append

theorem escapeQuotes_cons_of_ne {c : Char} (hc : c ≠ '"') (t : Text) :
    escapeQuotes (c :: t) = c :: escapeQuotes t := by
  simp [escapeQuotes, replaceChar, hc]

theorem escapeQuotes_eq_self {t : Text} (h : '"' ∉ t) : escapeQuotes t = t := by
  induction t with
  | nil => rfl
  | cons c rest ih =>
    rw [List.mem_cons, not_or] at h
    rw [escapeQuotes_cons_of_ne (Ne.symm h.1), ih h.2]

/-- Two runs in front of texts that stop them. -/
theorem run_inj {p : Char → Bool} {a b r s : Text} (ha : ∀ c ∈ a, p c = true)
    (hb : ∀ c ∈ b, p c = true) (hr : Stops p r) (hs : Stops p s) (h : a ++ r = b ++ s) :
    a = b ∧ r = s := by
  have hrun := congrArg (List.takeWhile p) h
  have hrest := congrArg (List.dropWhile p) h
  rw [takeWhile_run hr ha, takeWhile_run hs hb] at hrun
  rw [dropWhile_run hr ha, dropWhile_run hs hb] at hrest
  exact ⟨hrun, hrest⟩

end Text
end Hydration
