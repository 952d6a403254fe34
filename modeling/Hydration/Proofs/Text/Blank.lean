import Hydration.Text.Blank
import Mathlib.Data.List.TakeWhile
/-!
# Runs of characters and blanks

A run of characters of a class ends at the first character outside it, so text that starts with such
a character does not change the runs in front of it (`Stops`).

* `takeWhile_append_stops`, `dropWhile_append_stops`: runs in front of a text that stops them.
* `takeWhile_run`, `dropWhile_run`: a whole word of the class in front of such a text.
* `trim_split`: a text is what is left of it by trimming, with blanks around.
* `trim_eq_self`: a text without blanks at its ends is left alone.
* `words_run`: a word at the start of a text is its first word.
-/
namespace Hydration.Text

/-- The text is empty or starts with a character outside the class. -/
def Stops (p : Char → Bool) (t : Text) : Prop := ∀ c rest, t = c :: rest → p c = false

section
variable {p : Char → Bool} {rest : Text}

theorem takeWhile_append_stops (hr : Stops p rest) (w : Text) :
    (w ++ rest).takeWhile p = w.takeWhile p := by
  induction w with
  | nil =>
    cases rest with
    | nil => rfl
    | cons c rest => simp [hr c rest rfl]
  | cons c w ih => simp only [List.cons_append, List.takeWhile_cons, ih]

theorem dropWhile_append_stops (hr : Stops p rest) (w : Text) :
    (w ++ rest).dropWhile p = w.dropWhile p ++ rest := by
  induction w with
  | nil =>
    cases rest with
    | nil => rfl
    | cons c rest => simp [hr c rest rfl]
  | cons c w ih =>
    simp only [List.cons_append, List.dropWhile_cons, ih]
    split <;> rfl

theorem takeWhile_run (hr : Stops p rest) {w : Text} (hw : ∀ c ∈ w, p c = true) :
    (w ++ rest).takeWhile p = w := by
  rw [takeWhile_append_stops hr, List.takeWhile_eq_self_iff.2 hw]

theorem dropWhile_run (hr : Stops p rest) {w : Text} (hw : ∀ c ∈ w, p c = true) :
    (w ++ rest).dropWhile p = rest := by
  rw [dropWhile_append_stops hr, List.dropWhile_eq_nil_iff.2 hw, List.nil_append]

end

theorem stops_cons {p : Char → Bool} {c : Char} (hc : p c = false) (rest : Text) :
    Stops p (c :: rest) := by
  intro d more h
  cases h
  exact hc

/-- The text is empty or starts with a blank. -/
def StartsBlank (t : Text) : Prop := ∀ c rest, t = c :: rest → isBlank c = true

theorem startsBlank_nil : StartsBlank [] := by
  intro c rest h
  cases h

theorem startsBlank_cons {c : Char} {rest : Text} : StartsBlank (c :: rest) ↔ isBlank c = true := by
  constructor
  · intro h
    exact h c rest rfl
  · intro h d r hd
    cases hd
    exact h

theorem StartsBlank.append {a b : Text} (ha : StartsBlank a) (hb : StartsBlank b) :
    StartsBlank (a ++ b) := by
  cases a with
  | nil => exact hb
  | cons c rest => exact startsBlank_cons.2 (startsBlank_cons.1 ha)

theorem startsBlank_of_forall {t : Text} (h : ∀ c ∈ t, isBlank c = true) : StartsBlank t := by
  intro c rest ht
  exact h c (by rw [ht]; exact List.mem_cons_self)

/-- A blank ends every run of characters that are not blank. -/
theorem StartsBlank.stops {t : Text} (h : StartsBlank t) {p : Char → Bool}
    (hp : ∀ c, p c = true → isBlank c = false) : Stops p t := by
  intro c rest ht
  refine Bool.eq_false_iff.2 fun hc => ?_
  have hb := h c rest ht
  rw [hp c hc] at hb
  cases hb

/-! ## Trimming -/

theorem trim_split (t : Text) : ∃ lead tail, t = lead ++ (trim t ++ tail) ∧
    (∀ c ∈ lead, isBlank c = true) ∧ ∀ c ∈ tail, isBlank c = true := by
  refine ⟨t.takeWhile isBlank, ((trimLeft t).reverse.takeWhile isBlank).reverse, ?_, ?_, ?_⟩
  · have hright : trim t ++ ((trimLeft t).reverse.takeWhile isBlank).reverse = trimLeft t := by
      rw [trim, trimRight, ← List.reverse_append, List.takeWhile_append_dropWhile,
        List.reverse_reverse]
    rw [hright, trimLeft, List.takeWhile_append_dropWhile]
  · intro c hc
    exact List.all_eq_true.1 List.all_takeWhile c hc
  · intro c hc
    exact List.all_eq_true.1 List.all_takeWhile c (List.mem_reverse.1 hc)

theorem trim_eq_self {t : Text} (hfirst : ∀ c, t.head? = some c → isBlank c = false)
    (hlast : ∀ c, t.getLast? = some c → isBlank c = false) : trim t = t := by
  have drop : ∀ {u : Text}, (∀ c, u.head? = some c → isBlank c = false) →
      u.dropWhile isBlank = u := by
    intro u hu
    cases u with
    | nil => rfl
    | cons c rest => simp [hu c rfl]
  have hleft : trimLeft t = t := drop hfirst
  rw [trim, hleft, trimRight, drop (by simpa [List.head?_reverse] using hlast),
    List.reverse_reverse]

theorem trimLeft_run {w : Text} (hw : ∀ c ∈ w, isBlank c = false) (hne : w ≠ []) (rest : Text) :
    trimLeft (' ' :: (w ++ rest)) = w ++ rest := by
  cases w with
  | nil => exact (hne rfl).elim
  | cons c w =>
    have hc := hw c List.mem_cons_self
    simp [trimLeft, hc, show isBlank ' ' = true by decide]

/-- A word at the start of a text stays there when the end of the text is trimmed. -/
theorem trimRight_run {w : Text} (hw : ∀ c ∈ w, isBlank c = false) (rest : Text) :
    trimRight (w ++ rest) = w ++ trimRight rest := by
  have hword : w.reverse.dropWhile isBlank = w.reverse := by
    cases hrev : w.reverse with
    | nil => rfl
    | cons c more =>
      have hc := hw c (List.mem_reverse.1 (by rw [hrev]; exact List.mem_cons_self))
      simp [hc]
  rw [trimRight, trimRight, List.reverse_append, List.dropWhile_append]
  split
  · next hall =>
    rw [List.isEmpty_iff] at hall
    rw [hall, hword]
    simp
  · simp

theorem StartsBlank.trimRight {t : Text} (h : StartsBlank t) : StartsBlank (trimRight t) := by
  obtain ⟨tail, htail⟩ := List.dropWhile_suffix (p := isBlank) (l := t.reverse)
  have ht : t = Text.trimRight t ++ tail.reverse := by
    rw [Text.trimRight, ← List.reverse_append, htail, List.reverse_reverse]
  intro c rest hc
  exact h c (rest ++ tail.reverse) (by rw [ht, hc]; rfl)

/-! ## Words -/

/-- A word at the start of a text is its first word. -/
theorem words_run {w rest : Text} (hw : ∀ c ∈ w, isBlank c = false) (hne : w ≠ [])
    (hr : StartsBlank rest) : (words (w ++ rest)).head? = some w := by
  have hread : ∀ letters, wordsBy.go isBlank (w ++ rest) letters =
      wordsBy.go isBlank rest (w.reverse ++ letters) := by
    clear hne
    induction w with
    | nil => exact fun _ => rfl
    | cons c w ih =>
      intro letters
      have hc := hw c List.mem_cons_self
      have hrest := ih fun d hd => hw d (List.mem_cons_of_mem _ hd)
      cases letters <;> simp [wordsBy.go, hc, hrest]
  rw [words, wordsBy, hread, List.append_nil]
  cases hrev : w.reverse with
  | nil => exact (hne (List.reverse_eq_nil_iff.1 hrev)).elim
  | cons c more =>
    cases rest with
    | nil => simp [wordsBy.go, ← hrev]
    | cons d rest =>
      have hd : isBlank d = true := hr d rest rfl
      simp [wordsBy.go, hd, ← hrev]

end Hydration.Text
