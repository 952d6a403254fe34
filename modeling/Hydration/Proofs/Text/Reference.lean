import Hydration.Text.Escape
import Mathlib.Data.List.Infix
/-!
# References to double quotes

A double quote in an attribute value is written as a reference, and a reader of the value puts the
quote back. Reading takes any reference for a quote, also one that stood in the text before, so the
text comes back exactly if it holds no reference of its own.

* `unescapeQuotes_escapeQuotes`: escaping and reading is the same as reading alone.
* `unescapeQuotes_eq_self_iff`: reading leaves alone exactly the texts without references.
* `not_holdsReference_unescapeQuotes`: what was read holds no reference.
-/
namespace Hydration.Text

/-- How a double quote is written. -/
def quoteReference : Text := "&quot;"

/-- The text holds a reference to a double quote. -/
abbrev HoldsReference (t : Text) : Prop := quoteReference <:+: t

/-- The text with a double quote for every reference to one, from left to right. -/
def unescapeQuotes : Text → Text
  | [] => []
  | '&' :: 'q' :: 'u' :: 'o' :: 't' :: ';' :: rest => '"' :: unescapeQuotes rest
  | c :: rest => c :: unescapeQuotes rest

/-! ## Occurrences and their surroundings -/

section
variable {w a b : Text} {c : Char}

/-- A pattern without a character occurs on one side of it. -/
theorem infix_append_cons_iff (hc : c ∉ w) : w <:+: a ++ c :: b ↔ w <:+: a ∨ w <:+: b := by
  constructor
  · rintro ⟨s, t, h⟩
    rw [List.append_assoc, List.append_eq_append_iff] at h
    rcases h with ⟨s', rfl, h⟩ | ⟨a', rfl, h⟩
    · -- the pattern starts on the left
      rw [List.append_eq_append_iff] at h
      rcases h with ⟨a', rfl, -⟩ | ⟨more, hw, h⟩
      · exact .inl ⟨s, a', by simp⟩
      · cases more with
        | nil =>
          rw [List.append_nil] at hw
          exact .inl ⟨s, [], by simp [hw]⟩
        | cons d more =>
          cases h
          exact absurd (by simp [hw]) hc
    · cases a' with
      | nil =>
        cases w with
        | nil => exact .inl List.nil_infix
        | cons d w =>
          cases h
          exact absurd List.mem_cons_self hc
      | cons d a' =>
        cases h
        exact .inr ⟨a', t, by simp⟩
  · rintro (h | h)
    · exact h.trans (List.prefix_append a (c :: b)).isInfix
    · exact h.trans ((List.suffix_cons c b).trans (List.suffix_append a (c :: b))).isInfix

/-- A pattern is not met before its first letter. -/
theorem infix_append_iff_of_not_mem {d : Char} {u : Text} (hd : d ∉ u) :
    d :: w <:+: u ++ b ↔ d :: w <:+: b := by
  induction u with
  | nil => rw [List.nil_append]
  | cons e u ih =>
    have hne : d ≠ e := fun h => hd (by simp [h])
    rw [List.cons_append, List.infix_cons_iff, List.cons_prefix_cons,
      ih fun hm => hd (List.mem_cons_of_mem _ hm)]
    simp [hne]

theorem infix_cons_iff_of_not_mem (hc : c ∉ w) (hw : w ≠ []) : w <:+: c :: b ↔ w <:+: b := by
  have h := infix_append_cons_iff (a := []) (b := b) hc
  rw [List.nil_append, List.infix_nil] at h
  simpa [hw] using h

end

/-- A pattern starts a text that was written character by character only if it started the text
before, when whatever a character becomes is itself or starts with a letter not in the pattern. -/
theorem prefix_of_prefix_flatMap {f : Char → Text} {w t : Text}
    (hf : ∀ c, f c = [c] ∨ ∃ d more, f c = d :: more ∧ d ∉ w) (h : w <+: t.flatMap f) :
    w <+: t := by
  induction w generalizing t with
  | nil => exact List.nil_prefix
  | cons d w ih =>
    have hrest : ∀ c, f c = [c] ∨ ∃ e more, f c = e :: more ∧ e ∉ w := by
      intro c
      refine (hf c).imp_right ?_
      rintro ⟨e, more, hc, he⟩
      exact ⟨e, more, hc, fun hm => he (List.mem_cons_of_mem _ hm)⟩
    cases t with
    | nil => simp at h
    | cons c t =>
      rw [List.flatMap_cons] at h
      rcases hf c with hc | ⟨e, more, hc, he⟩
      · rw [hc, List.singleton_append, List.cons_prefix_cons] at h
        obtain ⟨rfl, h⟩ := h
        exact List.cons_prefix_cons.2 ⟨rfl, ih hrest h⟩
      · rw [hc, List.cons_append, List.cons_prefix_cons] at h
        obtain ⟨rfl, -⟩ := h
        exact absurd List.mem_cons_self he

/-! ## Reading references -/

/-- What a reference has after its first character. -/
def referenceTail : Text := "quot;"

theorem reference_prefix_cons {c : Char} {t : Text} :
    quoteReference <+: c :: t ↔ c = '&' ∧ referenceTail <+: t := by
  rw [show quoteReference = '&' :: referenceTail from rfl, List.cons_prefix_cons]
  exact and_congr_left' eq_comm

theorem holdsReference_cons {c : Char} {t : Text} :
    HoldsReference (c :: t) ↔ quoteReference <+: c :: t ∨ HoldsReference t :=
  List.infix_cons_iff

/-- No reference reaches over a character that is in none. -/
theorem holdsReference_append_cons {a b : Text} {c : Char} (hc : c ∉ quoteReference) :
    HoldsReference (a ++ c :: b) ↔ HoldsReference a ∨ HoldsReference b :=
  infix_append_cons_iff hc

theorem holdsReference_cons_of_not_mem {c : Char} {t : Text} (hc : c ∉ quoteReference) :
    HoldsReference (c :: t) ↔ HoldsReference t :=
  infix_cons_iff_of_not_mem hc (by decide)

theorem unescapeQuotes_reference (t : Text) :
    unescapeQuotes (quoteReference ++ t) = '"' :: unescapeQuotes t := rfl

theorem unescapeQuotes_cons {c : Char} {rest : Text} (h : ¬ quoteReference <+: c :: rest) :
    unescapeQuotes (c :: rest) = c :: unescapeQuotes rest := by
  rw [unescapeQuotes.eq_3]
  rintro more rfl rfl
  exact h ⟨more, rfl⟩

/-- A text without ampersands is read as it stands, whatever follows. -/
theorem unescapeQuotes_append {a : Text} (ha : '&' ∉ a) (b : Text) :
    unescapeQuotes (a ++ b) = a ++ unescapeQuotes b := by
  induction a with
  | nil => rfl
  | cons c a ih =>
    have hstart : ¬ quoteReference <+: c :: (a ++ b) := by
      intro h
      exact ha (by simp [(reference_prefix_cons.1 h).1])
    rw [List.cons_append, unescapeQuotes_cons hstart, ih fun h => ha (List.mem_cons_of_mem _ h)]
    rfl

/-- A text is read by its first reference or its first character. -/
theorem unescapeQuotes_induction {motive : Text → Prop} (nil : motive [])
    (reference : ∀ t, motive t → motive (quoteReference ++ t))
    (char : ∀ c t, ¬ quoteReference <+: c :: t → motive t → motive (c :: t)) (t : Text) :
    motive t := by
  fun_induction unescapeQuotes t with
  | case1 => exact nil
  | case2 rest ih => exact reference rest ih
  | case3 c rest hne ih =>
    refine char c rest ?_ ih
    rintro ⟨more, h⟩
    cases h
    exact hne more rfl rfl

theorem length_unescapeQuotes_le (t : Text) : (unescapeQuotes t).length ≤ t.length := by
  induction t using unescapeQuotes_induction with
  | nil => exact Nat.le_refl _
  | reference t ih =>
    rw [unescapeQuotes_reference, List.length_append]
    simp only [List.length_cons, show quoteReference.length = 6 from rfl]
    omega
  | char c t h ih =>
    rw [unescapeQuotes_cons h]
    simpa using ih

theorem unescapeQuotes_eq_self_iff {t : Text} :
    unescapeQuotes t = t ↔ ¬ HoldsReference t := by
  induction t using unescapeQuotes_induction with
  | nil => exact iff_of_true rfl (by decide)
  | reference t _ =>
    refine iff_of_false ?_ (not_not_intro (List.prefix_append _ _).isInfix)
    intro h
    have hlength := congrArg List.length h
    have hle := length_unescapeQuotes_le t
    rw [unescapeQuotes_reference, List.length_append] at hlength
    simp only [List.length_cons, show quoteReference.length = 6 from rfl] at hlength
    omega
  | char c t h ih =>
    rw [unescapeQuotes_cons h, holdsReference_cons, List.cons.injEq]
    simp [h, ih]

/-- A pattern without quotes starts what was read only if it started the text. -/
theorem prefix_of_prefix_unescapeQuotes {w t : Text} (hquote : '"' ∉ w)
    (h : w <+: unescapeQuotes t) : w <+: t := by
  induction w generalizing t with
  | nil => exact List.nil_prefix
  | cons d w ih =>
    have hd : d ≠ '"' := by
      rintro rfl
      exact hquote List.mem_cons_self
    unfold unescapeQuotes at h
    split at h
    · simp at h
    · exact absurd (List.cons_prefix_cons.1 h).1 hd
    · obtain ⟨hc, htail⟩ := List.cons_prefix_cons.1 h
      have hw : '"' ∉ w := fun hm => hquote (List.mem_cons_of_mem _ hm)
      exact List.cons_prefix_cons.2 ⟨hc, ih hw htail⟩

/-- What was read holds no reference. -/
theorem not_holdsReference_unescapeQuotes (t : Text) : ¬ HoldsReference (unescapeQuotes t) := by
  induction t using unescapeQuotes_induction with
  | nil => decide
  | reference t ih =>
    rw [unescapeQuotes_reference, holdsReference_cons_of_not_mem (by decide)]
    exact ih
  | char c t h ih =>
    rw [unescapeQuotes_cons h, holdsReference_cons]
    rintro (hstart | hrest)
    · obtain ⟨rfl, htail⟩ := reference_prefix_cons.1 hstart
      exact h (reference_prefix_cons.2 ⟨rfl, prefix_of_prefix_unescapeQuotes (by decide) htail⟩)
    · exact ih hrest

/-! ## Reading what was escaped -/

theorem escapeQuotes_cons (c : Char) (t : Text) :
    escapeQuotes (c :: t) = (if c = '"' then quoteReference else [c]) ++ escapeQuotes t := rfl

theorem prefix_of_prefix_escapeQuotes {w t : Text} (hamp : '&' ∉ w) (h : w <+: escapeQuotes t) :
    w <+: t := by
  refine prefix_of_prefix_flatMap (fun c => ?_) h
  by_cases hc : c = '"'
  · exact .inr ⟨'&', referenceTail, by rw [if_pos hc]; rfl, hamp⟩
  · exact .inl (if_neg hc)

/-- Reading takes the quotes that were escaped and the references of the text alike. -/
theorem unescapeQuotes_escapeQuotes (t : Text) :
    unescapeQuotes (escapeQuotes t) = unescapeQuotes t := by
  induction t using unescapeQuotes_induction with
  | nil => rfl
  | reference t ih =>
    have hescape : escapeQuotes (quoteReference ++ t) = quoteReference ++ escapeQuotes t := rfl
    rw [hescape, unescapeQuotes_reference, unescapeQuotes_reference, ih]
  | char c t h ih =>
    rw [escapeQuotes_cons, unescapeQuotes_cons h]
    split
    · next hc => rw [unescapeQuotes_reference, ih, hc]
    · rw [List.singleton_append, unescapeQuotes_cons, ih]
      intro hstart
      obtain ⟨rfl, htail⟩ := reference_prefix_cons.1 hstart
      exact h (reference_prefix_cons.2 ⟨rfl, prefix_of_prefix_escapeQuotes (by decide) htail⟩)

/-- A quote and a reference are read alike. -/
example : unescapeQuotes (escapeQuotes "a\"&quot;") = "a\"\"".toList := rfl

end Hydration.Text
