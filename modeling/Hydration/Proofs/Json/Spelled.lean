import Hydration.Proofs.Json.Automaton
/-!
# Reading documents whose quotes were put back

Reading the references of a written document also turns those into quotes that were text. What is
left is still spelled as strings are written, so every string that is read from it stands in it
character by character, and as no reference stands in it any more, no text of the document that is
read has one.

* `spelled_unescapeQuotes`: putting quotes back keeps the spelling.
* `not_holdsReference_of_read?`: what is read from a spelled text without references has none.
* `read?_unescapeQuotes_write`: a written document comes back exactly if its texts have none.
-/
namespace Hydration.Json
open Text (HoldsReference quoteReference unescapeQuotes)

/-! ## Spelling -/

/-- A text of characters other than the backslash and of escapes as strings are written with. -/
inductive Spelled : Text → Prop
  | nil : Spelled []
  | plain {c : Char} {rest : Text} (hc : c ≠ '\\') (h : Spelled rest) : Spelled (c :: rest)
  | escape {c : Char} {more rest : Text} (hc : writeChar c = '\\' :: more) (h : Spelled rest) :
    Spelled ('\\' :: (more ++ rest))

namespace Spelled
variable {a b s : Text} {c : Char}

theorem append (ha : Spelled a) (hb : Spelled b) : Spelled (a ++ b) := by
  induction ha with
  | nil => exact hb
  | plain hc _ ih => exact .plain hc ih
  | escape hc _ ih =>
    rw [List.cons_append, List.append_assoc]
    exact .escape hc ih

/-- The spelling of a text does not depend on characters in front of it. -/
theorem tail (h : Spelled (c :: s)) (hc : c ≠ '\\') : Spelled s := by
  cases h with
  | plain _ h => exact h
  | escape => exact absurd rfl hc

theorem drop (ha : '\\' ∉ a) (h : Spelled (a ++ b)) : Spelled b := by
  induction a with
  | nil => exact h
  | cons c a ih =>
    obtain ⟨hc, ha⟩ := not_or.1 (mt List.mem_cons.2 ha)
    exact ih ha (h.tail (Ne.symm hc))

theorem of_not_mem (h : '\\' ∉ s) : Spelled s := by
  induction s with
  | nil => exact .nil
  | cons c s ih =>
    obtain ⟨hc, hs⟩ := not_or.1 (mt List.mem_cons.2 h)
    exact .plain (Ne.symm hc) (ih hs)

theorem writeChar (c : Char) (h : Spelled s) : Spelled (Json.writeChar c ++ s) := by
  rcases writeChar_cases c with hc | ⟨more, hc, -⟩
  · rw [hc]
    refine .plain ?_ h
    rintro rfl
    exact absurd hc (by decide)
  · rw [hc]
    exact .escape hc h

end Spelled

theorem spelled_writeString (t : Text) : Spelled (writeString t) := by
  refine .plain (by decide) (.append ?_ (.of_not_mem (by decide)))
  induction t with
  | nil => exact .nil
  | cons c t ih => exact ih.writeChar c

mutual

theorem spelled_write : ∀ v : Json, Exact v → Spelled v.write
  | .null, _ => .of_not_mem (by decide)
  | .bool b, _ => .of_not_mem (by cases b <;> decide)
  | .int i, _ => .of_not_mem (not_mem_writeInt i (by decide) rfl)
  | .float _, h => h.elim
  | .string t, _ => spelled_writeString t
  | .array items, h => .plain (by decide) (spelled_writeItems items h)
  | .object fields, h => .plain (by decide) (spelled_writeFields fields h)

theorem spelled_writeItems : ∀ items : List Json, ExactItems items → Spelled (writeItems items)
  | [], _ => .of_not_mem (by decide)
  | v :: rest, h => .append (spelled_write v h.1) (spelled_writeMoreItems rest h.2)

theorem spelled_writeMoreItems : ∀ items : List Json, ExactItems items →
    Spelled (writeMoreItems items)
  | [], _ => .of_not_mem (by decide)
  | v :: rest, h =>
    .plain (by decide) (.append (spelled_write v h.1) (spelled_writeMoreItems rest h.2))

theorem spelled_writeFields : ∀ fields : List (Text × Json), ExactFields fields →
    Spelled (writeFields fields)
  | [], _ => .of_not_mem (by decide)
  | (k, v) :: rest, h =>
    .append (.append (spelled_writeString k) (.plain (by decide) (spelled_write v h.1)))
      (spelled_writeMoreFields rest h.2)

theorem spelled_writeMoreFields : ∀ fields : List (Text × Json), ExactFields fields →
    Spelled (writeMoreFields fields)
  | [], _ => .of_not_mem (by decide)
  | (k, v) :: rest, h =>
    .append
      (.append (.plain (by decide) (spelled_writeString k))
        (.plain (by decide) (spelled_write v h.1)))
      (spelled_writeMoreFields rest h.2)

end

/-- A reference has no backslash, and an escape no ampersand. -/
theorem spelled_unescapeQuotes {s : Text} (h : Spelled s) : Spelled (unescapeQuotes s) := by
  induction h with
  | nil => exact .nil
  | @plain c rest hc _ ih =>
    by_cases hstart : quoteReference <+: c :: rest
    · obtain ⟨rfl, t, rfl⟩ := Text.reference_prefix_cons.1 hstart
      rw [Text.unescapeQuotes_append (by decide)] at ih
      exact .plain (by decide) (ih.drop (by decide))
    · rw [Text.unescapeQuotes_cons hstart]
      exact .plain hc ih
  | @escape c more rest hc _ ih =>
    have hamp : '&' ∉ '\\' :: more := by
      rcases writeChar_cases c with h | ⟨more', h, hmore⟩
      · rw [hc] at h
        cases h
        decide
      · rw [hc] at h
        cases h
        simpa using hmore
    rw [← List.cons_append, Text.unescapeQuotes_append hamp]
    exact .escape hc ih

/-! ## Lexemes of spelled texts -/

/-- A string is read from its text, and what follows it is spelled. -/
def ReadsBack (s t after : Text) : Prop := s = t.flatMap writeChar ++ '"' :: after ∧ Spelled after

theorem readsBack_writeChar {c : Char} {rest t after : Text}
    (ih : ∀ u, readString rest = some (u, after) → ReadsBack rest u after)
    (h : readString (writeChar c ++ rest) = some (t, after)) :
    ReadsBack (writeChar c ++ rest) t after := by
  rw [readString_writeChar] at h
  obtain ⟨⟨u, _⟩, hread, he⟩ := Option.map_eq_some_iff.1 h
  cases he
  obtain ⟨rfl, hafter⟩ := ih u hread
  exact ⟨by simp, hafter⟩

/-- A string that is read from a spelled text stands in it as it is written. -/
theorem readString_of_spelled {s t after : Text} (hs : Spelled s)
    (h : readString s = some (t, after)) : ReadsBack s t after := by
  induction hs generalizing t with
  | nil => cases h
  | @plain c rest hb hrest ih =>
    by_cases hq : c = '"'
    · subst hq
      rw [readString.eq_2] at h
      cases h
      exact ⟨rfl, hrest⟩
    by_cases hc : c.toNat < 32
    · rw [readString_control hq hb hc] at h
      cases h
    · rw [← List.singleton_append, ← writeChar_plain hq hb hc] at h ⊢
      exact readsBack_writeChar (fun _ => ih) h
  | escape hc _ ih =>
    rw [← List.cons_append, ← hc] at h ⊢
    exact readsBack_writeChar (fun _ => ih) h

/-- Strings have no reference if the text has none and no backslash stands outside of them. -/
theorem not_holdsReference_of_lex {s : Text} {ls : List Lexeme} (hs : Spelled s)
    (href : ¬ HoldsReference s) (h : lex s = some ls) (hwords : ∀ w, .word w ∈ ls → '\\' ∉ w) :
    ∀ t, .string t ∈ ls → ¬ HoldsReference t := by
  fun_induction lex s generalizing ls with
  | case1 => cases h; simp
  | case2 c rest hc ih =>
    -- white space
    have hb : c ≠ '\\' := by rintro rfl; exact absurd hc (by decide)
    exact ih (hs.tail hb) (not_holdsReference_of_suffix href (List.suffix_cons c rest)) h hwords
  | case3 c rest _ hm ih =>
    -- a mark
    have hb : c ≠ '\\' := by rintro rfl; exact absurd hm (by decide)
    obtain ⟨more, hmore, rfl⟩ := Option.map_eq_some_iff.1 h
    have hrest := ih (hs.tail hb) (not_holdsReference_of_suffix href (List.suffix_cons c rest))
      hmore fun w hw => hwords w (List.mem_cons_of_mem _ hw)
    exact fun t ht => hrest t (by simpa using ht)
  | case4 rest u after hread _ _ ih =>
    -- a string: its text stands in the document as it is written
    obtain ⟨more, hmore, rfl⟩ := Option.map_eq_some_iff.1 h
    obtain ⟨rfl, hafter⟩ := readString_of_spelled (hs.tail (by decide)) hread
    have hsuffix : after <:+ '"' :: (u.flatMap writeChar ++ '"' :: after) :=
      ⟨'"' :: u.flatMap writeChar ++ ['"'], by simp⟩
    have hbody : u.flatMap writeChar <:+: '"' :: (u.flatMap writeChar ++ '"' :: after) :=
      ⟨['"'], '"' :: after, by simp⟩
    have hrest := ih hafter (not_holdsReference_of_suffix href hsuffix) hmore
      fun w hw => hwords w (List.mem_cons_of_mem _ hw)
    intro t ht
    rcases List.mem_cons.1 ht with ht | ht
    · cases ht
      exact fun hu => href (((holdsReference_body u).2 hu).trans hbody)
    · exact hrest t ht
  | case5 => cases h
  | case6 c rest _ _ _ ih =>
    -- a word: it has no backslash, so what follows it is spelled
    obtain ⟨more, hmore, rfl⟩ := Option.map_eq_some_iff.1 h
    have hword := hwords _ List.mem_cons_self
    have hsplit : c :: rest = (c :: rest.takeWhile isWordChar) ++ rest.dropWhile isWordChar := by
      rw [List.cons_append, List.takeWhile_append_dropWhile]
    rw [hsplit] at hs href
    have hrest := ih (hs.drop hword)
      (not_holdsReference_of_suffix href (List.suffix_append _ _)) hmore
      fun w hw => hwords w (List.mem_cons_of_mem _ hw)
    exact fun t ht => hrest t (by simpa using ht)

/-! ## Documents -/

section
variable {wide : Bool}

/-- What is read from a spelled text without references has none. -/
theorem not_holdsReference_of_read? {s : Text} {v : Json} (hs : Spelled s)
    (href : ¬ HoldsReference s) (h : read? wide s = some v) :
    ∀ t ∈ v.texts, ¬ HoldsReference t := by
  obtain ⟨ls, hlex, h⟩ := Option.bind_eq_some_iff.1 h
  obtain ⟨last, hrun, h⟩ := Option.bind_eq_some_iff.1 h
  intro t ht
  have hlast : t ∈ last.texts := by
    split at h
    · cases h
      exact ht
    · cases h
  have hstring : .string t ∈ ls :=
    (mem_texts_run hrun hlast).resolve_left (by simp [State.texts, frameTexts])
  exact not_holdsReference_of_lex hs href hlex (fun w => not_mem_of_run hrun) t hstring

/-- A written document comes back exactly if none of its texts has a reference. -/
theorem read?_unescapeQuotes_write {v : Json} (h : v.Exact) :
    read? wide (unescapeQuotes v.write) = some v ↔ ∀ t ∈ v.texts, ¬ HoldsReference t := by
  constructor
  · exact not_holdsReference_of_read? (spelled_unescapeQuotes (spelled_write v h))
      (Text.not_holdsReference_unescapeQuotes v.write)
  · intro htexts
    have hnone : ¬ HoldsReference v.write := by
      rw [holdsReference_write v h]
      rintro ⟨t, ht, href⟩
      exact htexts t ht href
    rw [Text.unescapeQuotes_eq_self_iff.2 hnone, read?_write h]

end

end Hydration.Json
