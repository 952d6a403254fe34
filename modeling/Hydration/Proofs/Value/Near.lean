import Hydration.Proofs.Number.Shown
import Hydration.Proofs.Text.Joined
import Hydration.Proofs.Value.Text
/-!
# Values that differ in equal numbers

Two values are near each other if they are the same but for some numbers, and these are equal. They
have the same shape and the same texts in them, but where a number is another one, what is written
is another text. Dicts that differ have different texts for keys.

* `eq_of_near_append`: near values that are written alike are the same, whatever is written after
  them, as long as it ends a number.
-/
namespace Hydration.Value
open Text (escapeQuotes Stops)

mutual

/-- The values are the same but for numbers that are equal. -/
inductive Near : Value → Value → Prop
  | same (v : Value) : Near v v
  | number {v w : Value} (hv : v.IsNumber) (hw : w.IsNumber) (h : v.equals w = true) : Near v w
  | dict {entries others : List (Value × Value)} (hkeys : (entries.map (·.1)).Nodup)
    (h : NearEntries entries others) : Near (.dict entries) (.dict others)
  | list {items others : List Value} (h : NearItems items others) :
    Near (.list items) (.list others)

/-- The entries have the same texts for keys, and values that are near each other. -/
inductive NearEntries : List (Value × Value) → List (Value × Value) → Prop
  | nil : NearEntries [] []
  | cons (key : Text) {v w : Value} {rest others : List (Value × Value)} (h : Near v w)
    (hrest : NearEntries rest others) :
    NearEntries ((.str key, v) :: rest) ((.str key, w) :: others)

/-- The items are near each other one by one. -/
inductive NearItems : List Value → List Value → Prop
  | nil : NearItems [] []
  | cons {v w : Value} {rest others : List Value} (h : Near v w) (hrest : NearItems rest others) :
    NearItems (v :: rest) (w :: others)

end

/-! ## Texts of parts -/

theorem inspectItems_cons_ok {v : Value} {rest : List Value} {parts : List Text}
    (h : inspectItems (v :: rest) = .ok parts) :
    ∃ part more, v.inspect = .ok part ∧ inspectItems rest = .ok more ∧ parts = part :: more := by
  obtain ⟨part, hpart, h⟩ := Failure.bind_ok h
  obtain ⟨more, hmore, rfl⟩ := Failure.map_ok h
  exact ⟨part, more, hpart, hmore, rfl⟩

theorem inspectEntries_cons_ok {key : Text} {v : Value} {rest : List (Value × Value)}
    {parts : List Text} (h : inspectEntries ((.str key, v) :: rest) = .ok parts) :
    ∃ part more, v.inspect = .ok part ∧ inspectEntries rest = .ok more ∧
      parts = (Text.inspect key ++ ": " ++ part) :: more := by
  obtain ⟨part, hpart, h⟩ := Failure.bind_ok h
  obtain ⟨more, hmore, rfl⟩ := Failure.map_ok h
  exact ⟨part, more, hpart, hmore, rfl⟩

/-- Parts in brackets, with what is written after them. -/
theorem escape_bracketed (opening : Text) {closing : Char} (hc : closing ≠ '"') (part : Text)
    (more : List Text) (rest : Text) :
    escapeQuotes (bracketed opening [closing] (part :: more)) ++ rest =
      escapeQuotes opening ++
        (escapeQuotes part ++ (escapeQuotes (commaBefore more) ++ closing :: rest)) := by
  have hjoin : (", ".toList).intercalate (part :: more) = part ++ commaBefore more :=
    intercalate_comma part more
  have hclosing : escapeQuotes [closing] = [closing] := Text.escapeQuotes_cons_of_ne hc []
  rw [bracketed, hjoin]
  simp only [Text.escapeQuotes_append, hclosing, List.append_assoc, List.singleton_append]

theorem escape_commaBefore_cons (part : Text) (more : List Text) (rest : Text) :
    escapeQuotes (commaBefore (part :: more)) ++ rest =
      ',' :: ' ' :: (escapeQuotes part ++ (escapeQuotes (commaBefore more) ++ rest)) := by
  rw [commaBefore_cons, Text.escapeQuotes_cons_of_ne (by decide),
    Text.escapeQuotes_cons_of_ne (by decide), Text.escapeQuotes_append]
  simp

theorem escape_entry (key part rest : Text) :
    escapeQuotes (Text.inspect key ++ ": " ++ part) ++ rest =
      escapeQuotes (Text.inspect key ++ ": ") ++ (escapeQuotes part ++ rest) := by
  rw [Text.escapeQuotes_append, List.append_assoc]

/-- More parts, or a closing bracket, end a number. -/
theorem stops_commaBefore (parts : List Text) {closing : Char}
    (hc : isNumberChar closing = false) (rest : Text) :
    Stops isNumberChar (escapeQuotes (commaBefore parts) ++ closing :: rest) := by
  cases parts with
  | nil => exact Text.stops_cons hc rest
  | cons part more =>
    rw [escape_commaBefore_cons]
    exact Text.stops_cons (by decide) _

/-! ## Written alike -/

/-- Equal numbers that are written alike are the same, and so is what comes after them. -/
theorem eq_of_number_append {v w : Value} (hv : v.IsNumber) (hw : w.IsNumber)
    (hequals : v.equals w = true) {t u r s : Text} (ht : v.inspect = .ok t)
    (hu : w.inspect = .ok u) (hr : Stops isNumberChar r) (hs : Stops isNumberChar s)
    (h : escapeQuotes t ++ r = escapeQuotes u ++ s) : v = w ∧ r = s := by
  have hplain : ∀ {t : Text}, (∀ c ∈ t, isNumberChar c = true) → escapeQuotes t = t :=
    fun hall => Text.escapeQuotes_eq_self fun hmem =>
      absurd (hall '"' hmem) (by decide)
  have htall := isNumberChar_inspect hv ht
  have huall := isNumberChar_inspect hw hu
  rw [hplain htall, hplain huall] at h
  obtain ⟨rfl, rfl⟩ := Text.run_inj htall huall hr hs h
  exact ⟨eq_of_inspect_of_equals hv hw hequals ht hu, rfl⟩

mutual

theorem eq_of_near_append : ∀ {v w : Value}, Near v w → ∀ {t u r s : Text},
    v.inspect = .ok t → w.inspect = .ok u → Stops isNumberChar r → Stops isNumberChar s →
      escapeQuotes t ++ r = escapeQuotes u ++ s → v = w ∧ r = s
  | _, _, .same v, t, u, r, s, ht, hu, _, _, h => by
    rw [Except.ok.inj (ht.symm.trans hu)] at h
    exact ⟨rfl, List.append_cancel_left h⟩
  | _, _, .number hv hw hequals, t, u, r, s, ht, hu, hr, hs, h =>
    eq_of_number_append hv hw hequals ht hu hr hs h
  | _, _, .dict _ .nil, t, u, r, s, ht, hu, _, _, h => by
    rw [Except.ok.inj (ht.symm.trans hu)] at h
    exact ⟨rfl, List.append_cancel_left h⟩
  | _, _, .dict _ (.cons key hv hrest), t, u, r, s, ht, hu, _, _, h => by
    obtain ⟨ps, hps, rfl⟩ := Failure.map_ok ht
    obtain ⟨qs, hqs, rfl⟩ := Failure.map_ok hu
    obtain ⟨part, more, hpart, hmore, rfl⟩ := inspectEntries_cons_ok hps
    obtain ⟨part', more', hpart', hmore', rfl⟩ := inspectEntries_cons_ok hqs
    rw [escape_bracketed _ (by decide), escape_bracketed _ (by decide), escape_entry,
      escape_entry] at h
    have hinner := List.append_cancel_left (List.append_cancel_left h)
    obtain ⟨rfl, htail⟩ := eq_of_near_append hv hpart hpart' (stops_commaBefore _ (by decide) r)
      (stops_commaBefore _ (by decide) s) hinner
    obtain ⟨rfl, rfl⟩ := eq_of_nearEntries_append hrest hmore hmore' htail
    exact ⟨rfl, rfl⟩
  | _, _, .list .nil, t, u, r, s, ht, hu, _, _, h => by
    rw [Except.ok.inj (ht.symm.trans hu)] at h
    exact ⟨rfl, List.append_cancel_left h⟩
  | _, _, .list (.cons hv hrest), t, u, r, s, ht, hu, _, _, h => by
    obtain ⟨ps, hps, rfl⟩ := Failure.map_ok ht
    obtain ⟨qs, hqs, rfl⟩ := Failure.map_ok hu
    obtain ⟨part, more, hpart, hmore, rfl⟩ := inspectItems_cons_ok hps
    obtain ⟨part', more', hpart', hmore', rfl⟩ := inspectItems_cons_ok hqs
    have hinner := List.append_cancel_left
      ((escape_bracketed "[" (by decide) part more r).symm.trans
        (h.trans (escape_bracketed "[" (by decide) part' more' s)))
    obtain ⟨rfl, htail⟩ := eq_of_near_append hv hpart hpart' (stops_commaBefore _ (by decide) r)
      (stops_commaBefore _ (by decide) s) hinner
    obtain ⟨rfl, rfl⟩ := eq_of_nearItems_append hrest hmore hmore' htail
    exact ⟨rfl, rfl⟩

theorem eq_of_nearEntries_append : ∀ {entries others : List (Value × Value)},
    NearEntries entries others → ∀ {ps qs : List Text} {r s : Text},
    inspectEntries entries = .ok ps → inspectEntries others = .ok qs →
      escapeQuotes (commaBefore ps) ++ '}' :: r = escapeQuotes (commaBefore qs) ++ '}' :: s →
        entries = others ∧ r = s
  | _, _, .nil, ps, qs, r, s, hps, hqs, h => by
    cases hps
    cases hqs
    exact ⟨rfl, List.tail_eq_of_cons_eq (List.append_cancel_left h)⟩
  | _, _, .cons key hv hrest, ps, qs, r, s, hps, hqs, h => by
    obtain ⟨part, more, hpart, hmore, rfl⟩ := inspectEntries_cons_ok hps
    obtain ⟨part', more', hpart', hmore', rfl⟩ := inspectEntries_cons_ok hqs
    rw [escape_commaBefore_cons, escape_commaBefore_cons, escape_entry, escape_entry] at h
    have hinner := List.append_cancel_left (List.tail_eq_of_cons_eq (List.tail_eq_of_cons_eq h))
    obtain ⟨rfl, htail⟩ := eq_of_near_append hv hpart hpart' (stops_commaBefore _ (by decide) r)
      (stops_commaBefore _ (by decide) s) hinner
    obtain ⟨rfl, rfl⟩ := eq_of_nearEntries_append hrest hmore hmore' htail
    exact ⟨rfl, rfl⟩

theorem eq_of_nearItems_append : ∀ {items others : List Value}, NearItems items others →
    ∀ {ps qs : List Text} {r s : Text}, inspectItems items = .ok ps →
    inspectItems others = .ok qs →
      escapeQuotes (commaBefore ps) ++ ']' :: r = escapeQuotes (commaBefore qs) ++ ']' :: s →
        items = others ∧ r = s
  | _, _, .nil, ps, qs, r, s, hps, hqs, h => by
    cases hps
    cases hqs
    exact ⟨rfl, List.tail_eq_of_cons_eq (List.append_cancel_left h)⟩
  | _, _, .cons hv hrest, ps, qs, r, s, hps, hqs, h => by
    obtain ⟨part, more, hpart, hmore, rfl⟩ := inspectItems_cons_ok hps
    obtain ⟨part', more', hpart', hmore', rfl⟩ := inspectItems_cons_ok hqs
    rw [escape_commaBefore_cons, escape_commaBefore_cons] at h
    have hinner := List.tail_eq_of_cons_eq (List.tail_eq_of_cons_eq h)
    obtain ⟨rfl, htail⟩ := eq_of_near_append hv hpart hpart' (stops_commaBefore _ (by decide) r)
      (stops_commaBefore _ (by decide) s) hinner
    obtain ⟨rfl, rfl⟩ := eq_of_nearItems_append hrest hmore hmore' htail
    exact ⟨rfl, rfl⟩

end

end Hydration.Value
