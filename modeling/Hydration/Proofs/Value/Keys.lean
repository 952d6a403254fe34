import Hydration.Value.Basic
/-!
# Keys of entries

The entries of a dict have keys of which no two are equal. What a key leads to does not depend on
the order of such entries, if the key is a plain text: what equals that is a text of the same
characters, lazy or not, and any two of these are equal.

* `equals_str_iff`: what equals a plain text.
* `lookup?_str_eq_some_iff`: look-up in entries with distinct keys, without their order.
* `lookup?_perm`: entries in another order.
-/
namespace Hydration.Value

/-- No two keys are equal. -/
def DistinctKeys (entries : List (Value × Value)) : Prop :=
  entries.Pairwise fun a b => a.1.equals b.1 = false

variable {entries others : List (Value × Value)} {t : Text}

/-- Different texts are different keys. -/
theorem distinctKeys_str {pairs : List (Text × Text)} (h : (pairs.map (·.1)).Nodup) :
    DistinctKeys (pairs.map fun a => (str a.1, str a.2)) :=
  List.pairwise_map.2 ((List.pairwise_map.1 h).imp (equals_str_of_ne false))

/-- The value under a key is that of an entry with an equal key. -/
theorem exists_of_lookup? {key v : Value} (h : lookup? key entries = some v) :
    ∃ e ∈ entries, e.1.equals key = true ∧ e.2 = v := by
  obtain ⟨e, he, rfl⟩ := Option.map_eq_some_iff.1 h
  exact ⟨e, List.mem_of_find?_eq_some he, by simpa using List.find?_some he, rfl⟩

/-- A plain text equals the texts of the same characters, lazy or not. -/
theorem equals_str_iff {k : Value} :
    k.equals (.str t) = true ↔ ∃ safe, k = .text safe t ∨ k = .lazy safe t := by
  cases k with
  | text safe u | lazy safe u =>
    simp only [equals, str, beq_iff_eq, text.injEq, lazy.injEq, reduceCtorEq, or_false, false_or]
    constructor
    · intro h
      exact ⟨safe, rfl, h⟩
    · intro h
      obtain ⟨_, -, h⟩ := h
      exact h
  | bool _ | int _ =>
    simp only [equals, str, reduceCtorEq, or_self, exists_false, iff_false, Bool.not_eq_true]
    rfl
  | _ => simp [equals, str]

theorem equals_of_equals_str {k l : Value} (hk : k.equals (.str t) = true)
    (hl : l.equals (.str t) = true) : k.equals l = true := by
  obtain ⟨safe, rfl | rfl⟩ := equals_str_iff.1 hk <;>
    obtain ⟨safe', rfl | rfl⟩ := equals_str_iff.1 hl <;> simp [equals]

/-- Of entries with distinct keys, no two are under a text. -/
theorem DistinctKeys.eq_of_equals_str (h : DistinctKeys entries) {e d : Value × Value}
    (he : e ∈ entries) (hd : d ∈ entries) (hek : e.1.equals (.str t) = true)
    (hdk : d.1.equals (.str t) = true) : e = d := by
  induction entries with
  | nil => cases he
  | cons a rest ih =>
    obtain ⟨hfirst, hrest⟩ := List.pairwise_cons.1 h
    have hnew : ∀ b ∈ rest, b.1.equals (.str t) = true → a.1.equals (.str t) ≠ true := by
      intro b hb hbk hak
      exact Bool.false_ne_true ((hfirst b hb).symm.trans (equals_of_equals_str hak hbk))
    rcases List.mem_cons.1 he with rfl | her
    · rcases List.mem_cons.1 hd with rfl | hdr
      · rfl
      · exact absurd hek (hnew d hdr hdk)
    · rcases List.mem_cons.1 hd with rfl | hdr
      · exact absurd hdk (hnew e her hek)
      · exact ih hrest her hdr

theorem lookup?_str_eq_some_iff (h : DistinctKeys entries) {v : Value} :
    lookup? (.str t) entries = some v ↔ ∃ e ∈ entries, e.1.equals (.str t) = true ∧ e.2 = v := by
  constructor
  · exact exists_of_lookup?
  · intro ⟨e, he, hek, hv⟩
    cases hfound : entries.find? fun e => e.1.equals (.str t) with
    | none => exact absurd hek (List.find?_eq_none.1 hfound e he)
    | some d =>
      have hdk : d.1.equals (.str t) = true := by simpa using List.find?_some hfound
      have heq := h.eq_of_equals_str (List.mem_of_find?_eq_some hfound) he hdk hek
      rw [lookup?, hfound, Option.map_some, heq, hv]

/-- What a text leads to does not depend on the order of entries with distinct keys. -/
theorem lookup?_perm (h : DistinctKeys entries) (hothers : DistinctKeys others)
    (hperm : entries.Perm others) : lookup? (.str t) entries = lookup? (.str t) others := by
  refine Option.ext fun v => ?_
  rw [lookup?_str_eq_some_iff h, lookup?_str_eq_some_iff hothers]
  simp only [hperm.mem_iff]

end Hydration.Value
