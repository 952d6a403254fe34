import Hydration.Proofs.Markup.Container
import Hydration.Proofs.Value.Near
/-!
# Props and containers near each other

Props that are accepted are known by their entries, and a container that is accepted by its
attributes: among values near each other, no two give the same. A value that is left out and one
that is not differ in whether there is an attribute, since no name stands there twice.

* `eq_of_normalizeProps`: near props with the same entries are the same.
* `eq_of_normalizeContainer`: near containers with the same attributes are the same.
-/
namespace Hydration.Value
open Text (escapeQuotes)

theorem toText_of_isNumber {v : Value} (h : v.IsNumber) : v.toText = v.inspect := by
  cases v with
  | bool _ | int _ | float _ => rfl
  | _ => exact h.elim

/-- Near values with the same escaped text are the same. -/
theorem eq_of_near_toText {v w : Value} (h : Near v w) {t u : Text} (ht : v.toText = .ok t)
    (hu : w.toText = .ok u) (htu : escapeQuotes t = escapeQuotes u) : v = w := by
  have hends : Text.Stops isNumberChar [] := fun c rest h => by cases h
  have hinspect : v.inspect = .ok t → w.inspect = .ok u → v = w := fun ht hu =>
    (eq_of_near_append h ht hu hends hends (congrArg (· ++ []) htu)).1
  cases h with
  | same => rfl
  | number hv hw _ =>
    rw [toText_of_isNumber hv] at ht
    rw [toText_of_isNumber hw] at hu
    exact hinspect ht hu
  | dict _ _ | list _ => exact hinspect ht hu

/-- A text is near nothing but itself. -/
theorem eq_of_near_text {safe : Bool} {t : Text} {w : Value} (h : Near (.text safe t) w) :
    .text safe t = w := by
  cases h with
  | same => rfl
  | number hv _ _ => exact hv.elim

/-- Near entries have the same keys, all of them plain texts. -/
theorem keys_of_nearEntries : ∀ {entries others : List (Value × Value)},
    NearEntries entries others → others.map (·.1) = entries.map (·.1) ∧
      ∀ k ∈ entries.map (·.1), ∃ t, k = .str t
  | _, _, .nil => ⟨rfl, fun _ h => by cases h⟩
  | _, _, .cons key _ hrest => by
    obtain ⟨hkeys, hstr⟩ := keys_of_nearEntries hrest
    exact ⟨congrArg (Value.str key :: ·) hkeys, List.forall_mem_cons.2 ⟨⟨key, rfl⟩, hstr⟩⟩

end Hydration.Value

namespace Hydration.Markup
open Value (Near NearEntries)

/-! ## Props -/

theorem isOmitted_of_isNumber {v : Value} (h : v.IsNumber) : isOmitted v = false := by
  cases v with
  | bool _ | int _ =>
    rw [isOmitted, Value.equals]
    · rfl
    · exact fun h => by cases h
  | float _ => simp [isOmitted, Value.equals, Value.str]
  | _ => exact h.elim

theorem entries?_of_isNumber {v : Value} (h : v.IsNumber) : v.entries? = none := by
  cases v with
  | bool _ | int _ | float _ => rfl
  | _ => exact h.elim

theorem eq_of_normalizeProps {v w : Value} (h : Near v w) {entries : List (Value × Value)}
    (hv : normalizeProps v = .ok entries) (hw : normalizeProps w = .ok entries) : v = w := by
  cases h with
  | same => rfl
  | number hnumber _ _ =>
    rw [normalizeProps, isOmitted_of_isNumber hnumber, entries?_of_isNumber hnumber] at hv
    cases hv
  | dict _ _ =>
    rw [normalizeProps_dict] at hv hw
    rw [Except.ok.inj hv, Except.ok.inj hw]
  | list _ => simp [normalizeProps, isOmitted, Value.equals, Value.str, Value.entries?] at hv

/-! ## Containers -/

/-- Near values that are left out both are the same. -/
theorem eq_of_isDropped {v w : Value} (h : Near v w) (hv : isDropped v = true)
    (hw : isDropped w = true) : v = w := by
  cases h with
  | same => rfl
  | number hnumber hnumber' _ =>
    cases v with
    | bool b =>
      cases w with
      | bool c =>
        rw [isDropped, Bool.not_eq_true'] at hv hw
        rw [hv, hw]
      | none => exact hnumber'.elim
      | _ => cases hw
    | none => exact hnumber.elim
    | _ => cases hv
  | dict _ _ | list _ => cases hv

theorem checkAttributeName_str {key name : Text} (h : checkAttributeName (.str key) = .ok name) :
    name = key := by
  obtain ⟨_, hkey, -, -⟩ := checkAttributeName_ok_iff.1 h
  cases hkey
  rfl

/-- The names of attributes are keys of the entries that they come from. -/
theorem mem_keys_of_readAttributes {entries : List (Value × Value)}
    (hstr : ∀ k ∈ entries.map (·.1), ∃ t, k = .str t) {attributes : List (Text × Text)}
    (h : readAttributes entries = .ok attributes) {a : Text × Text} (ha : a ∈ attributes) :
    .str a.1 ∈ entries.map (·.1) := by
  obtain ⟨e, he, hname, -⟩ := exists_writtenAs (readAttributes_ok_iff.1 h).2 ha
  obtain ⟨safe, hkey, -, -⟩ := checkAttributeName_ok_iff.1 hname
  have hmem : .text safe a.1 ∈ entries.map (·.1) :=
    hkey ▸ List.mem_map_of_mem (List.mem_of_mem_filter he)
  obtain ⟨t, ht⟩ := hstr _ hmem
  cases ht
  exact hmem

/-- The value under the key for the tag name is a text, if there is one. -/
def HasTextTag (entries : List (Value × Value)) : Prop :=
  ∀ v, Value.lookup? (.str tagKey) entries = some v → ∃ safe t, v = .text safe t

theorem hasTextTag_cons_of_ne {key : Text} {v : Value} {rest : List (Value × Value)}
    (hkey : key ≠ tagKey) (h : HasTextTag ((.str key, v) :: rest)) : HasTextTag rest := by
  intro w hw
  refine h w ?_
  have hskip : (Value.str key).equals (.str tagKey) = false :=
    Value.equals_str_of_ne false hkey
  rw [Value.lookup?] at hw ⊢
  rw [List.find?_cons_of_neg (by simp [hskip])]
  exact hw

theorem hasTextTag_of_not_mem {entries : List (Value × Value)}
    (hstr : ∀ k ∈ entries.map (·.1), ∃ t, k = .str t) (h : .str tagKey ∉ entries.map (·.1)) :
    HasTextTag entries := by
  intro v hv
  obtain ⟨e, he, -⟩ := Option.map_eq_some_iff.1 hv
  have hmem : e.1 ∈ entries.map (·.1) := List.mem_map_of_mem (List.mem_of_find?_eq_some he)
  have hequals := List.find?_some he
  obtain ⟨t, ht⟩ := hstr _ hmem
  rw [ht] at hmem hequals
  rw [eq_of_beq ((Value.equals_str false t tagKey).symm.trans hequals)] at hmem
  exact absurd hmem h

/-- Near entries with the same attributes are the same. -/
theorem eq_of_readAttributes {entries others : List (Value × Value)}
    (hnear : NearEntries entries others) (hall : (entries.map (·.1)).Nodup)
    (htag : HasTextTag entries) {attributes : List (Text × Text)}
    (h : readAttributes entries = .ok attributes) (h' : readAttributes others = .ok attributes) :
    entries = others := by
  induction entries generalizing others attributes with
  | nil =>
    cases hnear
    rfl
  | cons entry rest ih =>
    cases hnear with
    | @cons key v w _ others hv hrest =>
      obtain ⟨hnew, hnodup⟩ := List.nodup_cons.1 hall
      obtain ⟨hkeys, hstr⟩ := Value.keys_of_nearEntries hrest
      have hnew' : .str key ∉ others.map (·.1) := by rwa [hkeys]
      have hstr' : ∀ k ∈ others.map (·.1), ∃ t, k = .str t := by rwa [hkeys]
      rw [readAttributes_cons_ok_iff, Value.str, isAttributeEntry_text] at h h'
      by_cases hkey : key = tagKey
      · subst hkey
        obtain ⟨safe, t, rfl⟩ := htag v (by simp [Value.lookup?, Value.str, Value.equals])
        obtain rfl := Value.eq_of_near_text hv
        simp only [bne_self_eq_false, true_and, Bool.false_eq_true, false_and, or_false] at h h'
        rw [ih hrest hnodup (hasTextTag_of_not_mem hstr hnew) h h']
      · have hother : (key != tagKey) = true := bne_iff_ne.2 hkey
        simp only [hother, Bool.true_eq_false, false_and, true_and, false_or] at h h'
        have hothers := hasTextTag_cons_of_ne hkey htag
        obtain ⟨name, hname, h⟩ := h
        obtain ⟨name', hname', h'⟩ := h'
        obtain rfl := checkAttributeName_str hname
        obtain rfl := checkAttributeName_str hname'
        -- a value that only one of them leaves out shows as a name that the other one has not
        rcases h with ⟨hdrop, h⟩ | ⟨-, t, more, ht, hmore, rfl⟩ <;>
          rcases h' with ⟨hdrop', h'⟩ | ⟨-, t', more', ht', hmore', hsame⟩
        · rw [eq_of_isDropped hv hdrop hdrop', ih hrest hnodup hothers h h']
        · rw [hsame] at h
          exact absurd (mem_keys_of_readAttributes hstr h List.mem_cons_self) hnew
        · exact absurd (mem_keys_of_readAttributes hstr' h' List.mem_cons_self) hnew'
        · obtain ⟨hvalue, rfl⟩ := List.cons.inj hsame
          rw [Value.eq_of_near_toText hv ht ht' (Prod.mk.inj hvalue).2,
            ih hrest hnodup hothers hmore hmore']

theorem eq_of_normalizeContainer {v w : Value} (h : Near v w) {c d : Container}
    (hv : normalizeContainer v = .ok c) (hw : normalizeContainer w = .ok d)
    (hattributes : c.attributes = d.attributes) : v = w := by
  cases h with
  | same => rfl
  | number hnumber _ _ =>
    rcases normalizeContainer_cases hv with ⟨ho, -⟩ | ⟨_, rfl, -⟩ | ⟨entries, _, he, -⟩
    · rw [isOmitted_of_isNumber hnumber] at ho
      cases ho
    · exact hnumber.elim
    · rw [entries?_of_isNumber hnumber] at he
      cases he
  | dict hkeys hentries =>
    have hdict : ∀ {entries : List (Value × Value)} {k : Container},
        normalizeContainer (.dict entries) = .ok k →
          readAttributes entries = .ok k.attributes ∧ HasTextTag entries := by
      intro entries k hk
      obtain ⟨tag, htag, hname, hread⟩ := normalizeContainer_dict_cases hk
      refine ⟨hread, fun v hv => ?_⟩
      obtain ⟨safe, ht, -⟩ := checkTagName_ok_iff.1 hname
      exact ⟨safe, _, (Option.some.inj (hv.symm.trans htag)).trans ht⟩
    obtain ⟨hread, htag⟩ := hdict hv
    obtain ⟨hread', -⟩ := hdict hw
    rw [eq_of_readAttributes hentries hkeys htag hread (hattributes ▸ hread')]
  | list _ => exact absurd hv (normalizeContainer_list_ne_ok _ _)

end Hydration.Markup
