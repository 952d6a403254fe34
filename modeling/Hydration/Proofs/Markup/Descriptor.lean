import Hydration.Proofs.Markup.Container
import Hydration.Proofs.Text.Joined
import Hydration.Proofs.Value.Keys
import Hydration.Proofs.Value.Text
/-!
# Descriptors of containers

What a container may be, said without the checks: nothing or an empty text, a tag name, or a mapping
with a tag name all of whose other keys are names of attributes that are not reserved, also where
the attribute is dropped. The name of an attribute holds no control character, but the check of
names knows those below the blank only, and passes over delete and the controls after it. But for
such names, what is accepted is what a container may be.

* `isDescriptor_iff`: what a container may be, and what is accepted.
* `readAttributes_error_iff`: the first entry that is refused decides how.
* `normalizeContainer_descriptor`: an accepted container, described anew, is accepted as it is.
* `container_descriptors`: what is accepted, what it gives, and how the rest is refused.
-/
namespace Hydration.Markup
open Value (DistinctKeys)

/-! ## Names of attributes -/

/-- The control characters: those below the blank, and delete and those after it. -/
def isControl (c : Char) : Bool := c.toNat < 32 || (127 ≤ c.toNat && c.toNat < 160)

/-- The characters that the name of an attribute cannot hold besides blanks and controls. -/
def nameMarks : List Char := ['"', '\'', '>', '/', '=']

/-- A name of an attribute: not empty, and free of blanks, controls and marks. -/
def IsName (t : Text) : Prop :=
  t ≠ [] ∧ ∀ c ∈ t, Text.isBlank c = false ∧ isControl c = false ∧ c ∉ nameMarks

/-- A key that may stand in a container besides that for the tag name. -/
def IsFreeKey (k : Value) : Prop :=
  ∃ safe name, k = .text safe name ∧ IsName name ∧ name ≠ classAttribute ∧ name ≠ propsAttribute

/-- A control character that the check of names passes over. -/
def isUnchecked (c : Char) : Bool := isControl c && isAttributeChar c

/-- These are delete and the controls after it, but for next line, which is a blank. -/
theorem isUnchecked_iff (c : Char) :
    isUnchecked c = true ↔ 127 ≤ c.toNat ∧ c.toNat < 160 ∧ c.toNat ≠ 133 := by
  have hbeq : ∀ d : Char, (c == d) = (c.toNat == d.toNat) := by
    intro d
    rw [Bool.eq_iff_iff, beq_iff_eq, beq_iff_eq]
    exact ⟨congrArg Char.toNat, Char.toNat_inj.1⟩
  simp only [isUnchecked, isControl, isAttributeChar, Text.isBlank, hbeq, Char.reduceToNat,
    Bool.and_eq_true, Bool.or_eq_true, Bool.not_eq_true', Bool.or_eq_false_iff,
    beq_eq_false_iff_ne, decide_eq_true_eq, decide_eq_false_iff_not, Bool.and_eq_false_iff]
  omega

theorem isAttributeChar_iff (c : Char) :
    isAttributeChar c = true ↔ Text.isBlank c = false ∧ c ∉ nameMarks ∧ 32 ≤ c.toNat := by
  simp [isAttributeChar, nameMarks, and_assoc]

theorem isNameChar_iff (c : Char) :
    (Text.isBlank c = false ∧ isControl c = false ∧ c ∉ nameMarks) ↔
      isAttributeChar c = true ∧ isUnchecked c = false := by
  constructor
  · rintro ⟨hblank, hcontrol, hmark⟩
    have hlow : 32 ≤ c.toNat := by
      simp [isControl] at hcontrol
      omega
    exact ⟨(isAttributeChar_iff c).2 ⟨hblank, hmark, hlow⟩, by simp [isUnchecked, hcontrol]⟩
  · rintro ⟨hattribute, hunchecked⟩
    obtain ⟨hblank, hmark, -⟩ := (isAttributeChar_iff c).1 hattribute
    exact ⟨hblank, by simpa [isUnchecked, hattribute] using hunchecked, hmark⟩

theorem isName_iff (t : Text) :
    IsName t ↔ isAttributeName t = true ∧ ∀ c ∈ t, isUnchecked c = false := by
  simp only [IsName, isNameChar_iff, isAttributeName, Bool.and_eq_true, List.all_eq_true,
    Bool.not_eq_true', List.isEmpty_eq_false_iff, forall_and, and_assoc]

/-- The key may stand in a container exactly if it is accepted and holds no character that the check
passes over. -/
theorem isFreeKey_iff (k : Value) :
    IsFreeKey k ↔ (∃ name, checkAttributeName k = .ok name) ∧
      ∀ safe t, k = .text safe t → ∀ c ∈ t, isUnchecked c = false := by
  constructor
  · rintro ⟨safe, name, hk, hname, hclass, hprops⟩
    obtain ⟨hattribute, hunchecked⟩ := (isName_iff name).1 hname
    have hreserved : isReserved name = false := by simp [isReserved, hclass, hprops]
    refine ⟨⟨name, checkAttributeName_ok_iff.2 ⟨safe, hk, hattribute, hreserved⟩⟩, ?_⟩
    intro safe' t ht
    cases hk.symm.trans ht
    exact hunchecked
  · rintro ⟨⟨name, hcheck⟩, hunchecked⟩
    obtain ⟨safe, hk, hattribute, hreserved⟩ := checkAttributeName_ok_iff.1 hcheck
    simp only [isReserved, Bool.or_eq_false_iff, beq_eq_false_iff_ne] at hreserved
    exact ⟨safe, name, hk, (isName_iff name).2 ⟨hattribute, hunchecked safe name hk⟩, hreserved⟩

theorem isFreeKey_str (key : Text) (hname : isAttributeName key = true)
    (hunchecked : (key.all fun c => !isUnchecked c) = true) (hreserved : isReserved key = false) :
    IsFreeKey (.str key) := by
  refine (isFreeKey_iff _).2
    ⟨⟨key, checkAttributeName_ok_iff.2 ⟨false, rfl, hname, hreserved⟩⟩, ?_⟩
  intro _ _ ht c hc
  cases ht
  simpa using List.all_eq_true.1 hunchecked c hc

/-! ## How names are refused -/

theorem checkTagName_error {v : Value} (hshort : v.HasShortIntegers) {f : Failure}
    (h : checkTagName v = .error f) : f.kind = .container := by
  obtain ⟨shown, hshown⟩ := Value.exists_inspect v hshort
  have hrefuse : checkTagName.refuse v = .error (.container (.tagName shown)) := by
    rw [checkTagName.refuse, hshown]
    rfl
  unfold checkTagName at h
  rw [hrefuse] at h
  split at h
  · split at h
    · cases h
    · cases h
      rfl
  · cases h
    rfl

/-- A key that is no name of an attribute is refused with the text that shows it. -/
theorem checkAttributeName_of_no_name {k : Value} {shown : Text} (hshown : k.inspect = .ok shown)
    (h : ∀ safe name, k = .text safe name → isAttributeName name = false) :
    checkAttributeName k = .error (.container (.attributeName shown)) := by
  have hrefuse : checkAttributeName.refuse k = .error (.container (.attributeName shown)) := by
    rw [checkAttributeName.refuse, hshown]
    rfl
  unfold checkAttributeName
  split
  · next safe t =>
    rw [h safe t rfl]
    exact hrefuse
  · exact hrefuse

/-- A key is refused as reserved if it is a reserved name, and as no name of an attribute else. -/
theorem checkAttributeName_error_iff {k : Value} {shown : Text} (hshown : k.inspect = .ok shown)
    {f : Failure} :
    checkAttributeName k = .error f ↔
      (∃ safe name, k = .text safe name ∧ isReserved name = true ∧ f = .reserved name) ∨
        ((∀ safe name, k = .text safe name → isAttributeName name = false) ∧
          f = .container (.attributeName shown)) := by
  constructor
  · intro h
    by_cases hno : ∀ safe name, k = .text safe name → isAttributeName name = false
    · rw [checkAttributeName_of_no_name hshown hno] at h
      cases h
      exact .inr ⟨hno, rfl⟩
    · simp only [not_forall, Bool.not_eq_false] at hno
      obtain ⟨safe, name, rfl, hname⟩ := hno
      cases hreserved : isReserved name with
      | true =>
        rw [checkAttributeName_of_isReserved safe hreserved] at h
        cases h
        exact .inl ⟨safe, name, rfl, hreserved, rfl⟩
      | false =>
        rw [checkAttributeName_ok_iff.2 ⟨safe, rfl, hname, hreserved⟩] at h
        cases h
  · rintro (⟨safe, name, rfl, hreserved, rfl⟩ | ⟨hno, rfl⟩)
    · exact checkAttributeName_of_isReserved safe hreserved
    · exact checkAttributeName_of_no_name hshown hno

/-- The value of each entry has a text. -/
def HaveTexts (entries : List (Value × Value)) : Prop := ∀ e ∈ entries, ∃ t, e.2.toText = .ok t

/-- One step of reading that fails: at the name of an entry for an attribute, or after the entry. -/
theorem readAttributes_cons_error_iff {k v : Value} {rest : List (Value × Value)} {f : Failure}
    (hv : ∃ t, v.toText = .ok t) :
    readAttributes ((k, v) :: rest) = .error f ↔
      (isAttributeEntry (k, v) = true ∧ checkAttributeName k = .error f) ∨
        ((isAttributeEntry (k, v) = true → ∃ name, checkAttributeName k = .ok name) ∧
          readAttributes rest = .error f) := by
  obtain ⟨t, ht⟩ := hv
  unfold isAttributeEntry
  rw [readAttributes]
  by_cases hk : k.equals (.str tagKey) = true
  · simp [hk]
  simp only [hk, if_false, Bool.false_eq_true]
  cases hname : checkAttributeName k with
  | error e => simp [bind, Except.bind]
  | ok name =>
    cases hd : isDropped v with
    | true => simp [bind, Except.bind]
    | false => cases hrest : readAttributes rest <;> simp [bind, Except.bind, pure, Except.pure, ht]

/-- Reading fails at the first entry whose key is refused, and in no other way. -/
theorem readAttributes_error_iff {entries : List (Value × Value)} {f : Failure}
    (h : HaveTexts entries) :
    readAttributes entries = .error f ↔
      ∃ before k v after, entries = before ++ (k, v) :: after ∧ NamesAllowed before ∧
        isAttributeEntry (k, v) = true ∧ checkAttributeName k = .error f := by
  induction entries with
  | nil => simp [readAttributes]
  | cons e rest ih =>
    obtain ⟨k, v⟩ := e
    obtain ⟨hv, hrest⟩ := List.forall_mem_cons.1 h
    rw [readAttributes_cons_error_iff hv, ih hrest]
    constructor
    · intro hfirst
      rcases hfirst with ⟨hentry, hname⟩ | ⟨hallowed, before, k', v', after, rfl, hbefore, hlater⟩
      · exact ⟨[], k, v, rest, rfl, by simp [NamesAllowed], hentry, hname⟩
      · exact ⟨(k, v) :: before, k', v', after, rfl, namesAllowed_cons.2 ⟨hallowed, hbefore⟩,
          hlater⟩
    · intro hlater
      obtain ⟨before, k', v', after, heq, hbefore, hentry, hname⟩ := hlater
      cases before with
      | nil =>
        cases heq
        exact .inl ⟨hentry, hname⟩
      | cons d before =>
        cases heq
        obtain ⟨hallowed, hbefore⟩ := namesAllowed_cons.1 hbefore
        exact .inr ⟨hallowed, before, k', v', after, rfl, hbefore, hentry, hname⟩

theorem exists_readAttributes {entries : List (Value × Value)} (h : HaveTexts entries)
    (hnames : NamesAllowed entries) : ∃ attributes, readAttributes entries = .ok attributes := by
  cases hread : readAttributes entries with
  | ok attributes => exact ⟨attributes, rfl⟩
  | error f =>
    obtain ⟨before, k, v, after, rfl, -, hentry, hname⟩ := (readAttributes_error_iff h).1 hread
    obtain ⟨name, hok⟩ := hnames (k, v) (by simp) hentry
    rw [hname] at hok
    cases hok

/-! ## What is accepted -/

/-- What a container may be. -/
inductive IsDescriptor : Value → Prop
  | missing : IsDescriptor .none
  | blank {v : Value} (h : v.equals (.str []) = true) : IsDescriptor v
  | name {safe : Bool} {t : Text} (h : isTagName t = true) : IsDescriptor (.text safe t)
  | mapping {v : Value} {entries : List (Value × Value)} {safe : Bool} {t : Text}
    (hentries : v.entries? = some entries)
    (htag : Value.lookup? (.str tagKey) entries = some (.text safe t)) (ht : isTagName t = true)
    (hkeys : ∀ e ∈ entries, isAttributeEntry e = true → IsFreeKey e.1) : IsDescriptor v

/-- No key of a container but that for the tag name holds a control character that the check of
names passes over. -/
def KeysChecked (v : Value) : Prop :=
  ∀ e ∈ containerEntries v, isAttributeEntry e = true →
    ∀ safe t, e.1 = .text safe t → ∀ c ∈ t, isUnchecked c = false

theorem containerEntries_of_entries? {v : Value} {entries : List (Value × Value)}
    (h : v.entries? = some entries) : containerEntries v = entries := by
  rw [containerEntries, h, Option.getD_some]

theorem shortEntries_of_entries? {v : Value} {entries : List (Value × Value)}
    (h : v.entries? = some entries) (hshort : v.HasShortIntegers) :
    Value.ShortEntries entries := by
  cases v with
  | dict _ | mapping _ =>
    cases h
    exact hshort
  | _ => cases h

theorem haveTexts_of_shortEntries {entries : List (Value × Value)}
    (h : Value.ShortEntries entries) : HaveTexts entries :=
  fun e he => Value.exists_toText (h.of_mem e he).2

/-- Keys are free exactly if all of them are allowed and hold no character that is passed over. -/
theorem isFreeKeys_iff {v : Value} {entries : List (Value × Value)}
    (hentries : v.entries? = some entries) :
    (∀ e ∈ entries, isAttributeEntry e = true → IsFreeKey e.1) ↔
      NamesAllowed entries ∧ KeysChecked v := by
  rw [KeysChecked, containerEntries_of_entries? hentries]
  constructor
  · intro h
    exact ⟨fun e he hentry => ((isFreeKey_iff e.1).1 (h e he hentry)).1,
      fun e he hentry => ((isFreeKey_iff e.1).1 (h e he hentry)).2⟩
  · rintro ⟨hnames, hchecked⟩ e he hentry
    exact (isFreeKey_iff e.1).2 ⟨hnames e he hentry, hchecked e he hentry⟩

/-- What a container may be is accepted, and what is accepted may be a container unless a key of it
holds a control character that the check passes over. -/
theorem isDescriptor_iff {v : Value} (hshort : v.HasShortIntegers) :
    IsDescriptor v ↔ (∃ c, normalizeContainer v = .ok c) ∧ KeysChecked v := by
  have hnone : ∀ {w : Value}, w.entries? = none → KeysChecked w := by
    intro w hw e he
    rw [containerEntries, hw] at he
    cases he
  constructor
  · intro h
    cases h with
    | missing => exact ⟨⟨_, rfl⟩, hnone rfl⟩
    | blank h =>
      have homitted : isOmitted v = true := isOmitted_iff.2 (.inr h)
      refine ⟨⟨⟨defaultTag, []⟩, ?_⟩, ?_⟩
      · unfold normalizeContainer
        rw [if_pos homitted]
      intro e he
      rw [containerEntries_of_isOmitted homitted] at he
      cases he
    | @name safe t h =>
      have hgiven : isOmitted (.text safe t) = false := by
        cases t with
        | nil => cases h
        | cons c rest => exact Value.equals_str safe (c :: rest) []
      have hcheck : checkTagName (.text safe t) = .ok t := checkTagName_ok_iff.2 ⟨safe, rfl, h⟩
      refine ⟨⟨⟨t, []⟩, ?_⟩, hnone rfl⟩
      rw [normalizeContainer, hgiven, if_neg Bool.false_ne_true, hcheck]
      rfl
    | @mapping _ entries safe t hentries htag ht hkeys =>
      obtain ⟨hnames, hchecked⟩ := (isFreeKeys_iff hentries).1 hkeys
      have htexts := haveTexts_of_shortEntries (shortEntries_of_entries? hentries hshort)
      obtain ⟨attributes, hread⟩ := exists_readAttributes htexts hnames
      have hcheck : checkTagName (.text safe t) = .ok t := checkTagName_ok_iff.2 ⟨safe, rfl, ht⟩
      refine ⟨⟨⟨t, attributes⟩, ?_⟩, hchecked⟩
      rw [normalizeContainer_of_entries hentries htag, hcheck, hread]
      rfl
  · intro h
    obtain ⟨⟨c, hc⟩, hchecked⟩ := h
    rcases normalizeContainer_cases hc with ⟨homitted, -⟩ | ⟨safe, rfl, ht, -⟩ |
      ⟨entries, tag, hentries, htag, hcheck, hread⟩
    · rcases isOmitted_iff.1 homitted with rfl | hblank
      · exact .missing
      · exact .blank hblank
    · exact .name ht
    · obtain ⟨safe, rfl, ht⟩ := checkTagName_ok_iff.1 hcheck
      have hnames := (readAttributes_ok_iff.1 hread).1
      exact .mapping hentries htag ht ((isFreeKeys_iff hentries).2 ⟨hnames, hchecked⟩)

/-! ## An accepted container, described anew -/

/-- The mapping that describes a container: its tag name, then its attributes. -/
def Container.descriptor (c : Container) : Value :=
  .dict (Value.ofEntries
    ((.str tagKey, .str c.tag) :: c.attributes.map fun a => (.str a.1, .str a.2)))

theorem WrittenAs.key_eq {e : Value × Value} {a : Text × Text} (h : WrittenAs e a) :
    ∃ safe, e.1 = .text safe a.1 := by
  obtain ⟨safe, hk, -⟩ := checkAttributeName_ok_iff.1 h.1
  exact ⟨safe, hk⟩

/-- Entries under different keys are written as attributes of different names. -/
theorem nodup_of_writtenAs {entries : List (Value × Value)} {attributes : List (Text × Text)}
    (h : List.Forall₂ WrittenAs entries attributes) (hdistinct : DistinctKeys entries) :
    (attributes.map (·.1)).Nodup := by
  induction h with
  | nil => simp
  | @cons e a rest more hfirst hmore ih =>
    obtain ⟨hnew, hrest⟩ := List.pairwise_cons.1 hdistinct
    rw [List.map_cons, List.nodup_cons]
    refine ⟨?_, ih hrest⟩
    intro hmem
    obtain ⟨b, hb, hname⟩ := List.mem_map.1 hmem
    obtain ⟨d, hd, hwritten⟩ := exists_writtenAs hmore hb
    obtain ⟨safe, hkey⟩ := hfirst.key_eq
    obtain ⟨safe', hkey'⟩ := hwritten.key_eq
    have hne := hnew d hd
    rw [hkey, hkey', hname] at hne
    simp [Value.equals] at hne

theorem ne_tagKey_of_writtenAs {e : Value × Value} {a : Text × Text} (h : WrittenAs e a)
    (hentry : isAttributeEntry e = true) : a.1 ≠ tagKey := by
  obtain ⟨safe, hkey⟩ := h.key_eq
  have hne : isAttributeEntry (.text safe a.1, e.2) = true := hkey ▸ hentry
  rw [isAttributeEntry_text] at hne
  simpa using hne

theorem nodup_of_normalizeContainer {v : Value} {c : Container}
    (h : normalizeContainer v = .ok c) (hdistinct : DistinctKeys (containerEntries v)) :
    (c.attributes.map (·.1)).Nodup :=
  nodup_of_writtenAs (attributes_of_normalizeContainer h) (hdistinct.filter _)

/-- Attributes with plain names and values are read as they are written. -/
theorem readAttributes_str {attributes : List (Text × Text)}
    (h : ∀ a ∈ attributes, a.1 ≠ tagKey ∧ isAttributeName a.1 = true ∧ isReserved a.1 = false ∧
      '"' ∉ a.2) :
    readAttributes (attributes.map fun a => (.str a.1, .str a.2)) = .ok attributes := by
  have hentries : ∀ a ∈ attributes,
      isAttributeEntry (.str a.1, .str a.2) = true ∧ WrittenAs (.str a.1, .str a.2) a := by
    intro a ha
    obtain ⟨hne, hname, hreserved, hquote⟩ := h a ha
    refine ⟨?_, checkAttributeName_ok_iff.2 ⟨false, rfl, hname, hreserved⟩, a.2, rfl, ?_⟩
    · rw [Value.str, isAttributeEntry_text]
      simp [hne]
    · exact (Text.escapeQuotes_eq_self hquote).symm
  have hkept : keptEntries (attributes.map fun a => (Value.str a.1, Value.str a.2)) =
      attributes.map fun a => (Value.str a.1, Value.str a.2) := by
    refine List.filter_eq_self.2 fun e he => ?_
    obtain ⟨a, ha, rfl⟩ := List.mem_map.1 he
    rw [(hentries a ha).1]
    rfl
  refine readAttributes_ok_iff.2 ⟨?_, ?_⟩
  · intro e he _
    obtain ⟨a, ha, rfl⟩ := List.mem_map.1 he
    exact ⟨a.1, (hentries a ha).2.1⟩
  · rw [hkept, List.forall₂_map_left_iff, List.forall₂_same]
    exact fun a ha => (hentries a ha).2

/-- A mapping of a tag name and attributes with plain names and values is read as it is written. -/
theorem normalizeContainer_descriptor {c : Container} (htag : isTagName c.tag = true)
    (hnames : ∀ a ∈ c.attributes, a.1 ≠ tagKey ∧ isAttributeName a.1 = true ∧
      isReserved a.1 = false ∧ '"' ∉ a.2) (hnodup : (c.attributes.map (·.1)).Nodup) :
    normalizeContainer c.descriptor = .ok c := by
  have hnew : tagKey ∉ c.attributes.map (·.1) := by
    intro hmem
    obtain ⟨a, ha, heq⟩ := List.mem_map.1 hmem
    exact (hnames a ha).1 heq
  have hdistinct : DistinctKeys
      ((.str tagKey, .str c.tag) :: c.attributes.map fun a => (.str a.1, .str a.2)) :=
    @Value.distinctKeys_str ((tagKey, c.tag) :: c.attributes)
      (List.nodup_cons.2 ⟨hnew, hnodup⟩)
  have hskip : isAttributeEntry (.str tagKey, .str c.tag) = false := by
    rw [Value.str, isAttributeEntry_text]
    simp
  have hread : readAttributes
      ((.str tagKey, .str c.tag) :: c.attributes.map fun a => (.str a.1, .str a.2)) =
        .ok c.attributes :=
    readAttributes_cons_ok_iff.2 (.inl ⟨hskip, readAttributes_str hnames⟩)
  have hlookup : Value.lookup? (.str tagKey)
      ((.str tagKey, .str c.tag) :: c.attributes.map fun a => (.str a.1, .str a.2)) =
        some (.str c.tag) := by
    simp [Value.lookup?, Value.str, Value.equals]
  have hcheck : checkTagName (.str c.tag) = .ok c.tag := checkTagName_ok_iff.2 ⟨false, rfl, htag⟩
  rw [Container.descriptor, Value.ofEntries_of_pairwise hdistinct,
    normalizeContainer_of_entries rfl hlookup, hcheck, hread]
  rfl

/-! ## What is refused -/

/-- The tag name of a mapping is valid, and the first entry that may not stand in it is under a
reserved name. -/
inductive ConflictsFirst : Value → Text → Prop
  | entry {v w : Value} {before after : List (Value × Value)} {safe safe' : Bool} {t name : Text}
    (hentries : v.entries? = some (before ++ (.text safe name, w) :: after))
    (htag : Value.lookup? (.str tagKey) (before ++ (.text safe name, w) :: after) =
      some (.text safe' t)) (ht : isTagName t = true)
    (hbefore : ∀ e ∈ before, isAttributeEntry e = true → IsFreeKey e.1)
    (hname : name = classAttribute ∨ name = propsAttribute) : ConflictsFirst v name

section
variable {v : Value} (hshort : v.HasShortIntegers) {f : Failure}
include hshort

/-- A mapping with a valid tag name is refused because of the first key that is refused. -/
theorem readAttributes_error_cases {entries : List (Value × Value)}
    (hentries : v.entries? = some entries) (h : readAttributes entries = .error f) :
    f.kind = .container ∨ ∃ before safe name w after, f = .reserved name ∧
      entries = before ++ (.text safe name, w) :: after ∧ NamesAllowed before ∧
      isReserved name = true := by
  have hall := shortEntries_of_entries? hentries hshort
  obtain ⟨before, k, w, after, rfl, hbefore, -, hname⟩ :=
    (readAttributes_error_iff (haveTexts_of_shortEntries hall)).1 h
  obtain ⟨shown, hshown⟩ := Value.exists_inspect k (hall.of_mem (k, w) (by simp)).1
  rcases (checkAttributeName_error_iff hshown).1 hname with ⟨safe, name, rfl, hr, rfl⟩ | ⟨-, rfl⟩
  · exact .inr ⟨before, safe, name, w, after, rfl, rfl, hbefore, hr⟩
  · exact .inl rfl

/-- A container is refused as such, or because of a reserved name. -/
theorem normalizeContainer_error_cases (h : normalizeContainer v = .error f) :
    f.kind = .container ∨ ∃ before safe name w after safe' t, f = .reserved name ∧
      v.entries? = some (before ++ (.text safe name, w) :: after) ∧
      Value.lookup? (.str tagKey) (before ++ (.text safe name, w) :: after) =
        some (.text safe' t) ∧ isTagName t = true ∧ NamesAllowed before ∧
      isReserved name = true := by
  unfold normalizeContainer at h
  split at h
  · cases h
  · split at h
    · exact .inl (checkTagName_error hshort (Failure.map_error h))
    · split at h
      · cases h
        exact .inl rfl
      · next entries hentries =>
        split at h
        · cases h
          exact .inl rfl
        · next tag htag =>
          obtain ⟨e, he, -, rfl⟩ := Value.exists_of_lookup? htag
          have hvalue := ((shortEntries_of_entries? hentries hshort).of_mem e he).2
          rcases Failure.bind_error h with hcheck | ⟨t, hcheck, h⟩
          · exact .inl (checkTagName_error hvalue hcheck)
          · obtain ⟨safe', htext, ht⟩ := checkTagName_ok_iff.1 hcheck
            rw [htext] at htag
            rcases readAttributes_error_cases hshort hentries (Failure.map_error h) with hkind |
              ⟨before, safe, name, w, after, rfl, rfl, hbefore, hr⟩
            · exact .inl hkind
            · exact .inr ⟨before, safe, name, w, after, safe', t, rfl, hentries, htag, ht, hbefore,
                hr⟩

/-- A conflict is about the first key that may not stand in the mapping. -/
theorem conflictsFirst_of_normalizeContainer (hchecked : KeysChecked v) {name : Text}
    (h : normalizeContainer v = .error (.reserved name)) : ConflictsFirst v name := by
  rcases normalizeContainer_error_cases hshort h with hkind | ⟨before, safe, name', w, after, safe',
    t, heq, hentries, htag, ht, hbefore, hr⟩
  · cases hkind
  · cases heq
    refine .entry hentries htag ht ?_ (by simpa [isReserved] using hr)
    rw [KeysChecked, containerEntries_of_entries? hentries] at hchecked
    intro e he hentry
    exact (isFreeKey_iff e.1).2 ⟨hbefore e he hentry,
      hchecked e (List.mem_append_left _ he) hentry⟩

/-- A mapping in which a reserved name comes first is refused with a conflict about this name. -/
theorem normalizeContainer_of_conflictsFirst {name : Text} (h : ConflictsFirst v name) :
    normalizeContainer v = .error (.reserved name) := by
  obtain ⟨hentries, htag, ht, hbefore, hname⟩ := h
  next w before after safe safe' t =>
  have hall := shortEntries_of_entries? hentries hshort
  have hreserved : isReserved name = true := by simpa [isReserved] using hname
  have hne : name ≠ tagKey := by rcases hname with rfl | rfl <;> decide
  have hcheck : checkTagName (.text safe' t) = .ok t := checkTagName_ok_iff.2 ⟨safe', rfl, ht⟩
  have hread : readAttributes (before ++ (.text safe name, w) :: after) =
      .error (.reserved name) := by
    refine (readAttributes_error_iff (haveTexts_of_shortEntries hall)).2
      ⟨before, .text safe name, w, after, rfl, ?_, ?_, ?_⟩
    · exact fun e he hentry => ((isFreeKey_iff e.1).1 (hbefore e he hentry)).1
    · rw [isAttributeEntry_text]
      simp [hne]
    · exact (checkAttributeName_error_iff rfl).2 (.inl ⟨safe, name, rfl, hreserved, rfl⟩)
  rw [normalizeContainer_of_entries hentries htag, hcheck, hread]
  rfl

end

/-- **What a container may be is accepted, and little else.** Let no integer in the value be too
long to be written. The value is what a container may be exactly if it is accepted and no key in it
holds a control character that the check passes over. An accepted container has one attribute for
each kept entry, in order, with the text of its value without double quotes; if no two keys are
equal, then no two names are, and describing it anew gives the same container. A value without
characters that are passed over is refused with a conflict about a reserved name exactly if this is
the first entry that may not stand there, and the tag name is valid. Any value that is refused in
another way is refused as no container. -/
theorem container_descriptors (v : Value) (hshort : v.HasShortIntegers) :
    (IsDescriptor v ↔ (∃ c, normalizeContainer v = .ok c) ∧ KeysChecked v) ∧
      (∀ c, normalizeContainer v = .ok c →
        List.Forall₂ WrittenAs (keptEntries (containerEntries v)) c.attributes ∧
        (∀ a ∈ c.attributes, '"' ∉ a.2) ∧
        (DistinctKeys (containerEntries v) →
          (c.attributes.map (·.1)).Nodup ∧ normalizeContainer c.descriptor = .ok c)) ∧
      (KeysChecked v → ∀ name,
        normalizeContainer v = .error (.reserved name) ↔ ConflictsFirst v name) ∧
      ∀ f, normalizeContainer v = .error f →
        (∃ name, f = .reserved name) ∨ f.kind = .container := by
  refine ⟨isDescriptor_iff hshort, ?_, ?_, ?_⟩
  · intro c hc
    have hwritten := attributes_of_normalizeContainer hc
    have hquotes := fun a ha => (attribute_of_normalizeContainer hc (a := a) ha).2.2
    refine ⟨hwritten, hquotes, ?_⟩
    intro hdistinct
    have hnodup := nodup_of_normalizeContainer hc hdistinct
    refine ⟨hnodup, ?_⟩
    refine normalizeContainer_descriptor (isTagName_of_normalizeContainer hc) ?_ hnodup
    intro a ha
    obtain ⟨hname, hreserved, hquote⟩ := attribute_of_normalizeContainer hc ha
    obtain ⟨e, he, hwrite⟩ := exists_writtenAs hwritten ha
    have hentry : isAttributeEntry e = true :=
      (Bool.and_eq_true_iff.1 (List.mem_filter.1 he).2).1
    exact ⟨ne_tagKey_of_writtenAs hwrite hentry, hname, hreserved, hquote⟩
  · intro hchecked name
    exact ⟨conflictsFirst_of_normalizeContainer hshort hchecked,
      normalizeContainer_of_conflictsFirst hshort⟩
  · intro f h
    rcases normalizeContainer_error_cases hshort h with hkind | ⟨_, _, name, _, _, _, _, hf, -⟩
    · exact .inr hkind
    · exact .inl ⟨name, hf⟩

/-- A container with a dropped entry, a marked text and a number. -/
def mixedContainer : Value :=
  .dict [(.str "id", .int 7), (.str "tag", .text true "p"), (.str "hidden", .none),
    (.str "title", .text true "say \"hi\"")]

theorem hasShortIntegers_mixedContainer : mixedContainer.HasShortIntegers := by
  have hseven : ∀ digits, digits ≠ 0 → 7 < Nat.pow 10 digits :=
    fun _ h => Nat.lt_of_lt_of_le (by decide : 7 < 10) (Nat.le_self_pow h 10)
  simpa [mixedContainer, Value.HasShortIntegers, Value.ShortEntries, Value.str] using
    hseven Number.maxDigits (by decide)

theorem isDescriptor_mixedContainer : IsDescriptor mixedContainer := by
  have htag : Value.lookup? (.str tagKey) (containerEntries mixedContainer) =
      some (.text true "p") := by
    simp [Value.lookup?, containerEntries, mixedContainer, Value.entries?, Value.equals,
      Value.str, tagKey]
  refine .mapping rfl htag (by decide) ?_
  intro e he hentry
  simp only [List.mem_cons, List.not_mem_nil, or_false] at he
  rcases he with rfl | rfl | rfl | rfl
  · exact isFreeKey_str "id" (by decide) (by decide) (by decide)
  · rw [Value.str, isAttributeEntry_text] at hentry
    cases hentry
  · exact isFreeKey_str "hidden" (by decide) (by decide) (by decide)
  · exact isFreeKey_str "title" (by decide) (by decide) (by decide)

/-- The container is accepted with two attributes, and accepted again as it is described then. -/
theorem container_descriptors_mixed :
    mixedContainer.HasShortIntegers ∧ IsDescriptor mixedContainer ∧
      ∃ c, normalizeContainer mixedContainer = .ok c ∧
        c.attributes.map (·.1) = ["id".toList, "title".toList] ∧
        normalizeContainer c.descriptor = .ok c := by
  obtain ⟨haccepted, hattributes, -, -⟩ :=
    container_descriptors mixedContainer hasShortIntegers_mixedContainer
  obtain ⟨⟨c, hc⟩, -⟩ := haccepted.1 isDescriptor_mixedContainer
  obtain ⟨hwritten, -, hanew⟩ := hattributes c hc
  have hkept : keptEntries (containerEntries mixedContainer) =
      [(.str "id", .int 7), (.str "title", .text true "say \"hi\"")] := by
    simp [keptEntries, containerEntries, mixedContainer, Value.entries?, Value.str,
      isAttributeEntry_text, isDropped, tagKey]
  have hdistinct : DistinctKeys (containerEntries mixedContainer) := by
    simp [DistinctKeys, containerEntries, mixedContainer, Value.entries?, Value.equals, Value.str]
  refine ⟨hasShortIntegers_mixedContainer, isDescriptor_mixedContainer, c, hc, ?_,
    (hanew hdistinct).2⟩
  rw [hkept] at hwritten
  obtain ⟨a, _, hid, hmore, hattributes⟩ := List.forall₂_cons_left_iff.1 hwritten
  obtain ⟨b, _, htitle, hnil, rfl⟩ := List.forall₂_cons_left_iff.1 hmore
  obtain rfl := List.forall₂_nil_left_iff.1 hnil
  obtain ⟨_, hid⟩ := hid.key_eq
  obtain ⟨_, htitle⟩ := htitle.key_eq
  rw [hattributes, List.map_cons, List.map_cons, ← (Value.text.inj hid).2,
    ← (Value.text.inj htitle).2]
  rfl

/-- The name holds delete, which is a control character, and yet it is accepted. -/
theorem delete_in_name_accepted :
    let v : Value := .dict [(.str "tag", .str "div"), (.str "a\x7f", .str "1")]
    v.HasShortIntegers ∧ ¬ IsDescriptor v ∧
      normalizeContainer v = .ok ⟨"div", [("a\x7f".toList, "1".toList)]⟩ := by
  intro v
  have hshort : v.HasShortIntegers := by
    simp [v, Value.HasShortIntegers, Value.ShortEntries, Value.str]
  refine ⟨hshort, ?_, ?_⟩
  · intro h
    have hchecked := ((isDescriptor_iff hshort).1 h).2
    have hentry : isAttributeEntry (.str "a\x7f", .str "1") = true := by
      rw [Value.str, isAttributeEntry_text]
      decide
    have hmem : (.str "a\x7f", .str "1") ∈ containerEntries v := by
      simp [containerEntries, v, Value.entries?]
    have hdelete := hchecked _ hmem hentry false "a\x7f" rfl (Char.ofNat 127) (by decide)
    revert hdelete
    decide
  · exact normalizeContainer_pair (by decide) (by decide) (by decide) (by decide) "1"

end Hydration.Markup
