import Hydration.Markup
import Mathlib.Data.List.Forall2
/-!
# What a container gives

A container is accepted if it is left out, a tag name, or a mapping with a tag name all of whose
other keys may be used as attribute names. The attributes that it gives are its kept entries, in
order, each with its value as escaped text.

* `readAttributes_ok_iff`: when entries are accepted, and the attributes that they give.
* `normalizeContainer_of_entries`: what is done with a mapping.
* `normalizeContainer_cases`: the three kinds of containers that are accepted.
* `attributes_of_normalizeContainer`: the attributes of any accepted container.
* `isPlain_iff`: the containers that stand for the default one.
-/
namespace Hydration.Markup

/-! ## Names -/

theorem checkTagName_ok_iff {v : Value} {name : Text} :
    checkTagName v = .ok name ↔ ∃ safe, v = .text safe name ∧ isTagName name = true := by
  have hrefuse : checkTagName.refuse v ≠ .ok name := by
    unfold checkTagName.refuse
    cases v.inspect <;> simp [bind, Except.bind]
  unfold checkTagName
  split
  · next safe t =>
    split
    · next ht =>
      constructor
      · intro h
        cases h
        exact ⟨safe, rfl, ht⟩
      · rintro ⟨_, h, -⟩
        cases h
        rfl
    · next ht =>
      refine iff_of_false hrefuse ?_
      rintro ⟨_, h, hname⟩
      cases h
      exact ht hname
  · next hv =>
    refine iff_of_false hrefuse ?_
    rintro ⟨safe, h, -⟩
    exact hv safe name h

theorem checkAttributeName_ok_iff {v : Value} {name : Text} :
    checkAttributeName v = .ok name ↔
      ∃ safe, v = .text safe name ∧ isAttributeName name = true ∧ isReserved name = false := by
  have hrefuse : checkAttributeName.refuse v ≠ .ok name := by
    unfold checkAttributeName.refuse
    cases v.inspect <;> simp [bind, Except.bind]
  unfold checkAttributeName
  split
  · next safe t =>
    by_cases ht : isAttributeName t = true
    · rw [if_pos ht]
      by_cases hr : isReserved t = true
      · rw [if_pos hr]
        refine iff_of_false (by simp) ?_
        rintro ⟨_, h, -, hn⟩
        cases h
        rw [hr] at hn
        cases hn
      · rw [if_neg hr]
        constructor
        · intro h
          cases h
          exact ⟨safe, rfl, ht, Bool.eq_false_iff.2 hr⟩
        · rintro ⟨_, h, -, -⟩
          cases h
          rfl
    · rw [if_neg ht]
      refine iff_of_false hrefuse ?_
      rintro ⟨_, h, hname, -⟩
      cases h
      exact ht hname
  · next hv =>
    refine iff_of_false hrefuse ?_
    rintro ⟨safe, h, -, -⟩
    exact hv safe name h

theorem isReserved_iff {name : Text} :
    isReserved name = true ↔ name = classAttribute ∨ name = propsAttribute := by
  simp [isReserved]

/-- A reserved name is a conflict, whether the text is safe or not. -/
theorem checkAttributeName_of_isReserved (safe : Bool) {name : Text} (h : isReserved name = true) :
    checkAttributeName (.text safe name) = .error (.reserved name) := by
  rcases isReserved_iff.1 h with rfl | rfl
  · exact (checkAttributeName_reserved safe).1
  · exact (checkAttributeName_reserved safe).2

/-! ## Entries -/

/-- Whether an entry is for an attribute: it stands under any key but the one for the tag name. -/
def isAttributeEntry (e : Value × Value) : Bool := !e.1.equals (.str tagKey)

theorem isAttributeEntry_text (safe : Bool) (key : Text) (v : Value) :
    isAttributeEntry (.text safe key, v) = (key != tagKey) := by
  rw [isAttributeEntry]
  exact congrArg _ (Value.equals_str safe key tagKey)

/-- The entries that are written as attributes: the others are for the tag name or are dropped. -/
def keptEntries (entries : List (Value × Value)) : List (Value × Value) :=
  entries.filter fun e => isAttributeEntry e && !isDropped e.2

/-- The attribute is the entry: its key by name, and its value as escaped text. -/
def WrittenAs (e : Value × Value) (a : Text × Text) : Prop :=
  checkAttributeName e.1 = .ok a.1 ∧ ∃ t, e.2.toText = .ok t ∧ a.2 = Text.escapeQuotes t

theorem exists_writtenAs {entries : List (Value × Value)} {attributes : List (Text × Text)}
    (h : List.Forall₂ WrittenAs entries attributes) {a : Text × Text} (ha : a ∈ attributes) :
    ∃ e ∈ entries, WrittenAs e a := by
  induction h with
  | nil => cases ha
  | cons hfirst _ ih =>
    rcases List.mem_cons.1 ha with rfl | ha
    · exact ⟨_, List.mem_cons_self, hfirst⟩
    · obtain ⟨e, he, hw⟩ := ih ha
      exact ⟨e, List.mem_cons_of_mem _ he, hw⟩

/-- The keys of all entries for attributes may be used as names, also where the value is dropped. -/
def NamesAllowed (entries : List (Value × Value)) : Prop :=
  ∀ e ∈ entries, isAttributeEntry e = true → ∃ name, checkAttributeName e.1 = .ok name

theorem namesAllowed_cons {e : Value × Value} {rest : List (Value × Value)} :
    NamesAllowed (e :: rest) ↔
      (isAttributeEntry e = true → ∃ name, checkAttributeName e.1 = .ok name) ∧
        NamesAllowed rest := by
  simp [NamesAllowed]

/-- One step of reading: an entry for the tag name is passed over, and the name of any other one is
checked before its value is looked at. -/
theorem readAttributes_cons_ok_iff {k v : Value} {rest : List (Value × Value)}
    {attributes : List (Text × Text)} :
    readAttributes ((k, v) :: rest) = .ok attributes ↔
      (isAttributeEntry (k, v) = false ∧ readAttributes rest = .ok attributes) ∨
      (isAttributeEntry (k, v) = true ∧ ∃ name, checkAttributeName k = .ok name ∧
        ((isDropped v = true ∧ readAttributes rest = .ok attributes) ∨
          (isDropped v = false ∧ ∃ t more, v.toText = .ok t ∧ readAttributes rest = .ok more ∧
            attributes = (name, Text.escapeQuotes t) :: more))) := by
  unfold isAttributeEntry
  rw [readAttributes]
  by_cases hk : k.equals (.str tagKey) = true
  · simp [hk]
  simp only [hk, if_false, Bool.false_eq_true]
  cases hname : checkAttributeName k with
  | error f => simp [bind, Except.bind]
  | ok name =>
    cases hd : isDropped v with
    | true => simp [bind, Except.bind]
    | false =>
      cases ht : v.toText with
      | error f => simp [bind, Except.bind]
      | ok t =>
        cases hrest : readAttributes rest with
        | error f => simp [bind, Except.bind]
        | ok more => simp [bind, Except.bind, pure, Except.pure, eq_comm]

theorem readAttributes_ok_iff {entries : List (Value × Value)} {attributes : List (Text × Text)} :
    readAttributes entries = .ok attributes ↔
      NamesAllowed entries ∧ List.Forall₂ WrittenAs (keptEntries entries) attributes := by
  induction entries generalizing attributes with
  | nil =>
    cases attributes <;> simp [readAttributes, NamesAllowed, keptEntries]
  | cons e rest ih =>
    obtain ⟨k, v⟩ := e
    rw [readAttributes_cons_ok_iff, namesAllowed_cons]
    cases htag : isAttributeEntry (k, v) with
    | false =>
      have hkept : keptEntries ((k, v) :: rest) = keptEntries rest := by simp [keptEntries, htag]
      simp [hkept, ih]
    | true =>
      cases hd : isDropped v with
      | true =>
        have hkept : keptEntries ((k, v) :: rest) = keptEntries rest := by simp [keptEntries, hd]
        simp [hkept, ih, and_assoc]
      | false =>
        have hkept : keptEntries ((k, v) :: rest) = (k, v) :: keptEntries rest := by
          simp [keptEntries, htag, hd]
        simp only [hkept, ih, List.forall₂_cons_left_iff, WrittenAs]
        constructor
        · rintro (⟨h, -⟩ | ⟨-, name, hname, ⟨h, -⟩ | ⟨-, t, more, ht, ⟨hnames, hall⟩, rfl⟩⟩)
          · cases h
          · cases h
          · exact ⟨⟨fun _ => ⟨name, hname⟩, hnames⟩, _, more, ⟨hname, t, ht, rfl⟩, hall, rfl⟩
        · rintro ⟨⟨-, hnames⟩, a, more, ⟨hname, t, ht, heq⟩, hall, rfl⟩
          refine .inr ⟨trivial, a.1, hname, .inr ⟨trivial, t, more, ht, ⟨hnames, hall⟩, ?_⟩⟩
          rw [← heq]

/-! ## Props -/

theorem isOmitted_iff {v : Value} :
    isOmitted v = true ↔ v = .none ∨ v.equals (.str []) = true := by
  unfold isOmitted
  split
  · simp
  · next hv => exact ⟨.inr, fun h => h.resolve_left hv⟩

/-- A mapping is not left out, even if it is empty. -/
theorem isOmitted_of_entries {v : Value} {entries : List (Value × Value)}
    (h : v.entries? = some entries) : isOmitted v = false := by
  cases v with
  | dict _ | mapping _ => simp [isOmitted, Value.equals, Value.str]
  | _ => cases h

theorem isOmitted_list (items : List Value) : isOmitted (.list items) = false := by
  simp [isOmitted, Value.equals, Value.str]

theorem normalizeProps_dict (entries : List (Value × Value)) :
    normalizeProps (.dict entries) = .ok entries := by
  simp [normalizeProps, isOmitted_of_entries, Value.entries?]

/-! ## Containers -/

/-- The entries of a container; one that is left out or a tag name has none. -/
def containerEntries (v : Value) : List (Value × Value) := v.entries?.getD []

theorem containerEntries_of_isOmitted {v : Value} (h : isOmitted v = true) :
    containerEntries v = [] := by
  cases v <;> first | rfl | simp [isOmitted, Value.equals, Value.str] at h

/-- A mapping with something under the key for the tag name: first that is checked as a tag name,
then the attributes are read. -/
theorem normalizeContainer_of_entries {v tag : Value} {entries : List (Value × Value)}
    (he : v.entries? = some entries) (htag : Value.lookup? (.str tagKey) entries = some tag) :
    normalizeContainer v = (do
      let name ← checkTagName tag
      let attributes ← readAttributes entries
      pure ⟨name, attributes⟩) := by
  unfold normalizeContainer
  rw [isOmitted_of_entries he]
  cases v with
  | dict _ | mapping _ =>
    cases he
    simp [Value.entries?, htag]
  | _ => cases he

/-- A container with one attribute. -/
theorem normalizeContainer_pair {tag name : Text} (htag : isTagName tag = true)
    (hname : isAttributeName name = true) (hr : isReserved name = false) (hne : name ≠ tagKey)
    (value : Text) :
    normalizeContainer (.dict [(.str tagKey, .str tag), (.str name, .str value)]) =
      .ok ⟨tag, [(name, Text.escapeQuotes value)]⟩ := by
  have hlookup : Value.lookup? (.str tagKey) [(.str tagKey, .str tag), (.str name, .str value)] =
      some (.str tag) := by
    simp [Value.lookup?, Value.str, Value.equals]
  have hcheck : checkTagName (.str tag) = .ok tag := checkTagName_ok_iff.2 ⟨false, rfl, htag⟩
  have hattribute : checkAttributeName (.str name) = .ok name :=
    checkAttributeName_ok_iff.2 ⟨false, rfl, hname, hr⟩
  have hskip : (Value.str tagKey).equals (.str tagKey) = true :=
    (Value.equals_str false tagKey tagKey).trans (beq_self_eq_true tagKey)
  have hkeep : (Value.str name).equals (.str tagKey) = false :=
    Value.equals_str_of_ne false hne
  have hread : readAttributes [(.str tagKey, .str tag), (.str name, .str value)] =
      .ok [(name, Text.escapeQuotes value)] := by
    simp only [readAttributes, hskip, if_true, hkeep, hattribute]
    rfl
  rw [normalizeContainer_of_entries rfl hlookup, hcheck, hread]
  rfl

/-- A container is accepted for one of three reasons. -/
theorem normalizeContainer_cases {v : Value} {c : Container} (h : normalizeContainer v = .ok c) :
    (isOmitted v = true ∧ c = ⟨defaultTag, []⟩) ∨
      (∃ safe, v = .text safe c.tag ∧ isTagName c.tag = true ∧ c.attributes = []) ∨
      (∃ entries tag, v.entries? = some entries ∧ Value.lookup? (.str tagKey) entries = some tag ∧
        checkTagName tag = .ok c.tag ∧ readAttributes entries = .ok c.attributes) := by
  unfold normalizeContainer at h
  split at h
  · next ho =>
    cases h
    exact .inl ⟨ho, rfl⟩
  · refine .inr ?_
    split at h
    · next safe t _ =>
      cases hname : checkTagName (.text safe t) with
      | error f =>
        rw [hname] at h
        cases h
      | ok name =>
        rw [hname] at h
        cases h
        obtain ⟨_, hv, ht⟩ := checkTagName_ok_iff.1 hname
        cases hv
        exact .inl ⟨safe, rfl, ht, rfl⟩
    · refine .inr ?_
      split at h
      · cases h
      · next entries hentries =>
        split at h
        · cases h
        · next tag htag =>
          cases hname : checkTagName tag with
          | error f =>
            rw [hname] at h
            cases h
          | ok name =>
            cases hattributes : readAttributes entries with
            | error f =>
              rw [hname, hattributes] at h
              cases h
            | ok attributes =>
              rw [hname, hattributes] at h
              cases h
              exact ⟨entries, tag, hentries, htag, hname, hattributes⟩

/-- What a mapping is read as that is accepted. -/
theorem normalizeContainer_dict_cases {entries : List (Value × Value)} {c : Container}
    (h : normalizeContainer (.dict entries) = .ok c) :
    ∃ tag, Value.lookup? (.str tagKey) entries = some tag ∧ checkTagName tag = .ok c.tag ∧
      readAttributes entries = .ok c.attributes := by
  rcases normalizeContainer_cases h with ⟨ho, -⟩ | ⟨_, hv, -⟩ | ⟨_, tag, he, hread⟩
  · rw [isOmitted_of_entries rfl] at ho
    cases ho
  · cases hv
  · cases he
    exact ⟨tag, hread⟩

theorem normalizeContainer_list_ne_ok (items : List Value) (c : Container) :
    normalizeContainer (.list items) ≠ .ok c := by
  intro h
  rcases normalizeContainer_cases h with ⟨ho, -⟩ | ⟨_, hv, -⟩ | ⟨_, _, he, -⟩
  · rw [isOmitted_list] at ho
    cases ho
  · cases hv
  · cases he

theorem isTagName_of_normalizeContainer {v : Value} {c : Container}
    (h : normalizeContainer v = .ok c) : isTagName c.tag = true := by
  rcases normalizeContainer_cases h with ⟨-, rfl⟩ | ⟨_, -, ht, -⟩ | ⟨_, _, -, -, htag, -⟩
  · decide
  · exact ht
  · obtain ⟨_, -, ht⟩ := checkTagName_ok_iff.1 htag
    exact ht

/-- The attributes of an accepted container are its kept entries. -/
theorem attributes_of_normalizeContainer {v : Value} {c : Container}
    (h : normalizeContainer v = .ok c) :
    List.Forall₂ WrittenAs (keptEntries (containerEntries v)) c.attributes := by
  rcases normalizeContainer_cases h with ⟨ho, rfl⟩ | ⟨safe, rfl, -, ha⟩ | ⟨entries, -, he, -, -, ha⟩
  · rw [containerEntries_of_isOmitted ho]
    exact .nil
  · rw [ha]
    exact .nil
  · rw [containerEntries, he]
    exact (readAttributes_ok_iff.1 ha).2

/-- Every attribute of an accepted container has a name that may be used, and no quote in its
value. -/
theorem attribute_of_normalizeContainer {v : Value} {c : Container}
    (h : normalizeContainer v = .ok c) {a : Text × Text} (ha : a ∈ c.attributes) :
    isAttributeName a.1 = true ∧ isReserved a.1 = false ∧ '"' ∉ a.2 := by
  obtain ⟨_, -, hname, t, -, heq⟩ := exists_writtenAs (attributes_of_normalizeContainer h) ha
  obtain ⟨-, -, hn, hr⟩ := checkAttributeName_ok_iff.1 hname
  rw [heq]
  exact ⟨hn, hr, Text.escapeQuotes_quote t⟩

/-! ## The container of a tag without one -/

/-- The container of a tag without one. -/
def plainContainer : Container := ⟨defaultTag, []⟩

/-- The values that stand for the container of a tag without one: all other keys of a mapping are
names of attributes, and all of these are dropped. -/
inductive IsPlain : Value → Prop
  | missing : IsPlain .none
  | blank {v : Value} (h : v.equals (.str []) = true) : IsPlain v
  | name (safe : Bool) : IsPlain (.text safe defaultTag)
  | mapping {v : Value} {entries : List (Value × Value)} {safe : Bool}
    (hentries : v.entries? = some entries)
    (htag : Value.lookup? (.str tagKey) entries = some (.text safe defaultTag))
    (hnames : NamesAllowed entries)
    (hdropped : ∀ e ∈ entries, isAttributeEntry e = true → isDropped e.2 = true) : IsPlain v

theorem keptEntries_eq_nil_iff {entries : List (Value × Value)} : keptEntries entries = [] ↔
    ∀ e ∈ entries, isAttributeEntry e = true → isDropped e.2 = true := by
  simp [keptEntries]

theorem readAttributes_nil_iff {entries : List (Value × Value)} :
    readAttributes entries = .ok [] ↔ NamesAllowed entries ∧
      ∀ e ∈ entries, isAttributeEntry e = true → isDropped e.2 = true := by
  rw [readAttributes_ok_iff, List.forall₂_nil_right_iff, keptEntries_eq_nil_iff]

/-- The values that stand for the container of a tag without one. -/
theorem isPlain_iff {v : Value} : normalizeContainer v = .ok plainContainer ↔ IsPlain v := by
  have hname : isTagName defaultTag = true := by decide
  constructor
  · intro h
    rcases normalizeContainer_cases h with ⟨homitted, -⟩ | ⟨safe, rfl, -, -⟩ |
      ⟨entries, tag, hentries, htag, hcheck, hread⟩
    · rcases isOmitted_iff.1 homitted with rfl | hblank
      · exact .missing
      · exact .blank hblank
    · exact .name safe
    · obtain ⟨safe, rfl, -⟩ := checkTagName_ok_iff.1 hcheck
      obtain ⟨hnames, hdropped⟩ := readAttributes_nil_iff.1 hread
      exact .mapping hentries htag hnames hdropped
  · intro h
    cases h with
    | missing => rfl
    | blank h =>
      unfold normalizeContainer
      rw [if_pos (isOmitted_iff.2 (.inr h))]
      rfl
    | name safe =>
      have homitted : isOmitted (.text safe defaultTag) = false :=
        Value.equals_str safe defaultTag []
      unfold normalizeContainer
      rw [homitted, checkTagName_ok_iff.2 ⟨safe, rfl, hname⟩]
      rfl
    | @mapping _ entries safe hentries htag hnames hdropped =>
      rw [normalizeContainer_of_entries hentries htag,
        checkTagName_ok_iff.2 ⟨safe, rfl, hname⟩, readAttributes_nil_iff.2 ⟨hnames, hdropped⟩]
      rfl

/-- A mapping to the tag name `div` and other names of attributes to nothing or to false. -/
theorem isPlain_of_dropped {rest : List (Value × Value)}
    (h : ∀ e ∈ rest, (∃ name, checkAttributeName e.1 = .ok name) ∧ isDropped e.2 = true) :
    IsPlain (.dict ((.str tagKey, .str defaultTag) :: rest)) := by
  have hentry : isAttributeEntry (.str tagKey, .str defaultTag) = false :=
    isAttributeEntry_text false tagKey (.str defaultTag)
  have hkept : ∀ e ∈ (.str tagKey, .str defaultTag) :: rest, isAttributeEntry e = true →
      (∃ name, checkAttributeName e.1 = .ok name) ∧ isDropped e.2 = true := by
    intro e he hattribute
    rcases List.mem_cons.1 he with rfl | he
    · rw [hentry] at hattribute
      cases hattribute
    · exact h e he
  have htag : Value.lookup? (.str tagKey) ((.str tagKey, .str defaultTag) :: rest) =
      some (.text false defaultTag) := by
    simp [Value.lookup?, Value.equals, Value.str]
  exact .mapping rfl htag (fun e he ha => (hkept e he ha).1) fun e he ha => (hkept e he ha).2

end Hydration.Markup
