import Hydration.Proofs.Value.Keys
import Hydration.Site.Settings
/-!
# Which settings are valid

Settings that are a dict are valid if every key in it is the name of a field and every field in it
has a text, or the bytes of one, that is not blank. If they are not, all that is wrong is told: the
fields first, in their order, then the keys, in theirs. A key that is a lazy text is no name of a
field, though the field is found under it, so such a key is told twice if its value is bad.

* `checkText_ok_iff`, `checkText_error_iff`: the values of fields.
* `checkKey_eq_some_iff`: the keys that are no field.
* `ofSettings_dict`: what a dict describes, or what is told of it.
* `Site.settings_validated`: what a site reads of its settings.
-/
namespace Hydration
namespace Config

/-! ## Values of fields -/

/-- The text that a value spells: the value is this text, or its bytes. -/
inductive Spells : Value → Text → Prop
  | text (safe : Bool) (t : Text) : Spells (.text safe t) t
  | bytes (t : Text) : Spells (.bytes (Text.Utf8.encode t)) t

/-- The value may be given to a field, which then has this text. -/
def IsSetting (v : Value) (t : Text) : Prop := Spells v t ∧ ∃ c ∈ t, Text.isBlank c = false

/-- Why a value may not be given to a field. -/
inductive Refused : Value → SettingReason → Prop
  | notText {v : Value} (htext : ∀ safe t, v ≠ .text safe t) (hbytes : ∀ b, v ≠ .bytes b) :
    Refused v .notText
  | notUtf8 {b : List UInt8} (h : ∀ t, Text.Utf8.encode t ≠ b) : Refused (.bytes b) .notUtf8
  | blank {v : Value} {t : Text} (h : Spells v t) (hblank : ∀ c ∈ t, Text.isBlank c = true) :
    Refused v .blank

theorem isAllBlank_eq_false_iff {t : Text} :
    Text.isAllBlank t = false ↔ ∃ c ∈ t, Text.isBlank c = false := by
  simp [Text.isAllBlank]

/-- A value that spells a text is taken or refused by this text alone. -/
theorem checkText_of_spells {v : Value} {t : Text} (h : Spells v t) :
    checkText v = if Text.isAllBlank t then .error .blank else .ok t := by
  cases h with
  | text => rfl
  | bytes => simp only [checkText, Text.Utf8.decode?_encode]

theorem isSetting_of_spells {v : Value} {t u : Text} (hv : Spells v t)
    (h : checkText v = .ok u) : IsSetting v u := by
  rw [checkText_of_spells hv] at h
  split at h
  · cases h
  · next hblank =>
    cases h
    exact ⟨hv, isAllBlank_eq_false_iff.1 (eq_false_of_ne_true hblank)⟩

theorem refused_of_spells {v : Value} {t : Text} {reason : SettingReason} (hv : Spells v t)
    (h : checkText v = .error reason) : Refused v reason := by
  rw [checkText_of_spells hv] at h
  split at h
  · next hblank =>
    cases h
    exact .blank hv (List.all_eq_true.1 hblank)
  · cases h

/-- A value of a field is taken with the text that it spells. -/
theorem checkText_ok_iff {v : Value} {t : Text} : checkText v = .ok t ↔ IsSetting v t := by
  constructor
  · intro h
    cases v with
    | text safe u => exact isSetting_of_spells (.text safe u) h
    | bytes b =>
      cases hdecode : Text.Utf8.decode? b with
      | none =>
        simp only [checkText, hdecode] at h
        cases h
      | some u =>
        obtain rfl := Text.Utf8.encode_of_decode? hdecode
        exact isSetting_of_spells (.bytes u) h
    | _ => cases h
  · intro ⟨hspells, hletter⟩
    rw [checkText_of_spells hspells, isAllBlank_eq_false_iff.2 hletter]
    rfl

/-- A value of a field is refused for the reason that there is. -/
theorem checkText_error_iff {v : Value} {reason : SettingReason} :
    checkText v = .error reason ↔ Refused v reason := by
  constructor
  · intro h
    cases v with
    | text safe t => exact refused_of_spells (.text safe t) h
    | bytes b =>
      cases hdecode : Text.Utf8.decode? b with
      | none =>
        simp only [checkText, hdecode] at h
        cases h
        refine .notUtf8 fun t ht => ?_
        rw [← ht, Text.Utf8.decode?_encode] at hdecode
        cases hdecode
      | some t =>
        obtain rfl := Text.Utf8.encode_of_decode? hdecode
        exact refused_of_spells (.bytes t) h
    | _ =>
      cases h
      exact .notText (by simp) (by simp)
  · intro h
    cases h with
    | notText htext hbytes =>
      cases v with
      | text safe t => exact absurd rfl (htext safe t)
      | bytes b => exact absurd rfl (hbytes b)
      | _ => rfl
    | @notUtf8 b h =>
      cases hdecode : Text.Utf8.decode? b with
      | none => simp only [checkText, hdecode]
      | some t => exact absurd (Text.Utf8.encode_of_decode? hdecode) (h t)
    | @blank v t hv hblank =>
      have hall : Text.isAllBlank t = true := List.all_eq_true.2 hblank
      rw [checkText_of_spells hv, if_pos hall]

/-! ## What is told -/

/-- What is told of things in a row: one detail of each that is at fault, in their order, and
nothing of the others. -/
inductive Reported {α δ : Type} (fault : α → δ → Prop) : List α → List δ → Prop
  | nil : Reported fault [] []
  | told {a : α} {rest : List α} {d : δ} {details : List δ} (h : fault a d)
    (hrest : Reported fault rest details) : Reported fault (a :: rest) (d :: details)
  | passed {a : α} {rest : List α} {details : List δ} (h : ∀ d, ¬ fault a d)
    (hrest : Reported fault rest details) : Reported fault (a :: rest) details

variable {α δ : Type} {fault : α → δ → Prop} {check : α → Option δ}

/-- What a check tells of things in a row. -/
theorem reported_filterMap (hcheck : ∀ a d, check a = some d ↔ fault a d) (items : List α) :
    Reported fault items (items.filterMap check) := by
  induction items with
  | nil => exact .nil
  | cons a rest ih =>
    cases ha : check a with
    | none =>
      rw [List.filterMap_cons_none ha]
      refine .passed (fun d hd => ?_) ih
      rw [(hcheck a d).2 hd] at ha
      cases ha
    | some d =>
      rw [List.filterMap_cons_some ha]
      exact .told ((hcheck a d).1 ha) ih

/-- Nothing is told exactly if nothing is at fault. -/
theorem filterMap_eq_nil_iff (hcheck : ∀ a d, check a = some d ↔ fault a d) {items : List α} :
    items.filterMap check = [] ↔ ∀ a ∈ items, ∀ d, ¬ fault a d := by
  simp only [List.filterMap_eq_nil_iff, Option.eq_none_iff_forall_ne_some, ne_eq, hcheck]

/-- A key that is the name of no field, and what is told of it. -/
inductive BadKey : Value → SettingDetail → Prop
  | unknown {safe : Bool} {t : Text} (h : ∀ f : Field, f.key ≠ t) :
    BadKey (.text safe t) ⟨.unknownKey, .key t⟩
  | notText {k : Value} (h : ∀ safe t, k ≠ .text safe t) : BadKey k ⟨.keyNotText, keyPlace k⟩

theorem mem_all (f : Field) : f ∈ Field.all := by
  cases f <;> decide

theorem checkKey_text (safe : Bool) (t : Text) :
    (∃ f : Field, f.key = t) ∧ checkKey (.text safe t) = none ∨
      (∀ f : Field, f.key ≠ t) ∧ checkKey (.text safe t) = some ⟨.unknownKey, .key t⟩ := by
  rw [checkKey]
  by_cases h : (Field.all.any fun f => f.key == t) = true
  · rw [if_pos h]
    obtain ⟨f, -, hf⟩ := List.any_eq_true.1 h
    exact .inl ⟨⟨f, eq_of_beq hf⟩, rfl⟩
  · rw [if_neg h]
    exact .inr ⟨fun f hf => h (List.any_eq_true.2 ⟨f, mem_all f, beq_iff_eq.2 hf⟩), rfl⟩

/-- The check of keys tells what is wrong with a key. -/
theorem checkKey_eq_some_iff (k : Value) (d : SettingDetail) :
    checkKey k = some d ↔ BadKey k d := by
  constructor
  · intro h
    cases k with
    | text safe t =>
      rcases checkKey_text safe t with ⟨-, hnone⟩ | ⟨hunknown, hsome⟩
      · rw [hnone] at h
        cases h
      · rw [hsome] at h
        cases h
        exact .unknown hunknown
    | _ =>
      cases h
      exact .notText (by simp)
  · intro h
    cases h with
    | @unknown safe t hunknown =>
      rcases checkKey_text safe t with ⟨⟨f, hf⟩, -⟩ | ⟨-, hsome⟩
      · exact absurd hf (hunknown f)
      · exact hsome
    | notText h =>
      cases k with
      | text safe t => exact absurd rfl (h safe t)
      | _ => rfl

/-- Nothing is told of a key exactly if it is the name of a field. -/
theorem forall_not_badKey_iff {k : Value} :
    (∀ d, ¬ BadKey k d) ↔ ∃ safe, ∃ f : Field, k = .text safe f.key := by
  simp only [← checkKey_eq_some_iff, ← ne_eq, ← Option.eq_none_iff_forall_ne_some]
  cases k with
  | text safe t =>
    rcases checkKey_text safe t with ⟨⟨f, hf⟩, hnone⟩ | ⟨hunknown, hsome⟩
    · rw [hnone, ← hf]
      exact iff_of_true rfl ⟨safe, f, rfl⟩
    · rw [hsome]
      simpa [eq_comm] using hunknown
  | _ => simp [checkKey]

section
variable (entries : List (Value × Value))

/-- A field whose value is refused, and what is told of it. -/
inductive BadField : Field → SettingDetail → Prop
  | refused {f : Field} {v : Value} {reason : SettingReason}
    (hv : Value.lookup? (.str f.key) entries = some v) (h : Refused v reason) :
    BadField f ⟨reason, .key f.key⟩

/-- The text of a field: that of its value, as it stands there, or else the default. -/
inductive Given : Field → Text → Prop
  | found {f : Field} {v : Value} {t : Text} (hv : Value.lookup? (.str f.key) entries = some v)
    (h : IsSetting v t) : Given f t
  | default {f : Field} (h : Value.lookup? (.str f.key) entries = none) :
    Given f (Config.default.field f)

/-- What is told of a field. -/
def badField? (f : Field) : Option SettingDetail :=
  match Value.lookup? (.str f.key) entries with
  | none => none
  | some v =>
    match checkText v with
    | .ok _ => none
    | .error reason => some ⟨reason, .key f.key⟩

/-- The text that is taken for a field. -/
def taken? (f : Field) : Option Text :=
  (Value.lookup? (.str f.key) entries).bind fun v => (checkText v).toOption

variable {entries}

theorem badField?_eq_some_iff (f : Field) (d : SettingDetail) :
    badField? entries f = some d ↔ BadField entries f d := by
  unfold badField?
  constructor
  · intro h
    split at h
    · cases h
    · next v hv =>
      split at h
      · cases h
      · next reason hreason =>
        cases h
        exact .refused hv (checkText_error_iff.1 hreason)
  · intro ⟨hv, h⟩
    simp only [hv, checkText_error_iff.2 h]

/-- Nothing is told of a field exactly if a value that it has may be given to it. -/
theorem forall_not_badField_iff {f : Field} :
    (∀ d, ¬ BadField entries f d) ↔
      ∀ v, Value.lookup? (.str f.key) entries = some v → ∃ t, IsSetting v t := by
  constructor
  · intro h v hv
    cases hcheck : checkText v with
    | ok t => exact ⟨t, checkText_ok_iff.1 hcheck⟩
    | error reason => exact absurd (.refused hv (checkText_error_iff.1 hcheck)) (h _)
  · intro h d ⟨hv, hrefused⟩
    obtain ⟨t, ht⟩ := h _ hv
    have hcheck := checkText_ok_iff.2 ht
    rw [checkText_error_iff.2 hrefused] at hcheck
    cases hcheck

/-- A field whose value is not refused has its text. -/
theorem given_taken? {f : Field} (h : ∀ d, ¬ BadField entries f d) :
    Given entries f ((taken? entries f).getD (default.field f)) := by
  rw [taken?]
  cases hv : Value.lookup? (.str f.key) entries with
  | none => exact .default hv
  | some v =>
    obtain ⟨t, ht⟩ := forall_not_badField_iff.1 h v hv
    rw [Option.bind_some, checkText_ok_iff.2 ht]
    exact .found hv ht

/-- One field is taken or told. -/
theorem takeFields_cons (f : Field) (rest : List Field) (c : Config) (faults : List SettingDetail) :
    takeFields entries (f :: rest) (c, faults) =
      takeFields entries rest ((taken? entries f).elim c (c.withField f),
        faults ++ (badField? entries f).toList) := by
  rw [takeFields, taken?, badField?]
  cases Value.lookup? (.str f.key) entries with
  | none => simp
  | some v =>
    rw [Option.bind_some]
    dsimp only
    cases checkText v with
    | ok t => simp [Except.toOption]
    | error reason => simp [Except.toOption]

/-- The faults of the fields are told in their order. -/
theorem faults_takeFields (fields : List Field) (c : Config) (faults : List SettingDetail) :
    (takeFields entries fields (c, faults)).2 =
      faults ++ fields.filterMap (badField? entries) := by
  induction fields generalizing c faults with
  | nil => simp [takeFields]
  | cons f rest ih =>
    rw [takeFields_cons, ih, List.append_assoc]
    cases h : badField? entries f <;> simp [h]

/-- What is taken for a field is its text; without one it stays as it was. -/
theorem field_takeFields (fields : List Field) (c : Config) (faults : List SettingDetail)
    (g : Field) : (takeFields entries fields (c, faults)).1.field g =
      if g ∈ fields then (taken? entries g).getD (c.field g) else c.field g := by
  induction fields generalizing c faults with
  | nil => rfl
  | cons f rest ih =>
    have hstep : ((taken? entries f).elim c (c.withField f)).field g =
        if f = g then (taken? entries g).getD (c.field g) else c.field g := by
      by_cases hg : f = g
      · subst hg
        cases taken? entries f <;> simp [field_withField]
      · cases taken? entries f <;> simp [field_withField, hg]
    rw [takeFields_cons, ih, hstep]
    by_cases hg : f = g
    · subst hg
      cases taken? entries f <;> simp
    · simp [hg, Ne.symm hg]

variable (entries) in
/-- All that is told of the entries: the fields first, then the keys. -/
def details : List SettingDetail :=
  Field.all.filterMap (badField? entries) ++ (entries.map (·.1)).filterMap checkKey

variable (entries) in
/-- A dict is valid if every key in it names a field and every field in it may have its value. -/
structure IsValid : Prop where
  keys : ∀ e ∈ entries, ∃ safe, ∃ f : Field, e.1 = .text safe f.key
  values : ∀ (f : Field) v, Value.lookup? (.str f.key) entries = some v → ∃ t, IsSetting v t

theorem details_eq_nil_iff : details entries = [] ↔ IsValid entries := by
  rw [details, List.append_eq_nil_iff, filterMap_eq_nil_iff badField?_eq_some_iff,
    filterMap_eq_nil_iff checkKey_eq_some_iff]
  constructor
  · intro ⟨hvalues, hkeys⟩
    refine ⟨fun e he => ?_, fun f => forall_not_badField_iff.1 (hvalues f (mem_all f))⟩
    exact forall_not_badKey_iff.1 (hkeys e.1 (List.mem_map_of_mem he))
  · intro h
    refine ⟨fun f _ => forall_not_badField_iff.2 (h.values f), fun k hk => ?_⟩
    obtain ⟨e, he, rfl⟩ := List.mem_map.1 hk
    exact forall_not_badKey_iff.2 (h.keys e he)

/-- A dict describes what is taken of it, unless there is something to tell. -/
theorem ofSettings_dict (entries : List (Value × Value)) :
    ofSettings (.dict entries) =
      if details entries = [] then .ok (takeFields entries Field.all (default, [])).1
      else .error (.settings (.invalid (details entries))) := by
  cases entries with
  | nil => rfl
  | cons e rest =>
    have hdetails : (takeFields (e :: rest) Field.all (default, [])).2 ++
        (e :: rest).filterMap (fun e => checkKey e.1) = details (e :: rest) := by
      rw [faults_takeFields, details, List.filterMap_map, List.nil_append]
      rfl
    have htrue : (Value.dict (e :: rest)).isTrue = true := by simp [Value.isTrue]
    rw [ofSettings, if_pos htrue]
    dsimp only
    rw [hdetails]
    cases details (e :: rest) <;> rfl

theorem ofSettings_of_isValid (h : IsValid entries) :
    ofSettings (.dict entries) = .ok (takeFields entries Field.all (default, [])).1 := by
  rw [ofSettings_dict, if_pos (details_eq_nil_iff.2 h)]

theorem isValid_of_ofSettings {c : Config} (h : ofSettings (.dict entries) = .ok c) :
    IsValid entries ∧ c = (takeFields entries Field.all (default, [])).1 := by
  rw [ofSettings_dict] at h
  split at h
  · next hnil =>
    cases h
    exact ⟨details_eq_nil_iff.1 hnil, rfl⟩
  · cases h

/-- A field of a valid dict has the text that it is given there. -/
theorem given_of_ofSettings {c : Config} (h : ofSettings (.dict entries) = .ok c) (f : Field) :
    Given entries f (c.field f) := by
  obtain ⟨hvalid, rfl⟩ := isValid_of_ofSettings h
  rw [field_takeFields, if_pos (mem_all f)]
  exact given_taken? (forall_not_badField_iff.2 (hvalid.values f))

/-- All that is wrong with a dict is told. -/
theorem reported_of_ofSettings {failure : Failure}
    (h : ofSettings (.dict entries) = .error failure) :
    ∃ values keys, failure = .settings (.invalid (values ++ keys)) ∧
      Reported (BadField entries) Field.all values ∧
      Reported BadKey (entries.map (·.1)) keys := by
  rw [ofSettings_dict] at h
  split at h
  · cases h
  · cases h
    exact ⟨_, _, rfl, reported_filterMap badField?_eq_some_iff _,
      reported_filterMap checkKey_eq_some_iff _⟩

/-- The fields come first, whatever the order of the keys. -/
example : details [(.int 5, .none), (.str "component_attr", .bytes [255]),
      (.str "colour", .str "red"), (.str "component_root", .str " ")] =
    [⟨.blank, .key "component_root"⟩, ⟨.notUtf8, .key "component_attr"⟩,
      ⟨.keyNotText, .number 5⟩, ⟨.unknownKey, .key "colour"⟩] := by
  decide +kernel

end

/-! ## Order -/

section
variable {entries others : List (Value × Value)}

/-- What is taken depends on what the fields lead to only. -/
theorem takeFields_congr (hlookup : ∀ f : Field,
      Value.lookup? (.str f.key) entries = Value.lookup? (.str f.key) others)
    (fields : List Field) (result : Config × List SettingDetail) :
    takeFields entries fields result = takeFields others fields result := by
  induction fields generalizing result with
  | nil => rfl
  | cons f rest ih =>
    obtain ⟨c, faults⟩ := result
    rw [takeFields_cons, takeFields_cons, ih, taken?, taken?, badField?, badField?, hlookup f]

/-- The order of the keys does not matter to what a valid dict describes. -/
theorem ofSettings_perm (hlookup : ∀ f : Field,
      Value.lookup? (.str f.key) entries = Value.lookup? (.str f.key) others)
    (hperm : entries.Perm others) {c : Config} (h : ofSettings (.dict entries) = .ok c) :
    ofSettings (.dict others) = .ok c := by
  obtain ⟨hvalid, rfl⟩ := isValid_of_ofSettings h
  have hothers : IsValid others :=
    ⟨fun e he => hvalid.keys e (hperm.mem_iff.2 he),
      fun f v hv => hvalid.values f v ((hlookup f).trans hv)⟩
  rw [ofSettings_of_isValid hothers, takeFields_congr hlookup]

theorem badField_perm (hlookup : ∀ f : Field,
      Value.lookup? (.str f.key) entries = Value.lookup? (.str f.key) others)
    (f : Field) (d : SettingDetail) : BadField others f d ↔ BadField entries f d := by
  rw [← badField?_eq_some_iff, ← badField?_eq_some_iff, badField?, badField?, hlookup f]

end

end Config

/-! ## Reading -/

namespace Site
open Config

/-- What a site reads of settings if it remembers nothing of them. -/
def reading (s : Site) (settings : Value) : Except Failure Config :=
  (Action.readConfig.outcome { s with settings := settings, config := none }).1.map (·.config)

theorem reading_eq (s : Site) (settings : Value) : s.reading settings = ofSettings settings := by
  rw [reading]
  cases h : ofSettings settings with
  | ok c =>
    rw [Action.outcome_readConfig_of_ok rfl h]
    rfl
  | error f =>
    rw [Action.outcome_readConfig_of_error rfl h]
    rfl

/-- **Settings are read if they are valid, and else all that is wrong with them is told.** Settings
that are empty give the defaults, and others that are no dict are told as such. A dict is read
exactly if every key in it names a field and every field in it has a text, or the bytes of one, that
is not blank; it gives these texts as they stand there, and the defaults for the rest. Otherwise one
detail is told of each field that has another value, in the order of the fields, and then one of
each key that names none, in the order of the keys. The order of the keys does not matter to what is
read, and to what is told of the fields. -/
theorem settings_validated (s : Site) (settings : Value) :
    (settings.isTrue = false → s.reading settings = .ok Config.default) ∧
      (settings.isTrue = true → (∀ entries, settings ≠ .dict entries) →
        s.reading settings = .error (.settings .notADict)) ∧
      ∀ entries, settings = .dict entries →
        ((∃ c, s.reading settings = .ok c) ↔ IsValid entries) ∧
        (∀ c, s.reading settings = .ok c → ∀ f, Given entries f (c.field f)) ∧
        (∀ failure, s.reading settings = .error failure → ∃ fields keys,
          failure = .settings (.invalid (fields ++ keys)) ∧
          Reported (BadField entries) Field.all fields ∧
          Reported BadKey (entries.map (·.1)) keys) ∧
        ∀ others, Value.DistinctKeys entries → Value.DistinctKeys others → entries.Perm others →
          (∀ c, s.reading (.dict others) = .ok c ↔ s.reading settings = .ok c) ∧
          ∀ f d, BadField others f d ↔ BadField entries f d := by
  simp only [reading_eq]
  refine ⟨ofSettings_of_not_isTrue, ?_, ?_⟩
  · intro htrue hdict
    unfold ofSettings
    rw [if_pos htrue]
    split
    · exact absurd rfl (hdict _)
    · rfl
  · intro entries hentries
    subst hentries
    refine ⟨⟨?_, ?_⟩, fun c => given_of_ofSettings, fun failure => reported_of_ofSettings, ?_⟩
    · intro ⟨c, hc⟩
      exact (isValid_of_ofSettings hc).1
    · intro hvalid
      exact ⟨_, ofSettings_of_isValid hvalid⟩
    · intro others hdistinct hothers hperm
      have hlookup := fun f : Field =>
        Value.lookup?_perm (t := f.key) hdistinct hothers hperm
      refine ⟨fun c => ⟨?_, ?_⟩, badField_perm hlookup⟩
      · exact ofSettings_perm (fun f => (hlookup f).symm) hperm.symm
      · exact ofSettings_perm hlookup hperm

/-- A key that is a lazy text, with a blank value. -/
theorem lazy_key_told_twice :
    let entries : List (Value × Value) := [(.lazy false "component_root", .str "")]
    (Site.start .none []).reading (.dict entries) = .error (.settings (.invalid
        [⟨.blank, .key "component_root"⟩, ⟨.keyNotText, .key "'component_root'"⟩])) ∧
      entries.length = 1 := by
  intro entries
  have hdetails : details entries =
      [⟨.blank, .key "component_root"⟩, ⟨.keyNotText, .key "'component_root'"⟩] := by
    decide +kernel
  refine ⟨?_, rfl⟩
  rw [reading_eq, ofSettings_dict, hdetails]
  rfl

end Site
end Hydration
