import Hydration.Proofs.Json.Texts
/-!
# Where the texts of a document come from

The automaton takes every text of a document from a lexeme that is a string, and every word that it
accepts is a constant or a number, so it has no backslash.

* `number?_cases`: the parts of a number.
* `mem_texts_step`, `mem_texts_run`: the texts of what was read come from strings.
* `not_mem_of_run`: the words that were read have no backslash.
-/
namespace Hydration.Json

/-! ## Words -/

/-- A number is whole digits with a sign, and a floating-point number if more follows them. -/
theorem number?_cases {t : Text} {v : Json} (h : number? t = some v) :
    ∃ body mantissa exponent whole fraction,
      (t = '-' :: body ∨ t = body) ∧
      Text.cutAt 'e' (body.map fun c => if c = 'E' then 'e' else c) = (mantissa, exponent) ∧
      Text.cutAt '.' mantissa = (whole, fraction) ∧ (wholeDigits? whole).isSome ∧
      ((exponent = none ∧ fraction = none ∧ ∃ i, v = .int i) ∨
        ((exponentOf? exponent).isSome ∧ (∀ f ∈ fraction, (asciiDigits? f).isSome) ∧
          ∃ x, v = .float x)) := by
  unfold number? at h
  split at h
  next negative body hsign =>
  have hbody : t = '-' :: body ∨ t = body := by
    split at hsign <;> cases hsign
    · exact .inl rfl
    · exact .inr rfl
  split at h
  next mantissa exponent hexponent =>
  split at h
  next whole fraction hpoint =>
  obtain ⟨digits, hwhole, h⟩ := Option.bind_eq_some_iff.1 h
  refine ⟨body, mantissa, exponent, whole, fraction, hbody, hexponent, hpoint, by simp [hwhole], ?_⟩
  split at h
  · cases h
    exact .inl ⟨rfl, rfl, _, rfl⟩
  · cases fraction with
    | none =>
      have h : (exponentOf? exponent).bind _ = some v := h
      obtain ⟨e, he, h⟩ := Option.bind_eq_some_iff.1 h
      cases h
      exact .inr ⟨by simp [he], by simp, _, rfl⟩
    | some f =>
      obtain ⟨more, hmore, h⟩ := Option.bind_eq_some_iff.1 h
      obtain ⟨e, he, h⟩ := Option.bind_eq_some_iff.1 h
      cases h
      exact .inr ⟨by simp [he], by simp [hmore], _, rfl⟩


theorem mem_cutAt {sep c : Char} {t a : Text} {b : Option Text} (h : Text.cutAt sep t = (a, b))
    (hmem : c ∈ t) (hc : c ≠ sep) : c ∈ a ∨ ∃ more, b = some more ∧ c ∈ more := by
  unfold Text.cutAt at h
  split at h
  · cases h
    exact .inl hmem
  · next d more hdrop =>
    cases h
    rw [← List.takeWhile_append_dropWhile (p := (· ≠ sep)) (l := t), hdrop, List.mem_append,
      List.mem_cons] at hmem
    rcases hmem with hmem | rfl | hmem
    · exact .inl hmem
    · have hstop := List.head?_dropWhile_not (· ≠ sep) t
      rw [hdrop] at hstop
      exact absurd (of_decide_eq_false hstop) (not_not_intro hc)
    · exact .inr ⟨more, rfl, hmem⟩

theorem not_mem_of_asciiDigits? {t : Text} (h : (asciiDigits? t).isSome) : '\\' ∉ t := by
  intro hmem
  unfold asciiDigits? at h
  split at h
  · next hall =>
    simp only [Bool.and_eq_true, List.all_eq_true] at hall
    exact absurd (hall.2 _ hmem) (by decide)
  · cases h

theorem not_mem_of_wholeDigits? {t : Text} (h : (wholeDigits? t).isSome) : '\\' ∉ t := by
  refine not_mem_of_asciiDigits? ?_
  obtain ⟨ds, hds⟩ := Option.isSome_iff_exists.1 h
  obtain ⟨ds', hdigits, -⟩ := Option.bind_eq_some_iff.1 hds
  simp [hdigits]

theorem not_mem_of_exponentOf? {t : Text} (h : (exponentOf? (some t)).isSome) : '\\' ∉ t := by
  have hdigits : '\\' ∉ (Number.takeSign t).2 :=
    not_mem_of_asciiDigits? (by simpa [exponentOf?] using h)
  unfold Number.takeSign at hdigits
  split at hdigits
  · simpa using hdigits
  · simpa using hdigits
  · exact hdigits

/-- A number has no backslash. -/
theorem not_mem_of_number? {t : Text} {v : Json} (h : number? t = some v) : '\\' ∉ t := by
  obtain ⟨body, mantissa, exponent, whole, fraction, hbody, hexponent, hpoint, hwhole, hrest⟩ :=
    number?_cases h
  intro hmem
  have hlowered : '\\' ∈ body.map fun c => if c = 'E' then 'e' else c := by
    refine List.mem_map.2 ⟨'\\', ?_, by decide⟩
    rcases hbody with rfl | rfl
    · simpa using hmem
    · exact hmem
  rcases mem_cutAt hexponent hlowered (by decide) with hmantissa | ⟨e, rfl, he⟩
  · rcases mem_cutAt hpoint hmantissa (by decide) with hdigits | ⟨f, rfl, hf⟩
    · exact not_mem_of_wholeDigits? hwhole hdigits
    · rcases hrest with ⟨-, hnone, -⟩ | ⟨-, hfraction, -⟩
      · cases hnone
      · exact not_mem_of_asciiDigits? (hfraction f rfl) hf
  · rcases hrest with ⟨hnone, -, -⟩ | ⟨hsome, -, -⟩
    · cases hnone
    · exact not_mem_of_exponentOf? hsome he

theorem texts_of_number? {t : Text} {v : Json} (h : number? t = some v) : v.texts = [] := by
  obtain ⟨-, -, -, -, -, -, -, -, -, ⟨-, -, i, rfl⟩ | ⟨-, -, x, rfl⟩⟩ := number?_cases h
  · rfl
  · rfl

/-- A word that is read has no backslash, and no text is read from it. -/
theorem ofWord?_cases {wide : Bool} {w : Text} {v : Json} (h : ofWord? wide w = some v) :
    '\\' ∉ w ∧ v.texts = [] := by
  have hword : ∀ word : Text, ∀ u : Json, w = word → some u = some v → '\\' ∉ word →
      u.texts = [] → '\\' ∉ w ∧ v.texts = [] := by
    rintro word u rfl heq hword hu
    cases heq
    exact ⟨hword, hu⟩
  unfold ofWord? at h
  split at h
  · next hw => exact hword _ _ hw h (by decide) rfl
  split at h
  · next hw => exact hword _ _ hw h (by decide) rfl
  split at h
  · next hw => exact hword _ _ hw h (by decide) rfl
  split at h
  · next hw => exact hword _ _ hw.2 h (by decide) rfl
  split at h
  · next hw => exact hword _ _ hw.2 h (by decide) rfl
  split at h
  · next hw => exact hword _ _ hw.2 h (by decide) rfl
  · exact ⟨not_mem_of_number? h, texts_of_number? h⟩

/-! ## Texts of what is read -/

/-- The texts of the parts that an open array or object has. -/
def Frame.texts : Frame → List Text
  | .item before => itemTexts before
  | .field before k => k :: fieldTexts before

/-- The texts of open arrays and objects. -/
def frameTexts (fs : List Frame) : List Text := fs.flatMap Frame.texts

/-- The texts of what was read. -/
def State.texts : State → List Text
  | .value fs | .firstItem fs | .firstKey fs => frameTexts fs
  | .key before fs => fieldTexts before ++ frameTexts fs
  | .colon before k fs => k :: (fieldTexts before ++ frameTexts fs)
  | .afterItem before fs => itemTexts before ++ frameTexts fs
  | .afterField before fs => fieldTexts before ++ frameTexts fs
  | .done v => v.texts

@[simp] theorem frameTexts_item (before : List Json) (fs : List Frame) :
    frameTexts (.item before :: fs) = itemTexts before ++ frameTexts fs := rfl

@[simp] theorem frameTexts_field (before : List (Text × Json)) (k : Text) (fs : List Frame) :
    frameTexts (.field before k :: fs) = k :: (fieldTexts before ++ frameTexts fs) := rfl

/-- A value that is handed over keeps its texts. -/
@[simp] theorem mem_texts_deliver {t : Text} {v : Json} {fs : List Frame} :
    t ∈ (deliver v fs).texts ↔ t ∈ v.texts ∨ t ∈ frameTexts fs := by
  rcases fs with _ | ⟨_ | _, fs⟩
  · simp [deliver, State.texts, frameTexts]
  · simp [deliver, State.texts, itemTexts]
  · simp [deliver, State.texts, fieldTexts, or_left_comm]

section
variable {wide : Bool}

theorem mem_texts_readValue {fs : List Frame} {l : Lexeme} {s : State}
    (h : readValue wide fs l = some s) {t : Text} (ht : t ∈ s.texts) :
    t ∈ frameTexts fs ∨ l = .string t := by
  unfold readValue at h
  split at h
  · cases h
    exact .inl ht
  · cases h
    exact .inl ht
  · cases h
    rcases mem_texts_deliver.1 ht with hu | hfs
    · exact .inr (congrArg Lexeme.string (List.mem_singleton.1 hu).symm)
    · exact .inl hfs
  · obtain ⟨v, hword, rfl⟩ := Option.map_eq_some_iff.1 h
    rw [mem_texts_deliver, (ofWord?_cases hword).2] at ht
    simpa using ht
  · cases h

theorem mem_fieldTexts_reverse {t : Text} {fields : List (Text × Json)} :
    t ∈ fieldTexts fields.reverse ↔ t ∈ fieldTexts fields := by
  simp [mem_fieldTexts]

theorem mem_itemTexts_reverse {t : Text} {items : List Json} :
    t ∈ itemTexts items.reverse ↔ t ∈ itemTexts items := by
  simp [mem_itemTexts]

theorem mem_texts_step {s next : State} {l : Lexeme} (h : step wide s l = some next) {t : Text}
    (ht : t ∈ next.texts) : t ∈ s.texts ∨ l = .string t := by
  unfold step at h
  split at h
  · exact mem_texts_readValue h ht
  · cases h
    exact .inl ((mem_texts_deliver.1 ht).resolve_left (by simp [texts, itemTexts]))
  · exact mem_texts_readValue h ht
  · cases h
    exact .inl ((mem_texts_deliver.1 ht).resolve_left (by simp [texts, fieldTexts]))
  · cases h
    rcases List.mem_cons.1 ht with rfl | ht
    · exact .inr rfl
    · exact .inl ht
  · cases h
    rcases List.mem_cons.1 ht with rfl | ht
    · exact .inr rfl
    · exact .inl ht
  · cases h
    exact .inl ht
  · cases h
    exact .inl ht
  · cases h
    refine .inl (List.mem_append.2 ((mem_texts_deliver.1 ht).imp_left fun hv => ?_))
    exact mem_itemTexts_reverse.1 hv
  · cases h
    exact .inl ht
  · cases h
    refine .inl (List.mem_append.2 ((mem_texts_deliver.1 ht).imp_left fun hv => ?_))
    exact mem_fieldTexts_reverse.1 hv
  · cases h

theorem step_word {s next : State} {w : Text} (h : step wide s (.word w) = some next) :
    ∃ v, ofWord? wide w = some v := by
  have hread : ∀ {fs}, readValue wide fs (.word w) = some next → ∃ v, ofWord? wide w = some v := by
    intro fs h
    obtain ⟨v, hv, -⟩ := Option.map_eq_some_iff.1 h
    exact ⟨v, hv⟩
  cases s <;> first | exact hread h | cases h

/-- What a run reads are texts of its strings. -/
theorem mem_texts_run {s last : State} {ls : List Lexeme} (h : run wide s ls = some last) {t : Text}
    (ht : t ∈ last.texts) : t ∈ s.texts ∨ .string t ∈ ls := by
  induction ls generalizing s with
  | nil =>
    cases h
    exact .inl ht
  | cons l ls ih =>
    obtain ⟨next, hstep, hrun⟩ := Option.bind_eq_some_iff.1 h
    rcases ih hrun with hnext | hlater
    · rcases mem_texts_step hstep hnext with hs | rfl
      · exact .inl hs
      · exact .inr List.mem_cons_self
    · exact .inr (List.mem_cons_of_mem _ hlater)

theorem not_mem_of_run {s last : State} {ls : List Lexeme} (h : run wide s ls = some last)
    {w : Text} (hw : .word w ∈ ls) : '\\' ∉ w := by
  induction ls generalizing s with
  | nil => cases hw
  | cons l ls ih =>
    obtain ⟨next, hstep, hrun⟩ := Option.bind_eq_some_iff.1 h
    rcases List.mem_cons.1 hw with rfl | hw
    · obtain ⟨v, hv⟩ := step_word hstep
      exact (ofWord?_cases hv).1
    · exact ih hrun hw

end
end Hydration.Json
