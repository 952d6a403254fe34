import Hydration.Proofs.Path.Candidates
/-!
# A path as a walk over segments

    root "./modules", reference "../cards/./Button"    /cards/Button

The path of a component is found by going from its root along the parts of its reference: an empty
part and `.` stay, `..` goes up as long as there is a way up, and any other part goes down. So what
the root and the reference look like as texts makes no difference, only their segments do.

* `walks_iff`: the walk as a relation and as a function.
* `segments_absolute`, `absolute_of_spells`: an absolute path has the segments that were walked, and
  is not changed again.
* `walk_of_staysInside`: a reference that does not go above its start is added to any root.
* `resolve_walks`: the path of a component is reached by a walk from its root.
-/
namespace Hydration.Path

/-- The segments of a path: its parts but for those that stay where they are. -/
def segments (path : Text) : List Text :=
  (Text.parts '/' path).filter fun s => s ≠ [] ∧ s ≠ ['.']

/-- A part that goes down. -/
def IsOrdinary (part : Text) : Prop := part ≠ [] ∧ part ≠ ['.'] ∧ part ≠ ['.', '.']

instance (part : Text) : Decidable (IsOrdinary part) :=
  inferInstanceAs (Decidable (_ ∧ _ ∧ _))

/-- Going from a directory along parts leads to a directory. Both are given by their segments. -/
inductive Walks : List Text → List Text → List Text → Prop
  | arrived (here : List Text) : Walks here [] here
  | stay {here there rest : List Text} {part : Text} (h : part = [] ∨ part = ['.'])
    (more : Walks here rest there) : Walks here (part :: rest) there
  | up {here there rest : List Text} (more : Walks here.dropLast rest there) :
    Walks here (['.', '.'] :: rest) there
  | down {here there rest : List Text} {part : Text} (h : IsOrdinary part)
    (more : Walks (here ++ [part]) rest there) : Walks here (part :: rest) there

/-! ## One step -/

theorem stepSegment_stay {here : List Text} {part : Text} (h : part = [] ∨ part = ['.']) :
    stepSegment here part = here := if_pos h

theorem stepSegment_up (here : List Text) : stepSegment here ['.', '.'] = here.dropLast := rfl

theorem stepSegment_down {here : List Text} {part : Text} (h : IsOrdinary part) :
    stepSegment here part = here ++ [part] := by
  obtain ⟨hempty, hdot, hup⟩ := h
  simp [stepSegment, hempty, hdot, hup]

/-- A part stays, goes up or goes down. -/
theorem part_cases (part : Text) :
    (part = [] ∨ part = ['.']) ∨ part = ['.', '.'] ∨ IsOrdinary part := by
  unfold IsOrdinary
  by_cases hempty : part = []
  · simp [hempty]
  · by_cases hdot : part = ['.']
    · simp [hdot]
    · by_cases hup : part = ['.', '.']
      · simp [hup]
      · simp [hempty, hdot, hup]

/-! ## Walks -/

theorem walk_cons (here rest : List Text) (part : Text) :
    walk here (part :: rest) = walk (stepSegment here part) rest := rfl

theorem walks_walk (here parts : List Text) : Walks here parts (walk here parts) := by
  induction parts generalizing here with
  | nil => exact .arrived here
  | cons part rest ih =>
    rw [walk_cons]
    rcases part_cases part with hstay | rfl | hdown
    · rw [stepSegment_stay hstay]
      exact .stay hstay (ih here)
    · exact .up (ih here.dropLast)
    · rw [stepSegment_down hdown]
      exact .down hdown (ih (here ++ [part]))

theorem walks_iff {here parts there : List Text} :
    Walks here parts there ↔ there = walk here parts := by
  constructor
  · intro h
    induction h with
    | arrived here => rfl
    | stay h _ ih => rw [ih, walk_cons, stepSegment_stay h]
    | up _ ih => exact ih
    | down h _ ih => rw [ih, walk_cons, stepSegment_down h]
  · intro h
    rw [h]
    exact walks_walk here parts

/-- What a walk ends with was there at its start, or is a part that went down. -/
theorem mem_walk {here parts : List Text} {s : Text} (hs : s ∈ walk here parts) :
    s ∈ here ∨ s ∈ parts ∧ IsOrdinary s := by
  induction parts generalizing here with
  | nil => exact .inl hs
  | cons part rest ih =>
    rw [walk_cons] at hs
    rcases ih hs with hstep | ⟨hrest, hordinary⟩
    · rcases part_cases part with hstay | rfl | hdown
      · rw [stepSegment_stay hstay] at hstep
        exact .inl hstep
      · exact .inl (List.dropLast_subset here hstep)
      · rw [stepSegment_down hdown] at hstep
        rcases List.mem_append.1 hstep with hhere | hpart
        · exact .inl hhere
        · obtain rfl := List.mem_singleton.1 hpart
          exact .inr ⟨List.mem_cons_self, hdown⟩
    · exact .inr ⟨List.mem_cons_of_mem _ hrest, hordinary⟩

/-- Parts that stay make no difference. -/
theorem walk_filter (here parts : List Text) :
    walk here (parts.filter fun s => s ≠ [] ∧ s ≠ ['.']) = walk here parts := by
  induction parts generalizing here with
  | nil => rfl
  | cons part rest ih =>
    by_cases hstay : part = [] ∨ part = ['.']
    · have hout : (part :: rest).filter (fun s => s ≠ [] ∧ s ≠ ['.']) =
          rest.filter fun s => s ≠ [] ∧ s ≠ ['.'] := by
        rcases hstay with rfl | rfl <;> simp
      rw [hout, ih, walk_cons, stepSegment_stay hstay]
    · have hkept : (part :: rest).filter (fun s => s ≠ [] ∧ s ≠ ['.']) =
          part :: rest.filter fun s => s ≠ [] ∧ s ≠ ['.'] := by
        rw [not_or] at hstay
        simp [hstay.1, hstay.2]
      rw [hkept, walk_cons, walk_cons, ih]

theorem walk_of_ordinary {parts : List Text} (h : ∀ s ∈ parts, IsOrdinary s)
    (here : List Text) : walk here parts = here ++ parts := by
  induction parts generalizing here with
  | nil => simp [walk]
  | cons part rest ih =>
    have hrest : ∀ s ∈ rest, IsOrdinary s := fun s hs => h s (List.mem_cons_of_mem _ hs)
    rw [walk_cons, stepSegment_down (h part List.mem_cons_self), ih hrest]
    simp

/-! ## References that stay inside -/

/-- No beginning of the parts has more parts that go up than parts that go down. -/
def StaysInside (parts : List Text) : Prop :=
  ∀ beginning, beginning <+: parts →
    beginning.count ['.', '.'] ≤ beginning.countP fun s => IsOrdinary s

/-- As long as a walk does not go up more often than it went down, and than there are segments to
leave, it leaves what is before these segments alone. -/
theorem walk_append_of_le {parts : List Text} {inner : List Text}
    (h : ∀ beginning, beginning <+: parts →
      beginning.count ['.', '.'] ≤ inner.length + beginning.countP fun s => IsOrdinary s)
    (outer : List Text) : walk (outer ++ inner) parts = outer ++ walk inner parts := by
  induction parts generalizing inner with
  | nil => rfl
  | cons part rest ih =>
    have hcons : ∀ beginning, beginning <+: rest →
        (part :: beginning).count ['.', '.'] ≤
          inner.length + (part :: beginning).countP fun s => IsOrdinary s := by
      intro beginning hprefix
      exact h _ (List.cons_prefix_cons.2 ⟨rfl, hprefix⟩)
    rw [walk_cons, walk_cons]
    rcases part_cases part with hstay | rfl | hdown
    · rw [stepSegment_stay hstay, stepSegment_stay hstay]
      apply ih
      intro beginning hprefix
      have hle := hcons beginning hprefix
      rcases hstay with rfl | rfl <;> simpa [IsOrdinary] using hle
    · -- going up is one of the steps that are counted, so there is a segment to leave
      have hpos : 0 < inner.length := by
        have hle := hcons [] List.nil_prefix
        rw [List.count_cons_self, List.countP_cons_of_neg (by simp [IsOrdinary])] at hle
        exact Nat.lt_of_lt_of_le Nat.zero_lt_one hle
      have hne : inner ≠ [] := List.length_pos_iff.1 hpos
      rw [stepSegment_up, stepSegment_up, List.dropLast_append_of_ne_nil hne]
      apply ih
      intro beginning hprefix
      have hle := hcons beginning hprefix
      rw [List.count_cons_self, List.countP_cons_of_neg (by simp [IsOrdinary])] at hle
      rw [List.length_dropLast]
      omega
    · rw [stepSegment_down hdown, stepSegment_down hdown, List.append_assoc]
      apply ih
      intro beginning hprefix
      have hle := hcons beginning hprefix
      rw [List.count_cons_of_ne hdown.2.2, List.countP_cons_of_pos (by simpa using hdown)] at hle
      rw [List.length_append, List.length_singleton]
      omega

theorem walk_of_staysInside {parts : List Text} (h : StaysInside parts) (outer : List Text) :
    walk outer parts = outer ++ walk [] parts := by
  have hwalk : walk (outer ++ []) parts = outer ++ walk [] parts :=
    walk_append_of_le (fun beginning hprefix => by simpa using h beginning hprefix) outer
  rwa [List.append_nil] at hwalk

/-! ## Absolute paths -/

/-- A path in normal form: slashes at its start, segments that go down with one slash between two of
them, and no slash at its end unless it has no segment. -/
structure IsNormal (path : Text) : Prop where
  written : ∃ slashes : Text, (slashes = "/".toList ∨ slashes = "//".toList) ∧
    path = slashes ++ ['/'].intercalate (segments path)
  ordinary : ∀ s ∈ segments path, IsOrdinary s ∧ '/' ∉ s
  ending : Text.endsWith "/" path = true ↔ segments path = []

theorem segments_absolute (t : Text) : segments (absolute t) = walk [] (Text.parts '/' t) := by
  have hread : segments (absolute t) = walk [] (Text.parts '/'
      (if Text.opensWith "/" t then t else '/' :: t)) :=
    FilePath.segments_ofText (leadingSlashes_cases _)
      (isSegment_walk (by simp) fun _ hs => Text.not_mem_of_mem_parts hs)
  rw [hread]
  split
  · rfl
  · rfl

/-- A text that spells an absolute path with ordinary segments is not changed. -/
theorem absolute_of_spells {p : FilePath} {t : Text} (h : p.Spells t)
    (hordinary : ∀ s ∈ p.segments, IsOrdinary s) : absolute t = t := by
  have hread := FilePath.ofText_of_spells h
  have hrooted : Text.opensWith "/" t = true := by
    rw [h.text]
    rcases h.slashes with hs | hs <;> rw [hs] <;> rfl
  have hslashes : leadingSlashes t = p.slashes := by
    rw [← congrArg FilePath.slashes hread, FilePath.ofText, if_pos hrooted]
  have hsegments : segments t = p.segments := congrArg FilePath.segments hread
  have hwalk : walk [] (Text.parts '/' t) = p.segments := by
    rw [← walk_filter, ← segments, hsegments, walk_of_ordinary hordinary]
    rfl
  rw [absolute, if_pos hrooted, hslashes, hwalk]
  exact h.text.symm

/-- What is written with segments ends with the last of them. -/
theorem intercalate_eq_append {segments : List Text} (h : segments ≠ []) :
    ∃ before last, last ∈ segments ∧ ['/'].intercalate segments = before ++ last := by
  rcases segments.eq_nil_or_concat with hnil | ⟨init, last, rfl⟩
  · exact absurd hnil h
  · have hlast : last ∈ init.concat last := by simp
    rw [List.concat_eq_append] at hlast ⊢
    by_cases hinit : init = []
    · exact ⟨[], last, hlast, by simp [hinit]⟩
    · exact ⟨_, last, hlast, Text.intercalate_concat _ _ hinit⟩

theorem isNormal_of_spells {p : FilePath} {t : Text} (h : p.Spells t)
    (hordinary : ∀ s ∈ p.segments, IsOrdinary s) : IsNormal t := by
  have hsegments : segments t = p.segments :=
    congrArg FilePath.segments (FilePath.ofText_of_spells h)
  have hslash : ∀ s ∈ p.segments, '/' ∉ s := fun s hs => (h.segments s hs).2.2
  constructor
  · exact ⟨p.slashes, h.slashes, hsegments ▸ h.text⟩
  · intro s hs
    rw [hsegments] at hs
    exact ⟨hordinary s hs, hslash s hs⟩
  · rw [hsegments, Text.endsWith, List.isSuffixOf_iff_suffix, h.text]
    constructor
    · intro hends
      apply Classical.byContradiction
      intro hne
      obtain ⟨before, last, hmem, heq⟩ := intercalate_eq_append hne
      rw [heq, ← List.append_assoc] at hends
      obtain ⟨rest, hrest⟩ := hends
      have hlast := congrArg List.getLast? hrest
      rw [List.getLast?_append, List.getLast?_append,
        List.getLast?_eq_some_getLast (hordinary last hmem).1] at hlast
      have hc : '/' = last.getLast (hordinary last hmem).1 := by simpa using hlast
      exact hslash last hmem (hc ▸ List.getLast_mem _)
    · intro hnil
      rw [hnil]
      rcases h.slashes with hs | hs <;> rw [hs]
      · exact List.suffix_rfl
      · exact List.suffix_append ['/'] ['/']

theorem isOrdinary_of_absolute {t : Text} : ∀ s ∈ segments (absolute t), IsOrdinary s := by
  intro s hs
  rw [segments_absolute] at hs
  rcases mem_walk hs with hnone | ⟨-, hordinary⟩
  · cases hnone
  · exact hordinary

/-! ## Paths of components -/

theorem segments_resolve (root reference : Text) :
    segments (resolve root reference) =
      walk (segments (absolute root)) (Text.parts '/' reference) := by
  rw [resolve, segments_absolute, Text.parts_append_cons, walk_append, segments_absolute]

/-- Slashes in front of a reference are parts that stay. -/
theorem walk_slashes {slashes : Text} (h : ∀ c ∈ slashes, c = '/') (here : List Text)
    (reference : Text) : walk here (Text.parts '/' (slashes ++ reference)) =
      walk here (Text.parts '/' reference) := by
  induction slashes with
  | nil => rfl
  | cons c rest ih =>
    obtain ⟨rfl, hrest⟩ := List.forall_mem_cons.1 h
    have hparts : Text.parts '/' ('/' :: (rest ++ reference)) =
        [] :: Text.parts '/' (rest ++ reference) := by
      simp [Text.parts]
    rw [List.cons_append, hparts, walk_cons, stepSegment_stay (.inl rfl), ih hrest]

/-- **The path of a component is reached by a walk from its root.** Whatever root and reference
look like, the path is absolute and in normal form, and making it absolute again does not change it.
Its segments are where one comes to from the segments of the root along the parts of the reference,
and nowhere else. So slashes in front of the reference do not lead away from the root; and as long
as the reference never goes up more often than it went down, the path is that of the root with the
segments of the reference added. -/
theorem resolve_walks (root reference : Text) :
    let path := resolve root reference
    IsNormal path ∧ absolute path = path ∧
      (∀ there, Walks (segments (absolute root)) (Text.parts '/' reference) there ↔
        there = segments path) ∧
      (∀ slashes : Text, (∀ c ∈ slashes, c = '/') →
        segments (resolve root (slashes ++ reference)) = segments path) ∧
      (StaysInside (Text.parts '/' reference) →
        segments path = segments (absolute root) ++ segments (absolute reference)) := by
  intro path
  have hspells : (FilePath.ofText path).Spells path := FilePath.spells_absolute _
  have hordinary : ∀ s ∈ segments path, IsOrdinary s := isOrdinary_of_absolute
  refine ⟨isNormal_of_spells hspells hordinary, absolute_of_spells hspells hordinary, ?_, ?_, ?_⟩
  · intro there
    rw [walks_iff, segments_resolve]
  · intro slashes h
    rw [segments_resolve, segments_resolve, walk_slashes h]
  · intro h
    rw [segments_resolve, walk_of_staysInside h, segments_absolute reference]

/-- Below a root with exactly one slash, the two slashes that come together stay in the path. -/
example : resolve "/" "./x//y/" = "//x/y".toList := by decide

end Hydration.Path
