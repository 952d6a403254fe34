import Hydration.Proofs.Path.Absolute
/-!
# Candidates of an absolute path

The candidates of a path are found by taking it apart and putting it together again with other
names. For an absolute path they are what its text with the ending of source files behind it is read
as, and its text with the name of a package file behind that. But a path whose last segment is more
than this ending, and ends with it, is its only candidate.

* `FilePath.ofText_of_spells`: paths that are written with slashes and segments are read as such.
* `FilePath.suffix_eq_source_iff`: names of source files.
* `candidates_absolute`: the candidates by their texts.
-/
namespace Hydration

/-- The ending of source files. -/
def sourceEnding : Text := ".py"

/-! ## Texts of paths -/

namespace FilePath
variable {p : FilePath} {t : Text}

/-- The text is how an absolute path is written: its slashes, and its segments with a slash between
two. -/
structure Spells (p : FilePath) (t : Text) : Prop where
  text : t = p.slashes ++ ['/'].intercalate p.segments
  slashes : p.slashes = ['/'] ∨ p.slashes = ['/', '/']
  segments : ∀ s ∈ p.segments, IsSegment s

/-- Segments that are written one after the other do not start with a slash. -/
theorem intercalate_ne_slash {segments : List Text} (h : ∀ s ∈ segments, IsSegment s)
    (rest : Text) : ['/'].intercalate segments ≠ '/' :: rest := by
  cases segments with
  | nil => simp
  | cons s more =>
    obtain ⟨hne, -, hslash⟩ := h s List.mem_cons_self
    obtain ⟨c, cs, rfl⟩ := List.exists_cons_of_ne_nil hne
    have hc : c ≠ '/' := fun he => hslash (he ▸ List.mem_cons_self)
    cases more with
    | nil => simpa using fun he => absurd he hc
    | cons s' more =>
      rw [List.intercalate_cons_cons]
      simpa using fun he => absurd he hc

theorem ofText_of_spells (h : p.Spells t) : ofText t = p := by
  obtain ⟨slashes, segments⟩ := p
  obtain ⟨rfl, hslashes, hsegments⟩ := h
  dsimp only at hslashes hsegments ⊢
  have hread : (ofText (slashes ++ ['/'].intercalate segments)).slashes = slashes := by
    have hopen := intercalate_ne_slash hsegments
    generalize ['/'].intercalate segments = rest at hopen
    cases rest with
    | nil => rcases hslashes with rfl | rfl <;> rfl
    | cons c cs =>
      have hc : c ≠ '/' := fun he => hopen cs (he ▸ rfl)
      rcases hslashes with rfl | rfl <;>
        simp [ofText, Path.leadingSlashes, Text.opensWith, hc.symm]
  exact congr (congrArg mk hread) (segments_ofText hslashes hsegments)

theorem spells_absolute (t : Text) : (ofText (Path.absolute t)).Spells (Path.absolute t) := by
  obtain ⟨slashes, segments, htext, hslashes, hsegments⟩ := Path.absolute_eq t
  have h : Spells ⟨slashes, segments⟩ (Path.absolute t) := ⟨htext, hslashes, hsegments⟩
  rwa [ofText_of_spells h]

theorem segments_eq_of_name (h : p.name ≠ []) : p.segments = p.segments.dropLast ++ [p.name] := by
  have hne : p.segments ≠ [] := by
    intro hnil
    rw [name, hnil] at h
    exact h rfl
  rw [name, List.getLast?_eq_some_getLast hne, Option.getD_some, List.dropLast_concat_getLast]

/-- What is written behind segments is written behind the last of them. -/
theorem intercalate_append (before : List Text) (last ending : Text) :
    ['/'].intercalate (before ++ [last]) ++ ending =
      ['/'].intercalate (before ++ [last ++ ending]) := by
  by_cases hbefore : before = []
  · simp [hbefore]
  · rw [Text.intercalate_concat _ _ hbefore, Text.intercalate_concat _ _ hbefore,
      List.append_assoc _ last]

section
variable (h : p.Spells t) (hname : p.name ≠ [])
include h hname

/-- An ending behind the text of a path is one of its last segment. -/
theorem Spells.append {ending : Text} (hne : ending ≠ []) (hslash : '/' ∉ ending) :
    (p.parent.child (p.name ++ ending)).Spells (t ++ ending) where
  text := by
    rw [h.text, List.append_assoc, segments_eq_of_name hname, intercalate_append]
    rfl
  slashes := h.slashes
  segments := by
    have hlast : IsSegment p.name :=
      h.segments _ (segments_eq_of_name hname ▸ List.mem_append_right _ List.mem_cons_self)
    intro s hs
    rcases List.mem_append.1 hs with hs | hs
    · exact h.segments s ((List.dropLast_sublist _).subset hs)
    · obtain rfl := List.mem_singleton.1 hs
      refine ⟨by simp [hname], fun hdot => ?_, by simp [hlast.2.2, hslash]⟩
      have hlength := congrArg List.length hdot
      have := List.length_pos_iff.2 hname
      have := List.length_pos_iff.2 hne
      rw [List.length_append, List.length_singleton] at hlength
      omega

/-- A segment behind the text of a path names a file in it. -/
theorem Spells.child {s : Text} (hs : IsSegment s) : (p.child s).Spells (t ++ '/' :: s) where
  text := by
    have hne : p.segments ≠ [] := by
      rw [segments_eq_of_name hname]
      simp
    rw [h.text, FilePath.child, Text.intercalate_concat _ _ hne]
    simp
  slashes := h.slashes
  segments := by
    intro s' hs'
    rcases List.mem_append.1 hs' with hs' | hs'
    · exact h.segments s' hs'
    · exact List.mem_singleton.1 hs' ▸ hs

/-- The text of a path ends in something without a slash exactly if its last segment does. -/
theorem Spells.suffix_iff {ending : Text} (hslash : '/' ∉ ending) :
    ending <:+ t ↔ ending <:+ p.name := by
  obtain ⟨before, htext⟩ : ∃ before, t = before ++ '/' :: p.name := by
    rw [h.text, segments_eq_of_name hname]
    by_cases hfirst : p.segments.dropLast = []
    · rcases h.slashes with hs | hs <;> rw [hs, hfirst]
      · exact ⟨[], by simp⟩
      · exact ⟨['/'], by simp⟩
    · rw [Text.intercalate_concat _ _ hfirst]
      exact ⟨p.slashes ++ ['/'].intercalate p.segments.dropLast, by simp⟩
  rw [htext]
  constructor
  · intro hending
    rcases List.suffix_or_suffix_of_suffix hending (List.suffix_append before ('/' :: p.name)) with
      hshort | hlong
    · rcases List.suffix_cons_iff.1 hshort with rfl | hsuffix
      · exact absurd List.mem_cons_self hslash
      · exact hsuffix
    · exact absurd (hlong.subset List.mem_cons_self) hslash
  · intro hending
    exact (hending.trans (List.suffix_cons '/' p.name)).trans (List.suffix_append before _)

end

/-! ## Endings of names -/

/-- A name that is cut before its last point is put together again from what it was cut into. -/
theorem splitName_append (name : Text) : (splitName name).1 ++ (splitName name).2 = name := by
  unfold splitName
  dsimp only
  split
  · next h =>
    have hparts := List.takeWhile_append_dropWhile (p := (· ≠ '.')) (l := name.reverse)
    generalize name.reverse.takeWhile (· ≠ '.') = tail at *
    -- the tail is not the whole name, so a point stands before it
    cases hrest : name.reverse.dropWhile (· ≠ '.') with
    | nil =>
      rw [hrest, List.append_nil] at hparts
      rw [hparts, List.reverse_reverse] at h
      exact absurd h.1 (Nat.lt_irrefl _)
    | cons c rest =>
      have hc : c = '.' := by
        have hstop := List.head?_dropWhile_not (· ≠ '.') name.reverse
        rw [hrest] at hstop
        simpa using hstop
      rw [hrest, hc] at hparts
      have hname : name = rest.reverse ++ '.' :: tail.reverse := by
        rw [← List.reverse_reverse name, ← hparts]
        simp
      have hstem : name.length - tail.reverse.length - 1 = rest.reverse.length := by
        rw [hname, List.length_append, List.length_cons]
        omega
      rw [hstem, hname, List.take_left]
  · exact List.append_nil name

theorem splitName_source {stem : Text} (h : stem ≠ []) :
    splitName (stem ++ sourceEnding) = (stem, sourceEnding) := by
  have htail : ((stem ++ sourceEnding).reverse.takeWhile (· ≠ '.')).reverse = ['p', 'y'] := by
    simp [sourceEnding]
  unfold splitName
  rw [htail]
  simp [sourceEnding, h]

theorem suffix_eq_source_iff : p.suffix = sourceEnding ↔
    sourceEnding <:+ p.name ∧ p.name ≠ sourceEnding := by
  constructor
  · intro h
    have hname := splitName_append p.name
    rw [show (splitName p.name).2 = sourceEnding from h] at hname
    refine ⟨⟨_, hname⟩, fun hall => ?_⟩
    rw [suffix, hall] at h
    exact absurd h (by decide)
  · rintro ⟨⟨stem, hname⟩, hne⟩
    have hstem : stem ≠ [] := by
      rintro rfl
      exact hne hname.symm
    rw [suffix, ← hname, splitName_source hstem]

end FilePath

/-! ## Candidates -/

section
variable {t : Text} (hname : (FilePath.ofText (Path.absolute t)).name ≠ [])
include hname

theorem ofText_append_source :
    let p := FilePath.ofText (Path.absolute t)
    FilePath.ofText (Path.absolute t ++ sourceEnding) = p.parent.child (p.name ++ sourceEnding) :=
  FilePath.ofText_of_spells
    ((FilePath.spells_absolute t).append hname (by decide) (by decide))

theorem ofText_append_package :
    FilePath.ofText (Path.absolute t ++ '/' :: packageFile) =
      (FilePath.ofText (Path.absolute t)).child packageFile :=
  FilePath.ofText_of_spells ((FilePath.spells_absolute t).child hname (by unfold IsSegment; decide))

/-- The candidates of an absolute path that has a last segment. -/
theorem candidates_absolute :
    let path := Path.absolute t
    candidates path = .ok (
      if sourceEnding <:+ path ∧ (FilePath.ofText path).name ≠ sourceEnding then
        [FilePath.ofText path]
      else [FilePath.ofText (path ++ sourceEnding), FilePath.ofText (path ++ '/' :: packageFile)]) := by
  intro path
  have hsuffix := FilePath.suffix_eq_source_iff (p := FilePath.ofText path)
  rw [← (FilePath.spells_absolute t).suffix_iff hname (by decide)] at hsuffix
  rw [candidates, ofText_append_source hname, ofText_append_package hname,
    show ".py".toList = sourceEnding from rfl, if_neg hname]
  simp only [path, hsuffix]
  split <;> rfl

/-- An absolute path names another file than the two that are made from it. -/
theorem ofText_absolute_ne :
    FilePath.ofText (Path.absolute t ++ sourceEnding) ≠ FilePath.ofText (Path.absolute t) ∧
      FilePath.ofText (Path.absolute t ++ '/' :: packageFile) ≠
        FilePath.ofText (Path.absolute t) := by
  rw [ofText_append_source hname, ofText_append_package hname]
  refine ⟨fun h => ?_, fun h => ?_⟩
  · have hnames := congrArg (fun p => p.name.length) h
    simp [FilePath.name, FilePath.child, sourceEnding] at hnames
  · have hlengths := congrArg (fun p => p.segments.length) h
    simp [FilePath.child] at hlengths

end

end Hydration
