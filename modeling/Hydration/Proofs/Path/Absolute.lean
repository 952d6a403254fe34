import Hydration.Path
import Hydration.Proofs.Text.Parts
/-!
# Absolute paths as paths of files

An absolute path is written with the segments that are left after walking its text. Read as the path
of a file, it has just these segments. So the files of a component can be named unless nothing is
left, that is, unless the path is the root directory, in one of its two spellings.

* `segments_ofText_absolute`: reading an absolute path gives the segments that were walked.
* `name_ofText_absolute_eq_nil_iff`: only the root directory has no last segment.
* `candidates_of_name_eq_nil`, `candidates_of_name_ne_nil`: a path has candidates if it has a last
  segment.
-/
namespace Hydration

/-! ## Segments -/

/-- A segment that is written in an absolute path. -/
def IsSegment (s : Text) : Prop := s ≠ [] ∧ s ≠ ['.'] ∧ '/' ∉ s

namespace Path

theorem isSegment_stepSegment {segments : List Text} {segment : Text}
    (h : ∀ s ∈ segments, IsSegment s) (hslash : '/' ∉ segment) :
    ∀ s ∈ stepSegment segments segment, IsSegment s := by
  unfold stepSegment
  split
  · exact h
  · next hkept =>
    split
    · exact fun s hs => h s ((List.dropLast_sublist _).subset hs)
    · intro s hs
      rcases List.mem_append.1 hs with hs | hs
      · exact h s hs
      · obtain rfl := List.mem_singleton.1 hs
        exact ⟨fun he => hkept (.inl he), fun he => hkept (.inr he), hslash⟩

theorem isSegment_walk {start steps : List Text} (hstart : ∀ s ∈ start, IsSegment s)
    (hsteps : ∀ s ∈ steps, '/' ∉ s) : ∀ s ∈ walk start steps, IsSegment s := by
  induction steps generalizing start with
  | nil => exact hstart
  | cons step rest ih =>
    refine ih (isSegment_stepSegment hstart (hsteps step List.mem_cons_self)) fun s hs => ?_
    exact hsteps s (List.mem_cons_of_mem _ hs)

theorem leadingSlashes_cases (t : Text) : leadingSlashes t = ['/'] ∨ leadingSlashes t = ['/', '/'] := by
  unfold leadingSlashes
  split
  · exact .inr rfl
  · exact .inl rfl

/-- An absolute path is its slashes and the segments that were walked, with a slash between two. -/
theorem absolute_eq (t : Text) : ∃ slashes segments,
    absolute t = slashes ++ ['/'].intercalate segments ∧
      (slashes = ['/'] ∨ slashes = ['/', '/']) ∧ ∀ s ∈ segments, IsSegment s :=
  ⟨_, _, rfl, leadingSlashes_cases _,
    isSegment_walk (by simp) fun _ hs => Text.not_mem_of_mem_parts hs⟩

end Path

namespace FilePath

/-- Slashes and segments are read as they are written. -/
theorem segments_ofText {slashes : Text} {segments : List Text}
    (hslashes : slashes = ['/'] ∨ slashes = ['/', '/']) (h : ∀ s ∈ segments, IsSegment s) :
    (ofText (slashes ++ ['/'].intercalate segments)).segments = segments := by
  have hkept : segments.filter (fun s => decide (s ≠ [] ∧ s ≠ ['.'])) = segments :=
    List.filter_eq_self.2 fun s hs => decide_eq_true ⟨(h s hs).1, (h s hs).2.1⟩
  have hparts : (Text.parts '/' (['/'].intercalate segments)).filter
      (fun s => decide (s ≠ [] ∧ s ≠ ['.'])) = segments := by
    rcases segments.eq_nil_or_concat with rfl | hne
    · rfl
    · have hne : segments ≠ [] := by
        obtain ⟨_, _, rfl⟩ := hne
        simp
      rw [Text.parts_eq_splitOn, List.splitOn_intercalate '/' (fun s hs => (h s hs).2.2) hne, hkept]
  rcases hslashes with rfl | rfl
  · simpa [ofText, Text.parts] using hparts
  · simpa [ofText, Text.parts] using hparts

theorem name_ofText_absolute_eq_nil_iff (t : Text) :
    (ofText (Path.absolute t)).name = [] ↔
      Path.absolute t = ['/'] ∨ Path.absolute t = ['/', '/'] := by
  constructor
  · intro hname
    obtain ⟨slashes, segments, hpath, hslashes, hsegments⟩ := Path.absolute_eq t
    rw [hpath, name, segments_ofText hslashes hsegments] at hname
    rcases segments.eq_nil_or_concat with rfl | ⟨init, last, rfl⟩
    · simpa [hpath] using hslashes
    · have hlast : last = [] := by simpa using hname
      exact absurd hlast (hsegments last (by simp)).1
  · rintro (h | h) <;> rw [h] <;> rfl

end FilePath

theorem candidates_of_name_eq_nil {path : Text} (h : (FilePath.ofText path).name = []) :
    candidates path = .error (.value (.emptyName (FilePath.ofText path).toText)) := by
  have hsuffix : (FilePath.ofText path).suffix = [] := by
    rw [FilePath.suffix, h]
    rfl
  simp [candidates, h, hsuffix]

theorem candidates_of_name_ne_nil {path : Text} (h : (FilePath.ofText path).name ≠ []) :
    ∃ sources, candidates path = .ok sources := by
  simp only [candidates, if_neg h]
  split
  · exact ⟨_, rfl⟩
  · exact ⟨_, rfl⟩

end Hydration
