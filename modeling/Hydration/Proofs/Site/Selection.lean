import Hydration.Proofs.Path.Candidates
import Hydration.Proofs.Site.Resolution
/-!
# Which file a module is loaded from

A module is looked for in up to three files: at its path, if that ends as source files do, at the
path with this ending behind it, and in the package file of the directory at the path. It is loaded
from the first of them that is there. But a path that ends as source files do is looked at alone,
and a path whose last segment is nothing but this ending is not looked at.

* `Site.moduleFile?_eq_firstInOrder_iff`: when the file that is found is the first of the three.
* `Action.loadModule_order`: what is loaded, and when no file is found.
-/
namespace Hydration

namespace Site
variable {s : Site} {path : Text}

/-- The component file at a path that is a text, with that path. -/
def fileAt? (s : Site) (t : Text) : Option (FilePath × ComponentFile) :=
  (s.componentFile? (FilePath.ofText t)).map fun file => (FilePath.ofText t, file)

/-- The file beside a path from which its module is loaded: the source file of that name, or else the
package file in the directory. -/
def fileBeside? (s : Site) (path : Text) : Option (FilePath × ComponentFile) :=
  (s.fileAt? (path ++ sourceEnding)).or (s.fileAt? (path ++ '/' :: packageFile))

/-- The files in which a module may be, in order. -/
def searchOrder (path : Text) : List Text :=
  (if sourceEnding <:+ path then [path] else []) ++
    [path ++ sourceEnding, path ++ '/' :: packageFile]

/-- The first file in this order that is there. -/
def firstInOrder (s : Site) (path : Text) : Option (FilePath × ComponentFile) :=
  (searchOrder path).findSome? s.fileAt?

/-- The file that is found is the first in order: a path that is nothing but the ending of source
files is no file, and one that ends with it is a file unless none of the three is. -/
structure KeepsOrder (s : Site) (path : Text) : Prop where
  bare : (FilePath.ofText path).name = sourceEnding → s.fileAt? path = none
  source : sourceEnding <:+ path → (FilePath.ofText path).name ≠ sourceEnding →
    s.fileAt? path = none → s.fileBeside? path = none

theorem firstInOrder_eq_none_iff :
    s.firstInOrder path = none ↔ ∀ t ∈ searchOrder path, s.fileAt? t = none :=
  List.findSome?_eq_none_iff

theorem findSome?_cons_eq_or {α β : Type} (f : α → Option β) (x : α) (rest : List α) :
    (x :: rest).findSome? f = (f x).or (rest.findSome? f) := by
  rw [List.findSome?_cons]
  cases f x <;> rfl

theorem firstInOrder_eq (s : Site) (path : Text) :
    s.firstInOrder path =
      if sourceEnding <:+ path then (s.fileAt? path).or (s.fileBeside? path)
      else s.fileBeside? path := by
  unfold firstInOrder searchOrder fileBeside?
  split
  · simp only [List.cons_append, List.nil_append, findSome?_cons_eq_or, List.findSome?_nil,
      Option.or_none]
  · simp only [List.nil_append, findSome?_cons_eq_or, List.findSome?_nil, Option.or_none]

theorem fst_of_fileAt? {t : Text} {found : FilePath × ComponentFile}
    (h : s.fileAt? t = some found) : found.1 = FilePath.ofText t := by
  obtain ⟨file, -, rfl⟩ := Option.map_eq_some_iff.1 h
  rfl

section
variable {t : Text} (hname : (FilePath.ofText (Path.absolute t)).name ≠ [])
include hname

/-- The file that is found, by the texts of the paths. -/
theorem moduleFile?_absolute :
    let path := Path.absolute t
    s.moduleFile? path =
      if sourceEnding <:+ path ∧ (FilePath.ofText path).name ≠ sourceEnding then s.fileAt? path
      else s.fileBeside? path := by
  intro path
  rw [moduleFile?, candidateFiles, candidates_absolute hname]
  dsimp only [Except.toOption, Option.getD_some]
  split
  · exact (findSome?_cons_eq_or ..).trans (Option.or_none ..)
  · refine (findSome?_cons_eq_or ..).trans ?_
    exact congrArg _ ((findSome?_cons_eq_or ..).trans (Option.or_none ..))

/-- A file that is found beside a path is not the one at the path. -/
theorem fileBeside?_eq_or_iff :
    s.fileBeside? (Path.absolute t) =
        (s.fileAt? (Path.absolute t)).or (s.fileBeside? (Path.absolute t)) ↔
      s.fileAt? (Path.absolute t) = none := by
  obtain ⟨hsource, hpackage⟩ := ofText_absolute_ne hname
  cases hfile : s.fileAt? (Path.absolute t) with
  | none => simp
  | some found =>
    refine iff_of_false (fun hbeside => ?_) (by simp)
    rcases Option.or_eq_some_iff.1 hbeside with h | ⟨-, h⟩
    · exact hsource ((fst_of_fileAt? h).symm.trans (fst_of_fileAt? hfile))
    · exact hpackage ((fst_of_fileAt? h).symm.trans (fst_of_fileAt? hfile))

theorem moduleFile?_eq_firstInOrder_iff :
    s.moduleFile? (Path.absolute t) = s.firstInOrder (Path.absolute t) ↔
      s.KeepsOrder (Path.absolute t) := by
  rw [moduleFile?_absolute hname, firstInOrder_eq]
  by_cases hends : sourceEnding <:+ Path.absolute t
  · rw [if_pos hends]
    by_cases hbare : (FilePath.ofText (Path.absolute t)).name = sourceEnding
    · rw [if_neg fun h => h.2 hbare, fileBeside?_eq_or_iff hname]
      exact ⟨fun h => ⟨fun _ => h, fun _ hne => absurd hbare hne⟩, fun h => h.bare hbare⟩
    · rw [if_pos ⟨hends, hbare⟩]
      refine ⟨fun h => ⟨fun he => absurd he hbare, fun _ _ hnone => ?_⟩, fun h => ?_⟩
      · rw [hnone, Option.none_or] at h
        exact h.symm
      · cases hfile : s.fileAt? (Path.absolute t) with
        | some found => rfl
        | none => exact (h.source hends hbare hfile).symm
  · have hbare : (FilePath.ofText (Path.absolute t)).name ≠ sourceEnding := fun h =>
      hends (((FilePath.spells_absolute t).suffix_iff hname (by decide)).2 (h ▸ List.suffix_rfl))
    rw [if_neg hends, if_neg fun h => hends h.1]
    exact iff_of_true rfl ⟨fun h => absurd h hbare, fun h => absurd h hends⟩

end

/-- What a load gives, once the file is known. -/
def loadedFrom (s : Site) (path : Text) :
    Option (FilePath × ComponentFile) → Except Failure LoadedModule
  | none => .error (.resolution path .noFile)
  | some (source, file) =>
    match file.importFault? with
    | none => .ok ⟨s.loads, source, file, 0⟩
    | some raised => raised.bind fun message => .error (.resolution path (.importFailed message))

/-- A file that is there is loaded, or its import fails. -/
theorem loadedFrom_eq_noFile_iff {first : Option (FilePath × ComponentFile)} :
    s.loadedFrom path first = .error (.resolution path .noFile) ↔ first = none := by
  rcases first with _ | ⟨source, file⟩
  · exact iff_of_true rfl rfl
  · refine iff_of_false (fun h => ?_) (by simp)
    rw [loadedFrom] at h
    rcases hfault : file.importFault? with _ | (f | message)
    · rw [hfault] at h
      cases h
    · rw [hfault] at h
      cases ComponentFile.importFault?_error hfault
      cases h
    · rw [hfault] at h
      cases h

end Site

namespace Action
open Site
variable {s : Site} {path : Text}

theorem loadModule_of_found (hnew : s.modules.lookup? path = none)
    {first : Option (FilePath × ComponentFile)} (h : s.found path = .ok first) :
    ((loadModule path).outcome s).1 = s.loadedFrom path first := by
  rw [outcome_loadModule_of_none hnew]
  rcases first with _ | ⟨source, file⟩
  · simp only [fresh, h, loadedFrom]
  · rcases hfault : file.importFault? with _ | (f | message) <;>
      simp only [fresh, h, loadedFrom, hfault] <;> rfl

/-- No module file is what is told exactly if the search ends and finds none. -/
theorem loadModule_noFile_iff (hnew : s.modules.lookup? path = none) :
    ((loadModule path).outcome s).1 = .error (.resolution path .noFile) ↔
      s.found path = .ok none := by
  by_cases hsearch : s.Searchable path
  · have hfound := found_of_searchable hsearch
    rw [loadModule_of_found hnew hfound, loadedFrom_eq_noFile_iff, hfound, Except.ok.injEq]
  · obtain ⟨f, hload, hf⟩ := loadModule_of_not_searchable hnew hsearch
    obtain ⟨e, hfound, -⟩ := found_of_not_searchable hsearch
    rw [hload, hfound]
    refine iff_of_false (fun h => ?_) (by simp)
    cases h
    exact hf rfl

/-- **The first file in order is loaded.** Take an absolute path that has a last segment, and whose
module is not remembered. The search finds the first file in order exactly if no path that it looks
at is too long, and the path keeps to the order. The module is loaded from the file that the search
finds, and it is told that there is no module file exactly if the search ends without one; where the
order is kept, that is if there is none of the files. -/
theorem loadModule_order (t : Text) {s : Site}
    (hname : (FilePath.ofText (Path.absolute t)).name ≠ [])
    (hnew : s.modules.lookup? (Path.absolute t) = none) :
    let path := Path.absolute t
    let result := ((loadModule path).outcome s).1
    let short := ∀ p ∈ s.lookedAt (candidateFiles path), s.isTooLong p = false
    (s.found path = .ok (s.firstInOrder path) ↔ short ∧ s.KeepsOrder path) ∧
      (∀ first, s.found path = .ok first → result = s.loadedFrom path first) ∧
      (result = .error (.resolution path .noFile) ↔ s.found path = .ok none) ∧
      (short → s.KeepsOrder path →
        (result = .error (.resolution path .noFile) ↔
          ∀ u ∈ searchOrder path, s.fileAt? u = none)) := by
  intro path result short
  have hfirst : s.found path = .ok (s.firstInOrder path) ↔ short ∧ s.KeepsOrder path := by
    rw [← moduleFile?_eq_firstInOrder_iff hname]
    constructor
    · intro hfound
      by_cases hsearch : s.Searchable path
      · exact ⟨hsearch.short, Except.ok.inj ((found_of_searchable hsearch).symm.trans hfound)⟩
      · obtain ⟨f, hf, -⟩ := found_of_not_searchable hsearch
        cases hf.symm.trans hfound
    · rintro ⟨hshort, hfile⟩
      rw [found_of_searchable ⟨hname, hshort⟩, hfile]
  refine ⟨hfirst, fun first h => loadModule_of_found hnew h, loadModule_noFile_iff hnew,
    fun hshort hkeeps => ?_⟩
  rw [← firstInOrder_eq_none_iff, show result = _ ↔ _ from loadModule_noFile_iff hnew,
    hfirst.2 ⟨hshort, hkeeps⟩, Except.ok.injEq]

/-- A site with one component file, under the directory of component files. -/
def siteWith (segments : List Text) (file : ComponentFile) : Site :=
  { Site.start (.dict []) [] with files := Files.empty.write segments file }

/-- A component whose name has a point in it, in a source file of that name. -/
theorem loadModule_order_source :
    let file : ComponentFile := ⟨.hello, .none⟩
    let s := siteWith ["chart.v2.py".toList] file
    ((loadModule (Path.absolute "/vfs/chart.v2")).outcome s).1 =
      .ok ⟨0, FilePath.ofText "/vfs/chart.v2.py", file, 0⟩ := by
  intro file s
  obtain ⟨hfirst, hloaded, -, -⟩ := loadModule_order (s := s) "/vfs/chart.v2" (by decide) rfl
  exact hloaded _ (hfirst.2 ⟨by decide, ⟨by decide, by decide⟩⟩)

/-- A package whose directory ends as source files do is not looked into. -/
theorem sourceDirectory_not_found :
    let file : ComponentFile := ⟨.hello, .none⟩
    let s := siteWith ["chart.py".toList, packageFile] file
    let path := Path.absolute "/vfs/chart.py"
    s.firstInOrder path = some (FilePath.ofText "/vfs/chart.py/__init__.py", file) ∧
      ((loadModule path).outcome s).1 = .error (.resolution path .noFile) :=
  ⟨rfl, rfl⟩

end Action
end Hydration
