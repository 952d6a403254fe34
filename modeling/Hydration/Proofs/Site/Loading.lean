import Hydration.Proofs.Site.Pages
import Hydration.Session
/-!
# What is loaded from the files

A module that is not in the cache is loaded from the component files: from the first of its
candidates that is there, unless that file cannot be imported. What comes of it and what is logged
depends on the files only; the cache and the count of loads change only if it succeeds.

* `outcome_loadModule_of_none`: a load from the files, with all that it does to the site.
* `entries_loadModule`: a module that a load gives is the one that was used last.
* `modules_loadModule_of_error`: a load that fails leaves the cache as it is.
-/
namespace Hydration

namespace Site
variable {s t : Site} {path : Text} {source : FilePath} {file : ComponentFile}

/-- The first of the candidates of a path that is there. -/
def found (s : Site) (path : Text) : Except Failure (Option (FilePath × ComponentFile)) := do
  s.firstFile (← candidates path)

/-- The file that the module of a path is loaded from, or why it cannot be loaded. -/
def fresh (s : Site) (path : Text) : Except Failure (FilePath × ComponentFile) :=
  match s.found path with
  | .error f => .error f
  | .ok none => .error (.resolution path .noFile)
  | .ok (some (source, file)) =>
    match file.importFault? with
    | none => .ok (source, file)
    | some (.error f) => .error f
    | some (.ok message) => .error (.resolution path (.importFailed message))

/-- What a load from the files writes into the log. -/
def freshLog (s : Site) (path : Text) : List LogRecord :=
  match s.found path with
  | .error _ => []
  | .ok none => [⟨.error, .components, "Component module not found for path=" ++ path⟩]
  | .ok (some (source, file)) =>
    match file.importFault? with
    | none =>
      [⟨.debug, .components, "Component module loaded: " ++ path ++ " -> " ++ source.toText⟩]
    | some _ => [⟨.error, .components, "Component import failed (" ++ source.toText ++ ")"⟩]

theorem found_eq (h : s.firstFile = t.firstFile) : s.found = t.found := by
  funext path
  rw [found, found, h]

theorem fresh_eq (h : s.firstFile = t.firstFile) : s.fresh = t.fresh := by
  funext path
  rw [fresh, fresh, found_eq h]

theorem freshLog_eq (h : s.firstFile = t.firstFile) : s.freshLog = t.freshLog := by
  funext path
  rw [freshLog, freshLog, found_eq h]

theorem fresh_of_files (h : s.files = t.files) : s.fresh = t.fresh :=
  fresh_eq (funext (firstFile_eq h))

theorem found_of_fresh (h : s.fresh path = .ok (source, file)) :
    s.found path = .ok (some (source, file)) ∧ file.importFault? = none := by
  unfold fresh at h
  split at h
  · cases h
  · cases h
  · split at h
    · cases h
      exact ⟨‹_›, ‹_›⟩
    · cases h
    · cases h

theorem freshLog_of_files (h : s.files = t.files) : s.freshLog = t.freshLog :=
  freshLog_eq (funext (firstFile_eq h))

theorem freshLog_of_fresh (h : s.fresh path = .ok (source, file)) :
    s.freshLog path =
      [⟨.debug, .components, "Component module loaded: " ++ path ++ " -> " ++ source.toText⟩] := by
  obtain ⟨hfound, hfault⟩ := found_of_fresh h
  simp only [freshLog, hfound, hfault]

theorem componentFile?_of_firstFile {sources : List FilePath}
    (h : s.firstFile sources = .ok (some (source, file))) :
    s.componentFile? source = some file := by
  induction sources with
  | nil => cases h
  | cons p rest ih =>
    rw [firstFile] at h
    split at h
    · cases h
    · split at h
      · next hfile =>
        cases h
        exact hfile
      · exact ih h

/-- A component file that is found is in the tree of files. -/
theorem mem_entries_of_componentFile? {p : FilePath} (h : s.componentFile? p = some file) :
    ∃ e ∈ s.files.entries, e.2 = some file := by
  simp only [componentFile?, Files.find?, Option.bind_eq_bind, Option.bind_eq_some_iff] at h
  obtain ⟨segments, -, place, -, entry, hentry, rfl⟩ := h
  rw [Files.lookup?] at hentry
  split at hentry
  · cases hentry
  · obtain ⟨before, after, hentries, -⟩ := List.lookup_eq_some_iff.1 hentry
    rw [hentries]
    exact ⟨_, List.mem_append_right _ List.mem_cons_self, rfl⟩

theorem mem_entries_of_fresh (h : s.fresh path = .ok (source, file)) :
    ∃ e ∈ s.files.entries, e.2 = some file := by
  obtain ⟨hfound, -⟩ := found_of_fresh h
  rw [found] at hfound
  cases hsources : candidates path with
  | error f =>
    rw [hsources] at hfound
    cases hfound
  | ok sources =>
    rw [hsources] at hfound
    exact mem_entries_of_componentFile? (componentFile?_of_firstFile hfound)

end Site

namespace Action
variable {s t : Site} {path : Text} {m : LoadedModule}

/-- A load from the files: its result and the site after it. -/
theorem outcome_loadModule_of_none (h : s.modules.lookup? path = none) :
    (loadModule path).outcome s =
      match s.fresh path with
      | .error f => (.error f, { s with log := s.log ++ s.freshLog path })
      | .ok (source, file) =>
        (.ok ⟨s.loads, source, file, 0⟩,
          { s with
            modules := s.modules.store path ⟨s.loads, source, file, 0⟩
            loads := s.loads + 1
            log := s.log ++ s.freshLog path }) := by
  simp only [loadModule, outcome_bind, outcome_get, h, outcome_ofExcept, Site.fresh, Site.freshLog,
    Site.found]
  rcases candidates path with f | sources
  · simp [bind, Except.bind]
  · rw [show (Except.ok sources >>= s.firstFile) = s.firstFile sources from rfl]
    dsimp only
    rcases s.firstFile sources with f | (_ | ⟨source, file⟩)
    · simp
    · simp
    · simp only [importFile]
      rcases file.importFault? with _ | (f | message)
      · simp [Except.map]
      · simp
      · simp

theorem entries_loadModule (h : (loadModule path).outcome s = (.ok m, t)) :
    ∃ rest, t.modules.entries = (path, m) :: rest := by
  cases hc : s.modules.lookup? path with
  | some cached =>
    rw [outcome_loadModule_of_some hc] at h
    cases h
    exact ⟨_, rfl⟩
  | none =>
    rw [outcome_loadModule_of_none hc] at h
    split at h
    · cases h
    · cases h
      exact ⟨_, rfl⟩

section
variable {f : Failure} (h : ((loadModule path).outcome s).1 = .error f)
include h

/-- What is in the cache does not fail to load. -/
theorem lookup?_of_error : s.modules.lookup? path = none := by
  cases hc : s.modules.lookup? path with
  | none => rfl
  | some cached =>
    rw [outcome_loadModule_of_some hc] at h
    cases h

theorem modules_loadModule_of_error : ((loadModule path).outcome s).2.modules = s.modules := by
  have hload := outcome_loadModule_of_none (lookup?_of_error h)
  rw [hload] at h ⊢
  split at h
  · rfl
  · cases h

end
end Action
end Hydration
