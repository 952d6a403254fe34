import Hydration.Proofs.Component.Answers
import Hydration.Proofs.Path.Absolute
import Hydration.Proofs.Site.Loading
import Hydration.Proofs.Site.Script
/-!
# Paths that lead to no component

A path leads to a component if its module is remembered or can be loaded, and shows something that
can be called. There are three reasons why a path does not: there is no module file, the module
cannot be imported, or it shows nothing that can be called. All three are told by one kind of
failure, with the path, and nothing else is. But before a reason is found, the search for the module
file may fail by itself: at the root directory, which names no file, and at a candidate that is too
long to be looked up.

* `found_of_searchable`, `found_of_not_searchable`: searches that come to an end, and those that do
  not.
* `outcome_loadModule_fst`: what a load gives.
* `resolution_failures`: exactly which components are not resolved; any other failure is that of
  the component.
-/
namespace Hydration
namespace Site

/-! ## The module file of a path -/

/-- The candidates of a path, none if it names no file. -/
def candidateFiles (path : Text) : List FilePath := (candidates path).toOption.getD []

/-- The module file of a path: the first of its candidates at which there is a file. -/
def moduleFile? (s : Site) (path : Text) : Option (FilePath × ComponentFile) :=
  (candidateFiles path).findSome? fun p => (s.componentFile? p).map fun file => (p, file)

/-- The paths that a search looks at: all up to the first at which there is a file. -/
def lookedAt (s : Site) : List FilePath → List FilePath
  | [] => []
  | p :: rest => p :: if (s.componentFile? p).isSome then [] else s.lookedAt rest

/-- The search for the module file of a path comes to an end: the path names a file, and no
candidate that is looked at is too long. -/
structure Searchable (s : Site) (path : Text) : Prop where
  named : (FilePath.ofText path).name ≠ []
  short : ∀ p ∈ s.lookedAt (candidateFiles path), s.isTooLong p = false

variable {s : Site} {path : Text} {source : FilePath} {file : ComponentFile}

theorem firstFile_of_short {sources : List FilePath}
    (h : ∀ p ∈ s.lookedAt sources, s.isTooLong p = false) :
    s.firstFile sources =
      .ok (sources.findSome? fun p => (s.componentFile? p).map fun file => (p, file)) := by
  induction sources with
  | nil => rfl
  | cons p rest ih =>
    have hp : s.isTooLong p = false := h p List.mem_cons_self
    rw [firstFile, if_neg (by simp [hp]), List.findSome?_cons]
    cases hfile : s.componentFile? p with
    | some file => rfl
    | none =>
      refine ih fun q hq => h q ?_
      simp [lookedAt, hfile, hq]

theorem firstFile_of_tooLong {sources : List FilePath}
    (h : ∃ p ∈ s.lookedAt sources, s.isTooLong p = true) :
    ∃ p, s.firstFile sources = .error (.nameTooLong p) := by
  induction sources with
  | nil => simp [lookedAt] at h
  | cons p rest ih =>
    rw [firstFile]
    cases hp : s.isTooLong p with
    | true => exact ⟨_, rfl⟩
    | false =>
      obtain ⟨q, hq, hlong⟩ := h
      rcases List.mem_cons.1 hq with rfl | hq
      · simp [hp] at hlong
      · cases hfile : s.componentFile? p with
        | some file => simp [hfile] at hq
        | none => exact ih ⟨q, by simpa [hfile] using hq, hlong⟩

theorem found_of_searchable (h : s.Searchable path) : s.found path = .ok (s.moduleFile? path) := by
  obtain ⟨sources, hsources⟩ := candidates_of_name_ne_nil h.named
  have hfiles : candidateFiles path = sources := by rw [candidateFiles, hsources]; rfl
  rw [found, moduleFile?, hsources, hfiles]
  exact firstFile_of_short (hfiles ▸ h.short)

/-- A search that does not come to an end fails, but not for lack of a component. -/
theorem found_of_not_searchable (h : ¬ s.Searchable path) :
    ∃ f, s.found path = .error f ∧ f.kind ≠ .resolution := by
  by_cases hname : (FilePath.ofText path).name = []
  · refine ⟨.value (.emptyName (FilePath.ofText path).toText), ?_, by simp [Failure.kind]⟩
    rw [found, candidates_of_name_eq_nil hname]
    rfl
  · obtain ⟨sources, hsources⟩ := candidates_of_name_ne_nil hname
    have hfiles : candidateFiles path = sources := by rw [candidateFiles, hsources]; rfl
    by_cases hlong : ∃ p ∈ s.lookedAt sources, s.isTooLong p = true
    · obtain ⟨p, hp⟩ := firstFile_of_tooLong hlong
      refine ⟨.nameTooLong p, ?_, by simp [Failure.kind]⟩
      rw [found, hsources]
      exact hp
    · refine absurd ⟨hname, fun p hp => ?_⟩ h
      exact Bool.eq_false_iff.2 fun htrue => hlong ⟨p, hfiles ▸ hp, htrue⟩

/-! ## The module of a path, and reasons for having no component -/

/-- The module that a path leads to: the one that is remembered, or else the one that its module
file is loaded to. -/
inductive Provides (s : Site) (path : Text) : LoadedModule → Prop
  | remembered {m : LoadedModule} : s.modules.lookup? path = some m → Provides s path m
  | loaded {source : FilePath} {file : ComponentFile} : s.modules.lookup? path = none →
    s.moduleFile? path = some (source, file) → file.importFault? = none →
    Provides s path ⟨s.loads, source, file, 0⟩

/-- A path leads to no component that is shown under a name, and why. The exception that an import
raises may be one without a text. -/
inductive Unresolved (s : Site) (name path : Text) : Except Failure ResolutionFault → Prop
  | noFile : s.modules.lookup? path = none → s.moduleFile? path = none →
    Unresolved s name path (.ok .noFile)
  | importFailed {source : FilePath} {file : ComponentFile} {raised : Except Failure Text} :
    s.modules.lookup? path = none → s.moduleFile? path = some (source, file) →
    file.importFault? = some raised → Unresolved s name path (raised.map .importFailed)
  | notCallable {m : LoadedModule} : s.Provides path m →
    (∀ b, m.file.member name ≠ .callable b) → Unresolved s name path (.ok (.notCallable name))

/-- Nothing stands in the way of finding the module of a path: it is remembered, or the search for
its file comes to an end. -/
def Findable (s : Site) (path : Text) : Prop :=
  (∃ m, s.modules.lookup? path = some m) ∨ s.Searchable path

theorem Findable.searchable (h : s.Findable path) (hnew : s.modules.lookup? path = none) :
    s.Searchable path := by
  obtain ⟨m, hm⟩ | hsearch := h
  · rw [hnew] at hm
    cases hm
  · exact hsearch

theorem currentConfig_eq {t : Site} (hconfig : t.config = s.config)
    (hsettings : t.settings = s.settings) : t.currentConfig = s.currentConfig := by
  rw [currentConfig, currentConfig, hconfig, hsettings]

end Site

theorem ComponentFile.importFault?_error {f : ComponentFile} {e : Failure}
    (h : f.importFault? = some (.error e)) : e = .noText := by
  unfold importFault? at h
  split at h
  · exact Value.toText_error (Option.some.inj h)
  · cases h

namespace Action
open Site
variable {s : Site} {path name : Text} {m : LoadedModule}

/-! ## Loading the module -/

theorem currentConfig_loadModule (s : Site) (path : Text) :
    ((loadModule path).outcome s).2.currentConfig = s.currentConfig := by
  cases h : s.modules.lookup? path with
  | some m =>
    rw [outcome_loadModule_of_some h]
    exact currentConfig_eq rfl rfl
  | none =>
    rw [outcome_loadModule_of_none h]
    split <;> exact currentConfig_eq rfl rfl

section
variable (hnew : s.modules.lookup? path = none)
include hnew

theorem loadModule_of_fresh_error {f : Failure} (h : s.fresh path = .error f) :
    ((loadModule path).outcome s).1 = .error f := by
  rw [outcome_loadModule_of_none hnew, h]

theorem loadModule_of_not_searchable (h : ¬ s.Searchable path) :
    ∃ f, ((loadModule path).outcome s).1 = .error f ∧ f.kind ≠ .resolution := by
  obtain ⟨f, hfound, hf⟩ := found_of_not_searchable h
  exact ⟨f, loadModule_of_fresh_error hnew (by simp only [fresh, hfound]), hf⟩

variable (hsearch : s.Searchable path)
include hsearch

theorem loadModule_of_noFile (hfile : s.moduleFile? path = none) :
    ((loadModule path).outcome s).1 = .error (.resolution path .noFile) :=
  loadModule_of_fresh_error hnew (by simp only [fresh, found_of_searchable hsearch, hfile])

theorem loadModule_of_importFailed {source : FilePath} {file : ComponentFile}
    {raised : Except Failure Text} (hfile : s.moduleFile? path = some (source, file))
    (hfault : file.importFault? = some raised) :
    ((loadModule path).outcome s).1 =
      raised.bind fun message => .error (.resolution path (.importFailed message)) := by
  cases raised with
  | error f =>
    exact loadModule_of_fresh_error hnew (by
      simp only [fresh, found_of_searchable hsearch, hfile, hfault])
  | ok message =>
    exact loadModule_of_fresh_error hnew (by
      simp only [fresh, found_of_searchable hsearch, hfile, hfault])

end

theorem loadModule_of_provides (hfind : s.Findable path) (h : s.Provides path m) :
    ((loadModule path).outcome s).1 = .ok m := by
  cases h with
  | remembered hm => rw [outcome_loadModule_of_some hm]
  | @loaded source file hnew hfile hfault =>
    have hfresh : s.fresh path = .ok (source, file) := by
      simp only [fresh, found_of_searchable (hfind.searchable hnew), hfile, hfault]
    rw [outcome_loadModule_of_none hnew, hfresh]

/-! ## Running the component -/

variable {c : Config} {props : Value}

/-- What the component of a module answers to props, or that there is none under a name. -/
def answerOf (path name : Text) (m : LoadedModule) (props : Value) : Except Failure Text :=
  match m.file.member name with
  | .callable b => m.file.answer b m.calls props
  | _ => .error (.resolution path (.notCallable name))

/-- A component that can be called answers, and nothing changes but the modules. -/
theorem outcome_callComponent_of_callable {r : ReadConfig} {b : ComponentFile.Behaviour}
    (h : m.file.member r.config.componentAttribute = .callable b) (path : Text) (props : Value)
    (s : Site) :
    ∃ modules, (callComponent path props m r).outcome s =
      (m.file.answer b m.calls props, { s with modules := modules }) := by
  have hcall : ∀ (calls : Nat) (props : Props) (u : Site), ((do
      let made ← ofExcept (m.file.call b calls props)
      ofExcept made.markup : Action Text).outcome u) =
        ((m.file.call b calls props).bind ComponentFile.Instance.markup, u) := by
    intro calls props u
    rw [outcome_bind, outcome_ofExcept]
    cases m.file.call b calls props <;> rfl
  unfold callComponent ComponentFile.answer
  rw [h]
  dsimp only
  rw [outcome_bind, outcome_ofExcept]
  cases ComponentFile.copyProps props with
  | error e => exact ⟨s.modules, rfl⟩
  | ok copied =>
    cases b with
    | byKind => exact ⟨_, hcall (m.calls + 1) copied _⟩
    | constant t | own a => exact ⟨s.modules, hcall m.calls copied s⟩

theorem fst_outcome_callComponent (r : ReadConfig) (s : Site) :
    ((callComponent path props m r).outcome s).1 =
      answerOf path r.config.componentAttribute m props := by
  cases h : m.file.member r.config.componentAttribute with
  | absent | plain => simp [callComponent, answerOf, h]
  | callable b =>
    obtain ⟨modules, hcall⟩ := outcome_callComponent_of_callable h path props s
    rw [hcall, answerOf, h]

theorem renderComponent_of_load_error {f : Failure}
    (h : ((loadModule path).outcome s).1 = .error f) :
    ((renderComponent path props).outcome s).1 = .error f := by
  rw [renderComponent_eq, outcome_bind]
  rcases hload : (loadModule path).outcome s with ⟨e | m, t⟩
  · rw [hload] at h
    cases h
    rfl
  · rw [hload] at h
    cases h

theorem renderComponent_of_provides (hc : s.currentConfig = .ok c) (hfind : s.Findable path)
    (h : s.Provides path m) :
    ((renderComponent path props).outcome s).1 = answerOf path c.componentAttribute m props := by
  have hload := loadModule_of_provides hfind h
  have hconfig := (currentConfig_loadModule s path).trans hc
  rw [renderComponent_eq, outcome_bind]
  rcases hsite : (loadModule path).outcome s with ⟨e | m', t⟩
  · rw [hsite] at hload
    cases hload
  · rw [hsite] at hload hconfig
    cases hload
    obtain ⟨u, -, ⟨r, hread, hr⟩ | ⟨e, -, he⟩⟩ := outcome_readConfig_cases t
    · cases hr.symm.trans hconfig
      dsimp only
      rw [outcome_bind, hread]
      exact fst_outcome_callComponent r u
    · cases he.symm.trans hconfig

/-! ## Components that are not resolved -/

theorem answerOf_resolution_iff {p : Text} {fault : ResolutionFault} :
    answerOf path name m props = .error (.resolution p fault) ↔
      p = path ∧ fault = .notCallable name ∧ ∀ b, m.file.member name ≠ .callable b := by
  unfold answerOf
  cases m.file.member name with
  | absent | plain => simp [eq_comm]
  | callable b =>
    refine iff_of_false (fun h => ?_) fun h => h.2.2 b rfl
    exact ComponentFile.answer_error h rfl

/-- A path that leads to no component fails for that reason. -/
theorem renderComponent_of_unresolved {fault : ResolutionFault} (hc : s.currentConfig = .ok c)
    (hfind : s.Findable path) (h : s.Unresolved c.componentAttribute path (.ok fault)) :
    ((renderComponent path props).outcome s).1 = .error (.resolution path fault) := by
  generalize hr : (Except.ok fault : Except Failure ResolutionFault) = reason at h
  cases h with
  | noFile hnew hfile =>
    cases hr
    exact renderComponent_of_load_error (loadModule_of_noFile hnew (hfind.searchable hnew) hfile)
  | @importFailed source file raised hnew hfile hfault =>
    cases raised with
    | error e => cases hr
    | ok message =>
      cases hr
      exact renderComponent_of_load_error
        (loadModule_of_importFailed hnew (hfind.searchable hnew) hfile hfault)
  | notCallable hm hnone =>
    cases hr
    rw [renderComponent_of_provides hc hfind hm]
    exact answerOf_resolution_iff.2 ⟨rfl, rfl, hnone⟩

/-- What a path leads to whose component is not resolved. -/
theorem unresolved_of_renderComponent (hc : s.currentConfig = .ok c) {p : Text}
    {fault : ResolutionFault}
    (h : ((renderComponent path props).outcome s).1 = .error (.resolution p fault)) :
    p = path ∧ s.Findable path ∧ s.Unresolved c.componentAttribute path (.ok fault) := by
  have hprovided : ∀ {m}, s.Findable path → s.Provides path m →
      p = path ∧ s.Findable path ∧ s.Unresolved c.componentAttribute path (.ok fault) := by
    intro m hfind hm
    rw [renderComponent_of_provides hc hfind hm] at h
    obtain ⟨rfl, rfl, hnone⟩ := answerOf_resolution_iff.1 h
    exact ⟨rfl, hfind, .notCallable hm hnone⟩
  cases hnew : s.modules.lookup? path with
  | some m => exact hprovided (.inl ⟨m, hnew⟩) (.remembered hnew)
  | none =>
    by_cases hsearch : s.Searchable path
    · cases hfile : s.moduleFile? path with
      | none =>
        rw [renderComponent_of_load_error (loadModule_of_noFile hnew hsearch hfile)] at h
        cases h
        exact ⟨rfl, .inr hsearch, .noFile hnew hfile⟩
      | some found =>
        obtain ⟨source, file⟩ := found
        cases hfault : file.importFault? with
        | none => exact hprovided (.inr hsearch) (.loaded hnew hfile hfault)
        | some raised =>
          have hload := loadModule_of_importFailed hnew hsearch hfile hfault
          cases raised with
          | error e =>
            rw [renderComponent_of_load_error hload] at h
            cases ComponentFile.importFault?_error hfault
            cases h
          | ok message =>
            rw [renderComponent_of_load_error hload] at h
            cases h
            exact ⟨rfl, .inr hsearch, .importFailed hnew hfile hfault⟩
    · obtain ⟨e, hload, he⟩ := loadModule_of_not_searchable hnew hsearch
      rw [renderComponent_of_load_error hload] at h
      cases h
      exact absurd rfl he

/-- Running a component fails for want of a component exactly if the path leads to none and nothing
stands in the way of finding that out. -/
theorem renderComponent_resolution_iff (hc : s.currentConfig = .ok c) {p : Text}
    {fault : ResolutionFault} :
    ((renderComponent path props).outcome s).1 = .error (.resolution p fault) ↔
      p = path ∧ s.Findable path ∧ s.Unresolved c.componentAttribute path (.ok fault) := by
  refine ⟨unresolved_of_renderComponent hc, ?_⟩
  rintro ⟨rfl, hfind, hreason⟩
  exact renderComponent_of_unresolved hc hfind hreason

/-- A site with one component file, which cannot be imported. -/
def brokenSite : Site :=
  { Site.start (.dict []) [] with
    files := Files.empty.write ["Card.py".toList] ⟨.broken, .str "boom"⟩ }

end Action
end Hydration
