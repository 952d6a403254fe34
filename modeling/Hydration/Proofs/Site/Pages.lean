import Hydration.Site.Pages
/-!
# What pages are rendered from

A page is rendered from the configuration, the component files with the modules that were loaded
from them, and the renderers of its engine. It does not depend on the log, on which tags an engine
has, on which renderers were imported or on whether the configuration was read before. So sites that
are alike in what they have for the pages of some engines give the same pages of these engines, and
are alike afterwards.

* `agree_bind`: actions that agree, agree in a row.
* `agree_renderComponent`, `agree_render`: components and pages agree on sites that are alike.
-/
namespace Hydration

namespace Site
variable {s t u : Site}

/-- The configuration that a reading gives. -/
def currentConfig (s : Site) : Except Failure Config :=
  match s.config with
  | some c => .ok c.config
  | none => Config.ofSettings s.settings

/-- The renderer that a dotted name stands for. -/
def imported (s : Site) (name : Text) : Except Failure Renderer :=
  match Library.importName (Library.builtin ++ s.libraries) name with
  | .ok (.renderer r) => .ok r
  | .ok .notCallable => .error (.settings (.rendererNotCallable name))
  | .error (.unusable f) => .error f
  | .error (.missing _) => .error (.settings (.rendererMissing name))

/-- The renderer of the configuration. -/
def configured (s : Site) : Except Failure Renderer := do
  let c ← s.currentConfig
  s.imported c.renderer

/-- The renderer that an engine uses under a name. -/
def rendererOf (s : Site) (engine : Nat) (name : Text) : Except Failure Renderer :=
  match s.extension? engine name with
  | some r => .ok r
  | none => s.configured

/-- What an engine shows for what is missing. -/
def invalidOf (s : Site) (engine : Nat) : Text :=
  (s.engines[engine]?.map fun e => e.invalid).getD []

/-- Two sites have the same for the pages of some engines. -/
structure Alike (own : Nat → Prop) (s t : Site) : Prop where
  config : s.currentConfig = t.currentConfig
  files : s.files = t.files
  modules : s.modules = t.modules
  loads : s.loads = t.loads
  libraries : s.libraries = t.libraries
  invalid : ∀ n, own n → s.invalidOf n = t.invalidOf n
  renderers : ∀ n, own n → ∀ name, s.rendererOf n name = t.rendererOf n name

namespace Alike
variable {own : Nat → Prop}

theorem refl (s : Site) : Alike own s s :=
  ⟨rfl, rfl, rfl, rfl, rfl, fun _ _ => rfl, fun _ _ _ => rfl⟩

theorem symm (h : Alike own s t) : Alike own t s :=
  ⟨h.config.symm, h.files.symm, h.modules.symm, h.loads.symm, h.libraries.symm,
    fun n hn => (h.invalid n hn).symm, fun n hn name => (h.renderers n hn name).symm⟩

theorem trans (h : Alike own s t) (h' : Alike own t u) : Alike own s u :=
  ⟨h.config.trans h'.config, h.files.trans h'.files, h.modules.trans h'.modules,
    h.loads.trans h'.loads, h.libraries.trans h'.libraries,
    fun n hn => (h.invalid n hn).trans (h'.invalid n hn),
    fun n hn name => (h.renderers n hn name).trans (h'.renderers n hn name)⟩

theorem withModules (h : Alike own s t) (modules : Cache LoadedModule) :
    Alike own { s with modules := modules } { t with modules := modules } :=
  ⟨h.config, h.files, rfl, h.loads, h.libraries, h.invalid, h.renderers⟩

theorem withLoads (h : Alike own s t) (loads : Nat) :
    Alike own { s with loads := loads } { t with loads := loads } :=
  ⟨h.config, h.files, h.modules, rfl, h.libraries, h.invalid, h.renderers⟩

end Alike

/-- The log does not matter. -/
theorem alike_withLog (own : Nat → Prop) (s : Site) (log : List LogRecord) :
    Alike own s { s with log := log } :=
  ⟨rfl, rfl, rfl, rfl, rfl, fun _ _ => rfl, fun _ _ _ => rfl⟩

/-- It does not matter which renderers are remembered. -/
theorem alike_withImports (own : Nat → Prop) (s : Site)
    (imports : Library.Imports (Library.builtin ++ s.libraries)) :
    Alike own s { s with imports := imports } :=
  ⟨rfl, rfl, rfl, rfl, rfl, fun _ _ => rfl, fun _ _ _ => rfl⟩

/-- It does not matter whether the configuration was read, if it is the same. -/
theorem alike_withConfig (own : Nat → Prop) {c : ReadConfig} (readings : Nat)
    (hc : s.currentConfig = .ok c.config) :
    Alike own s { s with config := some c, readings := readings } where
  config := hc
  files := rfl
  modules := rfl
  loads := rfl
  libraries := rfl
  invalid := fun _ _ => rfl
  renderers := by
    intro n _ name
    have hconfigured : s.configured = configured { s with config := some c, readings := readings } := by
      rw [configured, configured, hc]
      rfl
    rw [rendererOf, rendererOf, hconfigured]
    rfl

/-! ## What the parts of a site determine -/

theorem imported_eq (h : s.libraries = t.libraries) (name : Text) :
    s.imported name = t.imported name := by
  rw [imported, imported, h]

theorem firstFile_eq (h : s.files = t.files) (sources : List FilePath) :
    s.firstFile sources = t.firstFile sources := by
  have htoo : ∀ p, s.isTooLong p = t.isTooLong p := by
    intro p
    rw [isTooLong, isTooLong, h]
  have hfile : ∀ p, s.componentFile? p = t.componentFile? p := by
    intro p
    rw [componentFile?, componentFile?, h]
  induction sources with
  | nil => rfl
  | cons p rest ih => rw [firstFile, firstFile, htoo, hfile, ih]

end Site

namespace Action
open Site (Alike)
variable {α β : Type} {own : Nat → Prop}

/-! ## Actions that agree -/

/-- On sites that are alike the two actions give the same and leave the sites alike. -/
def Agree (own : Nat → Prop) (a b : Action α) : Prop :=
  ∀ s t, Alike own s t →
    (a.outcome s).1 = (b.outcome t).1 ∧ Alike own (a.outcome s).2 (b.outcome t).2

theorem agree_ofExcept (r : Except Failure α) : Agree own (ofExcept r) (ofExcept r) :=
  fun _ _ h => ⟨rfl, h⟩

theorem agree_pure (x : α) : Agree own (pure x) (pure x) := agree_ofExcept (.ok x)

theorem agree_refuse (f : Failure) : Agree own (refuse f : Action α) (refuse f) :=
  agree_ofExcept (.error f)

/-- From two sites on, the two actions give the same and leave the sites alike. -/
def AgreeAt (own : Nat → Prop) (s t : Site) (a b : Action α) : Prop :=
  (a.outcome s).1 = (b.outcome t).1 ∧ Alike own (a.outcome s).2 (b.outcome t).2

/-- What follows has to agree on the sites that the first actions leave. -/
theorem agreeAt_bind {a b : Action α} {f g : α → Action β} {s t : Site} (h : AgreeAt own s t a b)
    (hf : ∀ x s' t', a.outcome s = (.ok x, s') → b.outcome t = (.ok x, t') → Alike own s' t' →
      AgreeAt own s' t' (f x) (g x)) : AgreeAt own s t (a >>= f) (b >>= g) := by
  obtain ⟨hresult, hsite⟩ := h
  rw [AgreeAt, outcome_bind, outcome_bind]
  rcases ha : a.outcome s with ⟨e | x, s'⟩
  · rcases hb : b.outcome t with ⟨e' | y, t'⟩
    · rw [ha, hb] at hresult hsite
      cases hresult
      exact ⟨rfl, hsite⟩
    · rw [ha, hb] at hresult
      cases hresult
  · rcases hb : b.outcome t with ⟨e' | y, t'⟩
    · rw [ha, hb] at hresult
      cases hresult
    · rw [ha, hb] at hresult hsite
      cases hresult
      exact hf x s' t' ha hb hsite

theorem agree_bind {a b : Action α} {f g : α → Action β} (h : Agree own a b)
    (hf : ∀ x, Agree own (f x) (g x)) : Agree own (a >>= f) (b >>= g) :=
  fun s t hst => agreeAt_bind (h s t hst) fun x s' t' _ _ => hf x s' t'

/-- What follows may use all of the site that was looked at. -/
theorem agree_get {f g : Site → Action β} (h : ∀ s t, Alike own s t → Agree own (f s) (g t)) :
    Agree own (get >>= f) (get >>= g) := by
  intro s t hst
  rw [outcome_bind, outcome_bind, outcome_get, outcome_get]
  exact h s t hst s t hst

theorem agree_set {s t : Site} (h : Alike own s t) : Agree own (set s) (set t) :=
  fun _ _ _ => ⟨rfl, h⟩

theorem agree_modify {f : Site → Site} (h : ∀ s t, Alike own s t → Alike own (f s) (f t)) :
    Agree own (modify f : Action Unit) (modify f) :=
  fun s t hst => ⟨rfl, h s t hst⟩

theorem agree_record (level : LogLevel) (logger : Logger) (message : Text) :
    Agree own (record level logger message) (record level logger message) := by
  refine agree_modify fun s t h => ?_
  exact ((Site.alike_withLog own s _).symm.trans h).trans (Site.alike_withLog own t _)

/-! ## Actions that look something up -/

/-- The action gives what the function says of the site, and the site stays as it is for pages. -/
def LooksUp (f : Site → Except Failure α) (a : Action α) : Prop :=
  ∀ s, (a.outcome s).1 = f s ∧ ∀ own, Alike own s (a.outcome s).2

theorem LooksUp.agree {f : Site → Except Failure α} {a : Action α} (h : LooksUp f a)
    (hf : ∀ s t, Alike own s t → f s = f t) : Agree own a a := by
  intro s t hst
  refine ⟨?_, ?_⟩
  · rw [(h s).1, (h t).1, hf s t hst]
  · exact (((h s).2 own).symm.trans hst).trans ((h t).2 own)

/-- A reading gives the configuration, or the reason why there is none. -/
theorem outcome_readConfig_cases (s : Site) :
    ∃ s', (∀ own, Alike own s s') ∧
      ((∃ c, readConfig.outcome s = (.ok c, s') ∧ s.currentConfig = .ok c.config) ∨
        ∃ e, readConfig.outcome s = (.error e, s') ∧ s.currentConfig = .error e) := by
  cases hread : s.config with
  | some c =>
    have hcurrent : s.currentConfig = .ok c.config := by rw [Site.currentConfig, hread]
    exact ⟨s, fun _ => .refl s, .inl ⟨c, outcome_readConfig_of_some hread, hcurrent⟩⟩
  | none =>
    have hcurrent : s.currentConfig = Config.ofSettings s.settings := by
      rw [Site.currentConfig, hread]
    cases hsettings : Config.ofSettings s.settings with
    | error e =>
      exact ⟨s, fun _ => .refl s,
        .inr ⟨e, outcome_readConfig_of_error hread hsettings, hcurrent.trans hsettings⟩⟩
    | ok config =>
      have hconfig := hcurrent.trans hsettings
      refine ⟨_, fun own => Site.alike_withConfig own (c := ⟨s.readings, config⟩) (s.readings + 1)
        hconfig, .inl ⟨⟨s.readings, config⟩, ?_, hconfig⟩⟩
      simp [readConfig, hread, hsettings, Except.map]

/-- Readings are told apart by their numbers, but what follows may use the configuration only. -/
theorem agree_readConfig {f g : ReadConfig → Action β}
    (h : ∀ c d : ReadConfig, c.config = d.config → Agree own (f c) (g d)) :
    Agree own (readConfig >>= f) (readConfig >>= g) := by
  intro s t hst
  obtain ⟨s', hs, hcs⟩ := outcome_readConfig_cases s
  obtain ⟨t', ht, hct⟩ := outcome_readConfig_cases t
  have hsite : Alike own s' t' := ((hs own).symm.trans hst).trans (ht own)
  have hconfig := hst.config
  rw [outcome_bind, outcome_bind]
  rcases hcs with ⟨c, hreads, hc⟩ | ⟨e, hreads, he⟩
  · rcases hct with ⟨d, hreadt, hd⟩ | ⟨e, hreadt, he⟩
    · rw [hreads, hreadt]
      rw [hc, hd] at hconfig
      exact h c d (Except.ok.inj hconfig) s' t' hsite
    · rw [hc, he] at hconfig
      cases hconfig
  · rcases hct with ⟨d, hreadt, hd⟩ | ⟨e', hreadt, he'⟩
    · rw [he, hd] at hconfig
      cases hconfig
    · rw [hreads, hreadt]
      rw [he, he'] at hconfig
      cases hconfig
      exact ⟨rfl, hsite⟩

theorem looksUp_importRenderer (name : Text) :
    LooksUp (fun s => s.imported name) (importRenderer name) := by
  intro s
  have hsite := fun own => Site.alike_withImports own s (s.imports.find name).2
  simp only [importRenderer, outcome_bind, outcome_get, outcome_set, Library.Imports.find_eq,
    Site.imported]
  rcases Library.importName (Library.builtin ++ s.libraries) name with (message | f) | (r | _)
  · exact ⟨rfl, fun own => (hsite own).trans (Site.alike_withLog own _ _)⟩
  · exact ⟨rfl, hsite⟩
  · exact ⟨rfl, hsite⟩
  · exact ⟨rfl, hsite⟩

theorem looksUp_defaultRenderer : LooksUp Site.configured defaultRenderer := by
  intro s
  obtain ⟨s', hs, hcs⟩ := outcome_readConfig_cases s
  rw [defaultRenderer, outcome_bind, Site.configured]
  rcases hcs with ⟨c, hread, hc⟩ | ⟨e, hread, he⟩
  · rw [hread, hc]
    obtain ⟨hresult, hsite⟩ := looksUp_importRenderer c.config.renderer s'
    refine ⟨hresult.trans ?_, fun own => (hs own).trans (hsite own)⟩
    exact Site.imported_eq (hs fun _ => True).libraries.symm _
  · rw [hread, he]
    exact ⟨rfl, hs⟩

theorem looksUp_getExtension (engine : Nat) (name : Text) :
    LooksUp (fun s => s.rendererOf engine name) (getExtension (some (.engine engine)) name) := by
  intro s
  have houtcome : (getExtension (some (.engine engine)) name).outcome s =
      match s.extension? engine name with
      | some r => (.ok r, s)
      | none => defaultRenderer.outcome s := by
    simp only [getExtension, asEngine, outcome_bind, outcome_pure, outcome_get]
    cases s.extension? engine name <;> rfl
  simp only [houtcome, Site.rendererOf]
  cases s.extension? engine name with
  | some r => exact ⟨rfl, fun _ => .refl s⟩
  | none => exact looksUp_defaultRenderer s

theorem agree_getExtension {engine : Nat} (hn : own engine) (name : Text) :
    Agree own (getExtension (some (.engine engine)) name)
      (getExtension (some (.engine engine)) name) :=
  (looksUp_getExtension engine name).agree fun _ _ h => h.renderers engine hn name

/-! ## Components -/

theorem agree_importFile (path : Text) (source : FilePath) (file : ComponentFile) :
    Agree own (importFile path source file) (importFile path source file) := by
  unfold importFile
  cases file.importFault? with
  | some message =>
    refine agree_bind (agree_record _ _ _) fun _ => ?_
    exact agree_bind (agree_ofExcept message) fun _ => agree_refuse _
  | none =>
    refine agree_get fun s t h => ?_
    rw [h.modules, h.loads]
    have hload := (h.withModules (t.modules.store path ⟨t.loads, source, file, 0⟩)).withLoads
      (t.loads + 1)
    refine agree_bind (agree_set hload) fun _ => ?_
    exact agree_bind (agree_record _ _ _) fun _ => agree_pure _

theorem agree_loadModule (path : Text) : Agree own (loadModule path) (loadModule path) := by
  unfold loadModule
  refine agree_get fun s t h => ?_
  rw [h.modules]
  cases t.modules.lookup? path with
  | some m =>
    exact agree_bind (agree_set (h.withModules _)) fun _ => agree_pure m
  | none =>
    refine agree_bind (agree_ofExcept (candidates path)) fun sources => ?_
    rw [Site.firstFile_eq h.files]
    refine agree_bind (agree_ofExcept _) fun found => ?_
    cases found with
    | some found => exact agree_importFile path found.1 found.2
    | none => exact agree_bind (agree_record _ _ _) fun _ => agree_refuse _

theorem agree_countCall (path : Text) (m : LoadedModule) :
    Agree own (countCall path m) (countCall path m) := by
  unfold countCall
  refine agree_bind (agree_modify fun s t h => ?_) fun _ => agree_pure _
  rw [h.modules]
  exact h.withModules _

/-- Components give the same on sites that are alike. -/
theorem agree_renderComponent (path : Text) (props : Value) :
    Agree own (renderComponent path props) (renderComponent path props) := by
  unfold renderComponent
  refine agree_bind (agree_loadModule path) fun m => ?_
  refine agree_readConfig fun c d hconfig => ?_
  dsimp only
  rw [hconfig]
  split
  · next behaviour _ =>
    refine agree_bind (agree_ofExcept _) fun props => ?_
    have hcall : ∀ calls, Agree own
        (ofExcept (m.file.call behaviour calls props) >>= fun made => ofExcept made.markup)
        (ofExcept (m.file.call behaviour calls props) >>= fun made => ofExcept made.markup) :=
      fun calls => agree_bind (agree_ofExcept _) fun made => agree_ofExcept _
    split
    · exact agree_bind (agree_countCall path m) hcall
    · exact agree_bind (agree_pure _) hcall
  · exact agree_bind (agree_record _ _ _) fun _ => agree_refuse _

/-! ## Pages -/

theorem agree_runRenderer (r : Renderer) (path : Text) (props : Props) :
    Agree own (runRenderer r path props) (runRenderer r path props) := by
  cases r with
  | components => exact agree_bind (agree_renderComponent path (.dict props)) fun _ => agree_pure _
  | function _ run => exact agree_ofExcept (run path props)

theorem agree_renderElement (r : Renderer) (container : Value) (path : Text) (props : Value) :
    Agree own (renderElement r container path props) (renderElement r container path props) := by
  unfold renderElement
  refine agree_bind (agree_ofExcept _) fun entries => ?_
  refine agree_bind (agree_ofExcept _) fun c => ?_
  refine agree_bind (agree_runRenderer r path entries) fun rendered => ?_
  refine agree_bind (agree_ofExcept _) fun json => ?_
  exact agree_bind (agree_ofExcept _) fun body => agree_pure _

/-- Each part of a template gives the same if its engine is one of those that matter. -/
theorem agree_renderNode {engine : Nat} (hn : own engine) (c : Context) (node : Node) :
    Agree own (renderNode engine c node) (renderNode engine c node) := by
  cases node with
  | text t => exact agree_pure _
  | output p =>
    refine agree_bind (agree_ofExcept _) fun found => ?_
    exact agree_bind (agree_ofExcept _) fun _ => agree_pure _
  | component f =>
    refine agree_bind (agree_ofExcept _) fun found => ?_
    refine agree_bind (agree_getExtension hn _) fun r => ?_
    exact agree_bind (agree_renderElement r _ _ _) fun _ => agree_pure _

theorem agree_renderNodes {engine : Nat} (hn : own engine) (c : Context) (nodes : List Node) :
    Agree own (renderNodes engine c nodes) (renderNodes engine c nodes) := by
  induction nodes generalizing c with
  | nil => exact agree_pure _
  | cons node rest ih =>
    refine agree_bind (agree_renderNode hn c node) fun found => ?_
    exact agree_bind (ih found.2) fun _ => agree_pure _

/-- A page is the same on sites that are alike for its engine. -/
theorem agree_render {t : Template} (hn : own t.engine) (values : List (Text × Value)) :
    Agree own (render t values) (render t values) := by
  refine agree_bind (a := invalidText t.engine) ?_ fun invalid => agree_renderNodes hn _ _
  intro s s' h
  exact ⟨congrArg Except.ok (h.invalid t.engine hn), h⟩

end Action
end Hydration
