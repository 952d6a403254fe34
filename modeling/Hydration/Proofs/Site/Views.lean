import Hydration.Proofs.Component.Recency
import Hydration.Proofs.Site.Readings
import Hydration.Proofs.Site.Script
/-!
# What of a site can be seen

A site remembers its configuration, its modules and the renderers that it imported, so that it need
not make them again. Two sites that differ in this only cannot be told apart, as long as what they
remember is what they would make again. A view says which states are the same for someone who looks
at them, and what is noted in them. Programs whose results, notes and states afterwards are the same
from states that are the same are determined in the view, and so are programs in a row.

* `View.determined_bind`: programs in a row.
* `Site.Beside`: sites that differ in what they remember and log.
* `Site.UpTo`: the modules that they remember are also what the files lead to.
* `Action.determined_of_script`, `Action.leaves_of_script`: actions that only read are determined,
  and change nothing that can be seen.
* `View.Sees`: what a view needs for engines to be used and changed.
-/
namespace Hydration

/-! ## Views -/

/-- A view of states: which are the same, and what is noted in a state. -/
structure View (σ : Type) where
  same : σ → σ → Prop
  notes : σ → List LogRecord

namespace View
variable {σ α β : Type} {v : View σ}

/-- What a program gives, and the state after it. -/
def outcome (a : ExceptT Failure (StateM σ) α) (s : σ) : Except Failure α × σ := a.run.run s

theorem outcome_bind (a : ExceptT Failure (StateM σ) α) (f : α → ExceptT Failure (StateM σ) β)
    (s : σ) :
    outcome (a >>= f) s =
      match outcome a s with
      | (.ok x, t) => outcome (f x) t
      | (.error e, t) => (.error e, t) := by
  simp only [outcome, ExceptT.run_bind, StateT.run_bind]
  rcases (a.run.run s : Except Failure α × σ) with ⟨x | x, t⟩ <;> rfl

/-- From all states that are the same as one, a program gives a result of some kind, adds some notes
and leaves states that are the same as another. -/
def Gives (v : View σ) (r : σ) (a : ExceptT Failure (StateM σ) α)
    (result : Except Failure α → Prop) (notes : List LogRecord) (r' : σ) : Prop :=
  ∀ s, v.same r s → result (outcome a s).1 ∧ v.notes (outcome a s).2 = v.notes s ++ notes ∧
    v.same r' (outcome a s).2

/-- From all states that are the same, the program gives the same, adds the same notes and leaves
states that are the same. -/
def Determined (v : View σ) (a : ExceptT Failure (StateM σ) α) : Prop :=
  ∀ r, ∃ x notes r', v.Gives r a (· = x) notes r'

/-- The program leaves states that are the same as those before, whatever it gives. -/
def Leaves (v : View σ) (a : ExceptT Failure (StateM σ) α) : Prop :=
  ∀ r s, v.same r s → v.same r (outcome a s).2

section
variable {a : ExceptT Failure (StateM σ) α} {f : α → ExceptT Failure (StateM σ) β} {r t u : σ}
  {notes more : List LogRecord} {kind : α → Prop} {result : Except Failure β → Prop}

theorem Gives.bind_ok (ha : v.Gives r a (fun x => ∃ y, x = .ok y ∧ kind y) notes t)
    (hf : ∀ y, kind y → v.Gives t (f y) result more u) :
    v.Gives r (a >>= f) result (notes ++ more) u := by
  intro s hs
  obtain ⟨⟨y, hy, hkind⟩, hnotes, ht⟩ := ha s hs
  obtain ⟨hresult, hmore, hu⟩ := hf y hkind _ ht
  rw [outcome_bind, show outcome a s = (.ok y, (outcome a s).2) from Prod.ext hy rfl]
  refine ⟨hresult, ?_, hu⟩
  rw [hmore, hnotes, List.append_assoc]

theorem Gives.bind_eq {x : α} (ha : v.Gives r a (· = .ok x) notes t)
    (hf : v.Gives t (f x) result more u) : v.Gives r (a >>= f) result (notes ++ more) u := by
  have hok : v.Gives r a (fun y => ∃ z, y = .ok z ∧ z = x) notes t :=
    fun s hs => ⟨⟨x, (ha s hs).1, rfl⟩, (ha s hs).2⟩
  refine hok.bind_ok ?_
  rintro _ rfl
  exact hf

theorem Gives.bind_error {e : Failure} (ha : v.Gives r a (· = .error e) notes t) :
    v.Gives r (a >>= f) (· = .error e) notes t := by
  intro s hs
  obtain ⟨hresult, hnotes, ht⟩ := ha s hs
  rw [outcome_bind, show outcome a s = (.error e, (outcome a s).2) from Prod.ext hresult rfl]
  exact ⟨rfl, hnotes, ht⟩

theorem Gives.weaken {result' : Except Failure α → Prop} {result : Except Failure α → Prop}
    (h : ∀ x, result x → result' x) (ha : v.Gives r a result notes t) :
    v.Gives r a result' notes t := fun s hs => ⟨h _ (ha s hs).1, (ha s hs).2⟩

theorem determined_bind (ha : v.Determined a) (hf : ∀ x, v.Determined (f x)) :
    v.Determined (a >>= f) := by
  intro r
  obtain ⟨x | x, notes, t, ha⟩ := ha r
  · exact ⟨.error x, notes, t, ha.bind_error⟩
  · obtain ⟨y, more, u, hf⟩ := hf x t
    exact ⟨y, notes ++ more, u, ha.bind_eq hf⟩

theorem leaves_bind (ha : v.Leaves a) (hf : ∀ x, v.Leaves (f x)) : v.Leaves (a >>= f) := by
  intro r s hs
  have hleft := ha r s hs
  rw [outcome_bind]
  rcases houtcome : outcome a s with ⟨e | x, t⟩
  · rw [houtcome] at hleft
    exact hleft
  · rw [houtcome] at hleft
    exact hf x r t hleft

end
end View

/-! ## Sites -/

/-- The markup of the component does not depend on how often it was called. -/
def ComponentFile.IgnoresCalls (f : ComponentFile) : Prop :=
  ∀ m n props, f.callByKind m props = f.callByKind n props

namespace Site
variable {r s t : Site}

/-- The records of the log that are not for debugging. -/
def notes (s : Site) : List LogRecord := s.log.filter fun record => record.level ≠ .debug

/-- No component in the files depends on how often it was called. -/
def IgnoresCalls (s : Site) : Prop :=
  ∀ e ∈ s.files.entries, ∀ f, e.2 = some f → f.IgnoresCalls

/-- The modules in the cache are what the files lead to. -/
def Current (s : Site) : Prop :=
  ∀ path m, s.modules.lookup? path = some m → s.fresh path = .ok (m.source, m.file)

/-- The second site is the first one but for what it remembers and what it has logged; the
configuration that it remembers is what the settings describe. -/
structure Beside (r s : Site) : Prop where
  settings : s.settings = r.settings
  files : s.files = r.files
  engines : s.engines = r.engines
  libraries : s.libraries = r.libraries
  settled : s.Settled
  ignores : s.IgnoresCalls

/-- The modules that the second site remembers are what the files lead to, too. -/
structure UpTo (r s : Site) : Prop extends Beside r s where
  current : s.Current

/-- What is seen of sites whatever modules they remember. -/
def besideView : View Site := ⟨Beside, notes⟩

/-- What is seen of sites that remember the modules which the files lead to. -/
def upToView : View Site := ⟨UpTo, notes⟩

theorem notes_append (s : Site) (log : List LogRecord) :
    notes { s with log := s.log ++ log } =
      s.notes ++ log.filter fun record => record.level ≠ .debug :=
  List.filter_append ..

theorem Beside.firstFile (h : Beside r s) : s.firstFile = r.firstFile :=
  funext fun sources => firstFile_eq h.files sources

theorem current_of_firstFile (h : s.Current) (hmodules : t.modules = s.modules)
    (hfiles : t.firstFile = s.firstFile) : t.Current := by
  intro path m hm
  rw [fresh_eq hfiles]
  exact h path m (hmodules ▸ hm)

theorem current_of_files (h : s.Current) (hmodules : t.modules = s.modules)
    (hfiles : t.files = s.files) : t.Current :=
  current_of_firstFile h hmodules (funext (firstFile_eq hfiles))

section
variable {path : Text} {m : LoadedModule} (h : s.Current)
  (hm : s.fresh path = .ok (m.source, m.file)) (hfiles : t.files = s.files)
include h hm hfiles

theorem current_use (hmodules : t.modules = s.modules.use path m) : t.Current := by
  intro other found hfound
  rw [hmodules, Cache.lookup?_use] at hfound
  rw [fresh_of_files hfiles]
  split at hfound
  · next hother =>
    cases hfound
    rwa [hother]
  · exact h other found hfound

theorem current_store (hmodules : t.modules = s.modules.store path m) : t.Current := by
  intro other found hfound
  rw [hmodules] at hfound
  rw [fresh_of_files hfiles]
  by_cases hother : other = path
  · rw [hother, Cache.lookup?_store] at hfound
    cases hfound
    rwa [hother]
  · exact h other found (Cache.lookup?_of_store hother hfound)

end

/-- The components that are loaded do not depend on how often they were called. -/
theorem IgnoresCalls.fresh (h : s.IgnoresCalls) {path : Text} {source : FilePath}
    {file : ComponentFile} (hfresh : s.fresh path = .ok (source, file)) : file.IgnoresCalls := by
  obtain ⟨e, he, hfile⟩ := mem_entries_of_fresh hfresh
  exact h e he file hfile

end Site

/-- What the import of a renderer writes into the log. -/
def Site.importLog (s : Site) (name : Text) : List LogRecord :=
  match Library.importName (Library.builtin ++ s.libraries) name with
  | .error (.missing message) =>
    [⟨.error, .extensions, "Renderer import failed for " ++ name ++ ": " ++ message⟩]
  | _ => []

theorem Site.importLog_eq {s t : Site} (h : s.libraries = t.libraries) (name : Text) :
    s.importLog name = t.importLog name := by
  rw [importLog, importLog, h]

/-! ## Actions that only read -/

namespace Action
open Site View
variable {α β : Type}

theorem outcome_importRenderer (name : Text) (s : Site) :
    (importRenderer name).outcome s =
      (s.imported name,
        { s with imports := (s.imports.find name).2, log := s.log ++ s.importLog name }) := by
  simp only [importRenderer, outcome_bind, outcome_get, outcome_set, Library.Imports.find_eq,
    imported, importLog]
  rcases Library.importName (Library.builtin ++ s.libraries) name with
    (message | f) | (renderer | _)
  · rfl
  · simp
  · simp
  · simp

/-! ### What they leave alone -/

theorem leaves_of {a : Action α} (h : ∀ r s, Beside r s → Beside r (a.outcome s).2) :
    besideView.Leaves a := h

theorem beside_of_leaves {a : Action α} {r s : Site} (h : besideView.Leaves a) (hs : Beside r s) :
    Beside r (a.outcome s).2 := h r s hs

theorem leaves_ofExcept (r : Except Failure α) : besideView.Leaves (ofExcept r) := fun _ _ h => h

theorem leaves_record (level : LogLevel) (logger : Logger) (message : Text) :
    besideView.Leaves (record level logger message) :=
  fun _ _ h => ⟨h.settings, h.files, h.engines, h.libraries, h.settled, h.ignores⟩

theorem leaves_importRenderer (name : Text) : besideView.Leaves (importRenderer name) := by
  refine leaves_of fun r s h => ?_
  rw [outcome_importRenderer]
  exact ⟨h.settings, h.files, h.engines, h.libraries, h.settled, h.ignores⟩

theorem leaves_readConfig : besideView.Leaves readConfig := by
  refine leaves_of fun r s h => ?_
  have hsettled := settled_readConfig h.settled
  cases hread : s.config with
  | some c =>
    rw [outcome_readConfig_of_some hread]
    exact h
  | none =>
    cases hsettings : Config.ofSettings s.settings with
    | error f =>
      rw [outcome_readConfig_of_error hread hsettings]
      exact h
    | ok config =>
      rw [outcome_readConfig_of_ok hread hsettings] at hsettled ⊢
      exact ⟨h.settings, h.files, h.engines, h.libraries, hsettled, h.ignores⟩

theorem leaves_loadModule (path : Text) : besideView.Leaves (loadModule path) := by
  refine leaves_of fun r s h => ?_
  cases hm : s.modules.lookup? path with
  | some m =>
    rw [outcome_loadModule_of_some hm]
    exact ⟨h.settings, h.files, h.engines, h.libraries, h.settled, h.ignores⟩
  | none =>
    rw [outcome_loadModule_of_none hm]
    rcases s.fresh path with f | ⟨source, file⟩
    · exact ⟨h.settings, h.files, h.engines, h.libraries, h.settled, h.ignores⟩
    · exact ⟨h.settings, h.files, h.engines, h.libraries, h.settled, h.ignores⟩

theorem leaves_countCall (path : Text) (m : LoadedModule) : besideView.Leaves (countCall path m) :=
  fun _ _ h => ⟨h.settings, h.files, h.engines, h.libraries, h.settled, h.ignores⟩

theorem leaves_renderComponent (path : Text) (props : Value) :
    besideView.Leaves (renderComponent path props) :=
  renderComponent_of leaves_ofExcept leaves_record leaves_loadModule leaves_readConfig
    leaves_countCall leaves_bind path props

theorem leaves_of_script {a : Action α} (h : Script a) : besideView.Leaves a := by
  induction h with
  | result r => exact leaves_ofExcept r
  | record level logger message => exact leaves_record level logger message
  | importing name => exact leaves_importRenderer name
  | component path props => exact leaves_renderComponent path props
  | look _ _ ih => exact fun r s hs => ih s r s hs
  | read _ _ ih => exact leaves_bind leaves_readConfig ih
  | bind _ _ ih ih' => exact leaves_bind ih ih'

/-! ### What they give -/

theorem gives_ofExcept {v : View Site} {r : Site} {result : Except Failure α → Prop}
    {x : Except Failure α} (h : result x) : v.Gives r (ofExcept x) result [] r :=
  fun _ hs => ⟨h, (List.append_nil _).symm, hs⟩

theorem determined_ofExcept {v : View Site} (x : Except Failure α) : v.Determined (ofExcept x) :=
  fun r => ⟨x, [], r, gives_ofExcept rfl⟩

/-- A change of the site that keeps sites the same and notes nothing. -/
theorem determined_modify {v : View Site} {f : Site → Site}
    (hf : ∀ r s, v.same r s → v.same (f r) (f s)) (hnotes : ∀ s, v.notes (f s) = v.notes s) :
    v.Determined (modify f : Action Unit) :=
  fun r => ⟨.ok (), [], f r, fun s hs =>
    ⟨rfl, (hnotes s).trans (List.append_nil _).symm, hf r s hs⟩⟩

/-- What an action gives, where it leaves alone what is not remembered. -/
theorem gives_of_leaves {a : Action α} {r : Site} {result : Except Failure α → Prop}
    {notes : List LogRecord} (ha : besideView.Leaves a)
    (h : ∀ s, UpTo r s → result (a.outcome s).1 ∧ (a.outcome s).2.notes = s.notes ++ notes ∧
      (a.outcome s).2.Current) : upToView.Gives r a result notes r := by
  intro s hs
  obtain ⟨hresult, hnotes, hcurrent⟩ := h s hs
  exact ⟨hresult, hnotes, beside_of_leaves ha hs.toBeside, hcurrent⟩

theorem gives_record (level : LogLevel) (logger : Logger) (message : Text) (r : Site) :
    upToView.Gives r (record level logger message) (· = .ok ())
      ([⟨level, logger, message⟩].filter fun l => l.level ≠ .debug) r :=
  gives_of_leaves (leaves_record _ _ _) fun s hs =>
    ⟨rfl, notes_append s _, current_of_files hs.current rfl rfl⟩

theorem determined_record (level : LogLevel) (logger : Logger) (message : Text) :
    upToView.Determined (record level logger message) :=
  fun r => ⟨_, _, r, gives_record level logger message r⟩

theorem determined_importRenderer (name : Text) : upToView.Determined (importRenderer name) := by
  refine fun r => ⟨r.imported name, (r.importLog name).filter fun l => l.level ≠ .debug, r, ?_⟩
  refine gives_of_leaves (leaves_importRenderer name) fun s hs => ?_
  rw [outcome_importRenderer]
  refine ⟨imported_eq hs.libraries name, ?_, current_of_files hs.current rfl rfl⟩
  rw [← importLog_eq hs.libraries name]
  exact notes_append s _

theorem determined_look {v : View Site} (hengines : ∀ {r s}, v.same r s → s.engines = r.engines)
    {f : Site → Action β} (hf : ∀ s, v.Determined (f s))
    (hsame : ∀ s t, s.engines = t.engines → f s = f t) : v.Determined (get >>= f) := by
  intro r
  obtain ⟨x, notes, r', h⟩ := hf r r
  refine ⟨x, notes, r', fun s hs => ?_⟩
  have hs' := h s hs
  rw [hsame r s (hengines hs).symm] at hs'
  exact hs'

theorem log_readConfig (s : Site) : (readConfig.outcome s).2.log = s.log := by
  cases hread : s.config with
  | some c => rw [outcome_readConfig_of_some hread]
  | none =>
    cases hsettings : Config.ofSettings s.settings with
    | error f => rw [outcome_readConfig_of_error hread hsettings]
    | ok config => rw [outcome_readConfig_of_ok hread hsettings]

/-- A reading gives what the settings describe, whether it was remembered or not. -/
theorem gives_readConfig {r : Site} {result : Except Failure ReadConfig → Prop}
    (h : ∀ x, x.map (·.config) = Config.ofSettings r.settings → result x) :
    upToView.Gives r readConfig result [] r := by
  refine gives_of_leaves leaves_readConfig fun s hs => ?_
  have hreading := hs.settled.reading rfl
  rw [hs.settings] at hreading
  refine ⟨h _ hreading, ?_, ?_⟩
  · rw [Site.notes, log_readConfig, List.append_nil, Site.notes]
  · have hfiles := (beside_of_leaves leaves_readConfig hs.toBeside).files
    exact current_of_files hs.current (keepsModules_readConfig s).1 (hfiles.trans hs.files.symm)

theorem gives_readConfig_of_error {r : Site} {e : Failure}
    (h : Config.ofSettings r.settings = .error e) :
    upToView.Gives r readConfig (· = .error e) [] r := by
  refine gives_readConfig fun x hx => ?_
  rw [h] at hx
  rcases x with e' | c
  · exact congrArg _ (Except.error.inj hx)
  · cases hx

theorem gives_readConfig_of_ok {r : Site} {config : Config}
    (h : Config.ofSettings r.settings = .ok config) :
    upToView.Gives r readConfig (fun x => ∃ c, x = .ok c ∧ c.config = config) [] r := by
  refine gives_readConfig fun x hx => ?_
  rw [h] at hx
  rcases x with e | c
  · cases hx
  · exact ⟨c, rfl, Except.ok.inj hx⟩

theorem determined_readConfig_bind {f : ReadConfig → Action β} (hf : ∀ c, upToView.Determined (f c))
    (hsame : ∀ c d : ReadConfig, c.config = d.config → f c = f d) :
    upToView.Determined (readConfig >>= f) := by
  intro r
  cases hsettings : Config.ofSettings r.settings with
  | error e => exact ⟨.error e, [], r, Gives.bind_error (gives_readConfig_of_error hsettings)⟩
  | ok config =>
    obtain ⟨x, more, u, h⟩ := hf ⟨0, config⟩ r
    refine ⟨x, [] ++ more, u, Gives.bind_ok (gives_readConfig_of_ok hsettings) fun c hc => ?_⟩
    rwa [hsame c ⟨0, config⟩ hc]

section
variable {r : Site} {path : Text}

theorem gives_loadModule_of_error {e : Failure} (h : r.fresh path = .error e) :
    upToView.Gives r (loadModule path) (· = .error e)
      ((r.freshLog path).filter fun l => l.level ≠ .debug) r := by
  refine gives_of_leaves (leaves_loadModule path) fun s hs => ?_
  rw [← fresh_of_files hs.files] at h
  have hm : s.modules.lookup? path = none := by
    cases hm : s.modules.lookup? path with
    | none => rfl
    | some m => cases h.symm.trans (hs.current path m hm)
  rw [outcome_loadModule_of_none hm, h]
  refine ⟨rfl, ?_, current_of_files hs.current rfl rfl⟩
  rw [← freshLog_of_files hs.files]
  exact notes_append s _

theorem gives_loadModule_of_ok {source : FilePath} {file : ComponentFile}
    (h : r.fresh path = .ok (source, file)) :
    upToView.Gives r (loadModule path)
      (fun x => ∃ m, x = .ok m ∧ m.source = source ∧ m.file = file) [] r := by
  refine gives_of_leaves (leaves_loadModule path) fun s hs => ?_
  rw [← fresh_of_files hs.files] at h
  cases hm : s.modules.lookup? path with
  | some m =>
    have hfresh := hs.current path m hm
    rw [outcome_loadModule_of_some hm]
    obtain ⟨rfl, rfl⟩ := Prod.mk.inj (Except.ok.inj (h.symm.trans hfresh))
    refine ⟨⟨m, rfl, rfl, rfl⟩, (List.append_nil _).symm, ?_⟩
    exact current_use hs.current hfresh rfl rfl
  | none =>
    rw [outcome_loadModule_of_none hm, h]
    refine ⟨⟨_, rfl, rfl, rfl⟩, ?_, current_store hs.current h rfl rfl⟩
    rw [freshLog_of_fresh h]
    exact notes_append s _

end

/-- A call is counted in a module that is what the files lead to. -/
theorem gives_countCall {r : Site} {path : Text} {m : LoadedModule}
    (h : r.fresh path = .ok (m.source, m.file)) :
    upToView.Gives r (countCall path m) (fun x => ∃ calls, x = .ok calls ∧ True) [] r := by
  refine gives_of_leaves (leaves_countCall path m) fun s hs => ?_
  rw [← fresh_of_files hs.files] at h
  refine ⟨⟨_, rfl, trivial⟩, (List.append_nil _).symm, ?_⟩
  exact current_use (m := { m with calls := m.calls + 1 }) hs.current h rfl rfl

theorem call_eq {f : ComponentFile} (h : f.IgnoresCalls) (b : ComponentFile.Behaviour)
    (m n : Nat) (props : Props) : f.call b m props = f.call b n props := by
  cases b with
  | byKind => exact h m n props
  | constant t => rfl
  | own answer => cases answer <;> rfl

/-- It does not matter which module it is, as long as it comes from the same file. -/
theorem gives_callComponent {r : Site} {path : Text} {source : FilePath} {file : ComponentFile}
    (hfresh : r.fresh path = .ok (source, file)) (hfile : file.IgnoresCalls) (props : Value)
    (config : Config) :
    ∃ x notes, ∀ m c, m.source = source → m.file = file → c.config = config →
      upToView.Gives r (callComponent path props m c) (· = x) notes r := by
  have hcall : ∀ behaviour calls props,
      upToView.Gives r (do
          let made ← ofExcept (file.call behaviour calls props)
          ofExcept made.markup)
        (· = file.call behaviour 0 props >>= ComponentFile.Instance.markup) [] r := by
    intro behaviour calls props
    rw [call_eq hfile behaviour 0 calls]
    cases file.call behaviour calls props with
    | error e => exact Gives.bind_error (gives_ofExcept rfl)
    | ok made => exact Gives.bind_eq (gives_ofExcept rfl) (gives_ofExcept rfl)
  unfold callComponent
  cases hmember : file.member config.componentAttribute with
  | callable behaviour =>
    cases hprops : ComponentFile.copyProps props with
    | error e =>
      refine ⟨.error e, [], fun m c _ hf hc => ?_⟩
      rw [hf, hc, hmember]
      exact Gives.bind_error (gives_ofExcept rfl)
    | ok entries =>
      refine ⟨file.call behaviour 0 entries >>= ComponentFile.Instance.markup, [],
        fun m c hs hf hc => ?_⟩
      rw [← hs, ← hf] at hfresh
      rw [hf, hc, hmember]
      refine Gives.bind_eq (gives_ofExcept rfl) ?_
      cases behaviour with
      | byKind => exact Gives.bind_ok (gives_countCall hfresh) fun calls _ => hcall _ calls _
      | constant _ | own _ => exact Gives.bind_eq (gives_ofExcept rfl) (hcall _ m.calls _)
  | absent | plain =>
    obtain ⟨notes, hrefused⟩ : ∃ notes, upToView.Gives r
        (do
          record .error .components ("Component module " ++ path ++ " has no callable '" ++
            config.componentAttribute ++ "'")
          (refuse (.resolution path (.notCallable config.componentAttribute)) : Action Text))
        (· = .error (.resolution path (.notCallable config.componentAttribute))) notes r :=
      ⟨_, Gives.bind_eq (gives_record _ _ _ r) (gives_ofExcept rfl)⟩
    refine ⟨.error (.resolution path (.notCallable config.componentAttribute)), notes,
      fun m c _ hf hc => ?_⟩
    rw [hf, hc, hmember]
    exact hrefused

theorem determined_renderComponent (path : Text) (props : Value) :
    upToView.Determined (renderComponent path props) := by
  intro r
  rw [renderComponent_eq]
  by_cases hr : r.IgnoresCalls
  · rcases hfresh : r.fresh path with e | ⟨source, file⟩
    · exact ⟨.error e, _, r, Gives.bind_error (gives_loadModule_of_error hfresh)⟩
    · have hload := gives_loadModule_of_ok hfresh
      cases hsettings : Config.ofSettings r.settings with
      | error e =>
        exact ⟨.error e, _, r, Gives.bind_ok hload fun m _ =>
          Gives.bind_error (gives_readConfig_of_error hsettings)⟩
      | ok config =>
        obtain ⟨x, notes, h⟩ := gives_callComponent hfresh (hr.fresh hfresh) props config
        exact ⟨x, _, r, Gives.bind_ok hload fun m hm =>
          Gives.bind_ok (gives_readConfig_of_ok hsettings) fun c hc => h m c hm.1 hm.2 hc⟩
  · -- no site is like this one
    refine ⟨.ok [], [], r, fun s hs => absurd ?_ hr⟩
    rw [Site.IgnoresCalls, ← hs.files]
    exact hs.ignores

/-- What determines the parts of actions that only read determines these actions. -/
theorem determined_script {v : View Site} {a : Action α} (h : Script a)
    (hengines : ∀ {r s}, v.same r s → s.engines = r.engines)
    (hrecord : ∀ level logger message, v.Determined (record level logger message))
    (himporting : ∀ name, v.Determined (importRenderer name))
    (hcomponent : ∀ path props, v.Determined (renderComponent path props))
    (hread : ∀ {β : Type} {f : ReadConfig → Action β}, (∀ c, v.Determined (f c)) →
      (∀ c d : ReadConfig, c.config = d.config → f c = f d) → v.Determined (readConfig >>= f)) :
    v.Determined a := by
  induction h with
  | result r => exact determined_ofExcept r
  | record level logger message => exact hrecord level logger message
  | importing name => exact himporting name
  | component path props => exact hcomponent path props
  | look _ hsame ih => exact determined_look hengines ih hsame
  | read _ hsame ih => exact hread ih hsame
  | bind _ _ ih ih' => exact determined_bind ih ih'

theorem determined_of_script {a : Action α} (h : Script a) : upToView.Determined a :=
  determined_script h (fun h => h.engines) determined_record determined_importRenderer
    determined_renderComponent determined_readConfig_bind

end Action

/-- A view in which actions that only read are determined, and engines can be seen and replaced. -/
structure View.Sees (v : View Site) : Prop where
  engines : ∀ {r s}, v.same r s → s.engines = r.engines
  withEngines : ∀ {r s}, v.same r s → ∀ engines : List Engine,
    v.same { r with engines := engines } { s with engines := engines }
  notes : ∀ (s : Site) (engines : List Engine), v.notes { s with engines := engines } = v.notes s
  script : ∀ {α : Type} {a : Action α}, a.Script → v.Determined a

theorem Site.UpTo.withEngines {r s : Site} (h : UpTo r s) (engines : List Engine) :
    UpTo { r with engines := engines } { s with engines := engines } where
  settings := h.settings
  files := h.files
  engines := rfl
  libraries := h.libraries
  settled := h.settled
  ignores := h.ignores
  current := current_of_files h.current rfl rfl

theorem Site.sees_upToView : upToView.Sees where
  engines h := h.engines
  withEngines h := h.withEngines
  notes _ _ := rfl
  script := Action.determined_of_script

end Hydration
