import Hydration.Proofs.Site.Caches
import Hydration.Proofs.Site.Frame
/-!
# Sites that differ in what was read

Reading the settings and importing a renderer leave a trace: the configuration and the renderer are
remembered, and the log grows. Sites that are the same but for such traces, and read the same
configuration, are twins. Whatever is done to twins gives the same and leaves twins again, with one
exception: a change of the settings without its signal parts them when one remembers what the
settings were and the other does not. Exact twins remember the same configuration, or none, and
nothing parts them.

* `sees_twinView`: actions that only read are determined by what twins have in common.
* `step_twins`: a step answers the same from twins, and leaves twins.
* `run_twins`: so does a run.
-/
namespace Hydration

/-! ## Sites -/

namespace Site

/-- The second site is the first one but for what it remembers of the settings and of imports, and
for its log. -/
structure SameButRead (r s : Site) : Prop where
  settings : s.settings = r.settings
  files : s.files = r.files
  modules : s.modules = r.modules
  loads : s.loads = r.loads
  engines : s.engines = r.engines
  libraries : s.libraries = r.libraries

/-- The configuration that is remembered, if one is. -/
def memory (s : Site) : Option Config := s.config.map (·.config)

/-- Both read the same configuration. Exact twins also remember the same. -/
structure Twin (exact : Prop) (r s : Site) : Prop extends SameButRead r s where
  config : s.currentConfig = r.currentConfig
  memory : exact → s.memory = r.memory

variable {exact : Prop} {r s t : Site}

theorem Twin.refl (s : Site) : Twin exact s s :=
  ⟨⟨rfl, rfl, rfl, rfl, rfl, rfl⟩, rfl, fun _ => rfl⟩

theorem Twin.symm (h : Twin exact r s) : Twin exact s r :=
  ⟨⟨h.settings.symm, h.files.symm, h.modules.symm, h.loads.symm, h.engines.symm,
    h.libraries.symm⟩, h.config.symm, fun he => (h.memory he).symm⟩

theorem Twin.trans (h : Twin exact r s) (h' : Twin exact s t) : Twin exact r t :=
  ⟨⟨h'.settings.trans h.settings, h'.files.trans h.files, h'.modules.trans h.modules,
    h'.loads.trans h.loads, h'.engines.trans h.engines, h'.libraries.trans h.libraries⟩,
    h'.config.trans h.config, fun he => (h'.memory he).trans (h.memory he)⟩

theorem Twin.weaken {other : Prop} (h : Twin exact r s) (hother : other → exact) :
    Twin other r s := ⟨h.toSameButRead, h.config, fun ho => h.memory (hother ho)⟩

/-- What is seen of sites whatever they remember of the settings and of imports. -/
def twinView (exact : Prop) : View Site := ⟨Twin exact, fun _ => []⟩

theorem currentConfig_eq_memory (s : Site) :
    s.currentConfig = s.memory.elim (Config.ofSettings s.settings) .ok := by
  rw [currentConfig, memory]
  cases s.config <;> rfl

/-- What remembers the same for the same settings reads the same. -/
theorem SameButRead.twin (h : SameButRead r s) (hmemory : s.memory = r.memory) :
    Twin exact r s := by
  refine ⟨h, ?_, fun _ => hmemory⟩
  rw [currentConfig_eq_memory, currentConfig_eq_memory, hmemory, h.settings]

end Site

namespace Action
open Site View
variable {exact : Prop} {r : Site} {α β : Type}

/-- An action is determined if from twins it gives the same and leaves twins. -/
theorem determined_of_twins {a : Action α}
    (h : ∀ r s, Twin exact r s → (a.outcome s).1 = (a.outcome r).1 ∧
      Twin exact (a.outcome r).2 (a.outcome s).2) : (twinView exact).Determined a :=
  fun r => ⟨_, [], _, fun s hs => ⟨(h r s hs).1, rfl, (h r s hs).2⟩⟩

/-- An action that leaves a twin and gives the same from twins is determined. -/
theorem determined_of_leaves {a : Action α} (htwin : ∀ s, Twin exact s (a.outcome s).2)
    (h : ∀ r s, Twin exact r s → (a.outcome s).1 = (a.outcome r).1) :
    (twinView exact).Determined a :=
  determined_of_twins fun r s hs => ⟨h r s hs, ((htwin r).symm.trans hs).trans (htwin s)⟩

theorem twin_record (level : LogLevel) (logger : Logger) (message : Text) (s : Site) :
    Twin exact s ((record level logger message).outcome s).2 :=
  ⟨⟨rfl, rfl, rfl, rfl, rfl, rfl⟩, rfl, fun _ => rfl⟩

theorem twin_importRenderer (name : Text) (s : Site) :
    Twin exact s ((importRenderer name).outcome s).2 := by
  rw [outcome_importRenderer]
  exact ⟨⟨rfl, rfl, rfl, rfl, rfl, rfl⟩, rfl, fun _ => rfl⟩

theorem twin_determined_record (level : LogLevel) (logger : Logger) (message : Text) :
    (twinView exact).Determined (record level logger message) :=
  determined_of_leaves (twin_record level logger message) fun _ _ _ => rfl

theorem twin_determined_importRenderer (name : Text) :
    (twinView exact).Determined (importRenderer name) := by
  refine determined_of_leaves (twin_importRenderer name) fun r s hs => ?_
  rw [outcome_importRenderer, outcome_importRenderer]
  exact imported_eq hs.libraries name

/-! ### Readings -/

theorem config_readConfig (s : Site) :
    (readConfig.outcome s).1.map (·.config) = s.currentConfig := by
  obtain ⟨s', -, ⟨c, hread, hc⟩ | ⟨e, hread, he⟩⟩ := outcome_readConfig_cases s
  · rw [hread, hc]
    rfl
  · rw [hread, he]
    rfl

/-- A reading changes nothing but what is remembered, and then the configuration is remembered if
there is one. -/
theorem readConfig_remembers (s : Site) :
    SameButRead s (readConfig.outcome s).2 ∧
      (readConfig.outcome s).2.memory = s.currentConfig.toOption := by
  cases hread : s.config with
  | some c =>
    rw [outcome_readConfig_of_some hread, currentConfig, memory, hread]
    exact ⟨⟨rfl, rfl, rfl, rfl, rfl, rfl⟩, rfl⟩
  | none =>
    cases hsettings : Config.ofSettings s.settings with
    | error f =>
      rw [outcome_readConfig_of_error hread hsettings, currentConfig, memory, hread]
      exact ⟨⟨rfl, rfl, rfl, rfl, rfl, rfl⟩, by rw [hsettings]; rfl⟩
    | ok config =>
      rw [outcome_readConfig_of_ok hread hsettings, currentConfig, memory, hread]
      exact ⟨⟨rfl, rfl, rfl, rfl, rfl, rfl⟩, by rw [hsettings]; rfl⟩

theorem twin_readConfig (s : Site) : Twin False s (readConfig.outcome s).2 :=
  ⟨(readConfig_remembers s).1, (keeps_readConfig s).config, False.elim⟩

/-- Readings of twins leave twins, even if only one of them remembers something. -/
theorem twin_readConfig_of_twin {s : Site} (h : Twin exact r s) :
    Twin True (readConfig.outcome r).2 (readConfig.outcome s).2 := by
  have htwin := ((twin_readConfig r).symm.trans (h.weaken False.elim)).trans (twin_readConfig s)
  refine ⟨htwin.toSameButRead, htwin.config, fun _ => ?_⟩
  rw [(readConfig_remembers r).2, (readConfig_remembers s).2, h.config]

/-- A reading gives twins the same configuration. -/
theorem twin_gives_readConfig {result : Except Failure ReadConfig → Prop}
    (h : ∀ x, x.map (·.config) = r.currentConfig → result x) :
    (twinView exact).Gives r readConfig result [] (readConfig.outcome r).2 :=
  fun s hs => ⟨h _ ((config_readConfig s).trans hs.config), rfl,
    (twin_readConfig_of_twin hs).weaken fun _ => trivial⟩

theorem twin_gives_readConfig_of_error {e : Failure} (h : r.currentConfig = .error e) :
    (twinView exact).Gives r readConfig (· = .error e) [] (readConfig.outcome r).2 := by
  refine twin_gives_readConfig fun x hx => ?_
  rw [h] at hx
  cases x with
  | error e' => exact congrArg _ (Except.error.inj hx)
  | ok c => cases hx

theorem twin_gives_readConfig_of_ok {config : Config} (h : r.currentConfig = .ok config) :
    (twinView exact).Gives r readConfig (fun x => ∃ c, x = .ok c ∧ c.config = config) []
      (readConfig.outcome r).2 := by
  refine twin_gives_readConfig fun x hx => ?_
  rw [h] at hx
  cases x with
  | error e => cases hx
  | ok c => exact ⟨c, rfl, Except.ok.inj hx⟩

/-- What follows a reading may use the configuration only. -/
theorem twin_determined_readConfig_bind {f : ReadConfig → Action β}
    (hf : ∀ c, (twinView exact).Determined (f c))
    (hsame : ∀ c d : ReadConfig, c.config = d.config → f c = f d) :
    (twinView exact).Determined (readConfig >>= f) := by
  intro r
  cases hconfig : r.currentConfig with
  | error e => exact ⟨.error e, [], _, (twin_gives_readConfig_of_error hconfig).bind_error⟩
  | ok config =>
    obtain ⟨x, more, u, h⟩ := hf ⟨0, config⟩ (readConfig.outcome r).2
    refine ⟨x, [] ++ more, u, (twin_gives_readConfig_of_ok hconfig).bind_ok fun c hc => ?_⟩
    rwa [hsame c ⟨0, config⟩ hc]

/-! ### Components -/

theorem twin_withModules {s : Site} (h : Twin exact r s) (modules : Cache LoadedModule) :
    Twin exact { r with modules := modules } { s with modules := modules } :=
  ⟨⟨h.settings, h.files, rfl, h.loads, h.engines, h.libraries⟩, h.config, h.memory⟩

theorem twin_determined_loadModule (path : Text) :
    (twinView exact).Determined (loadModule path) := by
  refine determined_of_twins fun r s hs => ?_
  cases hm : r.modules.lookup? path with
  | some m =>
    have hm' : s.modules.lookup? path = some m := by rw [hs.modules, hm]
    rw [outcome_loadModule_of_some hm, outcome_loadModule_of_some hm', hs.modules]
    exact ⟨rfl, twin_withModules hs _⟩
  | none =>
    have hm' : s.modules.lookup? path = none := by rw [hs.modules, hm]
    rw [outcome_loadModule_of_none hm, outcome_loadModule_of_none hm', fresh_of_files hs.files]
    rcases r.fresh path with f | ⟨source, file⟩
    · exact ⟨rfl, ⟨hs.settings, hs.files, hs.modules, hs.loads, hs.engines, hs.libraries⟩,
        hs.config, hs.memory⟩
    · dsimp only
      rw [hs.loads, hs.modules]
      exact ⟨rfl, ⟨hs.settings, hs.files, rfl, rfl, hs.engines, hs.libraries⟩, hs.config,
        hs.memory⟩

theorem twin_determined_countCall (path : Text) (m : LoadedModule) :
    (twinView exact).Determined (countCall path m) := by
  refine determined_of_twins fun r s hs => ⟨rfl, ?_⟩
  have hmodules := twin_withModules hs (r.modules.use path { m with calls := m.calls + 1 })
  change Twin exact _ { s with modules := s.modules.use path { m with calls := m.calls + 1 } }
  rw [hs.modules]
  exact hmodules

theorem twin_determined_callComponent (path : Text) (props : Value) (m : LoadedModule)
    (c : ReadConfig) : (twinView exact).Determined (callComponent path props m c) := by
  unfold callComponent
  cases m.file.member c.config.componentAttribute with
  | callable behaviour =>
    have hcall : ∀ (calls : Nat) (props : Props), (twinView exact).Determined (do
        let made ← ofExcept (m.file.call behaviour calls props)
        ofExcept made.markup) := fun _ _ =>
      determined_bind (determined_ofExcept _) fun _ => determined_ofExcept _
    refine determined_bind (determined_ofExcept _) fun props => ?_
    cases behaviour with
    | byKind => exact determined_bind (twin_determined_countCall path m) fun calls => hcall calls _
    | constant _ | own _ =>
      exact determined_bind (determined_ofExcept (.ok _)) fun calls => hcall calls _
  | absent | plain =>
    exact determined_bind (twin_determined_record _ _ _) fun _ => determined_ofExcept _

theorem twin_determined_renderComponent (path : Text) (props : Value) :
    (twinView exact).Determined (renderComponent path props) := by
  rw [renderComponent_eq]
  refine determined_bind (twin_determined_loadModule path) fun m => ?_
  refine twin_determined_readConfig_bind (twin_determined_callComponent path props m) ?_
  intro c d h
  unfold callComponent
  rw [h]

end Action

theorem Site.sees_twinView {exact : Prop} : (twinView exact).Sees where
  engines h := h.engines
  withEngines h _ :=
    ⟨⟨h.settings, h.files, h.modules, h.loads, rfl, h.libraries⟩, h.config, h.memory⟩
  notes _ _ := rfl
  script h := Action.determined_script h (fun h => h.engines) Action.twin_determined_record
    Action.twin_determined_importRenderer Action.twin_determined_renderComponent
    Action.twin_determined_readConfig_bind

/-! ## Steps -/

/-- A change of the settings comes with its signal. -/
def Step.IsSignalled : Step → Prop
  | .settings _ announced => announced = true
  | _ => True

namespace Action
open Site View
variable {exact : Prop}

theorem twin_determined_changeSettings (settings : Value) {announced : Bool}
    (h : exact ∨ announced = true) :
    (twinView exact).Determined (changeSettings settings announced) := by
  refine determined_of_twins fun r s hs => ?_
  have hsame : SameButRead { r with settings := settings } { s with settings := settings } :=
    ⟨rfl, hs.files, hs.modules, hs.loads, hs.engines, hs.libraries⟩
  cases announced with
  | true => exact ⟨rfl, SameButRead.twin
      ⟨rfl, hs.files, hs.modules, hs.loads, hs.engines, hs.libraries⟩ rfl⟩
  | false => exact ⟨rfl, hsame.twin (hs.memory (h.resolve_right Bool.false_ne_true))⟩

theorem twin_determined_forgetConfig : (twinView exact).Determined forgetConfig :=
  determined_of_twins fun _ _ hs => ⟨rfl, SameButRead.twin
    ⟨hs.settings, hs.files, hs.modules, hs.loads, hs.engines, hs.libraries⟩ rfl⟩

theorem twin_determined_changeFiles (change : Files ComponentFile → Files ComponentFile) :
    (twinView exact).Determined
      (modify fun s => { s with files := change s.files } : Action Unit) :=
  determined_of_twins fun _ _ hs => ⟨rfl,
    ⟨hs.settings, congrArg change hs.files, hs.modules, hs.loads, hs.engines, hs.libraries⟩,
    hs.config, hs.memory⟩

theorem twin_determined_checkLength (p : FilePath) :
    (twinView exact).Determined (checkLength p) := by
  refine determined_of_twins fun r s hs => ?_
  have hlong : s.isTooLong p = r.isTooLong p := by rw [isTooLong, isTooLong, hs.files]
  simp only [checkLength, outcome_bind, outcome_get, hlong]
  cases r.isTooLong p <;> exact ⟨rfl, hs⟩

theorem twin_determined_clearModules : (twinView exact).Determined clearModules :=
  determined_of_twins fun _ _ hs => ⟨rfl, twin_withModules hs Cache.empty⟩

end Action

namespace Turn
open Site View
variable {exact : Prop}

theorem twin_answers_readConfig : Answers (twinView exact).ofSession (take .readConfig) := by
  intro r
  cases hconfig : r.site.currentConfig with
  | error e =>
    refine ⟨.error e, _, _, Gives.weaken ?_ (gives_get fun s => Gives.bind_error
      (gives_onSite (Action.twin_gives_readConfig_of_error hconfig)))⟩
    rintro _ rfl
    rfl
  | ok config =>
    refine ⟨.ok (.config config false false), _, _, gives_get fun s =>
      Gives.bind_ok (gives_onSite (Action.twin_gives_readConfig_of_ok hconfig)) fun c hc =>
        Gives.bind_eq (gives_show _ c) (gives_pure ?_)⟩
    rw [← hc]
    rfl

/-- What a step answers twins. Exact twins are not parted by a change without its signal. -/
theorem twin_answers_take {step : Step} (h : exact ∨ step.IsSignalled) :
    Answers (twinView exact).ofSession (take step) := by
  have hanswer : ∀ answer : Answer, (twinView exact).ofSession.Determined (pure answer) :=
    determined_pure
  have hdone : ∀ {a : Action Unit}, (twinView exact).Determined a →
      Answers (twinView exact).ofSession (onSite a >>= fun _ => pure .done) := fun ha =>
    answers_of_determined (determined_bind (determined_onSite ha) fun _ => hanswer _)
  cases step with
  | getExtension _ _ | defaultExtension | render _ _ | component _ _ | engine _ _ | drop _
  | useTag _ _ _ _ | setExtension _ _ _ | compile _ _ _ =>
    exact answers_of_determined (determined_onEngines sees_twinView trivial)
  | settings value announced => exact hdone (Action.twin_determined_changeSettings value h)
  | otherSetting => exact answers_of_determined (hanswer _)
  | invalidate => exact hdone Action.twin_determined_forgetConfig
  | readConfig => exact twin_answers_readConfig
  | writeFile path file =>
    exact hdone (determined_bind (Action.twin_determined_checkLength _) fun _ =>
      Action.twin_determined_changeFiles (·.write _ file))
  | makeDirectory path =>
    exact hdone (determined_bind (Action.twin_determined_checkLength _) fun _ =>
      Action.twin_determined_changeFiles (·.makeDirectory _))
  | remove path => exact hdone (Action.twin_determined_changeFiles (·.remove _))
  | clearModules => exact hdone Action.twin_determined_clearModules
  | sameModule a b =>
    refine answers_of_determined (determined_bind
      (determined_onSite (Action.twin_determined_loadModule a)) fun m => ?_)
    exact determined_bind (determined_onSite (Action.twin_determined_loadModule b)) fun n =>
      hanswer _

end Turn

/-! ## Runs -/

namespace Session
open Site View
variable {exact : Prop} {r s t : Session} {steps : List Step}

/-- The sites of two sessions are twins, and the sessions have the same names and templates. -/
def Twins (exact : Prop) (r s : Session) : Prop := (twinView exact).ofSession.same r s

theorem Twins.refl (s : Session) : Twins exact s s := ⟨.refl s.site, rfl, rfl⟩

theorem twins_of_twins (h : Twins exact r s) (h' : Twins exact r t) : Twins exact s t :=
  ⟨h.1.symm.trans h'.1, h'.2.1.trans h.2.1.symm, h'.2.2.trans h.2.2.symm⟩

/-- A step answers twins the same and leaves twins, unless it is a change of the settings without
its signal and they are not exact. -/
theorem step_twins (h : Twins exact r s) {step : Step} (hstep : exact ∨ step.IsSignalled) :
    (s.step step).1.map Answer.plain = (r.step step).1.map Answer.plain ∧
      Twins exact (r.step step).2 (s.step step).2 := by
  obtain ⟨x, notes, r', hgives⟩ := Turn.twin_answers_take hstep r
  obtain ⟨hr, -, hr'⟩ := hgives r (Twins.refl r)
  obtain ⟨hs, -, hs'⟩ := hgives s h
  exact ⟨hs.trans hr.symm, twins_of_twins hr' hs'⟩

/-- So does a run. -/
theorem run_twins (h : Twins exact r s) (hsteps : exact ∨ ∀ step ∈ steps, step.IsSignalled) :
    (s.run steps).1.map (Except.map Answer.plain) =
        (r.run steps).1.map (Except.map Answer.plain) ∧
      Twins exact (r.run steps).2 (s.run steps).2 := by
  induction steps generalizing r s with
  | nil => exact ⟨rfl, h⟩
  | cons step rest ih =>
    obtain ⟨hanswer, hnext⟩ := step_twins h (hsteps.imp_right fun hall => hall step (by simp))
    obtain ⟨hanswers, hrest⟩ := ih hnext (hsteps.imp_right fun hall next hn =>
      hall next (List.mem_cons_of_mem _ hn))
    refine ⟨?_, hrest⟩
    change (s.step step).1.map _ :: _ = (r.step step).1.map _ :: _
    rw [hanswer]
    exact congrArg _ hanswers

end Session
end Hydration
