import Hydration.Proofs.Site.Renderers
import Hydration.Proofs.Site.Twins
/-!
# Registrations that fail

Enabling the tag takes several steps: the engine is resolved, a renderer is chosen, the renderer is
registered, the tag is added. Whatever can fail comes before anything is registered. So a
registration that fails leaves every engine as it was. If it went to look for the renderer of the
configuration, the site remembers what was read on the way; that is all that is left of it.

* `outcome_useTag_error`: what a failure to enable the tag leaves behind.
* `sameEngines_run`: engines that are the same stay the same, whatever is read from the settings.
* `unaffected_of_error`: after a registration that failed all goes on as if it had not been made.
-/
namespace Hydration

/-- A renderer is registered for an engine, or the tag is enabled on it. -/
def Step.IsRegistration : Step → Prop
  | .useTag _ _ _ _ | .setExtension _ _ _ => True
  | _ => False

/-- The tag is enabled with the renderer of the configuration. -/
def Step.UsesDefault : Step → Prop
  | .useTag _ _ none _ => True
  | _ => False

theorem Site.imported_of_missing {s : Site} {name message : Text}
    (h : Library.importName (Library.builtin ++ s.libraries) name = .error (.missing message)) :
    s.imported name = .error (.settings (.rendererMissing name)) := by
  rw [imported, h]

namespace Action
open Site

/-- Looking for the renderer of the configuration leaves what a reading leaves, and a renderer to be
remembered. -/
theorem twin_defaultRenderer (s : Site) :
    Twin True (readConfig.outcome s).2 (defaultRenderer.outcome s).2 := by
  rw [defaultRenderer, outcome_bind]
  rcases readConfig.outcome s with ⟨e | c, u⟩
  · exact .refl u
  · exact twin_importRenderer c.config.renderer u

/-- Once there is a renderer to register, nothing fails. -/
theorem outcome_enable_ne_error (n : Nat) (name : Text) (root : Option Text) (r : Renderer)
    (s : Site) (f : Failure) : ((enable n name root (.renderer r)).outcome s).1 ≠ .error f := by
  intro h
  cases h

/-- A failure to enable the tag leaves the site as it was, or as if the settings had been read. -/
theorem outcome_useTag_error {target : Target} {name : Text} {extension : Option Extension}
    {root : Option Text} {s : Site} {f : Failure}
    (h : ((useTag target name extension root).outcome s).1 = .error f) :
    ((useTag target name extension root).outcome s).2 = s ∨
      Twin True (readConfig.outcome s).2 ((useTag target name extension root).outcome s).2 := by
  rw [useTag_eq] at h ⊢
  cases target with
  | foreign type => exact .inl rfl
  | engine n =>
    simp only [asEngine, outcome_bind, outcome_pure] at h ⊢
    cases extension with
    | some given =>
      cases given with
      | notCallable => exact .inl rfl
      | renderer r =>
        exact absurd h (outcome_enable_ne_error n name root r s f)
    | none =>
      have htwin := twin_defaultRenderer s
      simp only [chooseExtension, outcome_map] at h ⊢
      rcases hchoice : defaultRenderer.outcome s with ⟨e | r, u⟩
      · rw [hchoice] at htwin
        exact .inr htwin
      · rw [hchoice] at h
        exact absurd h (outcome_enable_ne_error n name root r u f)

end Action

namespace Session
open Site
variable {s t : Session}

/-! ## Engines that are the same -/

/-- The engines and the names for them are the same. -/
structure SameEngines (s t : Session) : Prop where
  site : t.site.engines = s.site.engines
  names : t.engines = s.engines

theorem SameEngines.engineOf (h : SameEngines s t) (engine : EngineName) :
    t.engineOf engine = s.engineOf engine := by
  cases engine with
  | named id => exact congrArg (List.lookup id) h.names
  | foreign type => rfl

/-- What leaves the engines alone on both sides leaves them the same. -/
theorem SameEngines.of_kept (h : SameEngines s t) {s' t' : Session}
    (hs : s'.site.engines = s.site.engines ∧ s'.engines = s.engines)
    (ht : t'.site.engines = t.site.engines ∧ t'.engines = t.engines) : SameEngines s' t' :=
  ⟨ht.1.trans (h.site.trans hs.1.symm), ht.2.trans (h.names.trans hs.2.symm)⟩

theorem sameEngines_quiet (h : SameEngines s t) {step : Step} (hquiet : step.IsQuiet) :
    SameEngines (s.step step).2 (t.step step).2 :=
  h.of_kept ⟨(step_quiet s hquiet).site, (step_quiet s hquiet).engines⟩
    ⟨(step_quiet t hquiet).site, (step_quiet t hquiet).engines⟩

/-- Enabling the tag with a given renderer does the same to engines that are the same. -/
theorem sameEngines_useTag (h : SameEngines s t) (engine : EngineName) (name : Text)
    (given : Extension) (root : Option Text) :
    SameEngines (s.step (.useTag engine name (some given) root)).2
      (t.step (.useTag engine name (some given) root)).2 := by
  rcases step_useTag_cases s engine name (some given) root with
    ⟨hs, e, hstep⟩ | ⟨n, u, log, hs, hframe, -, hstep⟩ <;>
  rcases step_useTag_cases t engine name (some given) root with
    ⟨ht, e', hstep'⟩ | ⟨n', u', log', ht, hframe', -, hstep'⟩
  · rw [hstep, hstep']
    exact h
  · exact nomatch ((h.engineOf engine).trans hs).symm.trans ht
  · exact nomatch ((h.engineOf engine).trans hs).symm.trans ht
  · obtain rfl : n = n' := Option.some.inj (((h.engineOf engine).trans hs).symm.trans ht)
    have hengines : u'.engines = u.engines :=
      hframe'.engines.trans (h.site.trans hframe.engines.symm)
    rw [hstep, hstep']
    cases given with
    | notCallable => exact ⟨hengines, h.names⟩
    | renderer r =>
      refine ⟨?_, h.names⟩
      simp only [chosen, Site.register, Site.updateEngine, hengines]

theorem sameEngines_setExtension (h : SameEngines s t) (engine : EngineName) (name : Text)
    (extension : Extension) :
    SameEngines (s.step (.setExtension engine name extension)).2
      (t.step (.setExtension engine name extension)).2 := by
  rcases step_setExtension_cases s engine name extension with
    ⟨e, hstep, hs⟩ | ⟨n, r, hs, rfl, hstep⟩ <;>
  rcases step_setExtension_cases t engine name _ with
    ⟨e', hstep', ht⟩ | ⟨n', r', ht, hr, hstep'⟩
  · rw [hstep, hstep']
    exact h
  · exact nomatch ((h.engineOf engine).trans (hs r' hr)).symm.trans ht
  · exact nomatch (((h.engineOf engine).trans hs).symm.trans (ht r rfl))
  · cases hr
    obtain rfl : n = n' := Option.some.inj (((h.engineOf engine).trans hs).symm.trans ht)
    rw [hstep, hstep']
    exact ⟨by simp only [Site.updateEngine, h.site], h.names⟩

/-- A step does the same to engines that are the same, if it does not ask for the renderer of the
configuration. -/
theorem sameEngines_step (h : SameEngines s t) {step : Step} (hstep : ¬ step.UsesDefault) :
    SameEngines (s.step step).2 (t.step step).2 := by
  cases step with
  | engine id e => exact ⟨congrArg (· ++ [e]) h.site, by
      change (id, t.site.engines.length) :: t.engines = (id, s.site.engines.length) :: s.engines
      rw [h.site, h.names]⟩
  | drop id =>
    rw [step_drop, step_drop, h.names]
    cases s.engines.lookup id with
    | none => exact h
    | some n => exact ⟨h.site, rfl⟩
  | useTag engine name extension root =>
    cases extension with
    | none => exact absurd trivial hstep
    | some given => exact sameEngines_useTag h engine name given root
  | setExtension engine name extension => exact sameEngines_setExtension h engine name extension
  | compile engine id source =>
    obtain ⟨hs, hsframe⟩ := framed_step_compile s engine id source
    obtain ⟨ht, htframe⟩ := framed_step_compile t engine id source
    exact h.of_kept ⟨hsframe.engines, hs⟩ ⟨htframe.engines, ht⟩
  | _ => exact sameEngines_quiet h (by trivial)

theorem sameEngines_run (h : SameEngines s t) {steps : List Step}
    (hsteps : ∀ step ∈ steps, ¬ step.UsesDefault) :
    SameEngines (s.run steps).2 (t.run steps).2 := by
  induction steps generalizing s t with
  | nil => exact h
  | cons step rest ih =>
    obtain ⟨hstep, hrest⟩ := List.forall_mem_cons.1 hsteps
    exact ih (sameEngines_step h hstep) hrest

/-- An engine that has a renderer under a name answers with it, whatever else there is. -/
theorem step_getExtension_registered {engine : EngineName} {n : Nat} {name : Text} {r : Renderer}
    (hn : s.engineOf engine = some n) (hr : s.site.extension? n name = some r) :
    (s.step (.getExtension (some engine) name)).1 = .ok (.renderer r) := by
  rw [step_getExtension hn, Site.rendererOf, hr]
  rfl

/-! ## As if it had not been made -/

/-- The answers to steps that are taken one after the other, without what tells readings of the same
configuration apart. -/
def answers (s : Session) (steps : List Step) : List (Except Failure Answer) :=
  (s.run steps).1.map (Except.map Answer.plain)

/-- The second session goes on as the first one. -/
structure Unaffected (s t : Session) : Prop where
  /-- All but the caches of the configuration and of imports, and the log, is the same. -/
  site : SameButRead s.site t.site
  names : t.engines = s.engines
  templates : t.templates = s.templates
  shown : t.shown = s.shown
  /-- Whatever comes later is answered the same, if the settings are not changed behind the back of
  the site. -/
  later : ∀ rest, (∀ step ∈ rest, step.IsSignalled) → t.answers rest = s.answers rest
  /-- In any case all is as if nothing had been done, or nothing but reading the settings. -/
  atMostRead : (∀ rest, t.answers rest = s.answers rest) ∨
    ∀ rest, t.answers rest = (s.step .readConfig).2.answers rest
  /-- Whatever is read, the engines stay the same until the tag is enabled with the renderer of the
  configuration. -/
  engines : ∀ rest, (∀ step ∈ rest, ¬ step.UsesDefault) →
    SameEngines (s.run rest).2 (t.run rest).2
  /-- In particular, what is registered under a name is found. -/
  registered : ∀ rest, (∀ step ∈ rest, ¬ step.UsesDefault) → ∀ engine n name r,
    (s.run rest).2.engineOf engine = some n → (s.run rest).2.site.extension? n name = some r →
      ((s.run rest).2.step (.getExtension (some engine) name)).1 = .ok (.renderer r) ∧
        ((t.run rest).2.step (.getExtension (some engine) name)).1 = .ok (.renderer r)

theorem unaffected_of_twins (htwins : Twins False s t) (hshown : t.shown = s.shown)
    (hread : (∀ rest, t.answers rest = s.answers rest) ∨
      ∀ rest, t.answers rest = (s.step .readConfig).2.answers rest) : Unaffected s t where
  site := htwins.1.toSameButRead
  names := htwins.2.1
  templates := htwins.2.2
  shown := hshown
  later rest hrest := (run_twins htwins (.inr hrest)).1
  atMostRead := hread
  engines rest hrest := sameEngines_run ⟨htwins.1.engines, htwins.2.1⟩ hrest
  registered rest hrest engine n name r hn hr := by
    have hsame : SameEngines (s.run rest).2 (t.run rest).2 :=
      sameEngines_run ⟨htwins.1.engines, htwins.2.1⟩ hrest
    have hn' := (hsame.engineOf engine).trans hn
    have hr' := (extension?_of_engines hsame.site n name).trans hr
    exact ⟨step_getExtension_registered hn hr, step_getExtension_registered hn' hr'⟩

theorem site_step_readConfig (s : Session) :
    (s.step .readConfig).2.site = (Action.readConfig.outcome s.site).2 := by
  simp only [step_eq_outcome, Turn.take, Turn.outcome_bind, Turn.outcome_get, Turn.outcome_onSite]
  cases (Action.readConfig.outcome s.site).1 <;> rfl

/-- Without a renderer to register, the tag is not enabled. -/
theorem step_useTag_error {engine : EngineName} {n : Nat} (hn : s.engineOf engine = some n)
    (name : Text) (root : Option Text) {extension : Option Extension} {f : Failure}
    (h : s.site.chosen extension = .error f) :
    (s.step (.useTag engine name extension root)).1 = .error f := by
  rcases step_useTag_cases s engine name extension root with
    ⟨hnone, -⟩ | ⟨m, u, log, -, -, -, hstep⟩
  · exact nomatch hnone.symm.trans hn
  · rw [hstep, h]

/-- A registration that failed left the session as it was, or as if the settings had been read. -/
theorem step_registration_error {call : Step} (hcall : call.IsRegistration) {f : Failure}
    (h : (s.step call).1 = .error f) :
    (s.step call).2 = s ∨ ∃ u, (s.step call).2 = { s with site := u } ∧
      Twin True (Action.readConfig.outcome s.site).2 u := by
  cases call with
  | setExtension engine name extension =>
    rcases step_setExtension_cases s engine name extension with
      ⟨e, hstep, -⟩ | ⟨n, r, -, -, hstep⟩
    · rw [hstep]
      exact .inl rfl
    · rw [hstep] at h
      cases h
  | useTag engine name extension root =>
    cases engine with
    | foreign type =>
      rw [(step_foreign s type name).2 extension root]
      exact .inl rfl
    | named id =>
      rw [step_useTag] at h ⊢
      cases hid : s.engines.lookup id with
      | none => exact .inl rfl
      | some n =>
        rw [hid] at h
        cases hcause : ((Action.useTag (.engine n) name extension root).outcome s.site).1 with
        | ok shown =>
          simp only [hcause] at h
          cases h
        | error e =>
          rcases Action.outcome_useTag_error hcause with hsite | htwin
          · exact .inl (by dsimp only; rw [hsite])
          · exact .inr ⟨_, rfl, htwin⟩
  | _ => exact hcall.elim

/-- A registration that fails changes nothing but what the site remembers of the settings and of
imports, and all goes on as if it had not been made. -/
theorem unaffected_of_error {call : Step} (hcall : call.IsRegistration) {f : Failure}
    (h : (s.step call).1 = .error f) : Unaffected s (s.step call).2 := by
  rcases step_registration_error hcall h with hsame | ⟨u, hstep, htwin⟩
  · rw [hsame]
    exact unaffected_of_twins (.refl s) rfl (.inl fun _ => rfl)
  · rw [hstep]
    have hcoarse : Twins False s { s with site := u } :=
      ⟨(Action.twin_readConfig s.site).trans (htwin.weaken False.elim), rfl, rfl⟩
    have hkept : Kept s (s.step .readConfig).2 := step_quiet s trivial
    have hread : Twins True (s.step .readConfig).2 { s with site := u } :=
      ⟨(site_step_readConfig s).symm ▸ htwin, hkept.engines.symm, hkept.templates.symm⟩
    exact unaffected_of_twins hcoarse rfl (.inr fun rest => (run_twins hread (.inl trivial)).1)

/-- An engine, and settings with a renderer that cannot be imported. -/
def unimportable : List Step :=
  [.engine "e" (Engine.make true true ""),
    .settings (.dict [(.str "renderer", .str "ui.render")]) true]

theorem unaffected_of_error_unimportable :
    let s := ((start .none []).run unimportable).2
    let call := Step.useTag (.named "e") "component" none none
    call.IsRegistration ∧
      (s.step call).1 = .error (.settings (.rendererMissing "ui.render")) ∧
        s.site.memory = none ∧ (s.step call).2.site.memory ≠ none ∧
          Unaffected s (s.step call).2 := by
  intro s call
  have hconfig : s.site.currentConfig =
      .ok { Config.default with renderer := "ui.render" } := by decide +kernel
  have hname : Library.importName (Library.builtin ++ s.site.libraries) "ui.render" =
      .error (.missing "No module named 'ui'") := by
    change Library.importName (Library.builtin ++ []) "ui.render" = _
    cbv
  have hchosen : s.site.chosen none = .error (.settings (.rendererMissing "ui.render")) := by
    rw [chosen, configured, hconfig]
    exact imported_of_missing hname
  have hengine : s.engineOf (.named "e") = some 0 := by decide +kernel
  have hfails := step_useTag_error hengine "component" none hchosen
  have hread : (s.step call).2.site.memory ≠ none := by decide +kernel
  exact ⟨trivial, hfails, rfl, hread, unaffected_of_error trivial hfails⟩

end Session
end Hydration
