import Hydration.Proofs.Site.Script
/-!
# What steps leave alone

Most of what a site does leaves its engines, the modules to import renderers from and the current
configuration as they are: reading the settings, looking renderers up, compiling and rendering
templates, running components. So the engines change by few steps of a session only, and what the
last one of them did can be read off the steps.

* `Action.keeps_of_script`, `Turn.keeps_of_script`: what only reads leaves this alone.
* `step_quiet`: all but five kinds of steps leave engines, their names and templates alone.
* `observed_run`: what is seen after a run is what the latest step that matters made of it.
-/
namespace Hydration

namespace Site
variable {s t u : Site}

theorem extension?_of_engines (h : t.engines = s.engines) (n : Nat) (name : Text) :
    t.extension? n name = s.extension? n name := by
  simp only [extension?, h]

/-- The engines, the modules to import from and the current configuration are the same. -/
structure Framed (s t : Site) : Prop where
  engines : t.engines = s.engines
  libraries : t.libraries = s.libraries
  config : t.currentConfig = s.currentConfig

namespace Framed

theorem refl (s : Site) : Framed s s := ⟨rfl, rfl, rfl⟩

theorem trans (h : Framed s t) (h' : Framed t u) : Framed s u :=
  ⟨h'.engines.trans h.engines, h'.libraries.trans h.libraries, h'.config.trans h.config⟩

theorem extension? (h : Framed s t) (n : Nat) (name : Text) :
    t.extension? n name = s.extension? n name := extension?_of_engines h.engines n name

theorem configured (h : Framed s t) : t.configured = s.configured := by
  rw [Site.configured, Site.configured, h.config]
  exact congrArg _ (funext fun c => imported_eq h.libraries c.renderer)

theorem rendererOf (h : Framed s t) (n : Nat) (name : Text) :
    t.rendererOf n name = s.rendererOf n name := by
  rw [Site.rendererOf, Site.rendererOf, h.extension?, h.configured]

end Framed
end Site

namespace Action
open Site (Framed)
variable {α β : Type}

/-! ## Actions -/

/-- Whatever the action gives, it leaves this much of the site alone. -/
def Keeps (a : Action α) : Prop := ∀ s, Framed s (a.outcome s).2

theorem keeps_ofExcept (r : Except Failure α) : Keeps (ofExcept r) := fun s => .refl s

theorem keeps_refuse (f : Failure) : Keeps (refuse f : Action α) := keeps_ofExcept (.error f)

theorem keeps_record (level : LogLevel) (logger : Logger) (message : Text) :
    Keeps (record level logger message) := fun _ => ⟨rfl, rfl, rfl⟩

/-- An action in a site and what follows in the site after it. -/
theorem framed_bind {a : Action α} {f : α → Action β} {s : Site} (h : Framed s (a.outcome s).2)
    (hf : ∀ x t, a.outcome s = (.ok x, t) → Framed t ((f x).outcome t).2) :
    Framed s ((a >>= f).outcome s).2 := by
  rw [outcome_bind]
  rcases houtcome : a.outcome s with ⟨e | x, t⟩
  · rw [houtcome] at h
    exact h
  · rw [houtcome] at h
    exact h.trans (hf x t houtcome)

theorem keeps_bind {a : Action α} {f : α → Action β} (h : Keeps a) (hf : ∀ x, Keeps (f x)) :
    Keeps (a >>= f) := fun s => framed_bind (h s) fun x t _ => hf x t

theorem keeps_get {f : Site → Action β} (h : ∀ s, Framed s ((f s).outcome s).2) :
    Keeps (get >>= f) := h

theorem keeps_readConfig : Keeps readConfig := by
  intro s
  cases hread : s.config with
  | some c =>
    rw [outcome_readConfig_of_some hread]
    exact .refl s
  | none =>
    cases hsettings : Config.ofSettings s.settings with
    | error e =>
      rw [outcome_readConfig_of_error hread hsettings]
      exact .refl s
    | ok config =>
      simp only [readConfig, outcome_bind, outcome_get, hread, hsettings, outcome_ofExcept,
        outcome_set, outcome_pure]
      exact ⟨rfl, rfl, by rw [Site.currentConfig, Site.currentConfig, hread, hsettings]⟩

theorem keeps_importRenderer (name : Text) : Keeps (importRenderer name) := by
  refine keeps_get fun s => framed_bind ⟨rfl, rfl, rfl⟩ fun _ t _ => ?_
  rcases (s.imports.find name).1 with (message | f) | (r | _)
  · exact keeps_bind (keeps_record _ _ _) (fun _ => keeps_refuse _) t
  · exact .refl t
  · exact .refl t
  · exact .refl t

/-! ## Components -/

theorem keeps_importFile (path : Text) (source : FilePath) (file : ComponentFile) :
    Keeps (importFile path source file) := by
  unfold importFile
  cases file.importFault? with
  | some message =>
    refine keeps_bind (keeps_record _ _ _) fun _ => ?_
    exact keeps_bind (keeps_ofExcept _) fun _ => keeps_refuse _
  | none => exact keeps_get fun s => ⟨rfl, rfl, rfl⟩

theorem keeps_loadModule (path : Text) : Keeps (loadModule path) := by
  refine keeps_get fun s => ?_
  cases s.modules.lookup? path with
  | some m => exact ⟨rfl, rfl, rfl⟩
  | none =>
    refine keeps_bind (keeps_ofExcept _) (fun sources => ?_) s
    refine keeps_bind (keeps_ofExcept _) fun found => ?_
    rcases found with _ | ⟨source, file⟩
    · exact keeps_bind (keeps_record _ _ _) fun _ => keeps_refuse _
    · exact keeps_importFile path source file

theorem keeps_countCall (path : Text) (m : LoadedModule) : Keeps (countCall path m) :=
  fun _ => ⟨rfl, rfl, rfl⟩

theorem keeps_renderComponent (path : Text) (props : Value) :
    Keeps (renderComponent path props) :=
  renderComponent_of keeps_ofExcept keeps_record keeps_loadModule keeps_readConfig keeps_countCall
    keeps_bind path props

/-! ## Whatever only reads -/

theorem keeps_of_script {a : Action α} (h : Script a) : Keeps a := by
  induction h with
  | result r => exact keeps_ofExcept r
  | record level logger message => exact keeps_record level logger message
  | importing name => exact keeps_importRenderer name
  | component path props => exact keeps_renderComponent path props
  | look _ _ ih => exact keeps_get fun s => ih s s
  | read _ _ ih => exact keeps_bind keeps_readConfig ih
  | bind _ _ ih ih' => exact keeps_bind ih ih'

theorem keeps_compileTag (root : Option Text) (extension contents : Text) :
    Keeps (compileTag root extension contents) :=
  keeps_of_script (script_compileTag root extension contents)

theorem keeps_compileInner (libraries : List Text) (tags : TagTable) (line : Nat)
    (kind : Template.TagKind) (inner : Text) :
    Keeps (compileInner libraries tags line kind inner) :=
  keeps_of_script (script_compileInner libraries tags line kind inner)

theorem keeps_compileTemplate (engine : Nat) (source : Text) :
    Keeps (compileTemplate engine source) :=
  keeps_of_script (script_compileTemplate engine source)

theorem keeps_renderNode (engine : Nat) (c : Context) (node : Node) :
    Keeps (renderNode engine c node) := keeps_of_script (script_renderNode engine c node)

/-! ## Files -/

theorem keeps_checkLength (p : FilePath) : Keeps (checkLength p) := by
  refine keeps_get fun s => ?_
  cases s.isTooLong p with
  | true => exact .refl s
  | false => exact .refl s

theorem keeps_writeFile (p : FilePath) (file : ComponentFile) : Keeps (writeFile p file) :=
  keeps_bind (keeps_checkLength p) fun _ _ => ⟨rfl, rfl, rfl⟩

theorem keeps_makeDirectory (p : FilePath) : Keeps (makeDirectory p) :=
  keeps_bind (keeps_checkLength p) fun _ _ => ⟨rfl, rfl, rfl⟩

theorem keeps_removeFile (p : FilePath) : Keeps (removeFile p) := fun _ => ⟨rfl, rfl, rfl⟩

theorem keeps_clearModules : Keeps clearModules := fun _ => ⟨rfl, rfl, rfl⟩

/-! ## Registrations -/

theorem keeps_chooseExtension (extension : Option Extension) :
    Keeps (chooseExtension extension) := keeps_of_script (script_chooseExtension extension)

/-- The name that a tag is enabled under. -/
def tagName (name : Text) : Text := if name = [] then defaultTagName else name

/-- Enabling the tag on an engine looks the renderer up first, and registers it if there is one. -/
theorem outcome_useTag (n : Nat) (name : Text) (extension : Option Extension) (root : Option Text)
    (s : Site) :
    ∃ u log, Framed s u ∧ (∀ own, s.Alike own u) ∧
      (useTag (.engine n) name extension root).outcome s =
        match s.chosen extension with
        | .error e => (.error e, u)
        | .ok r =>
          (.ok (tagName name), { u.register n r (tagName name) root with log := log }) := by
  have hframe := keeps_chooseExtension extension s
  rw [useTag_eq, outcome_bind, show asEngine (.engine n) = pure n from rfl, outcome_pure]
  dsimp only
  rw [outcome_bind]
  cases extension with
  | some given =>
    cases given with
    | renderer r => exact ⟨s, _, hframe, fun _ => .refl s, rfl⟩
    | notCallable => exact ⟨s, [], hframe, fun _ => .refl s, rfl⟩
  | none =>
    obtain ⟨hresult, hsite⟩ := looksUp_defaultRenderer s
    rw [chooseExtension, outcome_map] at hframe ⊢
    rw [Site.chosen, hresult]
    cases s.configured with
    | error e => exact ⟨_, [], hframe, hsite, rfl⟩
    | ok r => exact ⟨_, _, hframe, hsite, rfl⟩

end Action

/-! ## Steps of a session -/

namespace Session

/-- The engines of the site, the names for them and the templates are the same. -/
structure Kept (s t : Session) : Prop where
  site : t.site.engines = s.site.engines
  engines : t.engines = s.engines
  templates : t.templates = s.templates

theorem Kept.refl (s : Session) : Kept s s := ⟨rfl, rfl, rfl⟩

theorem Kept.trans {s t u : Session} (h : Kept s t) (h' : Kept t u) : Kept s u :=
  ⟨h'.site.trans h.site, h'.engines.trans h.engines, h'.templates.trans h.templates⟩

end Session

namespace Turn
open Session (Kept)
variable {α β : Type}

/-- Whatever the turn gives, it leaves this much of the session alone. -/
def Keeps (a : Turn α) : Prop := ∀ s, Kept s (a.outcome s).2

theorem keeps_pure (x : α) : Keeps (pure x : Turn α) := fun s => .refl s

theorem keeps_bind {a : Turn α} {f : α → Turn β} (h : Keeps a) (hf : ∀ x, Keeps (f x)) :
    Keeps (a >>= f) := by
  intro s
  rw [outcome_bind]
  have ha := h s
  rcases houtcome : a.outcome s with ⟨e | x, t⟩
  · rw [houtcome] at ha
    exact ha
  · rw [houtcome] at ha
    exact ha.trans (hf x t)

theorem keeps_get {f : Session → Turn β} (hf : ∀ s, Keeps (f s)) : Keeps (get >>= f) :=
  fun s => hf s s

theorem keeps_onSite {a : Action α} (h : a.Keeps) : Keeps (onSite a) :=
  fun s => ⟨(h s.site).engines, rfl, rfl⟩

theorem keeps_of_script {a : Turn α} (h : Script a) : Keeps a := by
  induction h with
  | result r => exact fun s => .refl s
  | onSite h => exact keeps_onSite (Action.keeps_of_script h)
  | look _ _ ih => exact keeps_get ih
  | bind _ _ ih ih' => exact keeps_bind ih ih'

end Turn

/-- The steps that leave engines, their names and templates alone. -/
def Step.IsQuiet : Step → Prop
  | .engine _ _ | .drop _ | .useTag _ _ _ _ | .setExtension _ _ _ | .compile _ _ _ => False
  | _ => True

namespace Session
open Turn

theorem step_quiet (s : Session) {step : Step} (h : step.IsQuiet) : Kept s (s.step step).2 := by
  have hanswer : ∀ answer : Answer, Keeps (pure answer) := fun _ => keeps_pure _
  have hturn : Keeps (take step) := by
    cases step with
    | engine _ _ | drop _ | useTag _ _ _ _ | setExtension _ _ _ | compile _ _ _ => exact h.elim
    | getExtension _ _ | defaultExtension | render _ _ | component _ _ =>
      exact keeps_of_script (script_take trivial)
    | settings value announced =>
      have hchange : Keeps (onSite (Action.changeSettings value announced)) := fun s => by
        cases announced <;> exact ⟨rfl, rfl, rfl⟩
      exact keeps_bind hchange fun _ => hanswer _
    | otherSetting => exact hanswer _
    | invalidate =>
      have hforget : Keeps (onSite Action.forgetConfig) := fun _ => ⟨rfl, rfl, rfl⟩
      exact keeps_bind hforget fun _ => hanswer _
    | readConfig =>
      refine keeps_get fun s => keeps_bind (keeps_onSite Action.keeps_readConfig) fun c => ?_
      have hshow : Keeps (modify fun s : Session => { s with shown := some c } : Turn Unit) :=
        fun _ => ⟨rfl, rfl, rfl⟩
      exact keeps_bind hshow fun _ => hanswer _
    | writeFile path file =>
      exact keeps_bind (keeps_onSite (Action.keeps_writeFile _ _)) fun _ => hanswer _
    | makeDirectory path =>
      exact keeps_bind (keeps_onSite (Action.keeps_makeDirectory _)) fun _ => hanswer _
    | remove path =>
      exact keeps_bind (keeps_onSite (Action.keeps_removeFile _)) fun _ => hanswer _
    | clearModules =>
      exact keeps_bind (keeps_onSite Action.keeps_clearModules) fun _ => hanswer _
    | sameModule a b =>
      refine keeps_bind (keeps_onSite (Action.keeps_loadModule a)) fun _ => ?_
      exact keeps_bind (keeps_onSite (Action.keeps_loadModule b)) fun _ => hanswer _
  exact hturn s

theorem step_drop (s : Session) (id : Text) :
    s.step (.drop id) =
      match s.engines.lookup id with
      | none => (.error (.key (Text.inspect id)), s)
      | some _ => (.ok .done, { s with engines := s.engines.filter fun e => e.1 != id }) := by
  rw [step_eq_outcome]
  simp only [take, outcome_bind, outcome_get, named]
  cases s.engines.lookup id <;> rfl

theorem step_setExtension (s : Session) (id name : Text) (extension : Extension) :
    s.step (.setExtension (.named id) name extension) =
      match s.engines.lookup id, extension with
      | none, _ => (.error (.key (Text.inspect id)), s)
      | some _, .notCallable => (.error (.type (.extensionNotCallable name)), s)
      | some n, .renderer r =>
        (.ok .done, { s with site := s.site.updateEngine n (Engine.withExtension name r) }) := by
  rw [step_eq_outcome]
  simp only [take, target, outcome_bind, outcome_get, named]
  cases s.engines.lookup id with
  | none => rfl
  | some n => cases extension <;> rfl

theorem step_compile (s : Session) (engine id source : Text) :
    s.step (.compile engine id source) =
      match s.engines.lookup engine with
      | none => (.error (.key (Text.inspect engine)), s)
      | some n =>
        match (Action.compileTemplate n source).outcome s.site with
        | (.error e, site) => (.error e, { s with site := site })
        | (.ok t, site) =>
          (.ok .done, { s with site := site, templates := (id, t) :: s.templates }) := by
  rw [step_eq_outcome]
  simp only [take, outcome_bind, outcome_get, named]
  cases s.engines.lookup engine with
  | none => rfl
  | some n =>
    simp only [outcome_pure, outcome_onSite]
    rcases (Action.compileTemplate n source).outcome s.site with ⟨_ | _, _⟩ <;> rfl

/-- Compiling leaves the engines alone, whether it succeeds or not. -/
theorem framed_step_compile (s : Session) (engine id source : Text) :
    (s.step (.compile engine id source)).2.engines = s.engines ∧
      s.site.Framed (s.step (.compile engine id source)).2.site := by
  rw [step_compile]
  cases s.engines.lookup engine with
  | none => exact ⟨rfl, .refl _⟩
  | some n =>
    have hframe := Action.keeps_compileTemplate n source s.site
    dsimp only
    rcases houtcome : (Action.compileTemplate n source).outcome s.site with ⟨e | t, site⟩
    · rw [houtcome] at hframe
      exact ⟨rfl, hframe⟩
    · rw [houtcome] at hframe
      exact ⟨rfl, hframe⟩

/-- Nothing is registered on what is no engine. -/
theorem step_foreign (s : Session) (type name : Text) :
    (∀ extension, ∃ e, s.step (.setExtension (.foreign type) name extension) = (.error e, s)) ∧
      ∀ extension root,
        s.step (.useTag (.foreign type) name extension root) =
          (.error (.type (.notAnEngine type)), s) := by
  refine ⟨fun extension => ?_, fun _ _ => rfl⟩
  cases extension with
  | renderer r => exact ⟨_, rfl⟩
  | notCallable => exact ⟨_, rfl⟩

/-- A step that enables the tag on an engine: its answer, and the session after it. -/
theorem step_useTag_cases (s : Session) (engine : EngineName) (name : Text)
    (extension : Option Extension) (root : Option Text) :
    (s.engineOf engine = none ∧ ∃ e, s.step (.useTag engine name extension root) = (.error e, s)) ∨
      ∃ n u log, s.engineOf engine = some n ∧ s.site.Framed u ∧ (∀ own, s.site.Alike own u) ∧
        s.step (.useTag engine name extension root) =
          match s.site.chosen extension with
          | .error e => (.error e, { s with site := u })
          | .ok r =>
            (.ok (.names [Action.tagName name]),
              { s with site :=
                { u.register n r (Action.tagName name) root with log := log } }) := by
  cases engine with
  | foreign type => exact .inl ⟨rfl, _, (step_foreign s type name).2 extension root⟩
  | named id =>
    rw [step_useTag]
    cases hid : s.engines.lookup id with
    | none => exact .inl ⟨hid, _, rfl⟩
    | some n =>
      obtain ⟨u, log, hframe, hsite, houtcome⟩ :=
        Action.outcome_useTag n name extension root s.site
      refine .inr ⟨n, u, log, hid, hframe, hsite, ?_⟩
      dsimp only
      rw [houtcome]
      cases s.site.chosen extension <;> rfl

/-- A step that registers a renderer: its answer, and the session after it. -/
theorem step_setExtension_cases (s : Session) (engine : EngineName) (name : Text)
    (extension : Extension) :
    (∃ e, s.step (.setExtension engine name extension) = (.error e, s) ∧
        ∀ r, extension = .renderer r → s.engineOf engine = none) ∨
      ∃ n r, s.engineOf engine = some n ∧ extension = .renderer r ∧
        s.step (.setExtension engine name extension) =
          (.ok .done, { s with site := s.site.updateEngine n (Engine.withExtension name r) }) := by
  cases engine with
  | foreign type =>
    obtain ⟨e, he⟩ := (step_foreign s type name).1 extension
    exact .inl ⟨e, he, fun _ _ => rfl⟩
  | named id =>
    rw [step_setExtension]
    cases hid : s.engines.lookup id with
    | none => exact .inl ⟨_, rfl, fun _ _ => hid⟩
    | some n =>
      cases extension with
      | notCallable => exact .inl ⟨_, rfl, fun r h => by cases h⟩
      | renderer r => exact .inr ⟨n, r, hid, rfl, rfl⟩

/-! ## Runs -/

/-- What one step preserves, a run preserves. -/
theorem invariant_run {P : Session → Prop} {steps : List Step}
    (h : ∀ s, ∀ step ∈ steps, P s → P (s.step step).2) {s : Session} (hs : P s) :
    P (s.run steps).2 := by
  induction steps generalizing s with
  | nil => exact hs
  | cons step rest ih =>
    have hfirst := h s step List.mem_cons_self hs
    exact ih (fun t next hn => h t next (List.mem_cons_of_mem _ hn)) hfirst

/-- What the latest step of a run makes, if any step makes something. -/
def latest {α : Type} (makes : Session → Step → Option α) : Session → List Step → Option α
  | _, [] => none
  | s, step :: rest => (latest makes (s.step step).2 rest).or (makes s step)

theorem latest_eq_none {α : Type} {makes : Session → Step → Option α} {steps : List Step}
    (h : ∀ s, ∀ step ∈ steps, makes s step = none) (s : Session) : latest makes s steps = none := by
  induction steps generalizing s with
  | nil => rfl
  | cons step rest ih =>
    rw [latest, ih (fun t next hn => h t next (List.mem_cons_of_mem _ hn)),
      h s step List.mem_cons_self]
    rfl

/-- What is seen after a run is what the latest step made, or what was there before. -/
theorem observed_run {α : Type} {P : Session → Prop} {f : Session → Option α}
    {makes : Session → Step → Option α} {steps : List Step}
    (hP : ∀ s, ∀ step ∈ steps, P s → P (s.step step).2)
    (h : ∀ s, ∀ step ∈ steps, P s → f (s.step step).2 = (makes s step).or (f s))
    {s : Session} (hs : P s) : f (s.run steps).2 = (latest makes s steps).or (f s) := by
  induction steps generalizing s with
  | nil => rfl
  | cons step rest ih =>
    have hrest := ih (fun t next hn => hP t next (List.mem_cons_of_mem _ hn))
      (fun t next hn => h t next (List.mem_cons_of_mem _ hn)) (hP s step List.mem_cons_self hs)
    rw [latest, Option.or_assoc, ← h s step List.mem_cons_self hs]
    exact hrest

end Session
end Hydration
