import Hydration.Proofs.Site.Loading
import Hydration.Proofs.Site.Script
/-!
# What happens to the caches in a session

A site remembers the configuration that it read and the modules that it loaded. What concerns these
two caches in a session is told by its events: every reading and every load, wherever in the steps
it happens, the changes of the settings, and what empties a cache. `Action.Trace`, `Turn.Trace` and
`Session.Traces` relate actions, steps and runs to their events, in the order of the actions that
they are made of. `Site.Moves` is what is left of this for the site; what holds along the events is
proved by induction over it.

* `Session.exists_traces`: every run has its events.
* `Session.Traces.moves`: they lead from the site before the run to the site after it.
* `Site.Moves.split`: the site at which an event happens.
-/
namespace Hydration

/-- An event: a reading of the configuration or a load of a module, with the site at which it
happens and its result; a change of the settings; or what empties one of the caches. -/
inductive Event
  | read (s : Site) (result : Except Failure ReadConfig)
  | changed (announced : Bool)
  | forgot
  | loaded (s : Site) (path : Text) (result : Except Failure LoadedModule)
  | cleared

/-! ## Sites -/

namespace Site

/-- The settings and the caches are the same. -/
structure KeepsCaches (s t : Site) : Prop where
  settings : t.settings = s.settings
  config : t.config = s.config
  readings : t.readings = s.readings
  modules : t.modules = s.modules
  loads : t.loads = s.loads

/-- What one action does to the caches of a site. A call of a component is counted in the module
that was used last. -/
inductive Move : Site → List Event → Site → Prop
  | aside {s t : Site} (h : KeepsCaches s t) : Move s [] t
  | called {s : Site} {path : Text} {m : LoadedModule} {rest : List (Text × LoadedModule)}
    (h : s.modules.entries = (path, m) :: rest) :
    Move s [] ((Action.countCall path m).outcome s).2
  | read (s : Site) :
    Move s [.read s (Action.readConfig.outcome s).1] (Action.readConfig.outcome s).2
  | changed (s : Site) (settings : Value) (announced : Bool) :
    Move s [.changed announced] ((Action.changeSettings settings announced).outcome s).2
  | forgot (s : Site) : Move s [.forgot] (Action.forgetConfig.outcome s).2
  | loaded (s : Site) (path : Text) :
    Move s [.loaded s path ((Action.loadModule path).outcome s).1]
      ((Action.loadModule path).outcome s).2
  | cleared (s : Site) : Move s [.cleared] (Action.clearModules.outcome s).2

/-- What actions in a row do to the caches of a site. -/
inductive Moves : Site → List Event → Site → Prop
  | refl (s : Site) : Moves s [] s
  | more {s t u : Site} {before events : List Event} (h : Moves s before t)
    (hmove : Move t events u) : Moves s (before ++ events) u

variable {s t u : Site} {before events : List Event}

theorem Move.moves (h : Move s events t) : Moves s events t := .more (.refl s) h

theorem Moves.trans (h : Moves s before t) (h' : Moves t events u) :
    Moves s (before ++ events) u := by
  induction h' with
  | refl => rwa [List.append_nil]
  | more _ hmove ih =>
    rw [← List.append_assoc]
    exact .more ih hmove

theorem Move.length_le_one (h : Move s events t) : events.length ≤ 1 := by
  cases h <;> simp

/-- Every event happens at a site that the events before it lead to. -/
theorem Moves.split {e : Event} {after : List Event} (h : Moves s (before ++ e :: after) u) :
    ∃ t t', Moves s before t ∧ Move t [e] t' ∧ Moves t' after u := by
  generalize hall : before ++ e :: after = all at h
  induction h generalizing after with
  | refl => cases before <;> cases hall
  | more hmoves hmove ih =>
    next v w first last =>
    rcases last with _ | ⟨x, _ | _⟩
    · rw [List.append_nil] at hall
      obtain ⟨t, t', ht, he, hrest⟩ := ih hall
      refine ⟨t, t', ht, he, ?_⟩
      rw [← List.append_nil after]
      exact .more hrest hmove
    · rcases List.eq_nil_or_concat after with rfl | ⟨after, y, rfl⟩
      · obtain ⟨rfl, hx⟩ := List.append_inj' hall rfl
        cases hx
        exact ⟨v, w, hmoves, hmove, .refl w⟩
      · rw [List.concat_eq_append, ← List.cons_append, ← List.append_assoc] at hall
        obtain ⟨hfirst, hx⟩ := List.append_inj' hall rfl
        cases hx
        obtain ⟨t, t', ht, he, hrest⟩ := ih hfirst
        rw [List.concat_eq_append]
        exact ⟨t, t', ht, he, .more hrest hmove⟩
    · have hlength := hmove.length_le_one
      simp at hlength

end Site

/-! ## Actions -/

namespace Action
open Site (KeepsCaches Move Moves)
variable {α β : Type}

/-- The events of an action from a site on. -/
inductive Trace : {α : Type} → Action α → Site → List Event → Prop
  | result {α : Type} (r : Except Failure α) (s : Site) : Trace (ofExcept r) s []
  | aside {f : Site → Site} (hf : ∀ s, KeepsCaches s (f s)) (s : Site) :
    Trace (modify f : Action Unit) s []
  | importing (name : Text) (s : Site) : Trace (importRenderer name) s []
  | look {α : Type} {f : Site → Action α} {s : Site} {events : List Event}
    (hsame : ∀ s t, s.engines = t.engines → s.files = t.files → f s = f t)
    (h : Trace (f s) s events) : Trace (get >>= f) s events
  | called {s : Site} {path : Text} {m : LoadedModule} {rest : List (Text × LoadedModule)}
    (h : s.modules.entries = (path, m) :: rest) : Trace (countCall path m) s []
  | read (s : Site) : Trace readConfig s [.read s (readConfig.outcome s).1]
  | changed (settings : Value) (announced : Bool) (s : Site) :
    Trace (changeSettings settings announced) s [.changed announced]
  | forgot (s : Site) : Trace forgetConfig s [.forgot]
  | loaded (path : Text) (s : Site) :
    Trace (loadModule path) s [.loaded s path ((loadModule path).outcome s).1]
  | cleared (s : Site) : Trace clearModules s [.cleared]
  | ok {α β : Type} {a : Action α} {f : α → Action β} {s t : Site} {x : α}
    {before events : List Event} (ha : Trace a s before) (h : a.outcome s = (.ok x, t))
    (hf : Trace (f x) t events) : Trace (a >>= f) s (before ++ events)
  | error {α β : Type} {a : Action α} {f : α → Action β} {s t : Site} {e : Failure}
    {events : List Event} (ha : Trace a s events) (h : a.outcome s = (.error e, t)) :
    Trace (a >>= f) s events

theorem Trace.moves {a : Action α} {s : Site} {events : List Event} (h : Trace a s events) :
    Moves s events (a.outcome s).2 := by
  induction h with
  | result r s => exact .refl s
  | aside hf s => exact (Move.aside (hf s)).moves
  | importing name s =>
    refine (Move.aside ?_).moves
    simp only [importRenderer, outcome_bind, outcome_get, outcome_set]
    rcases (s.imports.find name).1 with (message | f) | (r | _) <;> exact ⟨rfl, rfl, rfl, rfl, rfl⟩
  | look _ _ ih => exact ih
  | called h => exact (Move.called h).moves
  | read s => exact (Move.read s).moves
  | changed settings announced s => exact (Move.changed s settings announced).moves
  | forgot s => exact (Move.forgot s).moves
  | loaded path s => exact (Move.loaded s path).moves
  | cleared s => exact (Move.cleared s).moves
  | ok _ h _ ih ih' =>
    rw [outcome_bind, h]
    rw [h] at ih
    exact ih.trans ih'
  | error _ h ih =>
    rw [outcome_bind, h]
    rw [h] at ih
    exact ih

/-- From every site on the action has events. -/
def Traceable (a : Action α) : Prop := ∀ s, ∃ events, Trace a s events

theorem Trace.bind {a : Action α} {f : α → Action β} {s : Site} {before : List Event}
    (ha : Trace a s before)
    (hf : ∀ x t, a.outcome s = (.ok x, t) → ∃ events, Trace (f x) t events) :
    ∃ events, Trace (a >>= f) s events := by
  rcases h : a.outcome s with ⟨e | x, t⟩
  · exact ⟨before, .error ha h⟩
  · obtain ⟨events, hevents⟩ := hf x t h
    exact ⟨before ++ events, .ok ha h hevents⟩

theorem traceable_bind {a : Action α} {f : α → Action β} (ha : Traceable a)
    (hf : ∀ x, Traceable (f x)) : Traceable (a >>= f) := by
  intro s
  obtain ⟨before, hbefore⟩ := ha s
  exact hbefore.bind fun x t _ => hf x t

theorem traceable_ofExcept (r : Except Failure α) : Traceable (ofExcept r) :=
  fun s => ⟨[], .result r s⟩

theorem traceable_modify {f : Site → Site} (hf : ∀ s, KeepsCaches s (f s)) :
    Traceable (modify f : Action Unit) := fun s => ⟨[], .aside hf s⟩

theorem traceable_record (level : LogLevel) (logger : Logger) (message : Text) :
    Traceable (record level logger message) := traceable_modify fun _ => ⟨rfl, rfl, rfl, rfl, rfl⟩

theorem keepsModules_readConfig (s : Site) :
    (readConfig.outcome s).2.modules = s.modules ∧ (readConfig.outcome s).2.loads = s.loads := by
  cases hread : s.config with
  | some c =>
    rw [outcome_readConfig_of_some hread]
    exact ⟨rfl, rfl⟩
  | none =>
    cases hsettings : Config.ofSettings s.settings with
    | error f =>
      rw [outcome_readConfig_of_error hread hsettings]
      exact ⟨rfl, rfl⟩
    | ok config =>
      rw [outcome_readConfig_of_ok hread hsettings]
      exact ⟨rfl, rfl⟩

/-- The call is counted in the module that was loaded before, which is still the one used last. -/
theorem traceable_renderComponent (path : Text) (props : Value) :
    Traceable (renderComponent path props) := by
  refine fun s => (Trace.loaded path s).bind fun m t hload => ?_
  obtain ⟨rest, hrest⟩ := entries_loadModule hload
  refine (Trace.read t).bind fun c u hread => ?_
  have hmodules := (keepsModules_readConfig t).1
  rw [hread] at hmodules
  dsimp only at hmodules
  dsimp only
  cases m.file.member c.config.componentAttribute with
  | callable behaviour =>
    refine (Trace.result _ u).bind fun props v hprops => ?_
    obtain ⟨-, rfl⟩ := outcome_ofExcept_ok_iff.1 hprops
    have hcall : ∀ calls : Nat, Traceable (do
        let made ← ofExcept (m.file.call behaviour calls props)
        ofExcept made.markup) := fun _ =>
      traceable_bind (traceable_ofExcept _) fun _ => traceable_ofExcept _
    cases behaviour with
    | byKind =>
      exact (Trace.called (hmodules ▸ hrest)).bind fun calls w _ => hcall calls w
    | constant _ | own _ => exact traceable_bind (traceable_ofExcept (.ok _)) hcall u
  | absent | plain =>
    exact traceable_bind (traceable_record _ _ _) (fun _ => traceable_ofExcept _) u

theorem traceable_of_script {a : Action α} (h : Script a) : Traceable a := by
  induction h with
  | result r => exact traceable_ofExcept r
  | record level logger message => exact traceable_record level logger message
  | importing name => exact fun s => ⟨[], .importing name s⟩
  | component path props => exact traceable_renderComponent path props
  | look _ hsame ih =>
    intro s
    obtain ⟨events, hevents⟩ := ih s s
    exact ⟨events, .look (fun s t h _ => hsame s t h) hevents⟩
  | read _ _ ih => exact fun s => (Trace.read s).bind fun c t _ => ih c t
  | bind _ _ ih ih' => exact traceable_bind ih ih'

theorem traceable_asEngine (target : Target) : Traceable (asEngine target) :=
  traceable_of_script (script_asEngine target)

theorem traceable_setExtension (target : Target) (name : Text) (extension : Extension) :
    Traceable (setExtension target name extension) := by
  cases extension with
  | notCallable => exact traceable_ofExcept _
  | renderer r =>
    refine traceable_bind (traceable_asEngine target) fun n => ?_
    exact traceable_modify fun _ => ⟨rfl, rfl, rfl, rfl, rfl⟩

theorem traceable_useTag (target : Target) (name : Text) (extension : Option Extension)
    (root : Option Text) : Traceable (useTag target name extension root) := by
  rw [useTag_eq]
  refine traceable_bind (traceable_asEngine target) fun n => ?_
  refine traceable_bind (traceable_of_script (script_chooseExtension extension)) fun e => ?_
  refine traceable_bind (traceable_setExtension _ _ _) fun _ => ?_
  refine traceable_bind (traceable_modify fun _ => ⟨rfl, rfl, rfl, rfl, rfl⟩) fun _ => ?_
  exact traceable_bind (traceable_record _ _ _) fun _ => traceable_ofExcept (.ok _)

theorem traceable_checkLength (p : FilePath) : Traceable (checkLength p) := by
  intro s
  refine ⟨[], .look (fun s t _ hfiles => ?_) ?_⟩
  · rw [Site.isTooLong, Site.isTooLong, hfiles]
  · cases s.isTooLong p with
    | true => exact .result _ s
    | false => exact .result (.ok ()) s

end Action

/-! ## Steps -/

namespace Turn
variable {α β : Type}

/-- The events of a turn from a session on. -/
inductive Trace : {α : Type} → Turn α → Session → List Event → Prop
  | result {α : Type} (r : Except Failure α) (s : Session) : Trace (ExceptT.mk (pure r)) s []
  | onSite {α : Type} {a : Action α} {s : Session} {events : List Event}
    (h : a.Trace s.site events) : Trace (onSite a) s events
  | aside {f : Session → Session} (hf : ∀ s : Session, s.site.KeepsCaches (f s).site)
    (s : Session) : Trace (modify f : Turn Unit) s []
  | look {α : Type} {f : Session → Turn α} {s : Session} {events : List Event}
    (hsame : ∀ s t : Session, s.engines = t.engines → s.templates = t.templates →
      s.shown = t.shown → f s = f t) (h : Trace (f s) s events) : Trace (get >>= f) s events
  | ok {α β : Type} {a : Turn α} {f : α → Turn β} {s t : Session} {x : α}
    {before events : List Event} (ha : Trace a s before) (h : a.outcome s = (.ok x, t))
    (hf : Trace (f x) t events) : Trace (a >>= f) s (before ++ events)
  | error {α β : Type} {a : Turn α} {f : α → Turn β} {s t : Session} {e : Failure}
    {events : List Event} (ha : Trace a s events) (h : a.outcome s = (.error e, t)) :
    Trace (a >>= f) s events

theorem Trace.moves {a : Turn α} {s : Session} {events : List Event} (h : Trace a s events) :
    s.site.Moves events (a.outcome s).2.site := by
  induction h with
  | result r s => exact .refl s.site
  | onSite h => exact h.moves
  | aside hf s => exact (Site.Move.aside (hf s)).moves
  | look _ _ ih => exact ih
  | ok _ h _ ih ih' =>
    rw [outcome_bind, h]
    rw [h] at ih
    exact ih.trans ih'
  | error _ h ih =>
    rw [outcome_bind, h]
    rw [h] at ih
    exact ih

/-- From every session on the turn has events. -/
def Traceable (a : Turn α) : Prop := ∀ s, ∃ events, Trace a s events

theorem traceable_bind {a : Turn α} {f : α → Turn β} (ha : Traceable a)
    (hf : ∀ x, Traceable (f x)) : Traceable (a >>= f) := by
  intro s
  obtain ⟨before, hbefore⟩ := ha s
  rcases h : a.outcome s with ⟨e | x, t⟩
  · exact ⟨before, .error hbefore h⟩
  · obtain ⟨events, hevents⟩ := hf x t
    exact ⟨before ++ events, .ok hbefore h hevents⟩

theorem traceable_pure (x : α) : Traceable (pure x : Turn α) := fun s => ⟨[], .result (.ok x) s⟩

theorem traceable_onSite {a : Action α} (h : a.Traceable) : Traceable (onSite a) := by
  intro s
  obtain ⟨events, hevents⟩ := h s.site
  exact ⟨events, .onSite hevents⟩

theorem traceable_modify {f : Session → Session}
    (hf : ∀ s : Session, s.site.KeepsCaches (f s).site) :
    Traceable (modify f : Turn Unit) := fun s => ⟨[], .aside hf s⟩

theorem traceable_look {f : Session → Turn α}
    (hsame : ∀ s t : Session, s.engines = t.engines → s.templates = t.templates →
      s.shown = t.shown → f s = f t) (h : ∀ s, Traceable (f s)) : Traceable (get >>= f) := by
  intro s
  obtain ⟨events, hevents⟩ := h s s
  exact ⟨events, .look hsame hevents⟩

theorem traceable_of_script {a : Turn α} (h : Script a) : Traceable a := by
  induction h with
  | result r => exact fun s => ⟨[], .result r s⟩
  | onSite h => exact traceable_onSite (Action.traceable_of_script h)
  | look _ hsame ih => exact traceable_look (fun s t h h' _ => hsame s t h h') ih
  | bind _ _ ih ih' => exact traceable_bind ih ih'

theorem traceable_take (step : Step) : Traceable (take step) := by
  have hanswer : ∀ answer : Answer, Traceable (pure answer) := traceable_pure
  cases step with
  | getExtension _ _ | defaultExtension | render _ _ | component _ _ =>
    exact traceable_of_script (script_take trivial)
  | engine id e =>
    exact traceable_bind (traceable_modify fun _ => ⟨rfl, rfl, rfl, rfl, rfl⟩) fun _ => hanswer _
  | drop id =>
    refine traceable_look (fun s t h _ _ => by rw [h]) fun s => ?_
    refine traceable_bind (traceable_of_script (script_named _ id)) fun _ => ?_
    exact traceable_bind (traceable_modify fun _ => ⟨rfl, rfl, rfl, rfl, rfl⟩) fun _ => hanswer _
  | useTag engine name extension root =>
    refine traceable_bind (traceable_of_script (script_target engine)) fun t => ?_
    refine traceable_bind (traceable_onSite (Action.traceable_useTag t name extension root)) ?_
    exact fun _ => hanswer _
  | setExtension engine name extension =>
    refine traceable_bind (traceable_of_script (script_target engine)) fun t => ?_
    refine traceable_bind (traceable_onSite (Action.traceable_setExtension t name extension)) ?_
    exact fun _ => hanswer _
  | compile engine id source =>
    refine traceable_look (fun s t h _ _ => by rw [h]) fun s => ?_
    refine traceable_bind (traceable_of_script (script_named _ engine)) fun n => ?_
    have hcompile := traceable_of_script (.onSite (Action.script_compileTemplate n source))
    refine traceable_bind hcompile fun t => ?_
    exact traceable_bind (traceable_modify fun _ => ⟨rfl, rfl, rfl, rfl, rfl⟩) fun _ => hanswer _
  | settings value announced =>
    have hchange : (Action.changeSettings value announced).Traceable :=
      fun s => ⟨_, .changed value announced s⟩
    exact traceable_bind (traceable_onSite hchange) fun _ => hanswer _
  | otherSetting => exact hanswer _
  | invalidate =>
    have hforget : Action.forgetConfig.Traceable := fun s => ⟨_, .forgot s⟩
    exact traceable_bind (traceable_onSite hforget) fun _ => hanswer _
  | readConfig =>
    have hread : Action.readConfig.Traceable := fun s => ⟨_, .read s⟩
    refine traceable_look (fun s t _ _ h => by rw [h]) fun s => ?_
    refine traceable_bind (traceable_onSite hread) fun c => ?_
    exact traceable_bind (traceable_modify fun _ => ⟨rfl, rfl, rfl, rfl, rfl⟩) fun _ => hanswer _
  | writeFile path file =>
    have hwrite := Action.traceable_bind (Action.traceable_checkLength (FilePath.ofText path))
      fun _ => Action.traceable_modify (f := fun s =>
        { s with files := s.files.write ((Site.segments? (FilePath.ofText path)).getD []) file })
        fun _ => ⟨rfl, rfl, rfl, rfl, rfl⟩
    exact traceable_bind (traceable_onSite hwrite) fun _ => hanswer _
  | makeDirectory path =>
    have hmake := Action.traceable_bind (Action.traceable_checkLength (FilePath.ofText path))
      fun _ => Action.traceable_modify (f := fun s =>
        { s with files := s.files.makeDirectory ((Site.segments? (FilePath.ofText path)).getD []) })
        fun _ => ⟨rfl, rfl, rfl, rfl, rfl⟩
    exact traceable_bind (traceable_onSite hmake) fun _ => hanswer _
  | remove path =>
    have hremove : (Action.removeFile (FilePath.ofText path)).Traceable :=
      Action.traceable_modify fun _ => ⟨rfl, rfl, rfl, rfl, rfl⟩
    exact traceable_bind (traceable_onSite hremove) fun _ => hanswer _
  | clearModules =>
    have hclear : Action.clearModules.Traceable := fun s => ⟨_, .cleared s⟩
    exact traceable_bind (traceable_onSite hclear) fun _ => hanswer _
  | sameModule a b =>
    have hload : ∀ path, (Action.loadModule path).Traceable := fun path s => ⟨_, .loaded path s⟩
    refine traceable_bind (traceable_onSite (hload a)) fun _ => ?_
    exact traceable_bind (traceable_onSite (hload b)) fun _ => hanswer _

end Turn

namespace Session
variable {s : Session} {steps : List Step} {events : List Event}

/-- The events of a run from a session on. -/
inductive Traces : Session → List Step → List Event → Prop
  | nil (s : Session) : Traces s [] []
  | cons {s : Session} {step : Step} {rest : List Step} {first events : List Event}
    (h : (Turn.take step).Trace s first) (hrest : Traces (s.step step).2 rest events) :
    Traces s (step :: rest) (first ++ events)

theorem exists_traces (s : Session) (steps : List Step) : ∃ events, s.Traces steps events := by
  induction steps generalizing s with
  | nil => exact ⟨[], .nil s⟩
  | cons step rest ih =>
    obtain ⟨first, hfirst⟩ := Turn.traceable_take step s
    obtain ⟨events, hevents⟩ := ih (s.step step).2
    exact ⟨first ++ events, .cons hfirst hevents⟩

theorem Traces.moves (h : s.Traces steps events) : s.site.Moves events (s.run steps).2.site := by
  induction h with
  | nil s => exact .refl s.site
  | cons h _ ih => exact h.moves.trans ih

end Session
end Hydration
