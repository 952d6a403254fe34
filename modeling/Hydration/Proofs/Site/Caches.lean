import Hydration.Proofs.Site.Views
/-!
# Caches cannot be seen

What a session answers does not depend on what its site remembers, as long as changes are announced:
the settings change with their signal only, modules are forgotten as soon as the component files
lead to others, and components do not count their calls. So steps that only read may be put into
such a session, or left out, anywhere: the others answer as before.

* `Turn.answers_take`: what a step answers is determined by what can be seen of the session.
* `Session.announces_kept`: without such steps the changes are still announced.
* `Session.Follows.shows_eq`: a session answers the same as one without some steps that only read.
* `Session.shows_of_kept`: sessions that differ in such steps answer the same.
-/
namespace Hydration

/-- The answer without what it says about the identity of objects, or compares with answers that
were given before. -/
def Answer.plain : Answer → Answer
  | .config c _ _ => .config c false false
  | .sameModule _ name => .sameModule false name
  | answer => answer

/-- The steps that only read. -/
def Step.IsReading : Step → Prop
  | .getExtension _ _ | .defaultExtension | .render _ _ | .readConfig | .component _ _ => True
  | _ => False

/-- What is seen of sessions: what is seen of their sites, the names of engines and the
templates. -/
def View.ofSession (v : View Site) : View Session where
  same r s := v.same r.site s.site ∧ s.engines = r.engines ∧ s.templates = r.templates
  notes s := v.notes s.site

namespace Action
open Site View

/-! ## What else is determined -/

section
variable {v : View Site} (hv : v.Sees)
include hv

theorem determined_updateEngine (n : Nat) (change : Engine → Engine) :
    v.Determined (modify fun s => s.updateEngine n change : Action Unit) := by
  refine determined_modify (fun r s h => ?_) fun s => hv.notes s _
  have hengines := hv.withEngines h (r.engines.modify n change)
  rw [updateEngine, updateEngine, hv.engines h]
  exact hengines

theorem determined_asEngine (target : Target) : v.Determined (asEngine target) :=
  hv.script (script_asEngine target)

theorem determined_setExtension (target : Target) (name : Text) (extension : Extension) :
    v.Determined (setExtension target name extension) := by
  cases extension with
  | notCallable => exact determined_ofExcept _
  | renderer r =>
    exact determined_bind (determined_asEngine hv target) fun n => determined_updateEngine hv n _

theorem determined_useTag (target : Target) (name : Text) (extension : Option Extension)
    (root : Option Text) : v.Determined (useTag target name extension root) := by
  rw [useTag_eq]
  refine determined_bind (determined_asEngine hv target) fun n => ?_
  refine determined_bind (hv.script (script_chooseExtension extension)) fun e => ?_
  refine determined_bind (determined_setExtension hv _ _ _) fun _ => ?_
  refine determined_bind (determined_updateEngine hv n _) fun _ => ?_
  exact determined_bind (hv.script (.record _ _ _)) fun _ => determined_ofExcept (.ok _)

end

theorem determined_changeSettings (settings : Value) :
    upToView.Determined (changeSettings settings true) := by
  refine fun r => ⟨.ok (), [], { r with settings := settings, config := none }, fun s hs => ?_⟩
  refine ⟨rfl, (List.append_nil _).symm, ?_⟩
  exact ⟨⟨rfl, hs.files, hs.engines, hs.libraries, fun c hc => (by cases hc), hs.ignores⟩,
    current_of_files hs.current rfl rfl⟩

theorem determined_forgetConfig : upToView.Determined forgetConfig := by
  refine determined_modify (fun r s h => ?_) fun _ => rfl
  exact ⟨⟨h.settings, h.files, h.engines, h.libraries, fun c hc => (by cases hc), h.ignores⟩,
    current_of_files h.current rfl rfl⟩

/-! ## Files -/

/-- A change of the files by which no component comes in that counts its calls. -/
theorem determined_changeFiles {change : Files ComponentFile → Files ComponentFile}
    (h : ∀ files : Files ComponentFile,
      (∀ e ∈ files.entries, ∀ f, e.2 = some f → f.IgnoresCalls) →
        ∀ e ∈ (change files).entries, ∀ f, e.2 = some f → f.IgnoresCalls) :
    besideView.Determined (modify fun s => { s with files := change s.files } : Action Unit) := by
  refine determined_modify (fun r s hs => ?_) fun _ => rfl
  refine ⟨hs.settings, ?_, hs.engines, hs.libraries, hs.settled, h s.files hs.ignores⟩
  exact congrArg change hs.files

theorem determined_checkLength (p : FilePath) : besideView.Determined (checkLength p) := by
  intro r
  have hcheck : ∀ s, (checkLength p).outcome s =
      (if s.isTooLong p then .error (.nameTooLong p.toText) else .ok (), s) := by
    intro s
    simp only [checkLength, outcome_bind, outcome_get]
    cases s.isTooLong p <;> rfl
  refine ⟨if r.isTooLong p then .error (.nameTooLong p.toText) else .ok (), [], r, fun s hs => ?_⟩
  change ((checkLength p).outcome s).1 = _ ∧ ((checkLength p).outcome s).2.notes = _ ∧
    Beside r ((checkLength p).outcome s).2
  have hlong : s.isTooLong p = r.isTooLong p := by rw [isTooLong, isTooLong, hs.files]
  rw [hcheck, hlong]
  exact ⟨rfl, (List.append_nil _).symm, hs⟩

section
variable {files : Files ComponentFile} (h : ∀ e ∈ files.entries, ∀ f, e.2 = some f → f.IgnoresCalls)
include h

theorem ignoresCalls_put (segments : List Text) {entry : Option ComponentFile}
    (hentry : ∀ f, entry = some f → f.IgnoresCalls) :
    ∀ e ∈ (files.put segments entry).entries, ∀ f, e.2 = some f → f.IgnoresCalls := by
  intro e he
  rcases List.mem_cons.1 he with rfl | he
  · exact hentry
  · exact h e (List.mem_filter.1 he).1

theorem ignoresCalls_makeDirectory (segments : List Text) :
    ∀ e ∈ (files.makeDirectory segments).entries, ∀ f, e.2 = some f → f.IgnoresCalls := by
  unfold Files.makeDirectory
  generalize ([] : List Text) = here
  induction segments generalizing files here with
  | nil => exact h
  | cons segment rest ih =>
    rw [Files.makeDirectory.below]
    refine ih ?_ _
    split
    · exact h
    · exact ignoresCalls_put h _ fun f hf => by cases hf

theorem ignoresCalls_write (segments : List Text) {file : ComponentFile}
    (hfile : file.IgnoresCalls) :
    ∀ e ∈ (files.write segments file).entries, ∀ f, e.2 = some f → f.IgnoresCalls := by
  refine ignoresCalls_put (ignoresCalls_makeDirectory h _) _ fun f hf => ?_
  cases hf
  exact hfile

theorem ignoresCalls_remove (segments : List Text) :
    ∀ e ∈ (files.remove segments).entries, ∀ f, e.2 = some f → f.IgnoresCalls :=
  fun e he => h e (List.mem_filter.1 he).1

end

theorem determined_writeFile (p : FilePath) {file : ComponentFile} (h : file.IgnoresCalls) :
    besideView.Determined (writeFile p file) :=
  determined_bind (determined_checkLength p) fun _ =>
    determined_changeFiles fun _ hfiles => ignoresCalls_write hfiles _ h

theorem determined_makeDirectory (p : FilePath) : besideView.Determined (makeDirectory p) :=
  determined_bind (determined_checkLength p) fun _ =>
    determined_changeFiles fun _ hfiles => ignoresCalls_makeDirectory hfiles _

theorem determined_removeFile (p : FilePath) : besideView.Determined (removeFile p) :=
  determined_changeFiles fun _ hfiles => ignoresCalls_remove hfiles _

end Action

/-! ## Turns -/

namespace Turn
open Site View
variable {α β : Type} {v : View Site}

theorem determined_pure (x : α) : v.ofSession.Determined (pure x : Turn α) :=
  fun r => ⟨.ok x, [], r, fun _ hs => ⟨rfl, (List.append_nil _).symm, hs⟩⟩

theorem determined_onSite {a : Action α} (h : v.Determined a) :
    v.ofSession.Determined (onSite a) := by
  intro r
  obtain ⟨x, notes, r', h⟩ := h r.site
  refine ⟨x, notes, { r with site := r' }, fun s hs => ?_⟩
  obtain ⟨hx, hnotes, hr'⟩ := h s.site hs.1
  exact ⟨hx, hnotes, hr', hs.2⟩

theorem determined_modify {f : Session → Session}
    (hf : ∀ r s, v.ofSession.same r s → v.ofSession.same (f r) (f s))
    (hnotes : ∀ s : Session, v.notes (f s).site = v.notes s.site) :
    v.ofSession.Determined (modify f : Turn Unit) :=
  fun r => ⟨.ok (), [], f r, fun s hs =>
    ⟨rfl, (hnotes s).trans (List.append_nil _).symm, hf r s hs⟩⟩

theorem determined_look {f : Session → Turn β} (hf : ∀ s, v.ofSession.Determined (f s))
    (hsame : ∀ s t : Session, s.engines = t.engines → s.templates = t.templates → f s = f t) :
    v.ofSession.Determined (get >>= f) := by
  intro r
  obtain ⟨x, notes, r', h⟩ := hf r r
  refine ⟨x, notes, r', fun s hs => ?_⟩
  have hs' := h s hs
  rw [hsame r s hs.2.1.symm hs.2.2.symm] at hs'
  exact hs'

theorem determined_script {a : Turn α} (h : Script a) (hv : v.Sees) :
    v.ofSession.Determined a := by
  induction h with
  | result r => exact fun s => ⟨r, [], s, fun _ hs => ⟨rfl, (List.append_nil _).symm, hs⟩⟩
  | onSite h => exact determined_onSite (hv.script h)
  | look _ hsame ih => exact determined_look ih hsame
  | bind _ _ ih ih' => exact determined_bind ih ih'

/-- What a turn answers, but for the identity of objects, is determined. -/
def Answers (v : View Session) (a : Turn Answer) : Prop :=
  ∀ r, ∃ x notes r', v.Gives r a (fun y => y.map Answer.plain = x) notes r'

theorem answers_of_determined {a : Turn Answer} (h : v.ofSession.Determined a) :
    Answers v.ofSession a := by
  intro r
  obtain ⟨x, notes, r', h⟩ := h r
  refine ⟨x.map Answer.plain, notes, r', fun s hs => ?_⟩
  obtain ⟨hx, hrest⟩ := h s hs
  exact ⟨congrArg _ hx, hrest⟩

theorem gives_onSite {a : Action α} {r : Session} {t : Site} {result : Except Failure α → Prop}
    {notes : List LogRecord} (h : v.Gives r.site a result notes t) :
    v.ofSession.Gives r (onSite a) result notes { r with site := t } := by
  intro s hs
  obtain ⟨hx, hnotes, hr⟩ := h s.site hs.1
  exact ⟨hx, hnotes, hr, hs.2⟩

theorem gives_get {r r' : Session} {f : Session → Turn β} {result : Except Failure β → Prop}
    {notes : List LogRecord} (h : ∀ s, v.ofSession.Gives r (f s) result notes r') :
    v.ofSession.Gives r (get >>= f) result notes r' := fun s hs => h s s hs

theorem gives_pure {r : Session} {x : α} {result : Except Failure α → Prop} (h : result (.ok x)) :
    v.ofSession.Gives r (pure x) result [] r := fun _ hs => ⟨h, (List.append_nil _).symm, hs⟩

theorem answers_sameModule (a b : Text) :
    Answers upToView.ofSession (take (.sameModule a b)) := by
  intro r
  rcases ha : r.site.fresh a with e | ⟨source, file⟩
  · have hload := gives_onSite (r := r) (Action.gives_loadModule_of_error ha)
    refine ⟨.error e, _, r, Gives.weaken ?_ (Gives.bind_error hload)⟩
    rintro _ rfl
    rfl
  · have hload := gives_onSite (r := r) (Action.gives_loadModule_of_ok ha)
    rcases hb : r.site.fresh b with e | ⟨source', file'⟩
    · have hload' := gives_onSite (r := r) (Action.gives_loadModule_of_error hb)
      refine ⟨.error e, _, r, Gives.weaken ?_ (Gives.bind_ok hload fun m _ =>
        Gives.bind_error hload')⟩
      rintro _ rfl
      rfl
    · have hload' := gives_onSite (r := r) (Action.gives_loadModule_of_ok hb)
      refine ⟨.ok (.sameModule false (moduleName source == moduleName source')), _, r,
        Gives.bind_ok hload fun m hm => Gives.bind_ok hload' fun n hn => gives_pure ?_⟩
      rw [hm.1, hn.1]
      rfl

/-- What was shown before is seen by nobody. -/
theorem gives_show (r : Session) (c : ReadConfig) :
    v.ofSession.Gives r (modify fun s : Session => { s with shown := some c } : Turn Unit)
      (· = .ok ()) [] r := fun _ hs => ⟨rfl, (List.append_nil _).symm, hs⟩

theorem answers_readConfig : Answers upToView.ofSession (take .readConfig) := by
  intro r
  cases hsettings : Config.ofSettings r.site.settings with
  | error e =>
    have hread := gives_onSite (r := r) (Action.gives_readConfig_of_error hsettings)
    refine ⟨.error e, _, r, Gives.weaken ?_ (gives_get fun s => Gives.bind_error hread)⟩
    rintro _ rfl
    rfl
  | ok config =>
    have hread := gives_onSite (r := r) (Action.gives_readConfig_of_ok hsettings)
    refine ⟨.ok (.config config false false), _, r, gives_get fun s =>
      Gives.bind_ok hread fun c hc => Gives.bind_eq (gives_show r c) (gives_pure ?_)⟩
    rw [← hc]
    rfl

end Turn

/-- The steps that change the component files. -/
def Step.IsOnFiles : Step → Prop
  | .writeFile _ _ | .makeDirectory _ | .remove _ => True
  | _ => False

/-- The steps that work with engines, their renderers and templates. -/
def Step.IsOnEngines : Step → Prop
  | .engine _ _ | .drop _ | .useTag _ _ _ _ | .setExtension _ _ _ | .compile _ _ _ => True
  | step => step.Looks

/-- A change of the settings is announced, and a component that is written does not count its
calls. -/
def Step.IsAnnounced : Step → Prop
  | .settings _ announced => announced = true
  | .writeFile _ file => file.IgnoresCalls
  | _ => True

namespace Turn
open Site View
variable {α β : Type} {v : View Site}

/-- What a step does that works with engines and what is made of them. -/
theorem determined_onEngines (hv : v.Sees) {step : Step} (h : step.IsOnEngines) :
    v.ofSession.Determined (take step) := by
  have hanswer : ∀ answer : Answer, v.ofSession.Determined (pure answer) := determined_pure
  cases step with
  | getExtension _ _ | defaultExtension | render _ _ | component _ _ =>
    exact determined_script (script_take trivial) hv
  | engine id e =>
    have hnotes : ∀ s : Session, v.notes { s.site with engines := s.site.engines ++ [e] } =
        v.notes s.site := fun s => hv.notes s.site _
    refine determined_bind (determined_modify ?_ hnotes) fun _ => hanswer _
    intro r s hs
    refine ⟨?_, ?_, hs.2.2⟩
    · have hengines := hv.withEngines hs.1 (r.site.engines ++ [e])
      change v.same _ { s.site with engines := s.site.engines ++ [e] }
      rw [hv.engines hs.1]
      exact hengines
    · change (id, s.site.engines.length) :: s.engines = _
      rw [hv.engines hs.1, hs.2.1]
  | drop id =>
    refine determined_look (fun s => ?_) fun s t h _ => by rw [h]
    refine determined_bind (determined_script (script_named _ id) hv) fun _ => ?_
    refine determined_bind (determined_modify (fun r s hs => ?_) fun _ => rfl) fun _ => hanswer _
    exact ⟨hs.1, congrArg (List.filter _) hs.2.1, hs.2.2⟩
  | useTag engine name extension root =>
    refine determined_bind (determined_script (script_target engine) hv) fun t => ?_
    exact determined_bind (determined_onSite (Action.determined_useTag hv t name extension root))
      fun _ => hanswer _
  | setExtension engine name extension =>
    refine determined_bind (determined_script (script_target engine) hv) fun t => ?_
    exact determined_bind (determined_onSite (Action.determined_setExtension hv t name extension))
      fun _ => hanswer _
  | compile engine id source =>
    refine determined_look (fun s => ?_) fun s t h _ => by rw [h]
    refine determined_bind (determined_script (script_named _ engine) hv) fun n => ?_
    have hcompile : v.ofSession.Determined (onSite (Action.compileTemplate n source)) :=
      determined_onSite (hv.script (Action.script_compileTemplate n source))
    refine determined_bind hcompile fun t => ?_
    refine determined_bind (determined_modify (fun r s hs => ?_) fun _ => rfl) fun _ => hanswer _
    exact ⟨hs.1, hs.2.1, congrArg ((id, t) :: ·) hs.2.2⟩
  | _ => exact h.elim

/-- What a step answers that does not change the files. -/
theorem answers_take {step : Step} (h : step.IsAnnounced) (hfiles : ¬ step.IsOnFiles) :
    Answers upToView.ofSession (take step) := by
  have hanswer : ∀ answer : Answer, upToView.ofSession.Determined (pure answer) := determined_pure
  cases step with
  | writeFile _ _ | makeDirectory _ | remove _ => exact absurd trivial hfiles
  | getExtension _ _ | defaultExtension | render _ _ | component _ _ | engine _ _ | drop _
  | useTag _ _ _ _ | setExtension _ _ _ | compile _ _ _ =>
    exact answers_of_determined (determined_onEngines sees_upToView trivial)
  | settings value announced =>
    obtain rfl : announced = true := h
    exact answers_of_determined (determined_bind
      (determined_onSite (Action.determined_changeSettings value)) fun _ => hanswer _)
  | otherSetting => exact answers_of_determined (hanswer _)
  | invalidate =>
    exact answers_of_determined (determined_bind
      (determined_onSite Action.determined_forgetConfig) fun _ => hanswer _)
  | readConfig => exact answers_readConfig
  | clearModules =>
    have hclear : upToView.Determined Action.clearModules :=
      Action.determined_modify (fun r s hs =>
        ⟨⟨hs.settings, hs.files, hs.engines, hs.libraries, hs.settled, hs.ignores⟩,
          fun path m hm => by cases hm⟩) fun _ => rfl
    exact answers_of_determined (determined_bind (determined_onSite hclear) fun _ => hanswer _)
  | sameModule a b => exact answers_sameModule a b

theorem answers_onFiles {step : Step} (h : step.IsAnnounced) (hfiles : step.IsOnFiles) :
    Answers besideView.ofSession (take step) := by
  have hdone : besideView.ofSession.Determined (pure .done : Turn Answer) := determined_pure _
  cases step with
  | writeFile path file =>
    exact answers_of_determined (determined_bind
      (determined_onSite (Action.determined_writeFile _ h)) fun _ => hdone)
  | makeDirectory path =>
    exact answers_of_determined (determined_bind
      (determined_onSite (Action.determined_makeDirectory _)) fun _ => hdone)
  | remove path =>
    exact answers_of_determined (determined_bind
      (determined_onSite (Action.determined_removeFile _)) fun _ => hdone)
  | _ => exact hfiles.elim

/-! ### Steps that only read -/

theorem leaves_pure (x : α) : v.ofSession.Leaves (pure x : Turn α) := fun _ _ h => h

theorem leaves_onSite {a : Action α} (h : v.Leaves a) : v.ofSession.Leaves (onSite a) :=
  fun r s hs => ⟨h r.site s.site hs.1, hs.2⟩

theorem leaves_get {f : Session → Turn β} (hf : ∀ s, v.ofSession.Leaves (f s)) :
    v.ofSession.Leaves (get >>= f) := fun r s hs => hf s r s hs

theorem leaves_of_script {a : Turn α} (h : Script a) : besideView.ofSession.Leaves a := by
  induction h with
  | result r => exact fun _ _ hs => hs
  | onSite h => exact leaves_onSite (Action.leaves_of_script h)
  | look _ _ ih => exact leaves_get ih
  | bind _ _ ih ih' => exact leaves_bind ih ih'

theorem leaves_take {step : Step} (h : step.IsReading) :
    besideView.ofSession.Leaves (take step) := by
  cases step with
  | getExtension _ _ | defaultExtension | render _ _ | component _ _ =>
    exact leaves_of_script (script_take trivial)
  | readConfig =>
    refine leaves_get fun s => leaves_bind (leaves_onSite Action.leaves_readConfig) fun c => ?_
    exact leaves_bind (fun _ _ h => h) fun _ => leaves_pure _
  | _ => exact h.elim

/-- What is seen of sites by someone who looks at their modules. -/
def modulesView : View Site := ⟨fun r s => s.modules = r.modules, fun _ => []⟩

theorem leaves_onFiles {step : Step} (h : step.IsOnFiles) :
    modulesView.ofSession.Leaves (take step) := by
  have hcheck : ∀ p, modulesView.Leaves (Action.checkLength p) := by
    refine fun p r s hs => ?_
    change ((Action.checkLength p).outcome s).2.modules = r.modules
    simp only [Action.checkLength, Action.outcome_bind, Action.outcome_get]
    cases s.isTooLong p <;> exact hs
  have hchange : ∀ change : Files ComponentFile → Files ComponentFile, modulesView.Leaves
      (modify fun s => { s with files := change s.files } : Action Unit) := fun _ _ _ hs => hs
  cases step with
  | writeFile path file =>
    exact leaves_bind (leaves_onSite (leaves_bind (hcheck _) fun _ => hchange (·.write _ file)))
      fun _ => leaves_pure _
  | makeDirectory path =>
    exact leaves_bind (leaves_onSite (leaves_bind (hcheck _) fun _ => hchange (·.makeDirectory _)))
      fun _ => leaves_pure _
  | remove path => exact leaves_bind (leaves_onSite (hchange (·.remove _))) fun _ => leaves_pure _
  | _ => exact h.elim

end Turn

/-! ## Sessions -/

namespace Session
open Site View
variable {r s t : Session} {step : Step} {rest : List Step}

/-- What is seen of a step: what it answers and notes. -/
def seen (s : Session) (step : Step) : Except Failure Answer × List LogRecord :=
  ((s.step step).1.map Answer.plain, (s.step step).2.site.notes.drop s.site.notes.length)

/-- What is seen of those steps of a run that are marked. -/
def shows : Session → List (Step × Bool) → List (Except Failure Answer × List LogRecord)
  | _, [] => []
  | s, (step, true) :: rest => s.seen step :: (s.step step).2.shows rest
  | s, (step, false) :: rest => (s.step step).2.shows rest

/-- The steps that are marked. -/
def kept (steps : List (Step × Bool)) : List Step := (steps.filter (·.2)).map (·.1)

/-- The changes in a run are announced: those of the settings with their signal, and those of what
the component files lead to by forgetting the modules in the next step. -/
def Announces : Session → List Step → Prop
  | _, [] => True
  | s, step :: rest =>
    step.IsAnnounced ∧
      ((s.step step).2.site.firstFile ≠ s.site.firstFile →
        ∀ next ∈ rest.head?, next = .clearModules) ∧
      (s.step step).2.Announces rest

/-- The second session is the first one but for what it remembers; what both remember is what they
would make again, or the modules are forgotten in the next step. -/
structure Follows (rest : List Step) (r s : Session) : Prop where
  left : besideView.ofSession.same r r
  right : besideView.ofSession.same r s
  current : (r.site.Current ∧ s.site.Current) ∨ ∀ next ∈ rest.head?, next = .clearModules

theorem same_of_same (h : besideView.ofSession.same r s) (h' : besideView.ofSession.same r t) :
    besideView.ofSession.same s t :=
  ⟨⟨h'.1.settings.trans h.1.settings.symm, h'.1.files.trans h.1.files.symm,
    h'.1.engines.trans h.1.engines.symm, h'.1.libraries.trans h.1.libraries.symm, h'.1.settled,
    h'.1.ignores⟩, h'.2.1.trans h.2.1.symm, h'.2.2.trans h.2.2.symm⟩

/-- A step that only reads may be taken on the way. -/
theorem Follows.reading (h : Follows rest r s) (hstep : step.IsReading) :
    Follows rest r (s.step step).2 where
  left := h.left
  right := Turn.leaves_take hstep r s h.right
  current := by
    refine h.current.imp_left fun ⟨hr, hs⟩ => ⟨hr, ?_⟩
    have hannounced : step.IsAnnounced ∧ ¬ step.IsOnFiles := by
      cases step <;> first | exact ⟨trivial, id⟩ | exact hstep.elim
    obtain ⟨x, notes, r', hgives⟩ := Turn.answers_take hannounced.1 hannounced.2 r
    exact (hgives s ⟨⟨h.right.1, hs⟩, h.right.2⟩).2.2.1.current

/-- What determines the answers determines what is seen. -/
theorem seen_of_answers {v : View Site} (hv : v.notes = Site.notes)
    (h : Turn.Answers v.ofSession (Turn.take step)) (r : Session) :
    ∃ seen r', ∀ s, v.ofSession.same r s →
      s.seen step = seen ∧ v.ofSession.same r' (s.step step).2 := by
  obtain ⟨x, added, r', hgives⟩ := h r
  refine ⟨(x, added), r', fun s hs => ?_⟩
  obtain ⟨hx, hadded, hr'⟩ := hgives s hs
  refine ⟨Prod.ext hx ?_, hr'⟩
  change v.notes (s.step step).2.site = v.notes s.site ++ added at hadded
  rw [hv] at hadded
  exact (congrArg (List.drop s.site.notes.length) hadded).trans List.drop_left

theorem modules_step (s : Session) (h : step.IsOnFiles) :
    (s.step step).2.site.modules = s.site.modules :=
  (Turn.leaves_onFiles h s s ⟨rfl, rfl, rfl⟩).1

/-- A step that both take is seen the same and leaves the same. What both remember is still what
they would make again, if the files lead to what they led to before. -/
theorem Follows.after (h : Follows (step :: rest) r s) (hannounced : step.IsAnnounced) :
    s.seen step = r.seen step ∧
      besideView.ofSession.same (r.step step).2 (r.step step).2 ∧
      besideView.ofSession.same (r.step step).2 (s.step step).2 ∧
      ((r.step step).2.site.firstFile = r.site.firstFile →
        (r.step step).2.site.Current ∧ (s.step step).2.site.Current) := by
  rcases h.current with ⟨hr, hs⟩ | hclear
  · by_cases honfiles : step.IsOnFiles
    · obtain ⟨seen, r', hseen⟩ := seen_of_answers rfl (Turn.answers_onFiles hannounced honfiles) r
      obtain ⟨hseenr, hr'⟩ := hseen r h.left
      obtain ⟨hseens, hs'⟩ := hseen s h.right
      refine ⟨hseens.trans hseenr.symm, same_of_same hr' hr', same_of_same hr' hs', ?_⟩
      intro hsame
      have hsame' : (s.step step).2.site.firstFile = s.site.firstFile :=
        (hs'.1.firstFile.trans hr'.1.firstFile.symm).trans (hsame.trans h.right.1.firstFile.symm)
      exact ⟨current_of_firstFile hr (modules_step r honfiles) hsame,
        current_of_firstFile hs (modules_step s honfiles) hsame'⟩
    · obtain ⟨seen, r', hseen⟩ := seen_of_answers rfl (Turn.answers_take hannounced honfiles) r
      obtain ⟨hseenr, hr', hnames⟩ := hseen r ⟨⟨h.left.1, hr⟩, h.left.2⟩
      obtain ⟨hseens, hs', hnames'⟩ := hseen s ⟨⟨h.right.1, hs⟩, h.right.2⟩
      have hr'' : besideView.ofSession.same r' (r.step step).2 := ⟨hr'.toBeside, hnames⟩
      have hs'' : besideView.ofSession.same r' (s.step step).2 := ⟨hs'.toBeside, hnames'⟩
      exact ⟨hseens.trans hseenr.symm, same_of_same hr'' hr'', same_of_same hr'' hs'',
        fun _ => ⟨hr'.current, hs'.current⟩⟩
  · obtain rfl : step = .clearModules := hclear step rfl
    have hseen : ∀ s : Session, s.seen .clearModules = (.ok .done, []) := fun s =>
      Prod.ext rfl List.drop_length
    have hsame : ∀ {s}, besideView.ofSession.same r s →
        besideView.ofSession.same (r.step .clearModules).2 (s.step .clearModules).2 := fun hs =>
      ⟨⟨hs.1.settings, hs.1.files, hs.1.engines, hs.1.libraries, hs.1.settled, hs.1.ignores⟩, hs.2⟩
    exact ⟨(hseen s).trans (hseen r).symm, hsame h.left, hsame h.right,
      fun _ => ⟨fun path m hm => (by cases hm), fun path m hm => (by cases hm)⟩⟩

theorem Follows.take (h : Follows (step :: rest) r s) (hannounced : step.IsAnnounced)
    (hfiles : (r.step step).2.site.firstFile ≠ r.site.firstFile →
      ∀ next ∈ rest.head?, next = .clearModules) :
    s.seen step = r.seen step ∧ Follows rest (r.step step).2 (s.step step).2 := by
  obtain ⟨hseen, hleft, hright, hcurrent⟩ := h.after hannounced
  refine ⟨hseen, hleft, hright, ?_⟩
  by_cases hsame : (r.step step).2.site.firstFile = r.site.firstFile
  · exact .inl (hcurrent hsame)
  · exact .inr (hfiles hsame)

/-- A session answers the same as one without some steps that only read. -/
theorem Follows.shows_eq {steps : List (Step × Bool)} (h : Follows (kept steps) r s)
    (hannounces : r.Announces (kept steps))
    (hreading : ∀ e ∈ steps, e.2 = false → e.1.IsReading) :
    s.shows steps = r.shows ((kept steps).map (·, true)) := by
  induction steps generalizing r s with
  | nil => rfl
  | cons e steps ih =>
    have hrest : ∀ e ∈ steps, e.2 = false → e.1.IsReading := fun e he =>
      hreading e (List.mem_cons_of_mem _ he)
    rcases e with ⟨step, _ | _⟩
    · exact ih (h.reading (hreading _ List.mem_cons_self rfl)) hannounces hrest
    · obtain ⟨hseen, hnext⟩ := Follows.take h hannounces.1 hannounces.2.1
      change s.seen step :: _ = r.seen step :: _
      rw [hseen, ih hnext hannounces.2.2 hrest]
      rfl

/-- The step that forgets the modules is not left out. -/
theorem head?_kept {steps : List (Step × Bool)}
    (hreading : ∀ e ∈ steps, e.2 = false → e.1.IsReading)
    (h : ∀ next ∈ (steps.map (·.1)).head?, next = .clearModules) :
    ∀ next ∈ (kept steps).head?, next = .clearModules := by
  rcases steps with _ | ⟨⟨step, _ | _⟩, rest⟩
  · exact h
  · obtain rfl : step = .clearModules := h step rfl
    exact (hreading _ List.mem_cons_self rfl).elim
  · exact h

/-- A session that announces its changes still does so without some steps that only read. -/
theorem Follows.announces {steps : List (Step × Bool)} (h : Follows (kept steps) r s)
    (hannounces : s.Announces (steps.map (·.1)))
    (hreading : ∀ e ∈ steps, e.2 = false → e.1.IsReading) : r.Announces (kept steps) := by
  induction steps generalizing r s with
  | nil => trivial
  | cons e steps ih =>
    have hrest : ∀ e ∈ steps, e.2 = false → e.1.IsReading := fun e he =>
      hreading e (List.mem_cons_of_mem _ he)
    obtain ⟨hannounced, hfiles, hlater⟩ := hannounces
    rcases e with ⟨step, _ | _⟩
    · exact ih (h.reading (hreading _ List.mem_cons_self rfl)) hlater hrest
    · obtain ⟨-, -, hright, -⟩ := Follows.after h hannounced
      have hclear : (r.step step).2.site.firstFile ≠ r.site.firstFile →
          ∀ next ∈ (kept steps).head?, next = .clearModules := by
        intro hne
        rw [← hright.1.firstFile, ← h.right.1.firstFile] at hne
        exact head?_kept hrest (hfiles hne)
      exact ⟨hannounced, hclear, ih (Follows.take h hannounced hclear).2 hlater hrest⟩

theorem follows_start (settings : Value) (libraries : List Library) (rest : List Step) :
    Follows rest (start settings libraries) (start settings libraries) := by
  have hsame : besideView.ofSession.same (start settings libraries) (start settings libraries) :=
    ⟨⟨rfl, rfl, rfl, rfl, fun c hc => (by cases hc), fun e he => (by cases he)⟩, rfl, rfl⟩
  exact ⟨hsame, hsame, .inl ⟨fun path m hm => (by cases hm), fun path m hm => (by cases hm)⟩⟩

theorem announces_kept (settings : Value) (libraries : List Library) {steps : List (Step × Bool)}
    (hreading : ∀ e ∈ steps, e.2 = false → e.1.IsReading)
    (h : (start settings libraries).Announces (steps.map (·.1))) :
    (start settings libraries).Announces (kept steps) :=
  (follows_start settings libraries (kept steps)).announces h hreading

/-- In a session whose changes are announced, steps that only read may be put in or left out
anywhere: the other steps answer and note the same. -/
theorem shows_of_kept (settings : Value) (libraries : List Library) {a b : List (Step × Bool)}
    (ha : ∀ e ∈ a, e.2 = false → e.1.IsReading) (hb : ∀ e ∈ b, e.2 = false → e.1.IsReading)
    (hkept : kept a = kept b) (hannounces : (start settings libraries).Announces (kept a)) :
    (start settings libraries).shows a = (start settings libraries).shows b := by
  have hshows := (follows_start settings libraries (kept a)).shows_eq hannounces ha
  rw [hkept] at hannounces hshows
  exact hshows.trans ((follows_start settings libraries (kept b)).shows_eq hannounces hb).symm

/-- The component file of a page, first as it is written, then as it is replaced. -/
def firstPage : ComponentFile := ⟨.given, .str "<p/>"⟩

def secondPage : ComponentFile := ⟨.simple, .none⟩

/-- A page that is replaced, with its component rendered before and after. -/
def replacedPage : List Step :=
  [.settings (.dict []) true, .writeFile "/vfs/page.py" firstPage, .clearModules,
    .component "/vfs/page" (.dict []), .writeFile "/vfs/page.py" secondPage, .clearModules,
    .component "/vfs/page" (.dict [])]

/-- Between the steps the configuration is read, and the component is rendered when the file is
already another one but the module is not yet forgotten. -/
def replacedPageRead : List (Step × Bool) :=
  [(.readConfig, false), (.settings (.dict []) true, true),
    (.writeFile "/vfs/page.py" firstPage, true), (.component "/vfs/page" (.dict []), false),
    (.clearModules, true), (.defaultExtension, false), (.component "/vfs/page" (.dict []), true),
    (.writeFile "/vfs/page.py" secondPage, true), (.component "/vfs/page" .none, false),
    (.clearModules, true), (.component "/vfs/page" (.dict []), true)]

theorem shows_of_kept_replacedPage :
    (∀ e ∈ replacedPage.map (·, true), e.2 = false → e.1.IsReading) ∧
      (∀ e ∈ replacedPageRead, e.2 = false → e.1.IsReading) ∧
        kept (replacedPage.map (·, true)) = kept replacedPageRead ∧
          (start .none []).Announces (kept (replacedPage.map (·, true))) ∧
            (start .none []).shows (replacedPage.map (·, true)) =
              (start .none []).shows replacedPageRead := by
  have ha : ∀ e ∈ replacedPage.map (·, true), e.2 = false → e.1.IsReading := by
    simp [replacedPage]
  have hb : ∀ e ∈ replacedPageRead, e.2 = false → e.1.IsReading := by
    simp [replacedPageRead, Step.IsReading]
  have hannounces : (start .none []).Announces (kept (replacedPage.map (·, true))) := by
    have hsame : ∀ {s t : Site}, s.files = t.files → ¬ s.firstFile ≠ t.firstFile := fun h hne =>
      hne (funext (firstFile_eq h))
    have hnext : ∀ next ∈ (some Step.clearModules), next = .clearModules := fun next hn =>
      (Option.some.inj hn).symm
    exact ⟨rfl, fun h => absurd h (hsame rfl), fun _ _ _ => rfl, fun _ => hnext, trivial,
      fun h => absurd h (hsame rfl), trivial, fun h => absurd h (hsame rfl), fun _ _ _ => rfl,
      fun _ => hnext, trivial, fun h => absurd h (hsame rfl), trivial,
      fun _ next hn => (by cases hn), trivial⟩
  exact ⟨ha, hb, rfl, hannounces, shows_of_kept .none [] ha hb rfl hannounces⟩

end Session
end Hydration
