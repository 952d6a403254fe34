import Hydration.Proofs.Site.Engines
import Hydration.Proofs.Site.Templates
/-!
# The renderers of engines over runs

Each engine has a table of renderers of its own, and the settings name the renderer for what is not
in it. A registration takes the renderer that it is given, or the one that the settings name at that
time; a look-up, and every tag on a page of the engine, takes what was registered last, or what the
settings name at the time of the look-up. Nothing else matters: not what is done to other engines or
under other names, nor that the name of the engine was dropped or given to another one.

* `renderNodes_with`: the tags of a page use the renderer that the engine has when the page begins.
* `extension?_run`: an entry is what was registered last.
* `renderer_of_run`: look-ups and pages after any run.
-/
namespace Hydration

namespace Action
open Site (Alike)

/-! ## Pages with a given renderer -/

/-- The element of a tag with a given renderer, or without one for a given reason. -/
def renderFragmentWith (r : Except Failure Renderer) (c : Context) (f : Fragment) :
    Action (Text × Context) := do
  let ((path, props, container), c) ← ofExcept (f.values.run c)
  let r ← ofExcept r
  let t ← renderElement r container path props
  pure (t, c)

/-- A part of a template, all tags with a given renderer. -/
def renderNodeWith (r : Except Failure Renderer) (engine : Nat) (c : Context) :
    Node → Action (Text × Context)
  | .component f => renderFragmentWith r c f
  | node => renderNode engine c node

/-- The parts of a template one after the other, all tags with a given renderer. -/
def renderNodesWith (r : Except Failure Renderer) (engine : Nat) (c : Context) :
    List Node → Action Text
  | [] => pure []
  | node :: rest => do
    let (t, c) ← renderNodeWith r engine c node
    let more ← renderNodesWith r engine c rest
    pure (t ++ more)

/-- A page with the given variables, all tags with a given renderer. -/
def renderWith (r : Except Failure Renderer) (t : Template) (values : List (Text × Value)) :
    Action Text := do
  let invalid ← invalidText t.engine
  renderNodesWith r t.engine ⟨values, some invalid⟩ t.nodes

variable {own : Nat → Prop} {engine : Nat} {r : Except Failure Renderer}

/-- A renderer that is found at a site is as good as the renderer itself. -/
theorem renderFragment_with {f : Fragment} {s t : Site} (hst : Alike own s t)
    (hr : s.rendererOf engine f.extension = r) (c : Context) :
    AgreeAt own s t (renderFragment (some engine) c f) (renderFragmentWith r c f) := by
  refine agreeAt_bind ⟨rfl, hst⟩ fun ⟨⟨path, props, container⟩, c⟩ s' t' hs ht hst' => ?_
  obtain rfl := (outcome_ofExcept_ok_iff.1 hs).2
  obtain rfl := (outcome_ofExcept_ok_iff.1 ht).2
  have hlookup : AgreeAt own s t (getExtension (some (.engine engine)) f.extension)
      (ofExcept r) := by
    obtain ⟨hresult, hsite⟩ := looksUp_getExtension engine f.extension s
    exact ⟨hresult.trans hr, (hsite own).symm.trans hst⟩
  refine agreeAt_bind hlookup fun found u v _ _ huv => ?_
  refine agreeAt_bind (agree_renderElement found container path props u v huv) ?_
  exact fun x _ _ _ _ => agree_pure (x, c) _ _

/-- The tags of a page use the renderer that the engine has when the page begins. -/
theorem renderNodes_with {nodes : List Node} {s t : Site} (hst : Alike own s t) (hn : own engine)
    (hr : s.rendererOf engine Fragment.defaultExtension = r)
    (hnodes : Template.UsesDefault nodes) (c : Context) :
    AgreeAt own s t (renderNodes engine c nodes) (renderNodesWith r engine c nodes) := by
  induction nodes generalizing s t c with
  | nil => exact ⟨rfl, hst⟩
  | cons node rest ih =>
    have hrest : Template.UsesDefault rest := fun f hf => hnodes f (List.mem_cons_of_mem _ hf)
    have hfirst : AgreeAt own s t (renderNode engine c node) (renderNodeWith r engine c node) := by
      cases node with
      | text _ | output _ => exact agree_renderNode hn c _ s t hst
      | component f =>
        refine renderFragment_with hst ?_ c
        rw [hnodes f List.mem_cons_self]
        exact hr
    refine agreeAt_bind hfirst fun ⟨text, c'⟩ s' t' hs _ hst' => ?_
    have hkeeps := (keeps_renderNode engine c node s).rendererOf engine Fragment.defaultExtension
    rw [hs] at hkeeps
    refine agreeAt_bind (ih hst' (hkeeps.trans hr) hrest c') ?_
    exact fun more _ _ _ _ => agree_pure (text ++ more) _ _

theorem render_with {t : Template} (ht : Template.UsesDefault t.nodes)
    (values : List (Text × Value)) (s : Site) :
    ((render t values).outcome s).1 =
      ((renderWith (s.rendererOf t.engine Fragment.defaultExtension) t values).outcome s).1 := by
  have hinvalid : AgreeAt (fun _ => True) s s (invalidText t.engine) (invalidText t.engine) :=
    ⟨rfl, .refl s⟩
  refine (agreeAt_bind hinvalid fun invalid s' t' hs _ hst => ?_).1
  rw [outcome_invalidText] at hs
  cases hs
  exact renderNodes_with hst trivial rfl ht _

/-! A given renderer depends on nothing that sites have for engines. -/

theorem agree_renderFragmentWith (c : Context) (f : Fragment) :
    Agree own (renderFragmentWith r c f) (renderFragmentWith r c f) := by
  refine agree_bind (agree_ofExcept _) fun ⟨⟨path, props, container⟩, c⟩ => ?_
  refine agree_bind (agree_ofExcept _) fun found => ?_
  exact agree_bind (agree_renderElement found container path props) fun _ => agree_pure _

theorem agree_renderNodesWith (engine : Nat) (c : Context) (nodes : List Node) :
    Agree own (renderNodesWith r engine c nodes) (renderNodesWith r engine c nodes) := by
  have hnode : ∀ c node, Agree own (renderNodeWith r engine c node)
      (renderNodeWith r engine c node) := by
    intro c node
    cases node with
    | text t => exact agree_pure _
    | output p => exact agree_bind (agree_ofExcept _) fun _ =>
        agree_bind (agree_ofExcept _) fun _ => agree_pure _
    | component f => exact agree_renderFragmentWith c f
  induction nodes generalizing c with
  | nil => exact agree_pure _
  | cons node rest ih =>
    refine agree_bind (hnode c node) fun ⟨text, c'⟩ => ?_
    exact agree_bind (ih c') fun _ => agree_pure _

theorem renderWith_alike {t : Template} {values : List (Text × Value)} {s u : Site}
    (h : s.Alike (fun _ => False) u) (hinvalid : s.invalidOf t.engine = u.invalidOf t.engine) :
    ((renderWith r t values).outcome s).1 = ((renderWith r t values).outcome u).1 := by
  have hfirst : AgreeAt (fun _ => False) s u (invalidText t.engine) (invalidText t.engine) :=
    ⟨congrArg Except.ok hinvalid, h⟩
  refine (agreeAt_bind hfirst fun invalid s' u' _ _ hsite => ?_).1
  exact agree_renderNodesWith t.engine _ t.nodes s' u' hsite

end Action

/-! ## The entries of an engine -/

namespace Site
variable {s : Site}

/-- An engine that is new has no entries, and those of the others stay. -/
theorem extension?_append {e : Engine} (he : e.extensions = []) (n : Nat) (name : Text) :
    extension? { s with engines := s.engines ++ [e] } n name = s.extension? n name := by
  simp only [extension?, List.getElem?_append]
  by_cases hn : n < s.engines.length
  · simp [hn]
  · by_cases hlast : n = s.engines.length
    · simp [hlast, he]
    · simp [hn, show n - s.engines.length ≠ 0 by omega]

end Site

namespace Session

/-- The renderer that a step registers for an engine under a name, if it does. -/
def registered (n : Nat) (name : Text) (s : Session) : Step → Option Renderer
  | .setExtension engine own (.renderer r) =>
    if s.engineOf engine = some n ∧ own = name then some r else none
  | .useTag engine _ extension _ =>
    if s.engineOf engine = some n ∧ Fragment.defaultExtension = name then
      (s.site.chosen extension).toOption
    else none
  | _ => none

/-- What is registered is registered by a step that succeeds: one for the engine under the name, or,
under the name for all tags, one that enables the tag on the engine. -/
theorem registered_eq_some_iff {n : Nat} {name : Text} {s : Session} {step : Step} {r : Renderer} :
    registered n name s step = some r ↔
      (∃ engine, step = .setExtension engine name (.renderer r) ∧ s.engineOf engine = some n ∧
        (s.step step).1 = .ok .done) ∨
      ∃ engine tag extension root, step = .useTag engine tag extension root ∧
        s.engineOf engine = some n ∧ Fragment.defaultExtension = name ∧
        s.site.chosen extension = .ok r ∧
        (s.step step).1 = .ok (.names [Action.tagName tag]) := by
  constructor
  · intro h
    cases step with
    | setExtension engine own extension =>
      rcases step_setExtension_cases s engine own extension with
        ⟨e, -, hnone⟩ | ⟨m, found, hm, rfl, hstep⟩
      · cases extension with
        | notCallable => cases h
        | renderer found => simp [registered, hnone found rfl] at h
      · rw [registered, Option.ite_none_right_eq_some] at h
        obtain ⟨⟨hn, rfl⟩, hr⟩ := h
        cases hr
        exact .inl ⟨engine, rfl, hn, by rw [hstep]⟩
    | useTag engine tag extension root =>
      rw [registered, Option.ite_none_right_eq_some] at h
      obtain ⟨⟨hn, hname⟩, hr⟩ := h
      cases hchosen : s.site.chosen extension with
      | error e => simp [hchosen, Except.toOption] at hr
      | ok found =>
        rw [hchosen] at hr
        cases hr
        rcases step_useTag_cases s engine tag extension root with
          ⟨hnone, -⟩ | ⟨m, u, log, -, -, -, hstep⟩
        · rw [hnone] at hn
          cases hn
        · exact .inr ⟨engine, tag, extension, root, rfl, hn, hname, hchosen, by rw [hstep, hchosen]⟩
    | _ => cases h
  · rintro (⟨engine, rfl, hn, -⟩ | ⟨engine, tag, extension, root, rfl, hn, hname, hchosen, -⟩)
    · simp [registered, hn]
    · simp [registered, hn, hname, hchosen, Except.toOption]

/-- What a step registers is the entry from then on; otherwise the entry stays. -/
theorem lookup_extensions_change (n : Nat) (name : Text) (s : Session) (step : Step) (e : Engine) :
    (change n s step e).extensions.lookup name =
      (registered n name s step).or (e.extensions.lookup name) := by
  have hregister : ∀ (own : Text) (r : Renderer),
      (e.withExtension own r).extensions.lookup name =
        (if own = name then some r else none).or (e.extensions.lookup name) := by
    intro own r
    by_cases hown : own = name
    · simp [Engine.withExtension, hown]
    · have hne : (name == own) = false := beq_false_of_ne (Ne.symm hown)
      simp [Engine.withExtension, List.lookup_cons, hne, hown]
  cases step with
  | setExtension engine own extension =>
    cases extension with
    | notCallable => rfl
    | renderer r =>
      rw [change, registered]
      by_cases hn : s.engineOf engine = some n
      · simpa [hn] using hregister own r
      · simp [hn]
  | useTag engine tag extension root =>
    rw [change, registered]
    cases s.site.chosen extension with
    | error e => simp [Except.toOption]
    | ok r =>
      by_cases hn : s.engineOf engine = some n
      · simpa [hn, Except.toOption, Engine.withTag] using hregister Fragment.defaultExtension r
      · simp [hn]
  | _ => rfl

theorem engineOf_registered {n : Nat} {name : Text} {s : Session} {step : Step} {r : Renderer}
    (h : registered n name s step = some r) : ∃ engine, s.engineOf engine = some n := by
  rcases registered_eq_some_iff.1 h with ⟨engine, -, hn, -⟩ | ⟨engine, _, _, _, -, hn, -⟩
  · exact ⟨engine, hn⟩
  · exact ⟨engine, hn⟩

/-! ## Answers -/

theorem step_getExtension {s : Session} {engine : EngineName} {n : Nat}
    (hn : s.engineOf engine = some n) (name : Text) :
    (s.step (.getExtension (some engine) name)).1 =
      (s.site.rendererOf n name).map .renderer := by
  cases engine with
  | foreign type => cases hn
  | named id =>
    have hid : s.engines.lookup id = some n := hn
    have hlookup : ((Action.getExtension (some (.engine n)) name).outcome s.site).1 =
        s.site.rendererOf n name := (Action.looksUp_getExtension n name s.site).1
    rw [step_eq_outcome]
    simp only [Turn.take, Turn.target, map_eq_pure_bind, Turn.outcome_bind, Turn.outcome_get,
      Turn.named, hid, Turn.outcome_pure, Turn.outcome_onSite]
    rw [hlookup]
    cases s.site.rendererOf n name <;> rfl

/-- The page of a template has the renderer of its engine in all tags. -/
theorem step_render_with {s : Session} (h : s.UsesDefault) {id : Text} {t : Template}
    (ht : s.templates.lookup id = some t) (values : List (Text × Value)) :
    (s.step (.render id values)).1 =
      ((Action.renderWith (s.site.rendererOf t.engine Fragment.defaultExtension) t
        values).outcome s.site).1.map .text := by
  rw [step_render, ht]
  exact congrArg (Except.map Answer.text) (Action.render_with (h id t ht) values s.site)

/-! ## Registrations elsewhere -/

/-- The step registers for another engine than the given one, or under another name. -/
def Elsewhere (n : Nat) (name : Text) (s : Session) : Step → Prop
  | .setExtension engine own _ => s.engineOf engine ≠ some n ∨ own ≠ name
  | .useTag engine _ _ _ => s.engineOf engine ≠ some n ∨ Fragment.defaultExtension ≠ name
  | _ => False

/-- An engine has the same renderer under a name, and nothing but registrations differs. -/
structure SameFor (n : Nat) (name : Text) (s t : Session) : Prop where
  engines : t.engines = s.engines
  templates : t.templates = s.templates
  site : s.site.Alike (fun _ => False) t.site
  invalid : ∀ m, s.site.invalidOf m = t.site.invalidOf m
  renderer : t.site.rendererOf n name = s.site.rendererOf n name

theorem SameFor.refl (n : Nat) (name : Text) (s : Session) : SameFor n name s s :=
  ⟨rfl, rfl, .refl _, fun _ => rfl, rfl⟩

theorem SameFor.trans {n : Nat} {name : Text} {s t u : Session} (h : SameFor n name s t)
    (h' : SameFor n name t u) : SameFor n name s u :=
  ⟨h'.engines.trans h.engines, h'.templates.trans h.templates, h.site.trans h'.site,
    fun m => (h.invalid m).trans (h'.invalid m), h'.renderer.trans h.renderer⟩

theorem SameFor.engineOf {n : Nat} {name : Text} {s t : Session} (h : SameFor n name s t)
    (engine : EngineName) : t.engineOf engine = s.engineOf engine := by
  cases engine with
  | foreign type => rfl
  | named id => exact congrArg (List.lookup id) h.engines

theorem sameFor_useTag {n : Nat} {name : Text} {s : Session} {engine : EngineName}
    (h : s.engineOf engine ≠ some n ∨ Fragment.defaultExtension ≠ name) (own : Text)
    (extension : Option Extension) (root : Option Text) :
    SameFor n name s (s.step (.useTag engine own extension root)).2 := by
  rcases step_useTag_cases s engine own extension root with
    ⟨-, e, hstep⟩ | ⟨m, u, log, hm, hframe, hsite, hstep⟩
  · rw [hstep]
    exact .refl n name s
  · have hinvalid : ∀ k, s.site.invalidOf k = u.invalidOf k := fun k =>
      (hsite fun _ => True).invalid k trivial
    rw [hstep]
    cases s.site.chosen extension with
    | error e => exact ⟨rfl, rfl, hsite _, hinvalid, hframe.rendererOf n name⟩
    | ok r =>
      have helsewhere : ¬ (n = m ∧ name = Fragment.defaultExtension) := by
        rintro ⟨rfl, rfl⟩
        exact h.elim (fun hne => hne hm) fun hne => hne rfl
      have hrenderer : (u.register m r (Action.tagName own) root).rendererOf n name =
          u.rendererOf n name :=
        Site.rendererOf_register fun hnm hname => (helsewhere ⟨hnm, hname⟩).elim
      refine ⟨rfl, rfl, ?_, fun k => ?_, hrenderer.trans (hframe.rendererOf n name)⟩
      · exact ((hsite _).trans (Site.alike_register False.elim)).trans
          (Site.alike_withLog _ _ log)
      · exact (hinvalid k).trans (Site.invalidOf_register m k r _ root).symm

theorem sameFor_setExtension {n : Nat} {name : Text} {s : Session} {engine : EngineName}
    {own : Text} (h : s.engineOf engine ≠ some n ∨ own ≠ name) (extension : Extension) :
    SameFor n name s (s.step (.setExtension engine own extension)).2 := by
  rcases step_setExtension_cases s engine own extension with
    ⟨e, hstep, -⟩ | ⟨m, r, hm, rfl, hstep⟩
  · rw [hstep]
    exact .refl n name s
  · rw [hstep]
    have hentry : (s.site.updateEngine m (Engine.withExtension own r)).extension? n name =
        s.site.extension? n name := by
      by_cases hnm : n = m
      · have hname : (name == own) = false :=
          beq_false_of_ne fun hname =>
            h.elim (fun hne => hne (hnm ▸ hm)) fun hne => hne hname.symm
        exact Site.extension?_updateEngine fun e => by
          simp [Engine.withExtension, List.lookup_cons, hname]
      · exact Site.extension?_updateEngine_ne hnm
    have hinvalid : ∀ k, (s.site.updateEngine m (Engine.withExtension own r)).invalidOf k =
        s.site.invalidOf k := fun k => Site.invalidOf_updateEngine fun _ => rfl
    refine ⟨rfl, rfl, ⟨rfl, rfl, rfl, rfl, rfl, fun _ => False.elim, fun _ => False.elim⟩,
      fun k => (hinvalid k).symm, ?_⟩
    rw [Site.rendererOf, hentry]
    rfl

theorem sameFor_step {n : Nat} {name : Text} {s : Session} {step : Step}
    (h : Elsewhere n name s step) : SameFor n name s (s.step step).2 := by
  cases step with
  | useTag engine own extension root => exact sameFor_useTag h own extension root
  | setExtension engine own extension => exact sameFor_setExtension h extension
  | _ => exact h.elim

theorem sameFor_run {n : Nat} {name : Text} {s : Session} {calls : List Step}
    (h : ∀ call ∈ calls, Elsewhere n name s call) : SameFor n name s (s.run calls).2 := by
  refine invariant_run (P := SameFor n name s) (fun t call hcall ht => ht.trans ?_)
    (.refl n name s)
  refine sameFor_step ?_
  have hcall := h call hcall
  cases call with
  | useTag | setExtension =>
    rw [Elsewhere, ht.engineOf]
    exact hcall
  | _ => exact hcall.elim

section
variable {s : Session} {n : Nat} {name : Text} {calls : List Step}

/-- Registrations elsewhere do not change what a look-up finds. -/
theorem step_getExtension_elsewhere (h : ∀ call ∈ calls, Elsewhere n name s call)
    {engine : EngineName} (hn : s.engineOf engine = some n) :
    ((s.run calls).2.step (.getExtension (some engine) name)).1 =
      (s.step (.getExtension (some engine) name)).1 := by
  have hsame := sameFor_run h
  rw [step_getExtension hn, step_getExtension ((hsame.engineOf engine).trans hn), hsame.renderer]

/-- Registrations elsewhere do not change the pages of a template. -/
theorem step_render_elsewhere (hdefault : s.UsesDefault) {id : Text} {t : Template}
    (ht : s.templates.lookup id = some t)
    (h : ∀ call ∈ calls, Elsewhere t.engine Fragment.defaultExtension s call)
    (values : List (Text × Value)) :
    ((s.run calls).2.step (.render id values)).1 = (s.step (.render id values)).1 := by
  have hsame := sameFor_run h
  have hlater : (s.run calls).2.UsesDefault := fun id t h => hdefault id t (hsame.templates ▸ h)
  have hstored : (s.run calls).2.templates.lookup id = some t := by rw [hsame.templates, ht]
  rw [step_render_with hdefault ht, step_render_with hlater hstored, hsame.renderer,
    Action.renderWith_alike hsame.site (hsame.invalid t.engine)]

end

/-! ## Engines that come and go -/

/-- A template belongs to its engine also after the name of the engine was dropped. -/
theorem step_render_dropped (s : Session) (id name : Text) (values : List (Text × Value)) :
    ((s.step (.drop name)).2.step (.render id values)).1 = (s.step (.render id values)).1 := by
  rw [step_drop]
  cases s.engines.lookup name with
  | none => rfl
  | some n =>
    rw [step_render, step_render]
    dsimp only
    cases s.templates.lookup id <;> rfl

/-- A new engine has no renderers of its own. -/
theorem step_getExtension_made (s : Session) (id : Text) (backend withTags : Bool)
    (invalid name : Text) :
    ((s.step (.engine id (Engine.make backend withTags invalid))).2.step
      (.getExtension (some (.named id)) name)).1 = s.site.configured.map .renderer := by
  have hengine : (s.step (.engine id (Engine.make backend withTags invalid))).2.engineOf
      (.named id) = some s.site.engines.length := List.lookup_cons_self
  have hentry : (s.step (.engine id (Engine.make backend withTags invalid))).2.site.extension?
      s.site.engines.length name = none := by
    refine (Site.extension?_append rfl s.site.engines.length name).trans ?_
    simp [Site.extension?]
  rw [step_getExtension hengine, Site.rendererOf, hentry]
  rfl

/-! ## Runs -/

/-- The renderer of an engine under a name after a run: the one that was registered last, or else
the one that the settings name now. -/
def rendererAfter (s : Session) (steps : List Step) (n : Nat) (name : Text) :
    Except Failure Renderer :=
  match latest (registered n name) s steps with
  | some r => .ok r
  | none => (s.run steps).2.site.configured

variable {settings : Value} {libraries : List Library} {steps : List Step}

theorem usesDefault_run : ((start settings libraries).run steps).2.UsesDefault := by
  have hstart : (start settings libraries).UsesDefault := fun _ _ h => by cases h
  exact invariant_run (P := UsesDefault) (fun _ step _ h => usesDefault_step h step) hstart

theorem extension?_run (hfresh : ∀ step ∈ steps, step.IsFresh) (n : Nat) (name : Text) :
    ((start settings libraries).run steps).2.site.extension? n name =
      latest (registered n name) (start settings libraries) steps :=
  seen_run (lookup_extensions_change n name) (fun _ _ _ => engineOf_registered)
    (fun _ _ _ => rfl) hfresh

theorem rendererOf_run (hfresh : ∀ step ∈ steps, step.IsFresh) (n : Nat) (name : Text) :
    ((start settings libraries).run steps).2.site.rendererOf n name =
      (start settings libraries).rendererAfter steps n name := by
  rw [Site.rendererOf, extension?_run hfresh]
  rfl

/-- **Renderers over whole runs.** After any run of steps, a look-up for an engine and every tag on
a page of its templates take the renderer that a step registered last for this engine under this
name, or else the one that the settings name at that time. A template belongs to the engine that the
name stood for when it was compiled, also after the name was dropped. Registrations for other
engines or under other names change none of this, and a new engine begins without entries. -/
theorem renderer_of_run (settings : Value) (libraries : List Library) {steps : List Step}
    (hfresh : ∀ step ∈ steps, step.IsFresh) :
    let first := start settings libraries
    let last := (first.run steps).2
    (∀ engine n name, last.engineOf engine = some n →
      (last.step (.getExtension (some engine) name)).1 =
        (first.rendererAfter steps n name).map .renderer) ∧
    (∀ id t, latest (compiled id) first steps = some t → ∀ values,
      (last.step (.render id values)).1 =
        ((Action.renderWith (first.rendererAfter steps t.engine Fragment.defaultExtension) t
          values).outcome last.site).1.map .text) ∧
    (∀ s id t engine source, compiled id s (.compile engine id source) = some t →
      s.engineOf (.named engine) = some t.engine) ∧
    (∀ n name calls, (∀ call ∈ calls, Elsewhere n name last call) →
      (∀ engine, last.engineOf engine = some n →
        ((last.run calls).2.step (.getExtension (some engine) name)).1 =
          (last.step (.getExtension (some engine) name)).1) ∧
      (name = Fragment.defaultExtension → ∀ id t, last.templates.lookup id = some t →
        t.engine = n → ∀ values, ((last.run calls).2.step (.render id values)).1 =
          (last.step (.render id values)).1)) ∧
    (∀ id values name, ((last.step (.drop name)).2.step (.render id values)).1 =
      (last.step (.render id values)).1) ∧
    ∀ id backend withTags invalid name,
      ((last.step (.engine id (Engine.make backend withTags invalid))).2.step
        (.getExtension (some (.named id)) name)).1 = last.site.configured.map .renderer := by
  intro first last
  have hdefault : last.UsesDefault := usesDefault_run
  refine ⟨?lookups, ?pages, ?owners, ?elsewhere, ?dropped, ?new⟩
  case lookups =>
    intro engine n name hn
    rw [step_getExtension hn, rendererOf_run hfresh]
  case pages =>
    intro id t ht values
    have hstored : last.templates.lookup id = some t := by
      rw [template_run, ht]
      rfl
    rw [step_render_with hdefault hstored, rendererOf_run hfresh]
  case owners => exact fun s id t engine source h => engine_of_compiled h
  case elsewhere =>
    intro n name calls hcalls
    refine ⟨fun engine hn => step_getExtension_elsewhere hcalls hn, ?_⟩
    rintro rfl id t ht rfl values
    exact step_render_elsewhere hdefault ht hcalls values
  case dropped => exact fun id values name => step_render_dropped last id name values
  case new => exact step_getExtension_made last

/-- A template of an engine whose name is dropped, beside an engine with another renderer. -/
def droppedEngine : List Step :=
  [.engine "e" (Engine.make false true []),
    .engine "f" (Engine.make true false []),
    .useTag (.named "e") [] (some (.renderer (signing "one"))) (some "/ui"),
    .setExtension (.named "f") "react" (.renderer (signing "two")),
    .compile "e" "t" "\x7b% react 'X' %\x7d",
    .drop "e"]

/-- The look-up finds the renderer of its own engine, and so does the page. -/
theorem renderer_of_run_dropped :
    (∀ step ∈ droppedEngine, step.IsFresh) ∧
    (((start .none []).run droppedEngine).2.step (.getExtension (some (.named "f")) "react")).1 =
      .ok (.renderer (signing "two")) ∧
    ∃ t, latest (compiled "t") (start .none []) droppedEngine = some t ∧ ∀ values,
      (((start .none []).run droppedEngine).2.step (.render "t" values)).1 =
        ((Action.renderWith (.ok (signing "one")) t values).outcome
          ((start .none []).run droppedEngine).2.site).1.map .text := by
  have hfresh : ∀ step ∈ droppedEngine, step.IsFresh := by
    simp [droppedEngine, Step.IsFresh]
  have hengine : ((start .none []).run droppedEngine).2.engineOf (.named "f") = some 1 := by
    decide +kernel
  have htemplate : (latest (compiled "t") (start .none []) droppedEngine).map (fun t => t.engine) =
      some 0 := by decide +kernel
  obtain ⟨t, ht, hzero⟩ := Option.map_eq_some_iff.1 htemplate
  obtain ⟨hlookup, hpage, -⟩ := renderer_of_run .none [] hfresh
  refine ⟨hfresh, hlookup (.named "f") 1 "react" hengine, t, ht, fun values => ?_⟩
  have hone := hpage "t" t ht values
  rw [hzero] at hone
  exact hone

end Session
end Hydration
