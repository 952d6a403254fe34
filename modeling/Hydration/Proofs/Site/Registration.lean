import Hydration.Session
import Hydration.Proofs.Site.Pages
/-!
# Enabling the tag after templates were compiled

A compiled template keeps its component and its root, but its renderer is looked up when a page is
rendered, under one name for all tags of the engine. So enabling the tag once more registers the new
renderer for the templates that are there as well. Their pages stay as they are if the engine used
the very renderer that is registered; those of other engines stay in any case.

* `outcome_useTag_ok`: what enabling the tag does to a site.
* `run_renders`: sessions that are alike answer requests for pages alike.
* `pages_after_useTag`: which pages stay as they are.
-/
namespace Hydration

namespace Site
variable {s : Site} {n m : Nat} {change : Engine → Engine} {name : Text}

theorem extension?_updateEngine_ne (h : m ≠ n) :
    (s.updateEngine n change).extension? m name = s.extension? m name := by
  simp [extension?, updateEngine, h.symm]

theorem extension?_updateEngine
    (h : ∀ e, (change e).extensions.lookup name = e.extensions.lookup name) :
    (s.updateEngine n change).extension? m name = s.extension? m name := by
  simp only [extension?, updateEngine, List.getElem?_modify]
  cases s.engines[m]? with
  | none => rfl
  | some e =>
    by_cases hm : n = m
    · simp [hm, h]
    · simp [hm]

theorem invalidOf_updateEngine (h : ∀ e, (change e).invalid = e.invalid) :
    (s.updateEngine n change).invalidOf m = s.invalidOf m := by
  simp only [invalidOf, updateEngine, List.getElem?_modify]
  cases s.engines[m]? with
  | none => rfl
  | some e =>
    by_cases hm : n = m
    · simp [hm, h]
    · simp [hm]

/-- The renderer that is registered: the one that is given, or that of the configuration. -/
def chosen (s : Site) : Option Extension → Except Failure Renderer
  | some (.renderer r) => .ok r
  | some .notCallable => .error (.type (.extensionNotCallable Fragment.defaultExtension))
  | none => s.configured

/-- The site with a renderer registered and a tag added. -/
def register (s : Site) (n : Nat) (r : Renderer) (name : Text) (root : Option Text) : Site :=
  (s.updateEngine n (Engine.withExtension Fragment.defaultExtension r)).updateEngine n
    (Engine.withTag name root)

end Site

namespace Action
open Site (Alike)

/-- The renderer to register: what is given, or the renderer of the configuration. -/
def chooseExtension : Option Extension → Action Extension
  | some e => pure e
  | none => Extension.renderer <$> defaultRenderer

/-- Registers what was chosen and adds the tag. -/
def enable (n : Nat) (name : Text) (root : Option Text) (e : Extension) : Action Text := do
  setExtension (.engine n) Fragment.defaultExtension e
  let name := if name = [] then defaultTagName else name
  modify fun s => s.updateEngine n (Engine.withTag name root)
  let shown := match root with
    | some (c :: rest) => c :: rest
    | _ => "<settings>"
  record .info .registration ("Component tag '" ++ name ++ "' enabled (root=" ++ shown ++ ")")
  pure name

theorem useTag_eq (target : Target) (name : Text) (extension : Option Extension)
    (root : Option Text) :
    useTag target name extension root =
      (do
        let n ← asEngine target
        let e ← chooseExtension extension
        enable n name root e) := by
  cases extension <;> rfl

theorem outcome_asEngine_ok {target : Target} {n : Nat} {s t : Site}
    (h : (asEngine target).outcome s = (.ok n, t)) : target = .engine n ∧ t = s := by
  cases target with
  | engine =>
    cases h
    exact ⟨rfl, rfl⟩
  | foreign => cases h

/-- Choosing a renderer leaves the site as it is for pages. -/
theorem outcome_chooseExtension_ok {extension : Option Extension} {s t : Site} {e : Extension}
    (h : (chooseExtension extension).outcome s = (.ok e, t)) :
    (∀ own, Alike own s t) ∧ ∀ r, e = .renderer r → s.chosen extension = .ok r := by
  cases extension with
  | some given =>
    cases h
    refine ⟨fun _ => .refl s, ?_⟩
    rintro r rfl
    rfl
  | none =>
    obtain ⟨hresult, hsite⟩ := looksUp_defaultRenderer s
    rw [chooseExtension, outcome_map, Prod.mk.injEq, hresult] at h
    obtain ⟨he, rfl⟩ := h
    refine ⟨hsite, ?_⟩
    rintro r rfl
    rw [Site.chosen]
    cases hc : s.configured with
    | error f =>
      rw [hc] at he
      cases he
    | ok found =>
      rw [hc] at he
      cases he
      rfl

theorem outcome_enable_ok {n : Nat} {name shown : Text} {root : Option Text} {e : Extension}
    {s t : Site} (h : (enable n name root e).outcome s = (.ok shown, t)) :
    ∃ r log, e = .renderer r ∧ t = { s.register n r shown root with log := log } := by
  cases e with
  | notCallable => cases h
  | renderer r =>
    cases h
    exact ⟨r, _, rfl, rfl⟩

/-- Enabling the tag registers the renderer that is chosen and adds the tag. -/
theorem outcome_useTag_ok {target : Target} {name shown : Text} {extension : Option Extension}
    {root : Option Text} {s t : Site}
    (h : (useTag target name extension root).outcome s = (.ok shown, t)) :
    ∃ n r u log, target = .engine n ∧ s.chosen extension = .ok r ∧ (∀ own, Alike own s u) ∧
      t = { u.register n r shown root with log := log } := by
  rw [useTag_eq] at h
  obtain ⟨n, s', hengine, hrest⟩ := outcome_bind_ok_iff.1 h
  obtain ⟨htarget, rfl⟩ := outcome_asEngine_ok hengine
  obtain ⟨e, u, hchoose, henable⟩ := outcome_bind_ok_iff.1 hrest
  obtain ⟨hsite, hchosen⟩ := outcome_chooseExtension_ok hchoose
  obtain ⟨r, log, he, ht⟩ := outcome_enable_ok henable
  exact ⟨n, r, u, log, htarget, hchosen r he, hsite, ht⟩

end Action

namespace Site
variable {own : Nat → Prop} {s : Site}

theorem invalidOf_register (n m : Nat) (r : Renderer) (name : Text) (root : Option Text) :
    (s.register n r name root).invalidOf m = s.invalidOf m := by
  have htag : (s.register n r name root).invalidOf m =
      (s.updateEngine n (Engine.withExtension Fragment.defaultExtension r)).invalidOf m :=
    invalidOf_updateEngine fun _ => rfl
  exact htag.trans (invalidOf_updateEngine fun _ => rfl)

/-- A registration under the name for all tags is found there on its engine, and nowhere else. -/
theorem extension?_register {n m : Nat} {r : Renderer} {other name : Text} {root : Option Text}
    (h : ¬ (m = n ∧ other = Fragment.defaultExtension)) :
    (s.register n r name root).extension? m other = s.extension? m other := by
  have htag : (s.register n r name root).extension? m other =
      (s.updateEngine n (Engine.withExtension Fragment.defaultExtension r)).extension? m other :=
    extension?_updateEngine fun _ => rfl
  rw [htag]
  by_cases hm : m = n
  · have hother : (other == Fragment.defaultExtension) = false :=
      beq_false_of_ne fun ho => h ⟨hm, ho⟩
    exact extension?_updateEngine fun e => by simp [Engine.withExtension, List.lookup_cons, hother]
  · exact extension?_updateEngine_ne hm

theorem extension?_register_self (s : Site) (n : Nat) (r : Renderer) (name : Text)
    (root : Option Text) :
    (s.register n r name root).extension? n Fragment.defaultExtension = some r ∨
      (s.register n r name root).extension? n Fragment.defaultExtension = none ∧
        s.extension? n Fragment.defaultExtension = none := by
  cases he : s.engines[n]? with
  | some e =>
    refine .inl ?_
    simp [extension?, register, updateEngine, he, Engine.withExtension, Engine.withTag]
  | none =>
    refine .inr ?_
    simp [extension?, register, updateEngine, he]

/-- An engine that used the renderer before uses it after the registration, and any other engine
what it used. -/
theorem rendererOf_register {n m : Nat} {r : Renderer} {other name : Text} {root : Option Text}
    (h : m = n → other = Fragment.defaultExtension → s.rendererOf m other = .ok r) :
    (s.register n r name root).rendererOf m other = s.rendererOf m other := by
  have hconfigured : (s.register n r name root).configured = s.configured := rfl
  by_cases hself : m = n ∧ other = Fragment.defaultExtension
  · obtain ⟨rfl, rfl⟩ := hself
    have hr := h rfl rfl
    rcases extension?_register_self s m r name root with hnew | ⟨hnew, hold⟩
    · rw [hr, rendererOf, hnew]
    · rw [rendererOf, rendererOf, hnew, hold, hconfigured]
  · rw [rendererOf, rendererOf, extension?_register hself, hconfigured]

/-- A registration does not matter for the pages of engines that go on using their renderers. -/
theorem alike_register {n : Nat} {r : Renderer} {name : Text} {root : Option Text}
    (h : own n → s.rendererOf n Fragment.defaultExtension = .ok r) :
    Alike own s (s.register n r name root) where
  config := rfl
  files := rfl
  modules := rfl
  loads := rfl
  libraries := rfl
  invalid := fun m _ => (invalidOf_register n m r name root).symm
  renderers := by
    intro m hm other
    refine (rendererOf_register ?_).symm
    rintro rfl rfl
    exact h hm

end Site

namespace Action
open Site (Alike)

/-- Enabling the tag on an engine does not matter for the pages of engines that go on using their
renderers: all but the engine itself, and the engine if it used the chosen renderer before. -/
theorem alike_useTag {own : Nat → Prop} {n : Nat} {name shown : Text}
    {extension : Option Extension} {root : Option Text} {s t : Site}
    (h : (useTag (.engine n) name extension root).outcome s = (.ok shown, t))
    (hown : own n → s.rendererOf n Fragment.defaultExtension = s.chosen extension) :
    Alike own s t := by
  obtain ⟨m, r, u, log, hm, hchosen, hsite, rfl⟩ := outcome_useTag_ok h
  cases hm
  have hregister : Alike own u (u.register n r shown root) := by
    refine Site.alike_register fun hn => ?_
    rw [← (hsite own).renderers n hn, hown hn, hchosen]
  exact ((hsite own).trans hregister).trans (Site.alike_withLog own _ log)

end Action

/-! ## Sessions -/

namespace Session
variable {own : Nat → Prop} {s t : Session}

/-- What the name of an engine stands for. -/
def engineOf (s : Session) : EngineName → Option Nat
  | .named id => s.engines.lookup id
  | .foreign _ => none

/-- Two sessions have the same templates, and the same for the pages of some engines. -/
structure Alike (own : Nat → Prop) (s t : Session) : Prop where
  templates : s.templates = t.templates
  site : s.site.Alike own t.site

theorem step_render (s : Session) (id : Text) (values : List (Text × Value)) :
    s.step (.render id values) =
      match s.templates.lookup id with
      | none => (.error (.key (Text.inspect id)), s)
      | some t =>
        (((Action.render t values).outcome s.site).1.map .text,
          { s with site := ((Action.render t values).outcome s.site).2 }) := by
  rw [step_eq_outcome]
  simp only [Turn.take, Turn.outcome_bind, Turn.outcome_get, Turn.named]
  cases s.templates.lookup id with
  | none => rfl
  | some t =>
    simp only [Turn.outcome_pure, Turn.outcome_onSite]
    cases ((Action.render t values).outcome s.site).1 <;> rfl

theorem step_useTag (s : Session) (id name : Text) (extension : Option Extension)
    (root : Option Text) :
    s.step (.useTag (.named id) name extension root) =
      match s.engines.lookup id with
      | none => (.error (.key (Text.inspect id)), s)
      | some n =>
        (((Action.useTag (.engine n) name extension root).outcome s.site).1.map
            fun shown => .names [shown],
          { s with site := ((Action.useTag (.engine n) name extension root).outcome s.site).2 }) := by
  rw [step_eq_outcome]
  simp only [Turn.take, Turn.target, Turn.outcome_bind, Turn.outcome_get, Turn.named]
  cases s.engines.lookup id with
  | none => rfl
  | some n =>
    simp only [Turn.outcome_pure, Turn.outcome_onSite]
    cases ((Action.useTag (.engine n) name extension root).outcome s.site).1 <;> rfl

/-- A step that enables the tag does so on the site, for an engine that has the name. -/
theorem step_useTag_ok {engine : EngineName} {name : Text} {extension : Option Extension}
    {root : Option Text} {answer : Answer}
    (h : s.step (.useTag engine name extension root) = (.ok answer, t)) :
    ∃ n shown site, s.engineOf engine = some n ∧
      (Action.useTag (.engine n) name extension root).outcome s.site = (.ok shown, site) ∧
      t = { s with site := site } := by
  cases engine with
  | foreign type => cases h
  | named id =>
    rw [step_useTag] at h
    cases hid : s.engines.lookup id with
    | none =>
      rw [hid] at h
      cases h
    | some n =>
      rw [hid] at h
      dsimp only at h
      rcases houtcome : (Action.useTag (.engine n) name extension root).outcome s.site with
        ⟨f | shown, site⟩
      · rw [houtcome] at h
        cases h
      · rw [houtcome] at h
        cases h
        exact ⟨n, shown, site, hid, houtcome, rfl⟩

/-- A request for a page: the template, and the variables. -/
abbrev Request := Text × List (Text × Value)

/-- The steps that answer requests. -/
def renders (requests : List Request) : List Step :=
  requests.map fun (id, values) => .render id values

/-- The template that is requested is one of an engine that matters. -/
def Request.IsFor (own : Nat → Prop) (s : Session) (request : Request) : Prop :=
  ∀ t, s.templates.lookup request.1 = some t → own t.engine

theorem templates_step_render (s : Session) (id : Text) (values : List (Text × Value)) :
    (s.step (.render id values)).2.templates = s.templates := by
  rw [step_render]
  split <;> rfl

/-- Sessions that are alike answer a request alike, and are alike afterwards. -/
theorem step_render_alike (h : s.Alike own t) {id : Text} {values : List (Text × Value)}
    (hown : Request.IsFor own s (id, values)) :
    (s.step (.render id values)).1 = (t.step (.render id values)).1 ∧
      Alike own (s.step (.render id values)).2 (t.step (.render id values)).2 := by
  rw [step_render, step_render, ← h.templates]
  cases hid : s.templates.lookup id with
  | none => exact ⟨rfl, h⟩
  | some u =>
    obtain ⟨hpage, hsite⟩ := Action.agree_render (hown u hid) values s.site t.site h.site
    exact ⟨congrArg (Except.map Answer.text) hpage, rfl, hsite⟩

/-- Sessions that are alike answer all requests alike. -/
theorem run_renders (h : s.Alike own t) {requests : List Request}
    (hown : ∀ request ∈ requests, request.IsFor own s) :
    (s.run (renders requests)).1 = (t.run (renders requests)).1 := by
  induction requests generalizing s t with
  | nil => rfl
  | cons request rest ih =>
    obtain ⟨id, values⟩ := request
    obtain ⟨hfirst, hrest⟩ := List.forall_mem_cons.1 hown
    obtain ⟨hanswer, halike⟩ := step_render_alike h hfirst
    have hlater := ih halike fun request hr u hu =>
      hrest request hr u (by rwa [templates_step_render] at hu)
    have hrun : ∀ s : Session, (s.run (renders ((id, values) :: rest))).1 =
        (s.step (.render id values)).1 :: ((s.step (.render id values)).2.run (renders rest)).1 :=
      fun _ => rfl
    rw [hrun, hrun, hanswer, hlater]

/-- **Enabling the tag leaves the pages of compiled templates as they are if their engines go on
using their renderers.** After a step that enabled the tag on some engine, every run of requests for
pages, of templates that were compiled before and with any variables, has the answers that it would
have had without the step, if for each template of that very engine the renderer that was chosen is
the one that the engine used already. Templates of other engines are not affected in any case. -/
theorem pages_after_useTag {engine : EngineName} {name : Text} {extension : Option Extension}
    {root : Option Text} {answer : Answer}
    (h : s.step (.useTag engine name extension root) = (.ok answer, t)) (requests : List Request)
    (hsame : ∀ request ∈ requests, ∀ u, s.templates.lookup request.1 = some u →
      s.engineOf engine = some u.engine →
        s.site.rendererOf u.engine Fragment.defaultExtension = s.site.chosen extension) :
    (t.run (renders requests)).1 = (s.run (renders requests)).1 := by
  obtain ⟨n, shown, site, hn, houtcome, rfl⟩ := step_useTag_ok h
  -- the engines whose pages matter: those that go on using their renderers
  have halike : Alike (fun m => m = n → s.site.rendererOf m Fragment.defaultExtension =
      s.site.chosen extension) s { s with site := site } :=
    ⟨rfl, Action.alike_useTag houtcome fun hown => hown rfl⟩
  refine (run_renders halike fun request hr u hu hm => ?_).symm
  exact hsame request hr u hu (by rw [hn, hm])

/-- A renderer that writes its name. -/
def signing (name : Text) : Renderer := .fixed name (.str name) id

/-- A session with two engines that use the renderer `one`, and a template of the first. -/
def twoEngines : Session where
  site :=
    let e := (Engine.make false true []).withExtension Fragment.defaultExtension (signing "one")
    { Site.start .none [] with engines := [e, e] }
  engines := [("e", 0), ("f", 1)]
  templates :=
    [("t", ⟨0, [.component
      ⟨"react", .path "/ui" "/ui/X", none, none, Fragment.defaultExtension⟩]⟩)]
  shown := none

/-- Enabling the tag with a new renderer. -/
def enableWith (engine renderer : Text) : Step :=
  .useTag (.named engine) [] (some (.renderer (signing renderer))) none

/-- The template keeps its page when the other engine gets another renderer. -/
theorem pages_after_useTag_elsewhere :
    ∃ t, twoEngines.step (enableWith "f" "two") = (.ok (.names ["react"]), t) ∧
      (t.run (renders [("t", [])])).1 = (twoEngines.run (renders [("t", [])])).1 := by
  have h : twoEngines.step (.useTag (.named "f") [] (some (.renderer (signing "two"))) none) =
      (.ok (.names ["react"]), (twoEngines.step (enableWith "f" "two")).2) := rfl
  refine ⟨_, h, pages_after_useTag h [("t", [])] ?_⟩
  intro request hrequest u hu hengine
  cases List.mem_singleton.1 hrequest
  cases hu
  cases hengine

/-- But not when its own engine gets another renderer. -/
theorem page_changed_by_useTag :
    (twoEngines.step (enableWith "e" "two")).1 = .ok (.names ["react"]) ∧
    (twoEngines.step (.render "t" [])).1 =
      .ok (.text "<div data-react-class=\"/ui/X\" data-react-props=\"\x7b\x7d\">one</div>") ∧
    ((twoEngines.step (enableWith "e" "two")).2.step (.render "t" [])).1 =
      .ok (.text "<div data-react-class=\"/ui/X\" data-react-props=\"\x7b\x7d\">two</div>") :=
  ⟨rfl, rfl, rfl⟩

end Session
end Hydration
