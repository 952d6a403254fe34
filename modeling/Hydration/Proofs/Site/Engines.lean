import Hydration.Proofs.Site.Frame
/-!
# Engines over runs

An engine changes in two ways only: a renderer is registered for it, or the tag is enabled on it. So
what is seen of an engine after a run is what the latest of these steps made of it.

* `engines_step`: what a step does to an engine.
* `seen_step`, `seen_run`: what is seen of an engine after a step and after a run.
-/
namespace Hydration

/-- What is seen of an engine, if there is one. -/
def Site.seen? {α : Type} (look : Engine → Option α) (n : Nat) (s : Site) : Option α :=
  s.engines[n]?.bind look

/-- The engine of a step that makes one has no tags and no renderers yet. -/
def Step.IsFresh : Step → Prop
  | .engine _ e => ∃ backend withTags invalid, e = Engine.make backend withTags invalid
  | _ => True

namespace Session

/-- What a step does to an engine that there is. -/
def change (n : Nat) (s : Session) (step : Step) (e : Engine) : Engine :=
  match step with
  | .setExtension engine name (.renderer r) =>
    if s.engineOf engine = some n then e.withExtension name r else e
  | .useTag engine name extension root =>
    match s.site.chosen extension with
    | .ok r =>
      if s.engineOf engine = some n then
        (e.withExtension Fragment.defaultExtension r).withTag (Action.tagName name) root
      else e
    | .error _ => e
  | _ => e

theorem getElem?_updateEngine (s : Site) (m n : Nat) (f : Engine → Engine) :
    (s.updateEngine m f).engines[n]? = s.engines[n]?.map fun e => if m = n then f e else e := by
  rw [Site.updateEngine, List.getElem?_modify]
  cases s.engines[n]? with
  | none => rfl
  | some e => by_cases h : m = n <;> simp [h]

theorem getElem?_register (s : Site) (m n : Nat) (r : Renderer) (name : Text)
    (root : Option Text) :
    (s.register m r name root).engines[n]? = s.engines[n]?.map fun e =>
      if m = n then (e.withExtension Fragment.defaultExtension r).withTag name root else e := by
  rw [Site.register, getElem?_updateEngine, getElem?_updateEngine, Option.map_map]
  refine congrArg (fun f => Option.map f s.engines[n]?) (funext fun e => ?_)
  by_cases hmn : m = n <;> simp [hmn]

/-- A step that makes no engine changes each engine on its own. -/
theorem engines_step (n : Nat) (s : Session) {step : Step} (h : ∀ id e, step ≠ .engine id e) :
    (s.step step).2.site.engines[n]? = s.site.engines[n]?.map (change n s step) := by
  have hsame : ∀ t : Site, t.engines = s.site.engines → (∀ e, change n s step e = e) →
      t.engines[n]? = s.site.engines[n]?.map (change n s step) := by
    intro t hengines hid
    rw [hengines, funext hid]
    exact Option.map_id'.symm
  cases step with
  | engine id e => exact (h id e rfl).elim
  | drop id =>
    rw [step_drop]
    cases s.engines.lookup id <;> exact hsame _ rfl fun _ => rfl
  | useTag engine name extension root =>
    rcases step_useTag_cases s engine name extension root with
      ⟨hnone, e, hstep⟩ | ⟨m, u, log, hm, hframe, -, hstep⟩
    · rw [hstep]
      refine hsame _ rfl fun e => ?_
      rw [change, hnone]
      cases s.site.chosen extension <;> rfl
    · rw [hstep]
      cases hchosen : s.site.chosen extension with
      | error e => exact hsame _ hframe.engines fun e => by rw [change, hchosen]
      | ok r =>
        refine (getElem?_register u m n r _ root).trans ?_
        rw [hframe.engines]
        refine congrArg (fun f => Option.map f s.site.engines[n]?) (funext fun e => ?_)
        rw [change, hchosen, hm]
        simp only [Option.some.injEq]
  | setExtension engine name extension =>
    rcases step_setExtension_cases s engine name extension with
      ⟨e, hstep, hnone⟩ | ⟨m, r, hm, rfl, hstep⟩
    · rw [hstep]
      refine hsame _ rfl fun e => ?_
      cases extension with
      | notCallable => rfl
      | renderer r =>
        rw [change, hnone r rfl]
        rfl
    · rw [hstep]
      refine (getElem?_updateEngine _ _ _ _).trans
        (congrArg (fun f => Option.map f s.site.engines[n]?) (funext fun e => ?_))
      rw [change, hm]
      simp only [Option.some.injEq]
  | compile engine id source =>
    exact hsame _ (framed_step_compile s engine id source).2.engines fun _ => rfl
  | _ => exact hsame _ (step_quiet s (by trivial)).site fun _ => rfl

/-- The names of engines stand for engines that there are. -/
def NamesEngines (s : Session) : Prop := ∀ entry ∈ s.engines, entry.2 < s.site.engines.length

theorem NamesEngines.engineOf {s : Session} (h : s.NamesEngines) {engine : EngineName} {n : Nat}
    (hn : s.engineOf engine = some n) : n < s.site.engines.length := by
  cases engine with
  | foreign type => cases hn
  | named id =>
    obtain ⟨before, after, hentries, -⟩ := List.lookup_eq_some_iff.1 hn
    exact h (id, n) (by simp [hentries])

theorem namesEngines_step {s : Session} (h : s.NamesEngines) (step : Step) :
    (s.step step).2.NamesEngines := by
  have hkept : ∀ t : Session, t.engines = s.engines →
      t.site.engines.length = s.site.engines.length → t.NamesEngines := by
    intro t hnames hlength entry hentry
    rw [hlength]
    exact h entry (hnames ▸ hentry)
  cases step with
  | engine id e =>
    intro entry hentry
    have hlength : (s.step (.engine id e)).2.site.engines.length = s.site.engines.length + 1 :=
      List.length_append
    rw [hlength]
    rcases List.mem_cons.1 hentry with rfl | hentry
    · exact Nat.lt_succ_self _
    · exact Nat.lt_succ_of_lt (h entry hentry)
  | drop id =>
    rw [step_drop]
    cases s.engines.lookup id with
    | none => exact h
    | some n => exact fun entry hentry => h entry (List.mem_filter.1 hentry).1
  | useTag engine name extension root =>
    rcases step_useTag_cases s engine name extension root with
      ⟨-, e, hstep⟩ | ⟨n, u, log, -, hframe, -, hstep⟩
    · rw [hstep]
      exact h
    · rw [hstep]
      cases s.site.chosen extension with
      | error e => exact hkept _ rfl (congrArg _ hframe.engines)
      | ok r =>
        refine hkept _ rfl ?_
        simp [Site.register, Site.updateEngine, hframe.engines]
  | setExtension engine name extension =>
    rcases step_setExtension_cases s engine name extension with
      ⟨e, hstep, -⟩ | ⟨n, r, -, -, hstep⟩
    · rw [hstep]
      exact h
    · rw [hstep]
      exact hkept _ rfl (by simp [Site.updateEngine])
  | compile engine id source =>
    obtain ⟨hnames, hframe⟩ := framed_step_compile s engine id source
    exact hkept _ hnames (congrArg _ hframe.engines)
  | _ =>
    refine hkept _ (step_quiet s ?_).engines (congrArg _ (step_quiet s ?_).site) <;> trivial

/-- What is seen of an engine after a step is what the step made of it, if a new engine shows
nothing. -/
theorem seen_step {α : Type} {look : Engine → Option α} {makes : Session → Step → Option α}
    {n : Nat} (hchange : ∀ s step e, look (change n s step e) = (makes s step).or (look e))
    (hnamed : ∀ s step x, makes s step = some x → ∃ engine, s.engineOf engine = some n)
    (hnew : ∀ backend withTags invalid, look (Engine.make backend withTags invalid) = none)
    {s : Session} (h : s.NamesEngines) {step : Step} (hfresh : step.IsFresh) :
    (s.step step).2.site.seen? look n = (makes s step).or (s.site.seen? look n) := by
  have hbeyond : s.site.engines[n]? = none → makes s step = none := by
    intro hnone
    refine Option.eq_none_iff_forall_ne_some.2 fun x hx => ?_
    obtain ⟨engine, hengine⟩ := hnamed s step x hx
    have hbound := h.engineOf hengine
    rw [List.getElem?_eq_none_iff] at hnone
    omega
  by_cases hengine : ∃ id e, step = .engine id e
  · obtain ⟨id, e, rfl⟩ := hengine
    obtain ⟨backend, withTags, invalid, rfl⟩ := hfresh
    have hafter : (s.step (.engine id (Engine.make backend withTags invalid))).2.site.engines =
        s.site.engines ++ [Engine.make backend withTags invalid] := rfl
    rw [Site.seen?, Site.seen?, hafter, List.getElem?_append]
    split
    · next hn =>
      obtain ⟨e, he⟩ : ∃ e, s.site.engines[n]? = some e := ⟨_, List.getElem?_eq_getElem hn⟩
      rw [he]
      exact hchange s (.engine id (Engine.make backend withTags invalid)) e
    · next hn =>
      have hnone : s.site.engines[n]? = none := List.getElem?_eq_none_iff.2 (by omega)
      rw [hbeyond hnone, hnone]
      cases hlast : n - s.site.engines.length with
      | zero => exact hnew backend withTags invalid
      | succ k => rfl
  · rw [Site.seen?, engines_step n s fun id e he => hengine ⟨id, e, he⟩, Site.seen?]
    cases he : s.site.engines[n]? with
    | none =>
      rw [hbeyond he]
      rfl
    | some e => exact hchange s step e

variable {settings : Value} {libraries : List Library}

theorem namesEngines_start : NamesEngines (start settings libraries) := fun _ h => by cases h

/-- What is seen of an engine after a run is what the latest step made of it. -/
theorem seen_run {α : Type} {look : Engine → Option α} {makes : Session → Step → Option α}
    {n : Nat} (hchange : ∀ s step e, look (change n s step e) = (makes s step).or (look e))
    (hnamed : ∀ s step x, makes s step = some x → ∃ engine, s.engineOf engine = some n)
    (hnew : ∀ backend withTags invalid, look (Engine.make backend withTags invalid) = none)
    {steps : List Step} (hfresh : ∀ step ∈ steps, step.IsFresh) :
    ((start settings libraries).run steps).2.site.seen? look n =
      latest makes (start settings libraries) steps := by
  have h := observed_run (f := fun s => s.site.seen? look n)
    (fun s step _ h => namesEngines_step h step)
    (fun s step hstep h => seen_step hchange hnamed hnew h (hfresh step hstep))
    (namesEngines_start : (start settings libraries).NamesEngines)
  rwa [show (start settings libraries).site.seen? look n = none from rfl, Option.or_none] at h

end Session
end Hydration
