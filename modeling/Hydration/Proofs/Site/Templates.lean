import Hydration.Proofs.Fragment.Compiled
import Hydration.Proofs.Site.Frame
import Mathlib.Data.List.Forall2
/-!
# What a template is compiled to

A template is compiled piece by piece: text stays text, an expression is read, and a block is the
tag of its name, compiled against the root that the tag was given or, without one, against that of
the configuration. The tags are those of the engine, in a template that loads nothing.

* `looksUp_compileTag`: compiling a tag gives what the tag and the configuration say.
* `parts_of_compilePieces`: what the pieces of a template are compiled to.
* `template_run`: under a name stands the template that was compiled last under it.
-/
namespace Hydration

/-- The root that a tag is compiled against: the one that it was given, unless that is empty. -/
def Site.capturedRoot (s : Site) : Option Text → Except Failure Text
  | some (c :: rest) => .ok (c :: rest)
  | _ => s.currentConfig.map fun c => c.componentRoot

theorem Site.Alike.capturedRoot {own : Nat → Prop} {s t : Site} (h : Site.Alike own s t) :
    s.capturedRoot = t.capturedRoot := by
  funext root
  rcases root with _ | (_ | ⟨c, rest⟩) <;> simp only [Site.capturedRoot, h.config]

theorem Site.Framed.capturedRoot {s t : Site} (h : s.Framed t) :
    t.capturedRoot = s.capturedRoot := by
  funext root
  rcases root with _ | (_ | ⟨c, rest⟩)
  · rw [Site.capturedRoot, Site.capturedRoot, h.config] <;> simp
  · rw [Site.capturedRoot, Site.capturedRoot, h.config] <;> simp
  · rfl

namespace Template

/-- A tag that was read and compiled against a root that was captured. -/
def compiledTag (captured : Option Text → Except Failure Text) (root : Option Text)
    (contents : Text) : Except Failure Fragment := do
  let tag ← Tag.parse contents
  let r ← captured root
  Fragment.compile r Fragment.defaultExtension tag

/-- The piece does not load tags. -/
def Piece.LoadsNothing : Piece → Prop
  | .tag .block inner => (Text.words (Text.trim inner)).head? ≠ some "load".toList
  | _ => True

/-- What a piece of a template is compiled to with some tags. Comments and blocks that load tags
leave nothing behind. -/
inductive PartOf (tags : Text → Option (Option Text))
    (captured : Option Text → Except Failure Text) : Piece → Option Node → Prop
  | text (t : Text) : PartOf tags captured (.text t) (some (.text t))
  | comment (inner : Text) : PartOf tags captured (.tag .comment inner) none
  | output {inner : Text} {p : Pipe} (hne : Text.trim inner ≠ [])
    (hp : Pipe.compile (Text.trim inner) = .ok p) :
    PartOf tags captured (.tag .output inner) (some (.output p))
  | component {inner command : Text} {root : Option Text} {f : Fragment}
    (hcommand : (Text.words (Text.trim inner)).head? = some command)
    (hroot : tags command = some root)
    (hf : compiledTag captured root (Text.trim inner) = .ok f) :
    PartOf tags captured (.tag .block inner) (some (.component f))
  | load {inner : Text} (hload : (Text.words (Text.trim inner)).head? = some "load".toList)
    (hnone : tags "load".toList = none) : PartOf tags captured (.tag .block inner) none

/-- All tags of a template have the usual name for their renderer. -/
def UsesDefault (nodes : List Node) : Prop :=
  ∀ f, .component f ∈ nodes → f.extension = Fragment.defaultExtension

theorem compiledTag_ok_iff {captured : Option Text → Except Failure Text} {root : Option Text}
    {contents : Text} {f : Fragment} :
    compiledTag captured root contents = .ok f ↔
      ∃ tag r, Tag.parse contents = .ok tag ∧ captured root = .ok r ∧
        Fragment.compile r Fragment.defaultExtension tag = .ok f := by
  unfold compiledTag
  cases Tag.parse contents with
  | error e => simp [bind, Except.bind]
  | ok tag => cases captured root <;> simp [bind, Except.bind]

theorem PartOf.usesDefault {tags : Text → Option (Option Text)}
    {captured : Option Text → Except Failure Text} {piece : Piece} {f : Fragment}
    (h : PartOf tags captured piece (some (.component f))) :
    f.extension = Fragment.defaultExtension := by
  cases h with
  | component _ _ hf =>
    obtain ⟨tag, r, -, -, hcompile⟩ := compiledTag_ok_iff.1 hf
    exact (Fragment.compile_ok_iff.1 hcompile).2.2.1

end Template

namespace Action
open Site (Framed Alike)
open Template (PartOf compiledTag)

variable {α β : Type}

/-! ## Looking up in turn -/

theorem looksUp_ofExcept (r : Except Failure α) : LooksUp (fun _ => r) (ofExcept r) :=
  fun s => ⟨rfl, fun _ => .refl s⟩

theorem looksUp_bind {f : Site → Except Failure α} {g : α → Site → Except Failure β}
    {a : Action α} {k : α → Action β} (h : LooksUp f a) (hk : ∀ x, LooksUp (g x) (k x))
    (hg : ∀ x s t, (∀ own, Alike own s t) → g x s = g x t) :
    LooksUp (fun s => (f s).bind fun x => g x s) (a >>= k) := by
  intro s
  obtain ⟨hresult, hsite⟩ := h s
  rw [outcome_bind]
  rcases houtcome : a.outcome s with ⟨e | x, t⟩
  · rw [houtcome] at hresult hsite
    dsimp only at hresult ⊢
    rw [← hresult]
    exact ⟨rfl, hsite⟩
  · rw [houtcome] at hresult hsite
    obtain ⟨hnext, hafter⟩ := hk x t
    dsimp only at hresult ⊢
    rw [← hresult, hnext, ← hg x s t hsite]
    exact ⟨rfl, fun own => (hsite own).trans (hafter own)⟩

/-- The root of the configuration is looked up. -/
theorem looksUp_componentRoot :
    LooksUp (fun s => s.currentConfig.map fun c => c.componentRoot)
      ((fun r : ReadConfig => r.config.componentRoot) <$> readConfig) := by
  intro s
  obtain ⟨t, hsite, ⟨c, hread, hc⟩ | ⟨e, hread, he⟩⟩ := outcome_readConfig_cases s
  · rw [outcome_map, hread]
    dsimp only
    rw [hc]
    exact ⟨rfl, hsite⟩
  · rw [outcome_map, hread]
    dsimp only
    rw [he]
    exact ⟨rfl, hsite⟩

/-! ## Compiling -/

theorem looksUp_compileParsed (root extension : Text) (tag : Tag.ParsedTag) :
    LooksUp (fun _ => Fragment.compile root extension tag) (compileParsed root extension tag) := by
  intro s
  rw [compileParsed, outcome_bind, outcome_ofExcept]
  cases Fragment.compile root extension tag with
  | error e => exact ⟨rfl, fun _ => .refl s⟩
  | ok f => exact ⟨rfl, fun own => Site.alike_withLog own s _⟩

/-- A tag that was read is compiled against its root, or that of the configuration. -/
theorem looksUp_compileAgainst (root : Option Text) (extension : Text) (tag : Tag.ParsedTag) :
    LooksUp (fun s => (s.capturedRoot root).bind fun r => Fragment.compile r extension tag) (do
      let root ← match root with
        | some (c :: rest) => pure (c :: rest)
        | _ => (fun r => r.config.componentRoot) <$> readConfig
      compileParsed root extension tag) := by
  have hconfigured : LooksUp
      (fun s => (s.currentConfig.map fun c => c.componentRoot).bind fun r =>
        Fragment.compile r extension tag)
      (((fun r : ReadConfig => r.config.componentRoot) <$> readConfig) >>= fun r =>
        compileParsed r extension tag) :=
    looksUp_bind looksUp_componentRoot (fun r => looksUp_compileParsed r extension tag)
      fun _ _ _ _ => rfl
  rcases root with _ | (_ | ⟨c, rest⟩)
  · exact hconfigured
  · exact hconfigured
  · exact looksUp_compileParsed (c :: rest) extension tag

/-- Compiling a tag gives what its contents and the configuration say. -/
theorem looksUp_compileContents (root : Option Text) (extension contents : Text) :
    LooksUp (fun s => (Tag.parse contents).bind fun tag => (s.capturedRoot root).bind fun r =>
      Fragment.compile r extension tag) (compileTag root extension contents) :=
  looksUp_bind (looksUp_ofExcept _) (looksUp_compileAgainst root extension) fun tag s t hst => by
    rw [(hst fun _ => True).capturedRoot]

/-- The tag of a template has the usual name for its renderer. -/
theorem looksUp_compileTag (root : Option Text) (contents : Text) :
    LooksUp (fun s => compiledTag s.capturedRoot root contents)
      (compileTag root Fragment.defaultExtension contents) :=
  looksUp_compileContents root Fragment.defaultExtension contents

/-- What compiling what is between the ends of a tag gives, if it succeeds. -/
theorem part_of_compileInner {libraries : List Text} {tags after : TagTable} {line : Nat}
    {kind : Template.TagKind} {inner : Text} {node : Option Node} {s t : Site}
    (h : (compileInner libraries tags line kind inner).outcome s = (.ok (after, node), t)) :
    PartOf (fun name => tags.lookup name) s.capturedRoot (.tag kind inner) node ∧
      (Template.Piece.LoadsNothing (.tag kind inner) → after = tags) := by
  unfold compileInner at h
  cases kind with
  | comment =>
    cases h
    exact ⟨.comment inner, fun _ => rfl⟩
  | output =>
    dsimp only at h
    split at h
    · cases h
    · next hne =>
      obtain ⟨p, u, hp, h⟩ := outcome_bind_ok_iff.1 h
      cases h
      exact ⟨.output hne (outcome_ofExcept_ok_iff.1 hp).1, fun _ => rfl⟩
  | block =>
    dsimp only at h
    split at h
    · cases h
    · next command words hwords =>
      have hcommand : (Text.words (Text.trim inner)).head? = some command := by rw [hwords]; rfl
      split at h
      · next root hroot =>
        obtain ⟨f, u, hf, h⟩ := outcome_bind_ok_iff.1 h
        cases h
        have hresult := (looksUp_compileTag root (Text.trim inner) s).1
        rw [hf] at hresult
        exact ⟨.component hcommand hroot hresult.symm, fun _ => rfl⟩
      · next hnone =>
        split at h
        · next hload =>
          obtain ⟨loaded, u, hloaded, h⟩ := outcome_bind_ok_iff.1 h
          cases h
          rw [hload] at hcommand hnone
          exact ⟨.load hcommand hnone, fun hno => absurd hcommand hno⟩
        · cases h

/-- What the pieces of a template are compiled to, if all of them are. Without tags that load others
the tags are the same throughout. -/
theorem parts_of_compilePieces {libraries : List Text} {tags : TagTable} {line : Nat}
    {pieces : List Template.Piece} {nodes : List Node} {s t : Site}
    (h : (compilePieces libraries tags line pieces).outcome s = (.ok nodes, t)) :
    ∃ parts, nodes = parts.flatMap Option.toList ∧
      List.Forall₂ (fun piece part => ∃ own : TagTable,
        PartOf (fun name => own.lookup name) s.capturedRoot piece part ∧
          ((∀ p ∈ pieces, p.LoadsNothing) → own = tags)) pieces parts := by
  induction pieces generalizing tags line nodes s with
  | nil =>
    cases h
    exact ⟨[], rfl, .nil⟩
  | cons piece rest ih =>
    cases piece with
    | text text =>
      obtain ⟨more, u, hmore, h⟩ := outcome_bind_ok_iff.1 h
      cases h
      obtain ⟨parts, rfl, hparts⟩ := ih hmore
      refine ⟨some (.text text) :: parts, rfl, .cons ⟨tags, .text text, fun _ => rfl⟩ ?_⟩
      refine hparts.imp fun piece part => ?_
      rintro ⟨own, hown, hsame⟩
      exact ⟨own, hown, fun hall => hsame fun p hp => hall p (List.mem_cons_of_mem _ hp)⟩
    | tag kind inner =>
      obtain ⟨⟨after, node⟩, u, hinner, h⟩ := outcome_bind_ok_iff.1 h
      obtain ⟨more, v, hmore, h⟩ := outcome_bind_ok_iff.1 h
      cases h
      obtain ⟨hpart, hafter⟩ := part_of_compileInner hinner
      have hframe := keeps_compileInner libraries tags line kind inner s
      rw [hinner] at hframe
      obtain ⟨parts, rfl, hparts⟩ := ih hmore
      refine ⟨node :: parts, rfl, .cons ⟨tags, hpart, fun _ => rfl⟩ ?_⟩
      rw [hframe.capturedRoot] at hparts
      refine hparts.imp fun piece part => ?_
      rintro ⟨own, hown, hsame⟩
      refine ⟨own, hown, fun hall => ?_⟩
      have hrest := hsame fun p hp => hall p (List.mem_cons_of_mem _ hp)
      rw [hrest, hafter (hall _ List.mem_cons_self)]

/-- A template that was compiled is one of the engine, made of what its pieces are compiled to. -/
theorem parts_of_compileTemplate {engine : Nat} {source : Text} {u : Template} {s t : Site}
    (h : (compileTemplate engine source).outcome s = (.ok u, t)) :
    u.engine = engine ∧ ∀ e, s.engines[engine]? = some e →
      ∃ parts, u.nodes = parts.flatMap Option.toList ∧
        List.Forall₂ (fun piece part => ∃ own : TagTable,
          PartOf (fun name => own.lookup name) s.capturedRoot piece part ∧
            ((∀ p ∈ Template.settle none (Template.pieces source), p.LoadsNothing) →
              own = e.tags))
          (Template.settle none (Template.pieces source)) parts := by
  unfold compileTemplate at h
  obtain ⟨s', _, hget, h⟩ := outcome_bind_ok_iff.1 h
  cases hget
  cases he : s.engines[engine]? with
  | none =>
    rw [he] at h
    cases h
    exact ⟨rfl, fun e h => by cases h⟩
  | some e =>
    rw [he] at h
    obtain ⟨nodes, v, hnodes, h⟩ := outcome_bind_ok_iff.1 h
    cases h
    refine ⟨rfl, fun e' h => ?_⟩
    cases h
    exact parts_of_compilePieces hnodes

theorem usesDefault_of_parts {captured : Option Text → Except Failure Text}
    {pieces : List Template.Piece} {parts : List (Option Node)} {Q : TagTable → Prop}
    (h : List.Forall₂ (fun piece part => ∃ own : TagTable,
      PartOf (fun name => own.lookup name) captured piece part ∧ Q own) pieces parts) :
    Template.UsesDefault (parts.flatMap Option.toList) := by
  induction h with
  | nil => exact fun f hf => by cases hf
  | cons hfirst _ ih =>
    intro f hf
    rw [List.flatMap_cons, List.mem_append] at hf
    rcases hf with hf | hf
    · rw [Option.mem_toList] at hf
      obtain ⟨own, hpart, -⟩ := hfirst
      rw [hf] at hpart
      exact hpart.usesDefault
    · exact ih f hf

theorem usesDefault_of_compileTemplate {engine : Nat} {source : Text} {u : Template} {s t : Site}
    (h : (compileTemplate engine source).outcome s = (.ok u, t)) :
    Template.UsesDefault u.nodes := by
  obtain ⟨-, hparts⟩ := parts_of_compileTemplate h
  cases he : s.engines[engine]? with
  | none =>
    simp only [compileTemplate, outcome_bind, outcome_get, he, outcome_pure, Prod.mk.injEq,
      Except.ok.injEq] at h
    rw [← h.1]
    exact fun f hf => by cases hf
  | some e =>
    obtain ⟨parts, hnodes, hall⟩ := hparts e he
    rw [hnodes]
    exact usesDefault_of_parts hall

end Action

/-! ## Templates of a session -/

namespace Session

/-- The template that a step compiles under a name, if it does. -/
def compiled (id : Text) (s : Session) : Step → Option Template
  | .compile engine own source =>
    match s.engines.lookup engine with
    | some n =>
      if own = id then ((Action.compileTemplate n source).outcome s.site).1.toOption else none
    | none => none
  | _ => none

theorem compiled_eq_some {id : Text} {s : Session} {step : Step} {t : Template}
    (h : compiled id s step = some t) :
    ∃ engine source n site, step = .compile engine id source ∧ s.engines.lookup engine = some n ∧
      (Action.compileTemplate n source).outcome s.site = (.ok t, site) := by
  cases step with
  | compile engine own source =>
    rw [compiled] at h
    split at h
    · next n hn =>
      split at h
      · next hown =>
        subst hown
        rcases houtcome : (Action.compileTemplate n source).outcome s.site with ⟨e | u, site⟩
        · rw [houtcome] at h
          cases h
        · rw [houtcome] at h
          cases h
          exact ⟨engine, source, n, site, rfl, hn, houtcome⟩
      · cases h
    · cases h
  | _ => cases h

/-- A template is the one of the engine that the name stood for when it was compiled. -/
theorem engine_of_compiled {id engine source : Text} {s : Session} {t : Template}
    (h : compiled id s (.compile engine id source) = some t) :
    s.engines.lookup engine = some t.engine := by
  obtain ⟨_, _, n, _, hstep, hn, houtcome⟩ := compiled_eq_some h
  cases hstep
  rw [(Action.parts_of_compileTemplate houtcome).1]
  exact hn

theorem template_step (id : Text) (s : Session) (step : Step) :
    (s.step step).2.templates.lookup id =
      (compiled id s step).or (s.templates.lookup id) := by
  cases step with
  | engine _ _ => rfl
  | drop own =>
    rw [step_drop]
    cases s.engines.lookup own <;> rfl
  | useTag engine name extension root =>
    rcases step_useTag_cases s engine name extension root with
      ⟨-, e, hstep⟩ | ⟨n, u, log, -, -, -, hstep⟩
    · rw [hstep]
      rfl
    · rw [hstep]
      cases s.site.chosen extension <;> rfl
  | setExtension engine name extension =>
    rcases step_setExtension_cases s engine name extension with
      ⟨e, hstep, -⟩ | ⟨n, r, -, -, hstep⟩
    · rw [hstep]
      rfl
    · rw [hstep]
      rfl
  | compile engine own source =>
    rw [step_compile, compiled]
    cases s.engines.lookup engine with
    | none => rfl
    | some n =>
      dsimp only
      rcases (Action.compileTemplate n source).outcome s.site with ⟨e | t, site⟩
      · dsimp only
        split <;> rfl
      · by_cases hown : own = id
        · simp [hown, Except.toOption]
        · have hid : (id == own) = false := beq_false_of_ne (Ne.symm hown)
          simp [hown, List.lookup_cons, hid]
  | _ =>
    refine congrArg (List.lookup id) (step_quiet s ?_).templates
    trivial

/-- Under a name stands the template that was compiled last under it, whatever else was done. -/
theorem template_run (id : Text) (s : Session) (steps : List Step) :
    (s.run steps).2.templates.lookup id =
      (latest (compiled id) s steps).or (s.templates.lookup id) :=
  observed_run (P := fun _ => True) (f := fun s => s.templates.lookup id)
    (fun _ _ _ _ => trivial) (fun s step _ _ => template_step id s step) trivial

/-- All tags of all templates have the usual name for their renderer. -/
def UsesDefault (s : Session) : Prop :=
  ∀ id t, s.templates.lookup id = some t → Template.UsesDefault t.nodes

theorem usesDefault_step {s : Session} (h : s.UsesDefault) (step : Step) :
    (s.step step).2.UsesDefault := by
  intro id t ht
  rw [template_step] at ht
  cases hcompiled : compiled id s step with
  | none =>
    rw [hcompiled] at ht
    exact h id t ht
  | some u =>
    rw [hcompiled] at ht
    cases ht
    obtain ⟨_, _, n, site, -, -, houtcome⟩ := compiled_eq_some hcompiled
    exact Action.usesDefault_of_compileTemplate houtcome

end Session
end Hydration
