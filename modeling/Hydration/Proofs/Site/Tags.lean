import Hydration.Proofs.Fragment.Checks
import Hydration.Proofs.Markup.Element
import Hydration.Proofs.Site.Engines
import Hydration.Proofs.Site.Templates
import Hydration.Proofs.Text.Blank
import Mathlib
/-!
# The tags of engines over runs

A tag that was enabled on an engine can be used by the templates that are compiled on it afterwards.
Such a template captures the root of its components, the one that was given last for the tag or else
that of the configuration; whatever happens later, its components are looked up under this root.

* `tag?_run`: a tag of an engine has the root that it was enabled with last.
* `compileTemplate_ok_iff`: a template is compiled if each of its pieces can be.
* `shows_of_renderNodes`: what a page is made of.
* `tags_of_run`: which tags a template can use after any run, and the paths on its pages.
-/
namespace Hydration

/-- The root that a tag of an engine was given, if the engine has the tag. -/
def Site.tag? (s : Site) (n : Nat) (name : Text) : Option (Option Text) :=
  s.seen? (fun e => e.tags.lookup name) n

namespace Session

/-- The root that a step enables a tag with on an engine, if it does. -/
def enabled (n : Nat) (name : Text) (s : Session) : Step → Option (Option Text)
  | .useTag engine tag extension root =>
    if s.engineOf engine = some n ∧ Action.tagName tag = name ∧
        (s.site.chosen extension).toOption.isSome then some root
    else none
  | _ => none

/-- A tag is enabled by a step that succeeds and gives the name of the tag as its answer. -/
theorem enabled_eq_some_iff {n : Nat} {name : Text} {s : Session} {step : Step}
    {root : Option Text} :
    enabled n name s step = some root ↔
      ∃ engine tag extension, step = .useTag engine tag extension root ∧
        s.engineOf engine = some n ∧ (s.step step).1 = .ok (.names [name]) := by
  cases step with
  | useTag engine tag extension own =>
    rw [enabled, Option.ite_none_right_eq_some]
    rcases step_useTag_cases s engine tag extension own with
      ⟨hnone, e, hstep⟩ | ⟨m, u, log, hm, -, -, hstep⟩
    · simp [hnone, hstep]
    · cases hchosen : s.site.chosen extension with
      | error e => simp [hstep, hchosen, Except.toOption]
      | ok r =>
        rw [hstep, hchosen]
        simp only [Except.toOption, Option.isSome_some, and_true, Option.some.injEq,
          Step.useTag.injEq, Except.ok.injEq, Answer.names.injEq, List.cons.injEq]
        constructor
        · rintro ⟨⟨hn, hname⟩, rfl⟩
          exact ⟨engine, tag, extension, ⟨rfl, rfl, rfl, rfl⟩, hn, hname⟩
        · rintro ⟨_, _, _, ⟨rfl, rfl, rfl, rfl⟩, hn, hname⟩
          exact ⟨⟨hn, hname⟩, rfl⟩
  | _ => simp [enabled]

theorem lookup_tags_change (n : Nat) (name : Text) (s : Session) (step : Step) (e : Engine) :
    (change n s step e).tags.lookup name = (enabled n name s step).or (e.tags.lookup name) := by
  cases step with
  | setExtension engine own extension =>
    cases extension with
    | notCallable => rfl
    | renderer r =>
      rw [change]
      split <;> rfl
  | useTag engine tag extension root =>
    rw [change, enabled]
    cases s.site.chosen extension with
    | error e => simp [Except.toOption]
    | ok r =>
      by_cases hn : s.engineOf engine = some n
      · by_cases hname : Action.tagName tag = name
        · simp [hn, hname, Engine.withTag, Except.toOption]
        · have hne : (name == Action.tagName tag) = false := beq_false_of_ne (Ne.symm hname)
          simp [hn, hname, Engine.withTag, Engine.withExtension, List.lookup_cons, hne]
      · simp [hn]
  | _ => rfl

/-- A tag of an engine has the root that it was enabled with last. -/
theorem tag?_run {settings : Value} {libraries : List Library} {steps : List Step}
    (hfresh : ∀ step ∈ steps, step.IsFresh) (n : Nat) (name : Text) :
    ((start settings libraries).run steps).2.site.tag? n name =
      latest (enabled n name) (start settings libraries) steps := by
  refine seen_run (lookup_tags_change n name) (fun s step root h => ?_) (fun _ _ _ => rfl) hfresh
  obtain ⟨engine, _, _, -, hn, -⟩ := enabled_eq_some_iff.1 h
  exact ⟨engine, hn⟩

end Session

/-! ## Compiling templates -/

namespace Action
open Template (PartOf compiledTag)

variable {libraries : List Text} {tags : TagTable} {line : Nat} {s : Site}

theorem compileInner_of_part {kind : Template.TagKind} {inner : Text} {node : Option Node}
    (h : PartOf (fun name => tags.lookup name) s.capturedRoot (.tag kind inner) node)
    (hno : Template.Piece.LoadsNothing (.tag kind inner)) :
    ∃ t, (compileInner libraries tags line kind inner).outcome s = (.ok (tags, node), t) := by
  cases h with
  | comment => exact ⟨s, rfl⟩
  | output hne hp =>
    refine ⟨s, ?_⟩
    rw [compileInner]
    simp only [if_neg hne, hp, outcome_bind, outcome_ofExcept, outcome_pure]
  | component hcommand hroot hf =>
    have hresult := (looksUp_compileTag _ _ s).1.trans hf
    obtain ⟨words, hwords⟩ := List.head?_eq_some_iff.1 hcommand
    rw [compileInner]
    simp only [hwords, hroot, outcome_bind]
    rcases houtcome : (compileTag _ _ (Text.trim inner)).outcome s with ⟨e | f, t⟩
    · rw [houtcome] at hresult
      cases hresult
    · rw [houtcome] at hresult
      cases hresult
      exact ⟨t, rfl⟩
  | load hload => exact (hno hload).elim

/-- Pieces that can be compiled one by one can be compiled one after the other. -/
theorem compilePieces_of_parts {captured : Option Text → Except Failure Text}
    {pieces : List Template.Piece} {parts : List (Option Node)}
    (h : List.Forall₂ (PartOf (fun name => tags.lookup name) captured) pieces parts)
    (hno : ∀ piece ∈ pieces, piece.LoadsNothing) (hs : s.capturedRoot = captured) :
    ∃ t, (compilePieces libraries tags line pieces).outcome s =
      (.ok (parts.flatMap Option.toList), t) := by
  induction h generalizing line s with
  | nil => exact ⟨s, rfl⟩
  | @cons piece part pieces parts hpart hparts ih =>
    obtain ⟨hfirst, hrest⟩ := List.forall_mem_cons.1 hno
    cases piece with
    | text text =>
      cases hpart
      obtain ⟨t, ht⟩ := ih hrest hs
      exact ⟨t, outcome_bind_ok_iff.2 ⟨_, t, ht, rfl⟩⟩
    | tag kind inner =>
      rw [← hs] at hpart
      obtain ⟨t, ht⟩ := compileInner_of_part hpart hfirst
      have hframe := keeps_compileInner libraries tags line kind inner s
      rw [ht] at hframe
      obtain ⟨u, hu⟩ := ih hrest (hframe.capturedRoot.trans hs)
      exact ⟨u, outcome_bind_ok_iff.2 ⟨_, t, ht, outcome_bind_ok_iff.2 ⟨_, u, hu, rfl⟩⟩⟩

theorem compileTemplate_eq {engine : Nat} {source : Text} {e : Engine}
    (he : s.engines[engine]? = some e) :
    (compileTemplate engine source).outcome s =
      (compilePieces e.libraries e.tags 1 (Template.settle none (Template.pieces source)) >>=
        fun nodes => pure ⟨engine, nodes⟩).outcome s := by
  rw [compileTemplate, outcome_bind, outcome_get]
  dsimp only
  rw [he]

/-- A template that loads nothing and was compiled is made of what its pieces are compiled to with
the tags of the engine. -/
theorem parts_of_plain {engine : Nat} {source : Text} {e : Engine} {u : Template} {t : Site}
    (h : (compileTemplate engine source).outcome s = (.ok u, t))
    (he : s.engines[engine]? = some e)
    (hno : ∀ piece ∈ Template.settle none (Template.pieces source), piece.LoadsNothing) :
    ∃ parts, u.nodes = parts.flatMap Option.toList ∧
      List.Forall₂ (PartOf (fun name => e.tags.lookup name) s.capturedRoot)
        (Template.settle none (Template.pieces source)) parts := by
  obtain ⟨parts, hnodes, hparts⟩ := (parts_of_compileTemplate h).2 e he
  refine ⟨parts, hnodes, hparts.imp fun piece part => ?_⟩
  rintro ⟨own, hpart, hown⟩
  rwa [hown hno] at hpart

/-- A template that loads nothing is compiled if each of its pieces can be compiled with the tags of
the engine and the configuration at that time. -/
theorem compileTemplate_ok_iff {engine : Nat} {source : Text} {e : Engine}
    (he : s.engines[engine]? = some e)
    (hno : ∀ piece ∈ Template.settle none (Template.pieces source), piece.LoadsNothing) :
    (∃ u t, (compileTemplate engine source).outcome s = (.ok u, t)) ↔
      ∀ piece ∈ Template.settle none (Template.pieces source),
        ∃ part, PartOf (fun name => e.tags.lookup name) s.capturedRoot piece part := by
  constructor
  · rintro ⟨u, t, h⟩
    obtain ⟨parts, -, hparts⟩ := parts_of_plain h he hno
    have hboth := hparts.imp fun piece part hpart => And.intro (Exists.intro part hpart) hpart
    exact ((List.forall₂_and_left _ _).1 hboth).1
  · intro h
    choose! part hpart using h
    have hparts := List.forall₂_map_right_iff.2 (List.forall₂_same.2 hpart)
    rw [compileTemplate_eq he]
    obtain ⟨t, ht⟩ := compilePieces_of_parts hparts hno rfl
    exact ⟨_, t, outcome_bind_ok_iff.2 ⟨_, t, ht, rfl⟩⟩

/-- A template that is one block is the tag of its first word, if the engine has it. -/
theorem outcome_compileTemplate_block {engine : Nat} {source inner name : Text} {e : Engine}
    (he : s.engines[engine]? = some e)
    (hpieces : Template.settle none (Template.pieces source) = [.tag .block inner])
    (hname : (Text.words (Text.trim inner)).head? = some name) (hload : name ≠ "load".toList) :
    ((compileTemplate engine source).outcome s).1 =
      match e.tags.lookup name with
      | none => .error (.template (.unknownBlock 1 name))
      | some root =>
        (compiledTag s.capturedRoot root (Text.trim inner)).map fun f =>
          ⟨engine, [.component f]⟩ := by
  obtain ⟨words, hwords⟩ := List.head?_eq_some_iff.1 hname
  rw [compileTemplate_eq he, hpieces]
  cases hroot : e.tags.lookup name with
  | none =>
    simp only [compilePieces, compileInner, hwords, hroot, if_neg hload, outcome_bind,
      outcome_refuse]
  | some root =>
    have hresult : ((compileTag root Fragment.defaultExtension (Text.trim inner)).outcome s).1 =
        compiledTag s.capturedRoot root (Text.trim inner) :=
      (looksUp_compileTag root (Text.trim inner) s).1
    simp only [compilePieces, compileInner, hwords, hroot, outcome_bind]
    rcases houtcome : (compileTag root Fragment.defaultExtension (Text.trim inner)).outcome s with
      ⟨failure | f, t⟩
    · rw [houtcome] at hresult
      rw [← hresult]
      rfl
    · rw [houtcome] at hresult
      rw [← hresult]
      rfl

end Action

namespace Template

theorem splitEnd?_closing {inner : Text} (hline : '\n' ∉ inner)
    (hend : ¬ ['%', '\x7d'] <:+: inner) :
    splitEnd? '%' (inner ++ ['%', '\x7d']) = some (inner, []) := by
  induction inner with
  | nil => rfl
  | cons c rest ih =>
    have hlater := ih (fun h => hline (List.mem_cons_of_mem _ h)) fun h =>
      hend (List.infix_cons_iff.2 (.inr h))
    have hc : c ≠ '\n' := fun h => hline (h ▸ List.mem_cons_self)
    cases rest with
    | nil => simp [splitEnd?, hc]
    | cons d rest =>
      have hcd : ¬ (c = '%' ∧ d = '\x7d') := by
        rintro ⟨rfl, rfl⟩
        exact hend ⟨[], rest, rfl⟩
      rw [List.cons_append, List.cons_append, splitEnd?, if_neg hcd, if_neg hc,
        ← List.cons_append, hlater]
      rfl

section
variable {name arguments : Text} (hword : ∀ c ∈ name, Text.isBlank c = false)
include hword

theorem not_mem_block (hline : '\n' ∉ arguments) : '\n' ∉ ' ' :: (name ++ ' ' :: arguments) := by
  intro h
  rcases List.mem_cons.1 h with h | h
  · cases h
  rcases List.mem_append.1 h with h | h
  · cases hword _ h
  rcases List.mem_cons.1 h with h | h
  · cases h
  · exact hline h

/-- A block is a tag of its first word. -/
theorem head?_words_block (hne : name ≠ []) (arguments : Text) :
    (Text.words (Text.trim (' ' :: (name ++ ' ' :: arguments)))).head? = some name := by
  rw [Text.trim, Text.trimLeft_run hword hne, Text.trimRight_run hword]
  exact Text.words_run hword hne (Text.startsBlank_cons.2 (by decide)).trimRight

end

/-- A source that is one block is read as one. -/
theorem settle_pieces_block {inner : Text} (hline : '\n' ∉ inner)
    (hend : ¬ ['%', '\x7d'] <:+: inner) :
    settle none (pieces (Piece.tag .block inner).written) = [.tag .block inner] := by
  have hsource : (Piece.tag .block inner).written =
      '\x7b' :: '%' :: (inner ++ ['%', '\x7d']) := rfl
  have hsplit : splitTag? ('\x7b' :: '%' :: (inner ++ ['%', '\x7d'])) =
      some (.block, inner, []) := by
    rw [splitTag?, TagKind.ofMark?, if_pos rfl]
    simp [TagKind.closingMark, TagKind.mark, splitEnd?_closing hline hend]
  rw [hsource, pieces]
  split
  · next kind found after h =>
    rw [hsplit] at h
    cases h
    rw [pieces]
    rfl
  · next h =>
    rw [hsplit] at h
    cases h

/-! ## Pages -/

/-- The reference that a tag has in a context: what it says, or the value of its variable, which has
to be a text that is not empty. -/
inductive RefersTo (arguments : Tag.TagArguments) (c : Context) : Text → Prop
  | literal (h : arguments.isLiteral = true) : RefersTo arguments c arguments.reference
  | variable {pipe : Pipe} {safe : Bool} {reference : Text} {c' : Context}
    (h : arguments.isLiteral = false) (hpipe : Pipe.compile arguments.reference = .ok pipe)
    (hvalue : pipe.evaluate.run c = .ok (.text safe reference, c')) (hne : reference ≠ []) :
    RefersTo arguments c reference

theorem refersTo_of_resolvedPath {root path : Text} {arguments : Tag.TagArguments}
    {source : ComponentSource} {c c' : Context}
    (h : ComponentSource.ofArguments root arguments = .ok source)
    (hpath : source.resolvedPath.run c = .ok (path, c')) :
    ∃ reference, RefersTo arguments c reference ∧ path = Path.resolve root reference := by
  unfold ComponentSource.ofArguments at h
  split at h
  · next hliteral =>
    cases h
    cases hpath
    exact ⟨_, .literal hliteral, rfl⟩
  · next hvariable =>
    cases hpipe : Pipe.compile arguments.reference with
    | error e =>
      rw [hpipe] at h
      cases h
    | ok pipe =>
      rw [hpipe] at h
      cases h
      obtain ⟨v, d, hvalue, hpath⟩ := Evaluation.run_bind_ok_iff.1 hpath
      split at hpath
      · next safe x rest =>
        cases hpath
        exact ⟨x :: rest, .variable (Bool.eq_false_iff.2 hvariable) hpipe hvalue (by simp), rfl⟩
      · obtain ⟨shown, _, -, hthrow⟩ := Evaluation.run_bind_ok_iff.1 hpath
        cases hthrow

/-- The text of a page in a context, for the pieces of a template with some tags: text stays, an
expression is displayed, and a block is the element of a component, whose path is that of the
reference under the root that was captured. -/
inductive Shows (tags : Text → Option (Option Text))
    (captured : Option Text → Except Failure Text) : Context → List Piece → Text → Prop
  | nil (c : Context) : Shows tags captured c [] []
  | text {c : Context} {rest : List Piece} {more : Text} (t : Text)
    (hrest : Shows tags captured c rest more) :
    Shows tags captured c (.text t :: rest) (t ++ more)
  | comment {c : Context} {rest : List Piece} {more : Text} (inner : Text)
    (hrest : Shows tags captured c rest more) :
    Shows tags captured c (.tag .comment inner :: rest) more
  | output {c c' : Context} {inner t more : Text} {p : Pipe} {v : Value} {rest : List Piece}
    (hp : Pipe.compile (Text.trim inner) = .ok p) (hv : p.output.run c = .ok (v, c'))
    (ht : v.display = .ok t) (hrest : Shows tags captured c' rest more) :
    Shows tags captured c (.tag .output inner :: rest) (t ++ more)
  | component {c c' : Context} {inner command r reference json body more : Text}
    {root : Option Text} {tag : Tag.ParsedTag} {f : Fragment} {props container : Value}
    {k : Markup.Container} {rest : List Piece}
    (hcommand : (Text.words (Text.trim inner)).head? = some command)
    (hroot : tags command = some root) (htag : Tag.parse (Text.trim inner) = .ok tag)
    (hr : captured root = .ok r)
    (hf : Fragment.compile r Fragment.defaultExtension tag = .ok f)
    (hreference : RefersTo tag.arguments c reference)
    (hvalues : f.values.run c = .ok ((Path.resolve r reference, props, container), c'))
    (hcontainer : Markup.normalizeContainer container = .ok k)
    (hrest : Shows tags captured c' rest more) :
    Shows tags captured c (.tag .block inner :: rest)
      (Markup.writeFragment k (Path.resolve r reference) json body ++ more)

end Template

namespace Action
open Template (PartOf Shows compiledTag)

/-- The element of a tag stands in a container, with the path that its reference has. -/
theorem outcome_renderFragment_ok {engine : Option Nat} {c c' : Context} {f : Fragment}
    {text : Text} {s t : Site}
    (h : (renderFragment engine c f).outcome s = (.ok (text, c'), t)) :
    ∃ path props container c₁ k json body, f.component.resolvedPath.run c = .ok (path, c₁) ∧
      f.values.run c = .ok ((path, props, container), c') ∧
      Markup.normalizeContainer container = .ok k ∧
      text = Markup.writeFragment k path json body := by
  obtain ⟨⟨⟨path, props, container⟩, d⟩, u, hfound, h⟩ := outcome_bind_ok_iff.1 h
  obtain ⟨hvalues, -⟩ := outcome_ofExcept_ok_iff.1 hfound
  obtain ⟨r, v, -, h⟩ := outcome_bind_ok_iff.1 h
  obtain ⟨html, w, helement, h⟩ := outcome_bind_ok_iff.1 h
  cases h
  obtain ⟨_, k, _, json, body, -, hcontainer, -, -, -, htext⟩ :=
    outcome_renderElement_ok_iff.1 helement
  obtain ⟨path', c₁, hpath, hclauses⟩ := Evaluation.run_bind_ok_iff.1 hvalues
  obtain ⟨props', c₂, -, hclauses⟩ := Evaluation.run_bind_ok_iff.1 hclauses
  obtain ⟨container', c₃, -, hclauses⟩ := Evaluation.run_bind_ok_iff.1 hclauses
  cases hclauses
  exact ⟨path, props, container, c₁, k, json, body, hpath, hvalues, hcontainer, htext⟩

/-- A part of a template that was compiled shows what its piece says. -/
theorem shows_of_renderNodes {tags : Text → Option (Option Text)}
    {captured : Option Text → Except Failure Text} {pieces : List Template.Piece}
    {parts : List (Option Node)} (h : List.Forall₂ (PartOf tags captured) pieces parts)
    (hno : ∀ piece ∈ pieces, piece.LoadsNothing) {engine : Nat} {c : Context} {page : Text}
    {s t : Site}
    (hpage : (renderNodes engine c (parts.flatMap Option.toList)).outcome s = (.ok page, t)) :
    Shows tags captured c pieces page := by
  induction h generalizing c page s with
  | nil =>
    cases hpage
    exact .nil c
  | @cons piece part pieces parts hpart hparts ih =>
    obtain ⟨hfirst, hrest⟩ := List.forall_mem_cons.1 hno
    cases hpart with
    | text text =>
      obtain ⟨⟨shown, c'⟩, u, hnode, hpage⟩ := outcome_bind_ok_iff.1 hpage
      cases hnode
      obtain ⟨more, v, hmore, hpage⟩ := outcome_bind_ok_iff.1 hpage
      cases hpage
      exact .text text (ih hrest hmore)
    | comment inner => exact .comment inner (ih hrest hpage)
    | output hne hp =>
      obtain ⟨⟨shown, c'⟩, u, hnode, hpage⟩ := outcome_bind_ok_iff.1 hpage
      obtain ⟨more, v, hmore, hpage⟩ := outcome_bind_ok_iff.1 hpage
      cases hpage
      obtain ⟨⟨value, d⟩, w, hfound, hnode⟩ := outcome_bind_ok_iff.1 hnode
      obtain ⟨hvalue, -⟩ := outcome_ofExcept_ok_iff.1 hfound
      obtain ⟨text, x, hdisplay, hnode⟩ := outcome_bind_ok_iff.1 hnode
      obtain ⟨htext, -⟩ := outcome_ofExcept_ok_iff.1 hdisplay
      cases hnode
      exact .output hp hvalue htext (ih hrest hmore)
    | component hcommand hroot hf =>
      obtain ⟨⟨shown, c'⟩, u, hnode, hpage⟩ := outcome_bind_ok_iff.1 hpage
      obtain ⟨more, v, hmore, hpage⟩ := outcome_bind_ok_iff.1 hpage
      cases hpage
      obtain ⟨path, props, container, c₁, k, json, body, hpath, hvalues, hcontainer, rfl⟩ :=
        outcome_renderFragment_ok hnode
      obtain ⟨tag, root, htag, hcaptured, hcompile⟩ := Template.compiledTag_ok_iff.1 hf
      obtain ⟨reference, hreference, rfl⟩ := Template.refersTo_of_resolvedPath
        (Fragment.compile_ok_iff.1 hcompile).2.2.2.1 hpath
      exact .component hcommand hroot htag hcaptured hcompile hreference hvalues hcontainer
        (ih hrest hmore)
    | load hload => exact (hfirst hload).elim

end Action

/-! ## Runs -/

namespace Session
open Template (PartOf Shows compiledTag)

variable {s : Session} {engine id source : Text} {n : Nat}

theorem step_compile_answer (hn : s.engines.lookup engine = some n) :
    (s.step (.compile engine id source)).1 =
      ((Action.compileTemplate n source).outcome s.site).1.map fun _ => .done := by
  rw [step_compile, hn]
  dsimp only
  rcases (Action.compileTemplate n source).outcome s.site with ⟨e | t, site⟩ <;> rfl

theorem step_compile_done_iff (hn : s.engines.lookup engine = some n) :
    (s.step (.compile engine id source)).1 = .ok .done ↔
      ∃ u t, (Action.compileTemplate n source).outcome s.site = (.ok u, t) := by
  rw [step_compile_answer hn]
  rcases (Action.compileTemplate n source).outcome s.site with ⟨e | u, t⟩
  · simp [Except.map]
  · simp [Except.map]

theorem outcome_of_step_render {u : Template} {values : List (Text × Value)} {page : Text}
    (hu : s.templates.lookup id = some u)
    (h : (s.step (.render id values)).1 = .ok (.text page)) :
    ∃ site, (Action.render u values).outcome s.site = (.ok page, site) := by
  rw [step_render, hu] at h
  dsimp only at h
  rcases houtcome : (Action.render u values).outcome s.site with ⟨e | t, site⟩
  · rw [houtcome] at h
    cases h
  · rw [houtcome] at h
    cases h
    exact ⟨site, rfl⟩

/-- A template that was compiled stays, until another one is compiled under its name. -/
theorem template_after_compile (hn : s.engines.lookup engine = some n) {u : Template} {t : Site}
    (h : (Action.compileTemplate n source).outcome s.site = (.ok u, t)) {later : List Step}
    (hlater : ∀ step ∈ later, ∀ other source, step ≠ .compile other id source) :
    (((s.step (.compile engine id source)).2.run later).2).templates.lookup id = some u := by
  have hnone : ∀ s, ∀ step ∈ later, compiled id s step = none := by
    intro s step hstep
    refine Option.eq_none_iff_forall_ne_some.2 fun u hu => ?_
    obtain ⟨other, source, _, _, heq, -⟩ := compiled_eq_some hu
    exact hlater step hstep other source heq
  rw [template_run, latest_eq_none hnone, template_step, compiled, hn]
  simp [h, Except.toOption]

/-- An engine that has a name after a run has the tags that were enabled on it. -/
theorem engine_of_run {settings : Value} {libraries : List Library} {steps : List Step}
    (hfresh : ∀ step ∈ steps, step.IsFresh)
    (hn : ((start settings libraries).run steps).2.engines.lookup engine = some n) :
    ∃ e, ((start settings libraries).run steps).2.site.engines[n]? = some e ∧
      (fun name => e.tags.lookup name) =
        fun name => latest (enabled n name) (start settings libraries) steps := by
  have hnamed : NamesEngines ((start settings libraries).run steps).2 :=
    invariant_run (P := NamesEngines) (fun _ step _ h => namesEngines_step h step)
      namesEngines_start
  have hengine : ((start settings libraries).run steps).2.engineOf (.named engine) = some n := hn
  have he := List.getElem?_eq_getElem (hnamed.engineOf hengine)
  refine ⟨_, he, funext fun name => ?_⟩
  have htag := congrArg (fun found => found.bind fun e => e.tags.lookup name) he
  exact htag.symm.trans (tag?_run hfresh n name)

/-- **Tags over whole runs.** Let `tags` give for each name the root of the latest step that enabled
a tag of that name on the engine, if there was one. A template that is a single block can use the
tag of its first word exactly if the word is among the tags; then it is compiled against the root of
the tag or, without one, against that of the configuration at that time. Any template that loads
nothing is compiled exactly if each of its pieces can be compiled with these tags. Whatever follows,
its pages have the element of each component under the path of its reference, which is literal or
the value of a variable on that page, below the root that was captured. -/
theorem tags_of_run (settings : Value) (libraries : List Library) {before : List Step}
    (hfresh : ∀ step ∈ before, step.IsFresh) {engine : Text} {n : Nat}
    (hn : ((start settings libraries).run before).2.engines.lookup engine = some n) (id : Text) :
    let first := start settings libraries
    let s := (first.run before).2
    let tags := fun name => latest (enabled n name) first before
    (∀ name arguments : Text, name ≠ [] → (∀ c ∈ name, Text.isBlank c = false) →
      name ≠ "load".toList → '\n' ∉ arguments →
      ¬ ['%', '\x7d'] <:+: ' ' :: (name ++ ' ' :: arguments) →
      (s.step (.compile engine id
        (Template.Piece.written (.tag .block (' ' :: (name ++ ' ' :: arguments)))))).1 =
        match tags name with
        | none => .error (.template (.unknownBlock 1 name))
        | some root => (compiledTag s.site.capturedRoot root
            (Text.trim (' ' :: (name ++ ' ' :: arguments)))).map fun _ => .done) ∧
    ∀ source, (∀ piece ∈ Template.settle none (Template.pieces source), piece.LoadsNothing) →
      ((s.step (.compile engine id source)).1 = .ok .done ↔
        ∀ piece ∈ Template.settle none (Template.pieces source),
          ∃ part, PartOf tags s.site.capturedRoot piece part) ∧
      ((s.step (.compile engine id source)).1 = .ok .done →
        ∀ later, (∀ step ∈ later, ∀ other source, step ≠ .compile other id source) →
          let last := ((s.step (.compile engine id source)).2.run later).2
          ∀ values page, (last.step (.render id values)).1 = .ok (.text page) →
            Shows tags s.site.capturedRoot ⟨values, some (last.site.invalidOf n)⟩
              (Template.settle none (Template.pieces source)) page) := by
  intro first s tags
  obtain ⟨e, he, htags⟩ : ∃ e, s.site.engines[n]? = some e ∧
      (fun name => e.tags.lookup name) = tags := engine_of_run hfresh hn
  refine ⟨?block, fun source hno => ⟨?compiled, ?pages⟩⟩
  case block =>
    intro name arguments hne hword hload hline hend
    have hpieces := Template.settle_pieces_block (Template.not_mem_block hword hline) hend
    have hfirst := Template.head?_words_block hword hne arguments
    rw [step_compile_answer hn, Action.outcome_compileTemplate_block he hpieces hfirst hload,
      ← htags]
    dsimp only
    cases e.tags.lookup name with
    | none => rfl
    | some root =>
      dsimp only
      cases compiledTag s.site.capturedRoot root _ <;> rfl
  case compiled => rw [step_compile_done_iff hn, Action.compileTemplate_ok_iff he hno, htags]
  case pages =>
    intro hdone later hlater last values page hpage
    obtain ⟨u, t, hu⟩ := (step_compile_done_iff hn).1 hdone
    have hstored : last.templates.lookup id = some u := template_after_compile hn hu hlater
    obtain ⟨parts, hnodes, hparts⟩ := Action.parts_of_plain hu he hno
    rw [htags] at hparts
    obtain ⟨site, hrender⟩ := outcome_of_step_render hstored hpage
    obtain ⟨invalid, t', hinvalid, hrender⟩ := Action.outcome_bind_ok_iff.1 hrender
    cases hinvalid
    rw [hnodes] at hrender
    have hshows := Action.shows_of_renderNodes hparts hno hrender
    rwa [(Action.parts_of_compileTemplate hu).1] at hshows

/-- An engine with a tag that is enabled twice, the second time with another root. -/
def enabledTwice : List Step :=
  [.engine "e" (Engine.make false true []),
    .useTag (.named "e") "box" (some (.renderer (signing "one"))) (some "/a"),
    .useTag (.named "e") "box" (some (.renderer (signing "one"))) (some "/b")]

/-- A template can use this tag, and no other. -/
theorem tags_of_run_twice :
    (∀ step ∈ enabledTwice, step.IsFresh) ∧
    ((start .none []).run enabledTwice).2.engines.lookup "e".toList = some 0 ∧
    (((start .none []).run enabledTwice).2.step (.compile "e" "t" "\x7b% box 'X'%\x7d")).1 =
      .ok .done ∧
    (((start .none []).run enabledTwice).2.step (.compile "e" "t" "\x7b% other 'X'%\x7d")).1 =
      .error (.template (.unknownBlock 1 "other")) := by
  have hfresh : ∀ step ∈ enabledTwice, step.IsFresh := by
    simp [enabledTwice, Step.IsFresh]
  have hengine : ((start .none []).run enabledTwice).2.engines.lookup "e".toList = some 0 := rfl
  obtain ⟨hblock, -⟩ := tags_of_run .none [] hfresh hengine "t"
  have hword : ∀ t : Text, (t.all fun c => !Text.isBlank c) = true →
      ∀ c ∈ t, Text.isBlank c = false := fun t ht c hc => by
    simpa using List.all_eq_true.1 ht c hc
  have hbox := hword "box" (by decide)
  have hother := hword "other" (by decide)
  refine ⟨hfresh, hengine, ?_, ?_⟩
  · refine (hblock "box" "'X'" (by decide) hbox (by decide) (by decide) (by decide)).trans ?_
    have hcompiled : ∀ captured, captured (some "/b".toList) = .ok "/b".toList →
        compiledTag captured (some "/b".toList) "box 'X'" =
          .ok ⟨"box", .path "/b" "/b/X", none, none, Fragment.defaultExtension⟩ := by
      intro captured hroot
      exact Template.compiledTag_ok_iff.2
        ⟨⟨"box", ⟨"X", none, none, true⟩, []⟩, "/b", by cbv, hroot, by cbv⟩
    exact congrArg (Except.map fun _ => Answer.done) (hcompiled _ rfl)
  · refine (hblock "other" "'X'" (by decide) hother (by decide) (by decide) (by decide)).trans ?_
    rfl

end Session
end Hydration
