import Hydration.Proofs.Fragment.Checks
import Hydration.Proofs.Fragment.Compiled
import Hydration.Proofs.Fragment.Faults
import Mathlib
/-!
# Tags whose clauses are known

The props and the container of a tag without variables in its clauses are known when the tag is
compiled. If they are checked then, nothing is left to check when the tag is rendered: it can only
fail for its reference, for its renderer, or because what the renderer gives cannot be written. The
one thing that is not checked then is a tag name in brackets, which is never accepted.

* `renderFragment_of_checked`: rendering without the checks of props and container.
* `clauseFault_of_renderChecked`: what faults in clauses can still come from.
* `literal_clauses_checked`: the checks before rendering are complete but for tag names in brackets.
-/
namespace Hydration

namespace Action

/-! ## Rendering without checks -/

/-- The element of a component whose props and container are accepted. -/
def writeElement (r : Renderer) (container : Markup.Container) (path : Text) (entries : Props) :
    Action Text := do
  let rendered ← runRenderer r path entries
  let json ← ofExcept (Markup.serializeProps (.dict rendered.props))
  let body ← ofExcept rendered.body.toText
  pure (Markup.writeFragment container path json body)

theorem renderElement_of_checked {props container : Value} {entries : Props} {c : Markup.Container}
    (hprops : Markup.normalizeProps props = .ok entries)
    (hcontainer : Markup.normalizeContainer container = .ok c) (r : Renderer) (path : Text) :
    renderElement r container path props = writeElement r c path entries := by
  rw [renderElement, hprops, hcontainer]
  rfl

/-- The element of a tag whose props and container are accepted, and the context after it. -/
def renderChecked (engine : Option Nat) (c : Context) (f : Fragment) (entries : Props)
    (container : Markup.Container) : Action (Text × Context) := do
  let (path, c) ← ofExcept (f.component.resolvedPath.run c)
  let r ← getExtension (engine.map .engine) f.extension
  let t ← writeElement r container path entries
  pure (t, c)

/-- Clauses that have the same value in every context, and one that is accepted, are not checked
again. -/
theorem renderFragment_of_checked {f : Fragment} {props container : Value} {entries : Props}
    {k : Markup.Container} (hprops : Fragment.clauseValue f.props = pure props)
    (hcontainer : Fragment.clauseValue f.container = pure container)
    (hentries : Markup.normalizeProps props = .ok entries)
    (hk : Markup.normalizeContainer container = .ok k) (engine : Option Nat) (c : Context) :
    renderFragment engine c f = renderChecked engine c f entries k := by
  have hvalues : f.values =
      (fun path => (path, props, container)) <$> f.component.resolvedPath := by
    rw [Fragment.values, hprops, hcontainer]
    simp only [bind_pure_comp, map_pure]
  have hrun : f.values.run c = (f.component.resolvedPath.run c).map
      fun x => ((x.1, props, container), x.2) := by
    rw [hvalues, StateT.run_map]
    cases f.component.resolvedPath.run c <;> rfl
  rw [renderFragment, renderChecked, hrun]
  cases f.component.resolvedPath.run c with
  | error e => rfl
  | ok x =>
    simp only [Except.map]
    show (getExtension _ _ >>= _) = (getExtension _ _ >>= _)
    congr 1
    funext r
    rw [renderElement_of_checked hentries hk]

/-- A fault in a clause comes from the reference or from the renderer. -/
theorem clauseFault_of_renderChecked {engine : Option Nat} {c : Context} {f : Fragment}
    {entries : Props} {k : Markup.Container} {s t : Site} {failure : Failure}
    (h : (renderChecked engine c f entries k).outcome s = (.error failure, t))
    (hfault : failure.IsClauseFault) :
    f.component.resolvedPath.run c = .error failure ∨
      ∃ r path u, (runRenderer r path entries).outcome u = (.error failure, t) := by
  rcases outcome_bind_error_iff.1 h with hpath | ⟨⟨path, c'⟩, u, -, h⟩
  · exact .inl (congrArg (·.1) hpath)
  rcases outcome_bind_error_iff.1 h with hrenderer | ⟨r, u, -, h⟩
  · exact absurd hfault (getExtension_error hrenderer)
  rcases outcome_bind_error_iff.1 h with h | ⟨_, _, -, h⟩
  · rcases outcome_bind_error_iff.1 h with hrun | ⟨rendered, u, -, h⟩
    · exact .inr ⟨r, path, _, hrun⟩
    rcases outcome_bind_error_iff.1 h with hjson | ⟨_, _, -, h⟩
    · exact absurd hfault (Markup.serializeProps_error (congrArg (·.1) hjson))
    rcases outcome_bind_error_iff.1 h with hbody | ⟨_, _, -, h⟩
    · rw [Value.toText_error (congrArg (·.1) hbody)] at hfault
      exact absurd hfault Failure.not_isClauseFault_noText
    · cases h
  · cases h

end Action

/-! ## Compiled tags -/

namespace Fragment
open Markup

/-- The value of a clause without variables; a clause that is left out is nothing. -/
def clauseLiteral? : Option Expression → Option Value
  | none => some .none
  | some e => e.literal?

theorem clauseValue_of_literal {clause : Option Expression} {v : Value}
    (h : clauseLiteral? clause = some v) : clauseValue clause = pure v := by
  cases clause with
  | none =>
    cases h
    rfl
  | some e => exact e.evaluate_of_literal? h

/-- A clause without variables is refused before rendering exactly if its value would be refused
later, but for a tag name in brackets. -/
theorem compileClause_iff_normalize {text : Text} {e : Expression} {v : Value}
    (hcompile : Expression.compile (some Pipe.compile) text = .ok e) (hv : e.literal? = some v) :
    (compileClause checkProps (some text) = .ok (some e) ↔
        ∃ entries, normalizeProps v = .ok entries) ∧
      (compileClause checkContainer (some text) = .ok (some e) ∧ ¬ e.HasBracketedTag ↔
        ∃ c, normalizeContainer v = .ok c) := by
  have hs := Expression.compile_ofScalars hcompile
  have hmay := Expression.mayBe_of_literal? hv
  have hclause : ∀ check : Expression → Except Failure Unit,
      compileClause check (some text) = .ok (some e) ↔ check e = .ok () := by
    intro check
    rw [compileClause_ok_iff]
    constructor
    · rintro (⟨h, -⟩ | ⟨_, _, ht, he, -, hcheck⟩)
      · cases h
      · cases he
        exact hcheck
    · exact fun hcheck => .inr ⟨text, e, rfl, rfl, hcompile, hcheck⟩
  rw [hclause, hclause]
  refine ⟨⟨normalizeProps_of_checkProps hv, ?_⟩, ⟨?_, ?_⟩⟩
  · rintro ⟨entries, h⟩
    exact checkProps_of_normalizeProps hs hmay h
  · rintro ⟨hcheck, htag⟩
    exact normalizeContainer_of_checkContainer hs hv hcheck htag
  · rintro ⟨c, h⟩
    exact checkContainer_of_normalizeContainer hs hmay h

/-- Clauses of a compiled tag that have no variables are accepted, unless the tag name of the
container is in brackets. -/
theorem normalize_of_compile {root extension : Text} {tag : Tag.ParsedTag} {f : Fragment}
    (h : Fragment.compile root extension tag = .ok f) {props container : Value}
    (hprops : clauseLiteral? f.props = some props)
    (hcontainer : clauseLiteral? f.container = some container)
    (htag : ∀ e, f.container = some e → ¬ e.HasBracketedTag) :
    (∃ entries, normalizeProps props = .ok entries) ∧
      ∃ c, normalizeContainer container = .ok c := by
  obtain ⟨-, -, -, -, hp, hc⟩ := compile_ok_iff.1 h
  constructor
  · rcases compileClause_ok_iff.1 hp with ⟨-, hnone⟩ | ⟨t, e, ht, he, hcompile, -⟩
    · rw [hnone] at hprops
      cases hprops
      exact ⟨_, rfl⟩
    · rw [he] at hprops
      rw [ht, he] at hp
      exact (compileClause_iff_normalize hcompile hprops).1.1 hp
  · rcases compileClause_ok_iff.1 hc with ⟨-, hnone⟩ | ⟨t, e, ht, he, hcompile, -⟩
    · rw [hnone] at hcontainer
      cases hcontainer
      exact ⟨_, rfl⟩
    · rw [he] at hcontainer
      rw [ht, he] at hc
      exact (compileClause_iff_normalize hcompile hcontainer).2.1 ⟨hc, htag e he⟩

/-- **Clauses without variables are checked before rendering, but for tag names in brackets.** Such
a clause passes as props exactly if its value is accepted as props, and it passes as a container,
and has no tag name in brackets, exactly if its value is accepted as a container. So a compiled tag
with only such clauses is rendered as if nothing had to be checked any more, and a fault in a clause
can only come from its reference or from its renderer. -/
theorem literal_clauses_checked (root extension : Text) :
    (∀ (text : Text) (e : Expression) (v : Value),
      Expression.compile (some Pipe.compile) text = .ok e → e.literal? = some v →
      (∀ c, e.evaluate.run c = .ok (v, c)) ∧
      (compileClause checkProps (some text) = .ok (some e) ↔
        ∃ entries, normalizeProps v = .ok entries) ∧
      (compileClause checkContainer (some text) = .ok (some e) ∧ ¬ e.HasBracketedTag ↔
        ∃ c, normalizeContainer v = .ok c)) ∧
    (∀ (tag : Tag.ParsedTag) (f : Fragment) (props container : Value),
      Fragment.compile root extension tag = .ok f →
      clauseLiteral? f.props = some props → clauseLiteral? f.container = some container →
      (∀ e, f.container = some e → ¬ e.HasBracketedTag) →
      ∃ entries k, normalizeProps props = .ok entries ∧ normalizeContainer container = .ok k ∧
        ∀ (engine : Option Nat) (c : Context),
          Action.renderFragment engine c f = Action.renderChecked engine c f entries k ∧
          ∀ (s t : Site) (failure : Failure),
            (Action.renderFragment engine c f).outcome s = (.error failure, t) →
            failure.IsClauseFault →
            f.component.resolvedPath.run c = .error failure ∨
              ∃ r path u, (Action.runRenderer r path entries).outcome u = (.error failure, t)) := by
  constructor
  · intro text e v hcompile hv
    refine ⟨fun c => ?_, compileClause_iff_normalize hcompile hv⟩
    rw [e.evaluate_of_literal? hv]
    rfl
  · intro tag f props container h hprops hcontainer htag
    obtain ⟨⟨entries, hentries⟩, k, hk⟩ := normalize_of_compile h hprops hcontainer htag
    refine ⟨entries, k, hentries, hk, fun engine c => ?_⟩
    have hrender := Action.renderFragment_of_checked (clauseValue_of_literal hprops)
      (clauseValue_of_literal hcontainer) hentries hk engine c
    refine ⟨hrender, fun s t failure hfailed hfault => ?_⟩
    rw [hrender] at hfailed
    exact Action.clauseFault_of_renderChecked hfailed hfault

/-- A tag with props in brackets and a tag name for its container. -/
def nestedProps : Tag.ParsedTag :=
  ⟨"react", ⟨"X", some "\x7ba: [1, null]\x7d", some "'span'", true⟩, []⟩

/-- It is rendered without further checks. -/
theorem literal_clauses_checked_nested :
    ∃ f entries k, Fragment.compile "/ui" defaultExtension nestedProps = .ok f ∧
      normalizeProps (.dict [(.str "a", .list [.int 1, .none])]) = .ok entries ∧
      normalizeContainer (.str "span") = .ok k ∧
      ∀ (engine : Option Nat) (c : Context),
        Action.renderFragment engine c f = Action.renderChecked engine c f entries k := by
  have h : Fragment.compile "/ui" defaultExtension nestedProps = .ok
      ⟨"react", .path "/ui" "/ui/X",
        some (.object [("a", .array [.constant (.int 1), .constant .none])]),
        some (.constant (.str "span")), defaultExtension⟩ := by
    cbv
  obtain ⟨entries, k, hentries, hk, hrender⟩ :=
    (literal_clauses_checked "/ui" defaultExtension).2 _ _ _ _ h rfl rfl fun e he htag => by
      cases he
      obtain ⟨_, _, hobject, -⟩ := htag
      cases hobject
  exact ⟨_, entries, k, h, hentries, hk, fun engine c => (hrender engine c).1⟩

/-- A tag name in brackets passes as part of a container, and its value is refused. -/
theorem bracketed_tag_not_checked :
    ∃ e, Expression.compile (some Pipe.compile) "\x7btag: ['div']\x7d" = .ok e ∧
      e.literal? = some (.dict [(.str "tag", .list [.str "div"])]) ∧
      compileClause checkContainer (some "\x7btag: ['div']\x7d") = .ok (some e) ∧
      normalizeContainer (.dict [(.str "tag", .list [.str "div"])]) =
        .error (.container (.tagName "['div']")) := by
  have h : Expression.compile (some Pipe.compile) "\x7btag: ['div']\x7d" =
      .ok (.object [("tag", .array [.constant (.str "div")])]) := by
    cbv
  have hcheck : checkContainer (.object [("tag", .array [.constant (.str "div")])]) = .ok () := rfl
  refine ⟨_, h, rfl, compileClause_ok_iff.2 (.inr ⟨_, _, rfl, rfl, h, hcheck⟩), ?_⟩
  cbv

end Fragment
end Hydration
