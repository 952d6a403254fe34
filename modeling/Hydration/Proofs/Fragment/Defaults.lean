import Hydration.Proofs.Fragment.Checks
import Hydration.Proofs.Fragment.Compiled
import Hydration.Proofs.Fragment.Contexts
import Hydration.Proofs.Fragment.Evaluated
import Hydration.Proofs.Literal.Inlining
import Hydration.Proofs.Tag.Segments
/-!
# Clauses that stand for the defaults

A tag without clauses has no props, and its element is a `div` without attributes. Clauses can say
the same, as literals or by variables that are missing or have such values. They pass the checks
before rendering, and come to the defaults if they still stand for them when their turn comes.

* `Tag.parseTokens_someClauses`: what is read from a reference and some clauses.
* `Tag.Clauses.StandFor.compile`, `Tag.Clauses.StandFor.isDefault`: what such clauses are compiled
  to, and what they come to.
* `Tag.Clauses.AreDefaultIn.areDefault`: after a string or a variable, the variables have the values
  that they have on the page.
-/
namespace Hydration

/-! ## Expressions and their values -/

namespace Expression

/-- The expression stands for a value of a kind: it is a literal of one, or a filter expression that
meets a condition. -/
inductive StandsFor (kind : Value → Prop) (takes : Pipe → Prop) : Expression → Prop
  | literal {e : Expression} {v : Value} (he : e.literal? = some v) (hv : kind v) :
    StandsFor kind takes e
  | variable (source : Text) {pipe : Pipe} (h : takes pipe) :
    StandsFor kind takes (.variable source pipe)

theorem StandsFor.imp {kind : Value → Prop} {takes takes' : Pipe → Prop} {e : Expression}
    (h : e.StandsFor kind takes) (himp : ∀ pipe, takes pipe → takes' pipe) :
    e.StandsFor kind takes' := by
  cases h with
  | literal he hv => exact .literal he hv
  | «variable» source h => exact .variable source (himp _ h)

end Expression

/-- The filter expression comes to a value of a kind in a context. -/
def Pipe.ComesTo (pipe : Pipe) (kind : Value → Prop) (c : Context) : Prop :=
  ∃ v d, pipe.evaluate.run c = .ok (v, d) ∧ kind v

/-- The filter expression is a variable that is missing, or has a value of a kind. -/
def Pipe.IsUnset (pipe : Pipe) (kind : Value → Prop) (c : Context) : Prop :=
  ∃ x, pipe = .plain x ∧ ∀ v, c.get? x = some v → kind v

/-- A variable that is missing comes to nothing, and one that is no function to its value. -/
theorem Pipe.IsUnset.comesTo {pipe : Pipe} {kind : Value → Prop} {c : Context}
    (h : pipe.IsUnset kind c) (hnone : kind .none) (hcall : ∀ v, ¬ kind (.call v)) :
    pipe.ComesTo kind c := by
  obtain ⟨x, rfl, hx⟩ := h
  cases hv : c.get? x with
  | none => exact ⟨.none, c, run_plain_of_none hv, hnone⟩
  | some v =>
    have hwhole : (Place.whole v).called = .whole v :=
      Place.called_whole fun w hw => hcall w (hw ▸ hx v hv)
    refine ⟨v, c, ?_, hx v hv⟩
    rw [run_plain hv, hwhole]
    rfl

namespace Fragment
open Markup (PropsFrom IsPlain)

/-- The clause has a value of a kind in a context, with this context after it. -/
def ClauseIs (clause : Option Expression) (kind : Value → Prop) (c d : Context) : Prop :=
  ∃ v, (clauseValue clause).run c = .ok (v, d) ∧ kind v

theorem exists_clauseIs {clause : Option Expression} {kind : Value → Prop} {takes : Pipe → Prop}
    {c : Context} (hclause : ∀ e ∈ clause, e.StandsFor kind takes) (hnone : kind .none)
    (htakes : ∀ pipe, takes pipe → pipe.ComesTo kind c) : ∃ d, ClauseIs clause kind c d := by
  cases clause with
  | none => exact ⟨c, .none, rfl, hnone⟩
  | some e =>
    cases hclause e rfl with
    | @literal _ v he hv =>
      refine ⟨c, v, ?_, hv⟩
      rw [clauseValue, e.evaluate_of_literal? he]
      rfl
    | «variable» source h =>
      obtain ⟨v, d, hrun, hv⟩ := htakes _ h
      exact ⟨d, v, hrun, hv⟩

/-- After its reference, the clauses of the tag come to no props and a plain container. -/
def IsDefault (f : Fragment) (c : Context) : Prop :=
  ∀ path d, f.component.LeadsTo c path d →
    ∃ d₁ d₂, ClauseIs f.props (PropsFrom · []) d d₁ ∧ ClauseIs f.container IsPlain d₁ d₂

end Fragment

/-! ## Tags with some clauses -/

namespace Tag
open Markup (PropsFrom IsPlain)

/-- The clauses of a tag, each left out or with the tokens of its expression. -/
structure Clauses where
  props : Option (List Token)
  container : Option (List Token)

/-- The component that a token refers to, under a root. -/
def Token.source (reference : Token) (root : Text) : Except Failure ComponentSource :=
  ComponentSource.ofArguments root
    ⟨reference.referenceText, none, none, decide (reference.kind = .string)⟩

namespace Clauses

/-- The clauses as segments of a tag. -/
def segments (k : Clauses) : List Segment :=
  (k.props.map (.clause .props)).toList ++ (k.container.map (.clause .container)).toList

/-- The tokens of the clauses. -/
def tokens (k : Clauses) : List Token := k.segments.flatMap Segment.tokens

/-- Each clause has one expression, and the tag does not end in it. -/
structure Valid (k : Clauses) : Prop where
  segments : ∀ s ∈ k.segments, s.Valid
  kinds : ∀ t ∈ k.tokens, t.kind ≠ .stop

/-- The tag with a reference and these clauses. -/
def parsed (k : Clauses) (name : Text) (reference : Token) : ParsedTag :=
  ⟨name, ⟨reference.referenceText, k.props.map joined, k.container.map joined,
    decide (reference.kind = .string)⟩, []⟩

end Clauses

/-- A reference and some clauses are read as they are written. -/
theorem parseTokens_someClauses {k : Clauses} (hk : k.Valid) {reference : Token}
    (h : IsReference reference) {ending : List Token} (hend : beforeStop ending = [])
    (name : Text) :
    parseTokens name (reference :: (k.tokens ++ ending)) = .ok (k.parsed name reference) := by
  have hkeywords : (k.segments.filterMap Segment.keyword?).Nodup := by
    obtain ⟨props, container⟩ := k
    cases props <;> cases container <;> simp [Clauses.segments, Segment.keyword?]
  rw [Clauses.tokens,
    parseTokens_of_reads (reads_segments h hk.segments hkeywords hk.kinds hend) name]
  obtain ⟨props, container⟩ := k
  cases props <;> cases container <;> rfl

/-- What a clause is compiled to, if it is not left out. -/
inductive ReadAs : Option (List Token) → Option Expression → Prop
  | omitted : ReadAs none none
  | read {run : List Token} {e : Expression}
    (h : Expression.compile (some Pipe.compile) (joined run) = .ok e) : ReadAs (some run) (some e)

/-- The clauses are left out or stand for the defaults: they are literals, or filter expressions
that meet a condition. -/
structure Clauses.StandFor (k : Clauses) (props container : Option Expression)
    (asProps asContainer : Pipe → Prop) : Prop where
  readProps : ReadAs k.props props
  readContainer : ReadAs k.container container
  props : ∀ e ∈ props, e.StandsFor (PropsFrom · []) asProps
  container : ∀ e ∈ container, e.StandsFor IsPlain asContainer

/-- The contexts after the evaluation of a reference. -/
def AfterReference (reference : Token) (c d : Context) : Prop :=
  ∃ root source path, reference.source root = .ok source ∧ source.LeadsTo c path d

/-- After the reference, the filter expression comes to no props. -/
def ComesToNoProps (reference : Token) (c : Context) (pipe : Pipe) : Prop :=
  ∀ d, AfterReference reference c d → pipe.ComesTo (PropsFrom · []) d

/-- After the reference and these props, the filter expression comes to a plain container. -/
def ComesToPlain (reference : Token) (props : Option Expression) (c : Context) (pipe : Pipe) :
    Prop :=
  ∀ d v d', AfterReference reference c d → (Fragment.clauseValue props).run d = .ok (v, d') →
    pipe.ComesTo IsPlain d'

namespace Clauses

/-- The clauses are left out or stand for the defaults when their turn comes. -/
def AreDefault (k : Clauses) (reference : Token) (c : Context) : Prop :=
  ∃ props container, k.StandFor props container (ComesToNoProps reference c)
    (ComesToPlain reference props c)

/-- The clauses are left out, literals that stand for the defaults, or variables that are missing or
have such values. -/
def AreDefaultIn (k : Clauses) (c : Context) : Prop :=
  ∃ props container, k.StandFor props container (·.IsUnset (PropsFrom · []) c)
    (·.IsUnset IsPlain c)

section
variable {k : Clauses} {props container : Option Expression} {asProps asContainer : Pipe → Prop}

theorem compileClause_of_readAs {check : Expression → Except Failure Unit}
    {clause : Option (List Token)} {e : Option Expression} (h : ReadAs clause e)
    (hcheck : ∀ x ∈ e, x.OfScalars → check x = .ok ()) :
    Fragment.compileClause check (clause.map joined) = .ok e := by
  cases h with
  | omitted => rfl
  | @read run e h =>
    refine Fragment.compileClause_ok_iff.2 (.inr ⟨_, e, rfl, rfl, h, ?_⟩)
    exact hcheck e rfl (Expression.compile_ofScalars h)

/-- Clauses that stand for the defaults pass their checks. -/
theorem StandFor.compile (h : k.StandFor props container asProps asContainer)
    (root extension name : Text) (reference : Token) :
    Fragment.compile root extension (k.parsed name reference) =
      (reference.source root).map fun source => ⟨name, source, props, container, extension⟩ := by
  have hprops : Fragment.compileClause Fragment.checkProps (k.props.map joined) = .ok props := by
    refine compileClause_of_readAs h.readProps fun e he hs => ?_
    cases h.props e he with
    | literal hv hfrom =>
      exact Fragment.checkProps_of_normalizeProps hs (Expression.mayBe_of_literal? hv)
        (Markup.propsFrom_iff.2 hfrom)
    | «variable» => rfl
  have hcontainer : Fragment.compileClause Fragment.checkContainer (k.container.map joined) =
      .ok container := by
    refine compileClause_of_readAs h.readContainer fun e he hs => ?_
    cases h.container e he with
    | literal hv hplain =>
      exact (Fragment.checkContainer_of_normalizeContainer hs (Expression.mayBe_of_literal? hv)
        (Markup.isPlain_iff.2 hplain)).1
    | «variable» => rfl
  have hsource : ComponentSource.ofArguments root (k.parsed name reference).arguments =
      reference.source root := rfl
  cases hfound : reference.source root with
  | error e =>
    show (ComponentSource.ofArguments root (k.parsed name reference).arguments >>= _) = _
    rw [hsource, hfound]
    rfl
  | ok source =>
    exact Fragment.compile_ok_iff.2 ⟨rfl, rfl, rfl, hsource.trans hfound, hprops, hcontainer⟩

/-- After every context that the reference leads to, the clauses come to the defaults. -/
theorem StandFor.isDefault {reference : Token} {c : Context}
    (h : k.StandFor props container (ComesToNoProps reference c) (ComesToPlain reference props c))
    {root : Text} {source : ComponentSource} (hsource : reference.source root = .ok source)
    (name extension : Text) :
    (⟨name, source, props, container, extension⟩ : Fragment).IsDefault c := by
  intro path d hleads
  have hafter : AfterReference reference c d := ⟨root, source, path, hsource, hleads⟩
  obtain ⟨d₁, v, hprops, hv⟩ := Fragment.exists_clauseIs h.props .missing fun _ h => h d hafter
  obtain ⟨d₂, hcontainer⟩ := Fragment.exists_clauseIs h.container .missing
    fun _ h => h d v d₁ hafter hprops
  exact ⟨d₁, d₂, ⟨v, hprops, hv⟩, hcontainer⟩

end

/-- The reference is a string or a variable. -/
def IsSimple (reference : Token) : Prop :=
  reference.kind = .string ∨ reference.kind = .variable ∧ IsVariable reference.text

/-- A string or a variable leaves the context as it is. -/
theorem IsSimple.eq_of_afterReference {reference : Token} {c d : Context} (h : IsSimple reference)
    (hafter : AfterReference reference c d) : d = c := by
  obtain ⟨root, source, path, hsource, hleads⟩ := hafter
  have honly : source.OnlyVariables := by
    rcases h with hkind | ⟨hkind, hx⟩
    · rw [Token.source, ComponentSource.ofArguments, hkind] at hsource
      cases hsource
      trivial
    · have hstring : reference.kind ≠ .string := by simp [hkind]
      rw [Token.source, ComponentSource.ofArguments, Token.referenceText, if_neg hstring,
        decide_eq_false hstring, hx.pipe] at hsource
      cases hsource
      rfl
  exact ComponentSource.context_of_onlyVariables honly (ComponentSource.leadsTo_iff.2 hleads)

/-- Literals and variables leave the context as it is. -/
theorem context_of_isUnset {clause : Option Expression} {kind : Value → Prop} {c d : Context}
    {v : Value} (h : ∀ e ∈ clause, e.StandsFor kind fun pipe => pipe.IsUnset kind c)
    (hrun : (Fragment.clauseValue clause).run c = .ok (v, d)) : d = c := by
  cases clause with
  | none =>
    cases hrun
    rfl
  | some e =>
    cases h e rfl with
    | literal he hv =>
      rw [Fragment.clauseValue, e.evaluate_of_literal? he] at hrun
      cases hrun
      rfl
    | «variable» source hunset =>
      obtain ⟨x, rfl, -⟩ := hunset
      exact Pipe.context_of_plain hrun

theorem not_propsFrom_call (v : Value) : ¬ PropsFrom (.call v) [] := by
  intro h
  cases h with
  | blank h => simp [Value.equals, Value.str] at h
  | mapping h => cases h

theorem not_isPlain_call (v : Value) : ¬ IsPlain (.call v) := by
  intro h
  cases h with
  | blank h => simp [Value.equals, Value.str] at h
  | mapping h => cases h

/-- After a string or a variable, the clauses are evaluated in the context that is there. -/
theorem AreDefaultIn.areDefault {k : Clauses} {reference : Token} {c : Context}
    (h : k.AreDefaultIn c) (hreference : IsSimple reference) : k.AreDefault reference c := by
  obtain ⟨props, container, hstand⟩ := h
  refine ⟨props, container, hstand.readProps, hstand.readContainer, ?_, ?_⟩
  · intro e he
    refine (hstand.props e he).imp fun pipe hunset d hafter => ?_
    rw [hreference.eq_of_afterReference hafter]
    exact hunset.comesTo .missing not_propsFrom_call
  · intro e he
    refine (hstand.container e he).imp fun pipe hunset d v d' hafter hrun => ?_
    rw [hreference.eq_of_afterReference hafter] at hrun
    rw [context_of_isUnset hstand.props hrun]
    exact hunset.comesTo .missing not_isPlain_call

end Clauses
end Tag
end Hydration
