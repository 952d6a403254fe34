import Hydration.Proofs.Fragment.Checks
import Hydration.Proofs.Fragment.Compiled
import Hydration.Proofs.Fragment.Contexts
import Hydration.Proofs.Literal.Inlining
/-!
# Fragments with variables replaced by literals

A variable has the value of the literal that replaces it as long as no other expression of the tag
changes that value, as a call of a method can do. Then both fragments have the same values. The
literal is checked before rendering and the variable is not, but what is refused of the literal
would be refused of the variable's value, too.

* `run_values_of_inlines`: the values of both fragments are the same.
* `compile_of_inlines`: the variables pass the checks before rendering if the literals do.
* `compile_inlined`: the literals pass them if the variables' values are accepted.
-/
namespace Hydration

/-- Each variable has the value of the literal that replaces it. -/
def Context.Binds (c : Context) (b : Bindings) : Prop := ∀ x v, (x, v) ∈ b → c.get? x = some v

namespace Expression
variable {b : Bindings}

/-- A value that is written without variables is not called. -/
theorem ne_call_of_literal? {e : Expression} {v : Value} (hs : e.OfScalars)
    (h : e.literal? = some v) (w : Value) : v ≠ .call w := by
  rintro rfl
  cases e with
  | constant u =>
    cases h
    exact hs
  | «variable» _ _ => cases h
  | object entries =>
    obtain ⟨values, -, hv⟩ := Option.map_eq_some_iff.1 h
    cases hv
  | array items =>
    obtain ⟨values, -, hv⟩ := Option.map_eq_some_iff.1 h
    cases hv

mutual

/-- As long as the variables keep their values, both expressions have the same value. -/
theorem run_evaluate_of_inlines : ∀ (e : Expression) {e' : Expression} {c : Context},
    e.Inlines b e' → e'.OfScalars → (∀ d ∈ e.contexts c, d.Binds b) →
      e.evaluate.run c = e'.evaluate.run c
  | .constant v, _, c, h, _, _ => by
    obtain rfl := h
    rfl
  | .variable source pipe, e', c, h, hs, hc => by
    rcases h with rfl | ⟨v, hv, rfl, hlit⟩
    · rfl
    · have hbound := hc c List.mem_cons_self source v hv
      rw [evaluate, Pipe.run_plain hbound, Place.called_whole (ne_call_of_literal? hs hlit),
        evaluate_of_literal? e' hlit]
      rfl
  | .object entries, _, c, h, hs, hc => by
    obtain ⟨entries', rfl, hentries⟩ := h
    rw [evaluate, evaluate, StateT.run_bind, StateT.run_bind,
      run_entries_of_inlines entries hentries hs hc]
  | .array items, _, c, h, hs, hc => by
    obtain ⟨items', rfl, hitems⟩ := h
    rw [evaluate, evaluate, StateT.run_bind, StateT.run_bind,
      run_items_of_inlines items hitems hs hc]

theorem run_entries_of_inlines : ∀ (entries : List (Text × Expression))
    {entries' : List (Text × Expression)} {c : Context}, EntriesInline b entries entries' →
    EntriesOfScalars entries' → (∀ d ∈ entriesContexts entries c, d.Binds b) →
      (evaluateEntries entries).run c = (evaluateEntries entries').run c
  | [], _, c, h, _, _ => by
    obtain rfl := h
    rfl
  | (k, e) :: rest, _, c, h, hs, hc => by
    obtain ⟨e', more, rfl, he, hmore⟩ := h
    have hfirst := run_evaluate_of_inlines e he hs.1 fun d hd =>
      hc d (List.mem_append_left _ hd)
    simp only [evaluateEntries, StateT.run_bind, ← hfirst]
    cases hv : e.evaluate.run c with
    | error f => rfl
    | ok r =>
      have hrest := run_entries_of_inlines rest hmore hs.2 (c := r.2) fun d hd => by
        refine hc d (List.mem_append_right _ ?_)
        rw [hv]
        exact hd
      show ((evaluateEntries rest).run r.2 >>= _) = ((evaluateEntries more).run r.2 >>= _)
      rw [hrest]

theorem run_items_of_inlines : ∀ (items : List Expression) {items' : List Expression}
    {c : Context}, ItemsInline b items items' → ItemsOfScalars items' →
    (∀ d ∈ itemsContexts items c, d.Binds b) →
      (evaluateItems items).run c = (evaluateItems items').run c
  | [], _, c, h, _, _ => by
    obtain rfl := h
    rfl
  | e :: rest, _, c, h, hs, hc => by
    obtain ⟨e', more, rfl, he, hmore⟩ := h
    have hfirst := run_evaluate_of_inlines e he hs.1 fun d hd =>
      hc d (List.mem_append_left _ hd)
    simp only [evaluateItems, StateT.run_bind, ← hfirst]
    cases hv : e.evaluate.run c with
    | error f => rfl
    | ok r =>
      have hrest := run_items_of_inlines rest hmore hs.2 (c := r.2) fun d hd => by
        refine hc d (List.mem_append_right _ ?_)
        rw [hv]
        exact hd
      show ((evaluateItems rest).run r.2 >>= _) = ((evaluateItems more).run r.2 >>= _)
      rw [hrest]

end

/-- A value of the expression with variables may be one with the literals. -/
theorem mayBe_of_inlines {e e' : Expression} {c c' : Context} {v : Value} (h : e.Inlines b e')
    (hs : e'.OfScalars) (hc : ∀ d ∈ e.contexts c, d.Binds b)
    (hv : e.evaluate.run c = .ok (v, c')) : e'.MayBe v := by
  rw [e.run_evaluate_of_inlines h hs hc] at hv
  exact e'.evaluate_mayBe hv

end Expression

/-! ## Fragments -/

section
variable {b : Bindings} {c : Context}

/-- The second source is the first one, or that of a literal in the place of a variable. -/
def ComponentSource.Inlines (b : Bindings) (s s' : ComponentSource) : Prop :=
  s' = s ∨ ∃ root x t, s = .reference root x (.plain x) ∧ (x, .str t) ∈ b ∧ t ≠ [] ∧
    s' = .path root (Path.resolve root t)

theorem ComponentSource.run_resolvedPath_of_inlines {s s' : ComponentSource} (h : s.Inlines b s')
    (hc : c.Binds b) : s.resolvedPath.run c = s'.resolvedPath.run c := by
  rcases h with rfl | ⟨root, x, t, rfl, ht, hne, rfl⟩
  · rfl
  · obtain ⟨y, t, rfl⟩ := List.exists_cons_of_ne_nil hne
    have hrun := Pipe.run_plain (hc x _ ht)
    unfold resolvedPath
    rw [StateT.run_bind, hrun]
    rfl

/-- Clauses of which the second one is the first one with variables replaced. -/
structure Fragment.ClauseInlines (b : Bindings) (clause clause' : Option Expression) : Prop where
  rel : Option.Rel (Expression.Inlines b) clause clause'
  scalars : ∀ e ∈ clause', e.OfScalars

/-- The second fragment is the first one with some variables replaced by literals. -/
structure Fragment.Inlines (b : Bindings) (f f' : Fragment) : Prop where
  extension : f'.extension = f.extension
  component : f.component.Inlines b f'.component
  props : ClauseInlines b f.props f'.props
  container : ClauseInlines b f.container f'.container

namespace Fragment

theorem run_clauseValue_of_inlines {clause clause' : Option Expression}
    (h : ClauseInlines b clause clause') (hc : ∀ d ∈ clauseContexts clause c, d.Binds b) :
    (clauseValue clause).run c = (clauseValue clause').run c := by
  obtain ⟨hrel, hs⟩ := h
  cases hrel with
  | none => rfl
  | @some e e' he => exact e.run_evaluate_of_inlines he (hs e' rfl) hc

/-- As long as the variables keep their values, both fragments have the same values. -/
theorem run_values_of_inlines {f f' : Fragment} (h : f.Inlines b f')
    (hc : ∀ d ∈ f.contexts c, d.Binds b) : f.values.run c = f'.values.run c := by
  have hpath := ComponentSource.run_resolvedPath_of_inlines h.component
    (hc c List.mem_cons_self)
  have hrest := fun d hd => hc d (List.mem_cons_of_mem _ hd)
  simp only [values, StateT.run_bind, ← hpath]
  cases hp : f.component.resolvedPath.run c with
  | error e => rfl
  | ok r =>
    obtain ⟨path, c₁⟩ := r
    rw [hp] at hrest
    have hprops := run_clauseValue_of_inlines h.props fun d hd =>
      hrest d (List.mem_append_left _ hd)
    show ((clauseValue f.props).run c₁ >>= _) = ((clauseValue f'.props).run c₁ >>= _)
    rw [← hprops]
    cases hv : (clauseValue f.props).run c₁ with
    | error e => rfl
    | ok r =>
      obtain ⟨props, c₂⟩ := r
      have hcontainer := run_clauseValue_of_inlines h.container (c := c₂) fun d hd => by
        refine hrest d (List.mem_append_right _ ?_)
        rw [hv]
        exact hd
      show ((clauseValue f.container).run c₂ >>= _) = ((clauseValue f'.container).run c₂ >>= _)
      rw [hcontainer]

/-! ## Checks -/

theorem checkProps_of_inlines {e e' : Expression} (h : e.Inlines b e')
    (hcheck : checkProps e' = .ok ()) : checkProps e = .ok () := by
  cases e with
  | constant v =>
    obtain rfl := h
    exact hcheck
  | array items =>
    obtain ⟨items', rfl, -⟩ := h
    cases hcheck
  | «variable» _ _ | object _ => rfl

theorem rel_get? (key : Text) : ∀ {entries entries' : List (Text × Expression)},
    Expression.EntriesInline b entries entries' →
    Option.Rel (Expression.Inlines b) (Expression.get? entries key)
      (Expression.get? entries' key)
  | [], _, h => by
    obtain rfl := h
    exact .none
  | (k, e) :: rest, _, h => by
    obtain ⟨e', more, rfl, he, hmore⟩ := h
    rw [Expression.get?_cons, Expression.get?_cons]
    split
    · exact .some he
    · exact rel_get? key hmore

theorem checkContainer_of_inlines {e e' : Expression} (h : e.Inlines b e')
    (hcheck : checkContainer e' = .ok ()) : checkContainer e = .ok () := by
  cases e with
  | constant v =>
    obtain rfl := h
    exact hcheck
  | «variable» _ _ => rfl
  | array items =>
    obtain ⟨items', rfl, -⟩ := h
    cases hcheck
  | object entries =>
    obtain ⟨entries', rfl, hentries⟩ := h
    obtain ⟨tag', htag', hname, hnames⟩ := checkEntries_ok_iff.1 hcheck
    rw [Expression.keys_of_inlines hentries] at hnames
    have hrel := rel_get? Markup.tagKey hentries
    rw [htag'] at hrel
    generalize hget : Expression.get? entries Markup.tagKey = found at hrel
    cases hrel with
    | @some tag _ htag =>
      refine checkEntries_ok_iff.2 ⟨tag, hget, ?_, hnames⟩
      rintro v rfl
      exact hname v htag

end Fragment

/-! ## Compiling -/

namespace Tag

/-- The second clause is written like the first one with variables replaced: they are compiled to
expressions of which this is so, or neither is compiled. -/
def TextInlines (b : Bindings) (t t' : Text) : Prop :=
  Option.Rel (Expression.Inlines b) (Expression.compile (some Pipe.compile) t).toOption
    (Expression.compile (some Pipe.compile) t').toOption

/-- The second reference is the first one, or a text in the place of a variable. -/
def ReferenceInlines (b : Bindings) (r r' : Text × Bool) : Prop :=
  r' = r ∨ IsVariable r.1 ∧ r.2 = false ∧ r'.2 = true ∧ r'.1 ≠ [] ∧ (r.1, .str r'.1) ∈ b

/-- The second arguments are the first ones with some variables replaced by literals. -/
structure ArgumentsInline (b : Bindings) (a a' : TagArguments) : Prop where
  reference : ReferenceInlines b (a.reference, a.isLiteral) (a'.reference, a'.isLiteral)
  props : Option.Rel (TextInlines b) a.props a'.props
  container : Option.Rel (TextInlines b) a.container a'.container

/-- The second tag is the first one with some variables replaced by literals. -/
structure TagInlines (b : Bindings) (tag tag' : ParsedTag) : Prop where
  name : tag'.name = tag.name
  arguments : ArgumentsInline b tag.arguments tag'.arguments
  forwarded : tag'.forwarded = tag.forwarded

end Tag

namespace Fragment
open Tag

theorem rel_ofArguments {a a' : TagArguments} (h : ArgumentsInline b a a') (root : Text) :
    Option.Rel (ComponentSource.Inlines b) (ComponentSource.ofArguments root a).toOption
      (ComponentSource.ofArguments root a').toOption := by
  unfold ComponentSource.ofArguments
  rcases h.reference with heq | ⟨hx, hvariable, hliteral, hne, hv⟩
  · simp only [Prod.mk.injEq] at heq
    rw [heq.1, heq.2]
    exact rel_refl (fun _ => .inl rfl) _
  · simp only at hx hvariable hliteral hne hv
    rw [hvariable, hliteral, hx.pipe]
    exact .some (.inr ⟨root, _, _, rfl, hv, hne, rfl⟩)

section
variable {check : Expression → Except Failure Unit} {text text' : Option Text}

/-- A clause is compiled if it is with literals for some variables, and if these are accepted only
where the variables are. -/
theorem compileClause_of_inlines {clause' : Option Expression}
    (h : Option.Rel (TextInlines b) text text') (hclause : compileClause check text' = .ok clause')
    (hcheck : ∀ e e', e.Inlines b e' → check e' = .ok () → check e = .ok ()) :
    ∃ clause, compileClause check text = .ok clause ∧ ClauseInlines b clause clause' := by
  rcases compileClause_ok_iff.1 hclause with ⟨rfl, rfl⟩ | ⟨t', e', rfl, rfl, he', hok⟩
  · cases h with
    | none => exact ⟨none, rfl, .none, by simp⟩
  · cases h with
    | @some t _ hrel =>
      rw [TextInlines, Literal.toOption_eq_some_iff.2 he'] at hrel
      generalize ht : (Expression.compile (some Pipe.compile) t).toOption = found at hrel
      cases hrel with
      | @some e _ hinlines =>
        have he := Literal.toOption_eq_some_iff.1 ht
        have hcompiled := compileClause_ok_iff.2
          (.inr ⟨t, e, rfl, rfl, he, hcheck e e' hinlines hok⟩)
        refine ⟨some e, hcompiled, .some hinlines, fun d hd => ?_⟩
        cases hd
        exact Expression.compile_ofScalars he'

/-- A clause with literals for some variables is compiled if it is with the variables, and if the
literals are accepted. -/
theorem compileClause_inlined {clause : Option Expression}
    (h : Option.Rel (TextInlines b) text text') (hclause : compileClause check text = .ok clause)
    (hcheck : ∀ e e', clause = some e → e.Inlines b e' → e'.OfScalars → check e' = .ok ()) :
    ∃ clause', compileClause check text' = .ok clause' ∧ ClauseInlines b clause clause' := by
  rcases compileClause_ok_iff.1 hclause with ⟨rfl, rfl⟩ | ⟨t, e, rfl, rfl, he, -⟩
  · cases h with
    | none => exact ⟨none, rfl, .none, by simp⟩
  · cases h with
    | @some _ t' hrel =>
      rw [TextInlines, Literal.toOption_eq_some_iff.2 he] at hrel
      generalize ht : (Expression.compile (some Pipe.compile) t').toOption = found at hrel
      cases hrel with
      | @some _ e' hinlines =>
        have he' := Literal.toOption_eq_some_iff.1 ht
        have hscalars := Expression.compile_ofScalars he'
        have hcompiled := compileClause_ok_iff.2
          (.inr ⟨t', e', rfl, rfl, he', hcheck e e' rfl hinlines hscalars⟩)
        refine ⟨some e', hcompiled, .some hinlines, fun d hd => ?_⟩
        cases hd
        exact hscalars

end

variable {root extension : Text} {tag tag' : ParsedTag}

/-- What compiles with literals in the place of variables compiles with the variables. -/
theorem compile_of_inlines {f' : Fragment} (h : TagInlines b tag tag')
    (hf' : Fragment.compile root extension tag' = .ok f') :
    ∃ f, Fragment.compile root extension tag = .ok f ∧ f.Inlines b f' := by
  obtain ⟨hforwarded, -, hextension, hsource', hprops', hcontainer'⟩ := compile_ok_iff.1 hf'
  have hrel := rel_ofArguments h.arguments root
  rw [Literal.toOption_eq_some_iff.2 hsource'] at hrel
  generalize hs : (ComponentSource.ofArguments root tag.arguments).toOption = found at hrel
  obtain ⟨props, hprops, hp⟩ := compileClause_of_inlines h.arguments.props hprops' fun _ _ =>
    checkProps_of_inlines
  obtain ⟨container, hcontainer, hk⟩ := compileClause_of_inlines h.arguments.container hcontainer'
    fun _ _ => checkContainer_of_inlines
  cases hrel with
  | @some source _ hsource =>
    rw [h.forwarded] at hforwarded
    have hsource' := Literal.toOption_eq_some_iff.1 hs
    exact ⟨⟨tag.name, source, props, container, extension⟩,
      compile_ok_iff.2 ⟨hforwarded, rfl, rfl, hsource', hprops, hcontainer⟩, hextension, hsource,
      hp, hk⟩

/-- What compiles with variables, and has values that are accepted, compiles with literals in the
place of the variables. -/
theorem compile_inlined {f : Fragment} {path : Text} {props container : Value} {c' : Context}
    {entries : List (Value × Value)} {k : Markup.Container} (h : TagInlines b tag tag')
    (hf : Fragment.compile root extension tag = .ok f) (hc : ∀ d ∈ f.contexts c, d.Binds b)
    (hvalues : f.values.run c = .ok ((path, props, container), c'))
    (hprops : Markup.normalizeProps props = .ok entries)
    (hcontainer : Markup.normalizeContainer container = .ok k) :
    ∃ f', Fragment.compile root extension tag' = .ok f' ∧ f.Inlines b f' := by
  obtain ⟨hforwarded, hname, rfl, hsource, hp, hk⟩ := compile_ok_iff.1 hf
  have hrel := rel_ofArguments h.arguments root
  rw [Literal.toOption_eq_some_iff.2 hsource] at hrel
  generalize hs : (ComponentSource.ofArguments root tag'.arguments).toOption = found at hrel
  obtain ⟨_, c₁, hpath, hvalues⟩ := Evaluation.run_bind_ok_iff.1 hvalues
  obtain ⟨_, c₂, hv, hvalues⟩ := Evaluation.run_bind_ok_iff.1 hvalues
  obtain ⟨_, c₃, hw, hvalues⟩ := Evaluation.run_bind_ok_iff.1 hvalues
  cases hvalues
  have hrest := fun d hd => hc d (List.mem_cons_of_mem _ hd)
  rw [hpath] at hrest
  obtain ⟨clause, hclause, hpinlines⟩ := compileClause_inlined h.arguments.props hp
    fun e e' hclause he hscalars => by
      rw [hclause] at hv hrest
      have hmay := Expression.mayBe_of_inlines he hscalars
        (fun d hd => hrest d (List.mem_append_left _ hd)) hv
      exact checkProps_of_normalizeProps hscalars hmay hprops
  obtain ⟨clause', hclause', hkinlines⟩ := compileClause_inlined h.arguments.container hk
    fun e e' hclause' he hscalars => by
      rw [hclause'] at hw hrest
      have hmay := Expression.mayBe_of_inlines he hscalars
        (fun d hd => hrest d (List.mem_append_right _ (by rw [hv]; exact hd))) hw
      exact (checkContainer_of_normalizeContainer hscalars hmay hcontainer).1
  cases hrel with
  | @some _ source hinlines =>
    rw [← h.forwarded] at hforwarded
    exact ⟨⟨tag'.name, source, clause, clause', f.extension⟩,
      compile_ok_iff.2
        ⟨hforwarded, rfl, rfl, Literal.toOption_eq_some_iff.1 hs, hclause, hclause'⟩,
      rfl, hinlines, hpinlines, hkinlines⟩

end Fragment
end
end Hydration
