import Hydration.Fragment
/-!
# What a tag is compiled to

* `compileClause_ok_iff`: a clause is compiled if it is left out, or if it can be read and passes
  its check.
* `compile_ok_iff`: a tag is compiled if no token of it was handed back and its parts are compiled.
-/
namespace Hydration.Fragment

theorem compileClause_ok_iff {check : Expression → Except Failure Unit} {text : Option Text}
    {clause : Option Expression} :
    compileClause check text = .ok clause ↔
      (text = none ∧ clause = none) ∨
        ∃ t e, text = some t ∧ clause = some e ∧
          Expression.compile (some Pipe.compile) t = .ok e ∧ check e = .ok () := by
  cases text with
  | none => simp [compileClause, eq_comm]
  | some t =>
    rw [compileClause]
    cases hcompile : Expression.compile (some Pipe.compile) t with
    | error f => simp [bind, Except.bind, hcompile]
    | ok e =>
      constructor
      · intro h
        cases hcheck : check e with
        | error f => simp [bind, Except.bind, hcheck] at h
        | ok _ =>
          simp only [bind, Except.bind, hcheck, pure, Except.pure, Except.ok.injEq] at h
          exact .inr ⟨t, e, rfl, h.symm, hcompile, hcheck⟩
      · rintro (⟨h, -⟩ | ⟨_, _, ht, rfl, he, hcheck⟩)
        · cases h
        · cases ht
          rw [hcompile] at he
          cases he
          simp [bind, Except.bind, hcheck, pure, Except.pure]

/-- A tag that is compiled has a source for its component, and clauses that passed their checks. -/
theorem compile_ok_iff {root extension : Text} {tag : Tag.ParsedTag} {f : Fragment} :
    Fragment.compile root extension tag = .ok f ↔
      tag.forwarded = [] ∧ f.tag = tag.name ∧ f.extension = extension ∧
        ComponentSource.ofArguments root tag.arguments = .ok f.component ∧
        compileClause checkProps tag.arguments.props = .ok f.props ∧
        compileClause checkContainer tag.arguments.container = .ok f.container := by
  unfold Fragment.compile
  cases tag.forwarded with
  | cons token _ => simp
  | nil =>
    obtain ⟨name, component, props, container, own⟩ := f
    cases hsource : ComponentSource.ofArguments root tag.arguments with
    | error e => simp [bind, Except.bind]
    | ok source =>
      cases hprops : compileClause checkProps tag.arguments.props with
      | error e => simp [bind, Except.bind]
      | ok p =>
        cases hcontainer : compileClause checkContainer tag.arguments.container with
        | error e => simp [bind, Except.bind]
        | ok k =>
          simp only [bind, Except.bind, pure, Except.pure, Except.ok.injEq, Fragment.mk.injEq,
            true_and]
          constructor
          · rintro ⟨rfl, rfl, rfl, rfl, rfl⟩
            exact ⟨rfl, rfl, rfl, rfl, rfl⟩
          · rintro ⟨rfl, rfl, rfl, rfl, rfl⟩
            exact ⟨rfl, rfl, rfl, rfl, rfl⟩

end Hydration.Fragment
