import Hydration.Proofs.Fragment.Steady
/-!
# Contexts of an evaluation

    {a: l.pop, b: l}

A method that is called on the way to a value can change a variable, so the expressions of a tag may
be evaluated in several contexts. A variable alone is evaluated in the context that is there and
leaves it as it is.

* `Expression.contexts`, `Fragment.contexts`: the contexts that an evaluation goes through.
* `contexts_of_onlyVariables`: a tag with no filter expressions but variables is evaluated in one
  context.
-/
namespace Hydration

/-- What follows an evaluation, if that succeeds. -/
def Evaluation.after {α : Type} (r : Except Failure (α × Context))
    (next : Context → List Context) : List Context :=
  match r with
  | .ok (_, d) => next d
  | .error _ => []

theorem Evaluation.mem_after {α : Type} {r : Except Failure (α × Context)}
    {next : Context → List Context} {d : Context} :
    d ∈ after r next ↔ ∃ x c, r = .ok (x, c) ∧ d ∈ next c := by
  cases r with
  | error f => simp [after]
  | ok p =>
    constructor
    · exact fun h => ⟨p.1, p.2, rfl, h⟩
    · rintro ⟨_, _, hr, h⟩
      cases hr
      exact h

namespace Expression

mutual

/-- The contexts that an evaluation goes through: before and after each filter expression. -/
def contexts : Expression → Context → List Context
  | .constant _, c => [c]
  | .variable _ pipe, c => c :: Evaluation.after (pipe.evaluate.run c) fun d => [d]
  | .object entries, c => entriesContexts entries c
  | .array items, c => itemsContexts items c

def entriesContexts : List (Text × Expression) → Context → List Context
  | [], c => [c]
  | (_, e) :: rest, c =>
    contexts e c ++ Evaluation.after (e.evaluate.run c) fun d => entriesContexts rest d

def itemsContexts : List Expression → Context → List Context
  | [], c => [c]
  | e :: rest, c =>
    contexts e c ++ Evaluation.after (e.evaluate.run c) fun d => itemsContexts rest d

end

end Expression

namespace Fragment

/-- The contexts that the evaluation of a clause goes through. -/
def clauseContexts : Option Expression → Context → List Context
  | none, c => [c]
  | some e, c => e.contexts c

/-- The contexts that the evaluation of a tag goes through: those of its reference, its props and
its container. -/
def contexts (f : Fragment) (c : Context) : List Context :=
  c :: Evaluation.after (f.component.resolvedPath.run c) fun c =>
    clauseContexts f.props c ++ Evaluation.after ((clauseValue f.props).run c) fun c =>
      clauseContexts f.container c

end Fragment

/-! ## Variables -/

/-- A value that is no function is not called. -/
theorem Place.called_whole {v : Value} (h : ∀ w, v ≠ .call w) : (whole v).called = whole v := by
  unfold called
  split
  · next w hw => exact absurd hw (h w)
  · rfl

namespace Pipe
variable {c c' : Context} {x : Text} {v : Value}

/-- A variable is its value, called if it is a function. -/
theorem run_plain (h : c.get? x = some v) :
    (plain x).evaluate.run c = .ok ((Place.whole v).called.part, c) := by
  have hpath : (Operand.followPath [x]).run c =
      .ok (.found (Place.whole v).called.part, c) := by
    have hreplace := Place.called_replace_part (p := Place.whole v) rfl
    simp only [Operand.followPath, StateT.run_bind, StateT.run_get, pure_bind, h,
      Value.follow_nil, Evaluation.run_ofExcept]
    show Except.ok (_, c.put x ((Place.whole v).called.replace (Place.whole v).called.part)) = _
    rw [hreplace]
    show Except.ok (_, c.put x v) = _
    rw [Context.put_of_get? h]
  unfold evaluate
  exact Evaluation.run_bind_ok_iff.2 ⟨_, c, hpath, rfl⟩

theorem run_plain_of_none (h : c.get? x = none) : (plain x).evaluate.run c = .ok (.none, c) := by
  have hpath : (Operand.followPath [x]).run c = .ok (.missing x, c) := by
    simp only [Operand.followPath, StateT.run_bind, StateT.run_get, pure_bind, h]
    rfl
  unfold evaluate
  exact Evaluation.run_bind_ok_iff.2 ⟨_, c, hpath, rfl⟩

/-- Evaluating a variable changes nothing, whether or not it has a value. -/
theorem context_of_plain (h : (plain x).evaluate.run c = .ok (v, c')) : c' = c :=
  keeps_evaluate (steady_plain x) c v c' h

end Pipe

/-! ## Tags with no filter expressions but variables -/

namespace Expression

mutual

/-- All filter expressions in the expression are variables alone. -/
def OnlyVariables : Expression → Prop
  | .constant _ => True
  | .variable source pipe => pipe = .plain source
  | .object entries => EntriesOnlyVariables entries
  | .array items => ItemsOnlyVariables items

def EntriesOnlyVariables : List (Text × Expression) → Prop
  | [] => True
  | (_, e) :: rest => OnlyVariables e ∧ EntriesOnlyVariables rest

def ItemsOnlyVariables : List Expression → Prop
  | [] => True
  | e :: rest => OnlyVariables e ∧ ItemsOnlyVariables rest

end

mutual

theorem steady_of_onlyVariables : ∀ e : Expression, e.OnlyVariables → e.Steady
  | .constant _, _ => trivial
  | .variable source _, h => by
    obtain rfl := h
    exact Pipe.steady_plain source
  | .object entries, h => entriesSteady_of_onlyVariables entries h
  | .array items, h => itemsSteady_of_onlyVariables items h

theorem entriesSteady_of_onlyVariables : ∀ entries : List (Text × Expression),
    EntriesOnlyVariables entries → EntriesSteady entries
  | [], _ => trivial
  | (_, e) :: rest, h =>
    ⟨steady_of_onlyVariables e h.1, entriesSteady_of_onlyVariables rest h.2⟩

theorem itemsSteady_of_onlyVariables : ∀ items : List Expression,
    ItemsOnlyVariables items → ItemsSteady items
  | [], _ => trivial
  | e :: rest, h => ⟨steady_of_onlyVariables e h.1, itemsSteady_of_onlyVariables rest h.2⟩

end

theorem context_of_onlyVariables (e : Expression) {c c' : Context} {v : Value}
    (he : e.OnlyVariables) (h : e.evaluate.run c = .ok (v, c')) : c' = c :=
  keeps_evaluate e (steady_of_onlyVariables e he) c v c' h

mutual

theorem contexts_of_onlyVariables : ∀ (e : Expression) {c d : Context},
    e.OnlyVariables → d ∈ e.contexts c → d = c
  | .constant _, _, _, _, h => List.mem_singleton.1 h
  | .variable _ _, c, d, he, h => by
    rcases List.mem_cons.1 h with rfl | h
    · rfl
    · obtain ⟨v, c', hv, hd⟩ := Evaluation.mem_after.1 h
      obtain rfl := List.mem_singleton.1 hd
      obtain rfl := he
      exact Pipe.context_of_plain hv
  | .object entries, _, _, he, h => entriesContexts_of_onlyVariables entries he h
  | .array items, _, _, he, h => itemsContexts_of_onlyVariables items he h

theorem entriesContexts_of_onlyVariables : ∀ (entries : List (Text × Expression))
    {c d : Context}, EntriesOnlyVariables entries → d ∈ entriesContexts entries c → d = c
  | [], _, _, _, h => List.mem_singleton.1 h
  | (_, e) :: rest, c, d, he, h => by
    rcases List.mem_append.1 h with h | h
    · exact contexts_of_onlyVariables e he.1 h
    · obtain ⟨v, c', hv, hd⟩ := Evaluation.mem_after.1 h
      obtain rfl := context_of_onlyVariables e he.1 hv
      exact entriesContexts_of_onlyVariables rest he.2 hd

theorem itemsContexts_of_onlyVariables : ∀ (items : List Expression) {c d : Context},
    ItemsOnlyVariables items → d ∈ itemsContexts items c → d = c
  | [], _, _, _, h => List.mem_singleton.1 h
  | e :: rest, c, d, he, h => by
    rcases List.mem_append.1 h with h | h
    · exact contexts_of_onlyVariables e he.1 h
    · obtain ⟨v, c', hv, hd⟩ := Evaluation.mem_after.1 h
      obtain rfl := context_of_onlyVariables e he.1 hv
      exact itemsContexts_of_onlyVariables rest he.2 hd

end

end Expression

/-- The reference of the component is a variable alone, or known. -/
def ComponentSource.OnlyVariables : ComponentSource → Prop
  | .path _ _ => True
  | .reference _ source pipe => pipe = .plain source

theorem ComponentSource.context_of_onlyVariables {s : ComponentSource} {c c' : Context}
    {path : Text} (hs : s.OnlyVariables) (h : s.resolvedPath.run c = .ok (path, c')) : c' = c := by
  cases s with
  | path root resolved =>
    cases h
    rfl
  | reference root source pipe =>
    obtain rfl := hs
    obtain ⟨v, d, hv, hpath⟩ := Evaluation.run_bind_ok_iff.1 h
    obtain rfl := Pipe.context_of_plain hv
    split at hpath
    · cases hpath
      rfl
    · obtain ⟨_, _, -, hfailed⟩ := Evaluation.run_bind_ok_iff.1 hpath
      cases hfailed

namespace Fragment

/-- All filter expressions of a tag are variables alone. -/
structure OnlyVariables (f : Fragment) : Prop where
  component : f.component.OnlyVariables
  props : ∀ e ∈ f.props, e.OnlyVariables
  container : ∀ e ∈ f.container, e.OnlyVariables

theorem context_of_clauseValue {clause : Option Expression} {c c' : Context} {v : Value}
    (hclause : ∀ e ∈ clause, e.OnlyVariables) (h : (clauseValue clause).run c = .ok (v, c')) :
    c' = c := by
  cases clause with
  | none =>
    cases h
    rfl
  | some e => exact e.context_of_onlyVariables (hclause e rfl) h

theorem clauseContexts_of_onlyVariables {clause : Option Expression} {c d : Context}
    (hclause : ∀ e ∈ clause, e.OnlyVariables) (h : d ∈ clauseContexts clause c) : d = c := by
  cases clause with
  | none => exact List.mem_singleton.1 h
  | some e => exact e.contexts_of_onlyVariables (hclause e rfl) h

/-- A tag with no filter expressions but variables is evaluated in the context that it starts in. -/
theorem contexts_of_onlyVariables {f : Fragment} {c d : Context} (hf : f.OnlyVariables)
    (h : d ∈ f.contexts c) : d = c := by
  rcases List.mem_cons.1 h with rfl | h
  · rfl
  obtain ⟨path, c₁, hpath, hd⟩ := Evaluation.mem_after.1 h
  rw [ComponentSource.context_of_onlyVariables hf.component hpath] at hd
  rcases List.mem_append.1 hd with hd | hd
  · exact clauseContexts_of_onlyVariables hf.props hd
  · obtain ⟨v, c₂, hv, hd⟩ := Evaluation.mem_after.1 hd
    rw [context_of_clauseValue hf.props hv] at hd
    exact clauseContexts_of_onlyVariables hf.container hd

end Fragment
end Hydration
