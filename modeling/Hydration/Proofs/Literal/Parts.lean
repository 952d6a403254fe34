import Hydration.Proofs.Literal.Meaning
import Mathlib.Data.List.Duplicate
import Mathlib.Data.List.Forall2
import Mathlib.Logic.Relation
/-!
# Parts of literals

    {a: [{b: 1, "c": x}], 'd': {}}

The parts of an object are the values of its entries, the parts of an array its items, and each of
them may have parts again. A derivation means something with the same parts, so every object in what
a literal means comes from an object in the text and has the keys that are written there. There are
two reasons for which a derivation means nothing, and each is a reason to refuse it: an object of it
has two keys of the same text, however they are written, or an atom of it is refused.

* `exists_source`: what occurs in a meaning is what a part of the derivation means.
* `keys_of_value?`, `nodup_of_value?`: the keys of an object are those that are written, and no two
  are the same.
* `value?_eq_none_iff`: why a derivation means nothing.
* `read_error_of_lex`: the text of such a derivation is refused for one of these reasons.
-/
namespace Hydration

namespace Expression

/-- The values of the entries of an object, or the items of an array. -/
def parts : Expression → List Expression
  | .object entries => entries.map (·.2)
  | .array items => items
  | .constant _ | .variable _ _ => []

/-- The first expression is the second one, or a part of it at some depth. -/
def Occurs : Expression → Expression → Prop :=
  Relation.ReflTransGen fun part whole => part ∈ whole.parts

end Expression

namespace Literal
namespace Derivation

/-- The values of the pairs of an object, or the items of an array. -/
def parts : Derivation → List Derivation
  | .object _ value more _ => value :: more.map (·.2)
  | .array item more _ => item :: more
  | .atom _ | .string _ | .emptyObject | .emptyArray => []

/-- The keys of an object, as they are written and in this order. -/
def keys : Derivation → List Key
  | .object key _ more _ => key :: more.map (·.1)
  | _ => []

/-- The first derivation is the second one, or a part of it at some depth. -/
def Occurs : Derivation → Derivation → Prop :=
  Relation.ReflTransGen fun part whole => part ∈ whole.parts

/-! ## Where the parts are written -/

theorem infix_moreFields {part : Derivation} {more : List (Key × Derivation)}
    (h : part ∈ more.map (·.2)) : part.lexemes <:+: moreFields more := by
  induction more with
  | nil => cases h
  | cons m more ih =>
    obtain ⟨key, value⟩ := m
    rcases List.mem_cons.1 h with rfl | h
    · exact ⟨[.mark ',', key.lexeme, .mark ':'], moreFields more, by simp [moreFields]⟩
    · obtain ⟨a, b, hab⟩ := ih h
      exact ⟨.mark ',' :: key.lexeme :: .mark ':' :: (value.lexemes ++ a), b, by
        simp [moreFields, ← hab]⟩

theorem infix_moreItems {part : Derivation} {more : List Derivation} (h : part ∈ more) :
    part.lexemes <:+: moreItems more := by
  induction more with
  | nil => cases h
  | cons item more ih =>
    rcases List.mem_cons.1 h with rfl | h
    · exact ⟨[.mark ','], moreItems more, by simp [moreItems]⟩
    · obtain ⟨a, b, hab⟩ := ih h
      exact ⟨.mark ',' :: (item.lexemes ++ a), b, by simp [moreItems, ← hab]⟩

theorem infix_of_mem_parts {part d : Derivation} (h : part ∈ d.parts) :
    part.lexemes <:+: d.lexemes := by
  cases d with
  | object key value more comma =>
    rcases List.mem_cons.1 h with rfl | h
    · exact ⟨[.mark '{', key.lexeme, .mark ':'], moreFields more ++ closing comma '}', by
        simp [lexemes]⟩
    · obtain ⟨a, b, hab⟩ := infix_moreFields h
      exact ⟨.mark '{' :: key.lexeme :: .mark ':' :: (value.lexemes ++ a), b ++ closing comma '}',
        by simp [lexemes, ← hab]⟩
  | array item more comma =>
    rcases List.mem_cons.1 h with rfl | h
    · exact ⟨[.mark '['], moreItems more ++ closing comma ']', by simp [lexemes]⟩
    · obtain ⟨a, b, hab⟩ := infix_moreItems h
      exact ⟨.mark '[' :: (item.lexemes ++ a), b ++ closing comma ']', by
        simp [lexemes, ← hab]⟩
  | _ => cases h

theorem infix_of_occurs {part d : Derivation} (h : part.Occurs d) :
    part.lexemes <:+: d.lexemes := by
  induction h with
  | refl => exact List.infix_rfl
  | tail _ hpart ih => exact ih.trans (infix_of_mem_parts hpart)

/-! ## What the parts mean -/

section
variable (reader : Option FilterReader)

theorem leaf_of_compileAtom {t : Text} {e : Expression} (h : compileAtom reader t = .ok e) :
    (∃ v, e = .constant v) ∨ ∃ source pipe, e = .variable source pipe := by
  cases readAtom h with
  | word _ | number _ _ => exact .inl ⟨_, rfl⟩
  | filter _ _ => exact .inr ⟨t, _, rfl⟩

theorem forall₂_fieldValues? {more : List (Key × Derivation)} {entries : List (Text × Expression)}
    (h : fieldValues? reader more = some entries) :
    List.Forall₂ (fun m entry => m.1.text = entry.1 ∧ m.2.value? reader = some entry.2)
      more entries := by
  induction more generalizing entries with
  | nil =>
    cases h
    exact .nil
  | cons m more ih =>
    obtain ⟨key, value⟩ := m
    obtain ⟨e, rest, he, hrest, rfl⟩ := fieldValues?_cons_iff.1 h
    exact .cons ⟨rfl, he⟩ (ih hrest)

theorem forall₂_itemValues? {more : List Derivation} {items : List Expression}
    (h : itemValues? reader more = some items) :
    List.Forall₂ (fun d e => d.value? reader = some e) more items := by
  induction more generalizing items with
  | nil =>
    cases h
    exact .nil
  | cons item more ih =>
    obtain ⟨e, rest, he, hrest, rfl⟩ := itemValues?_cons_iff.1 h
    exact .cons he (ih hrest)

/-- The parts of what a derivation means are what its parts mean, one by one. -/
theorem forall₂_parts {d : Derivation} {e : Expression} (h : d.value? reader = some e) :
    List.Forall₂ (fun p x => p.value? reader = some x) d.parts e.parts := by
  cases d with
  | atom t =>
    rcases leaf_of_compileAtom reader (value?_atom_iff.1 h) with ⟨v, rfl⟩ | ⟨source, pipe, rfl⟩
    · exact .nil
    · exact .nil
  | string _ | emptyObject | emptyArray =>
    cases h
    exact .nil
  | object key value more _ =>
    obtain ⟨v, entries, hv, hentries, -, rfl⟩ := value?_object_iff.1 h
    refine .cons hv ?_
    rw [List.forall₂_map_left_iff, List.forall₂_map_right_iff]
    exact (forall₂_fieldValues? reader hentries).imp fun _ _ hm => hm.2
  | array item more _ =>
    obtain ⟨v, items, hv, hitems, rfl⟩ := value?_array_iff.1 h
    exact .cons hv (forall₂_itemValues? reader hitems)

theorem exists_left_of_forall₂ {α β : Type} {R : α → β → Prop} {xs : List α} {ys : List β}
    (h : List.Forall₂ R xs ys) {y : β} (hy : y ∈ ys) : ∃ x ∈ xs, R x y := by
  induction h with
  | nil => cases hy
  | @cons x y' xs ys hxy _ ih =>
    rcases List.mem_cons.1 hy with rfl | hy
    · exact ⟨x, List.mem_cons_self, hxy⟩
    · obtain ⟨z, hz, hzy⟩ := ih hy
      exact ⟨z, List.mem_cons_of_mem x hz, hzy⟩

/-- What occurs in a meaning is what a part of the derivation means. -/
theorem exists_source {d : Derivation} {e x : Expression} (h : d.value? reader = some e)
    (hx : x.Occurs e) : ∃ p : Derivation, p.Occurs d ∧ p.value? reader = some x := by
  induction hx using Relation.ReflTransGen.head_induction_on with
  | refl => exact ⟨d, .refl, h⟩
  | head hpart _ ih =>
    obtain ⟨p, hp, hvalue⟩ := ih
    obtain ⟨q, hq, hqx⟩ := exists_left_of_forall₂ (forall₂_parts reader hvalue) hpart
    exact ⟨q, .head hq hp, hqx⟩

/-- Every part of a derivation that means something means something itself. -/
theorem exists_meaning {d p : Derivation} {e : Expression} (h : d.value? reader = some e)
    (hp : p.Occurs d) : ∃ x : Expression, x.Occurs e ∧ p.value? reader = some x := by
  induction hp using Relation.ReflTransGen.head_induction_on with
  | refl => exact ⟨e, .refl, h⟩
  | head hpart _ ih =>
    obtain ⟨x, hx, hvalue⟩ := ih
    obtain ⟨y, hy, hpy⟩ := exists_left_of_forall₂ (forall₂_parts reader hvalue).flip hpart
    exact ⟨y, .head hy hx, hpy⟩

theorem keys_of_fieldValues? {more : List (Key × Derivation)} {entries : List (Text × Expression)}
    (h : fieldValues? reader more = some entries) :
    Expression.keys entries = more.map (fun m => m.1.text) := by
  rw [Expression.keys, ← List.forall₂_eq_eq_eq, List.forall₂_map_left_iff,
    List.forall₂_map_right_iff]
  exact List.Forall₂.flip ((forall₂_fieldValues? reader h).imp fun _ _ hm => hm.1.symm)

/-- The keys of an object are those that are written, in the same order. -/
theorem keys_of_value? {d : Derivation} {entries : List (Text × Expression)}
    (h : d.value? reader = some (.object entries)) :
    Expression.keys entries = d.keys.map Key.text := by
  cases d with
  | atom t =>
    rcases leaf_of_compileAtom reader (value?_atom_iff.1 h) with ⟨v, hv⟩ | ⟨_, _, hv⟩
    · cases hv
    · cases hv
  | string _ | emptyArray => cases h
  | emptyObject =>
    cases h
    rfl
  | object key value more _ =>
    obtain ⟨v, rest, -, hrest, -, h⟩ := value?_object_iff.1 h
    cases h
    simpa [keys, Expression.keys, Function.comp_def] using keys_of_fieldValues? reader hrest
  | array _ _ _ =>
    obtain ⟨_, _, -, -, h⟩ := value?_array_iff.1 h
    cases h

/-- No two keys of an object that means something are the same. -/
theorem nodup_of_value? {d : Derivation} {e : Expression} (h : d.value? reader = some e) :
    (d.keys.map Key.text).Nodup := by
  cases d with
  | object key value more _ =>
    obtain ⟨v, rest, -, hrest, hnd, -⟩ := value?_object_iff.1 h
    rw [keys_of_fieldValues? reader hrest] at hnd
    simpa [keys, Function.comp_def] using hnd
  | _ => exact List.nodup_nil

/-! ## What means nothing -/

/-- Why a derivation means nothing, and with what it is refused: an atom of it is refused, or an
object of it has the key twice. -/
inductive Fails (d : Derivation) : Refusal → Prop
  | atom {t : Text} {f : Failure} (ho : (Derivation.atom t).Occurs d)
    (h : compileAtom reader t = .error f) : Fails d (.atom f)
  | repeated {o : Derivation} {key : Text} (ho : o.Occurs d)
    (h : List.Duplicate key (o.keys.map Key.text)) : Fails d (.fault (.duplicateKey key))

theorem Fails.inside {d p : Derivation} {r : Refusal} (h : p.Fails reader r) (hp : p ∈ d.parts) :
    d.Fails reader r := by
  cases h with
  | atom ho h => exact .atom (ho.tail hp) h
  | repeated ho h => exact .repeated (ho.tail hp) h

theorem value?_eq_none_of_fails {d : Derivation} {r : Refusal} (h : d.Fails reader r) :
    d.value? reader = none := by
  by_contra hne
  obtain ⟨e, he⟩ := Option.ne_none_iff_exists'.1 hne
  cases h with
  | atom ho h =>
    obtain ⟨x, -, hx⟩ := exists_meaning reader he ho
    simp [value?, h, Except.toOption] at hx
  | repeated ho h =>
    obtain ⟨x, -, hx⟩ := exists_meaning reader he ho
    exact h.not_nodup (nodup_of_value? reader hx)

/-! ## How it is refused -/

theorem run_key_duplicate {before : List (Text × Expression)} {key : Key}
    (h : key.text ∈ Expression.keys before) (outer : List Frame) (rest : List Lexeme) :
    run reader (.entry before outer) (key.lexeme :: .mark ':' :: rest) =
      .error (.fault (.duplicateKey key.text)) := by
  cases key <;> simp_all [run, step, Key.lexeme, Key.text, readKey]

theorem duplicate_append {k : Text} {a b : List Text} (ha : k ∈ a) (hb : k ∈ b) :
    List.Duplicate k (a ++ b) :=
  List.duplicate_iff_sublist.2
    ((List.singleton_sublist.2 ha).append (List.singleton_sublist.2 hb))

mutual

/-- The automaton refuses a value that means nothing, whatever is behind it. -/
theorem run_value_fails : ∀ (d : Derivation) (outer : List Frame) (rest : List Lexeme),
    d.value? reader = none →
      ∃ r, d.Fails reader r ∧ run reader (.value outer) (d.lexemes ++ rest) = .error r
  | .atom t, outer, rest, h => by
    cases hc : compileAtom reader t with
    | ok e => simp [value?, hc, Except.toOption] at h
    | error f => exact ⟨.atom f, .atom .refl hc, by simp [lexemes, run, step, readValue, hc]⟩
  | .string t, outer, rest, h => by cases h
  | .emptyObject, outer, rest, h => by cases h
  | .emptyArray, outer, rest, h => by cases h
  | .object key value more comma, outer, rest, h => by
    have hk : key.text ∉ Expression.keys [] := List.not_mem_nil
    have hstart : run reader (.value outer) ((object key value more comma).lexemes ++ rest) =
        run reader (.value (.field [] key.text :: outer))
          (value.lexemes ++ (moreFields more ++ (closing comma '}' ++ rest))) := by
      rw [← run_key reader hk]
      simp [lexemes, run, step, readValue]
    rw [hstart]
    cases hv : value.value? reader with
    | none =>
      obtain ⟨r, hr, hrun⟩ := run_value_fails value (.field [] key.text :: outer)
        (moreFields more ++ (closing comma '}' ++ rest)) hv
      exact ⟨r, hr.inside reader List.mem_cons_self, hrun⟩
    | some v =>
      rw [run_value reader value _ _ hv]
      obtain ⟨r, hr, hrun⟩ := run_fields_fails more [(key.text, v)] outer
        (closing comma '}' ++ rest) (List.nodup_singleton _) fun entries hentries hnd => by
          have hkeys : (key.text :: Expression.keys entries).Nodup := hnd
          simp [value?, hv, hentries, List.nodup_cons.1 hkeys] at h
      refine ⟨r, ?_, hrun⟩
      rcases hr with ⟨k, rfl, hdup⟩ | ⟨p, hp, hr⟩
      · exact .repeated .refl (by simpa [keys, Expression.keys, Function.comp_def] using hdup)
      · exact hr.inside reader (List.mem_cons_of_mem _ hp)
  | .array item more comma, outer, rest, h => by
    have hstart : run reader (.value outer) ((array item more comma).lexemes ++ rest) =
        run reader (.value (.element [] :: outer))
          (item.lexemes ++ (moreItems more ++ (closing comma ']' ++ rest))) := by
      rw [← run_item]
      simp [lexemes, run, step, readValue]
    rw [hstart]
    cases hv : item.value? reader with
    | none =>
      obtain ⟨r, hr, hrun⟩ := run_value_fails item (.element [] :: outer)
        (moreItems more ++ (closing comma ']' ++ rest)) hv
      exact ⟨r, hr.inside reader List.mem_cons_self, hrun⟩
    | some v =>
      rw [run_value reader item _ _ hv]
      obtain ⟨r, ⟨p, hp, hr⟩, hrun⟩ := run_items_fails more [v] outer (closing comma ']' ++ rest)
        (Option.eq_none_iff_forall_ne_some.2 (by simpa [value?, hv] using h))
      exact ⟨r, hr.inside reader (List.mem_cons_of_mem _ hp), hrun⟩

/-- Further entries are refused after entries with distinct keys, if there is no way to read all of
them with distinct keys: for the first key that is there already, or for a value in front of it. -/
theorem run_fields_fails : ∀ (more : List (Key × Derivation)) (before : List (Text × Expression))
    (outer : List Frame) (rest : List Lexeme), (Expression.keys before).Nodup →
      (∀ entries, fieldValues? reader more = some entries →
        ¬ (Expression.keys (before.reverse ++ entries)).Nodup) →
      ∃ r, ((∃ k, r = .fault (.duplicateKey k) ∧
          List.Duplicate k ((Expression.keys before).reverse ++ more.map (fun m => m.1.text))) ∨
          ∃ p ∈ more.map (·.2), p.Fails reader r) ∧
        run reader (.afterField before outer) (moreFields more ++ rest) = .error r
  | [], before, outer, rest, hnd, h => by
    have := h [] rfl
    simp only [List.append_nil, Expression.keys, List.map_reverse, List.nodup_reverse] at this
    exact absurd hnd this
  | (key, value) :: more, before, outer, rest, hnd, h => by
    have hstart : run reader (.afterField before outer) (moreFields ((key, value) :: more) ++ rest)
        = run reader (.entry before outer)
          (key.lexeme :: .mark ':' :: (value.lexemes ++ (moreFields more ++ rest))) := by
      simp [moreFields, run, step]
    rw [hstart]
    by_cases hk : key.text ∈ Expression.keys before
    · -- The value of the entry is not read, so nothing is known of it.
      rw [run_key_duplicate reader hk]
      exact ⟨_, .inl ⟨key.text, rfl,
        duplicate_append (List.mem_reverse.2 hk) List.mem_cons_self⟩, rfl⟩
    · rw [run_key reader hk]
      cases hv : value.value? reader with
      | none =>
        obtain ⟨r, hr, hrun⟩ := run_value_fails value (.field before key.text :: outer)
          (moreFields more ++ rest) hv
        exact ⟨r, .inr ⟨value, List.mem_cons_self, hr⟩, hrun⟩
      | some v =>
        rw [run_value reader value _ _ hv]
        obtain ⟨r, hr, hrun⟩ := run_fields_fails more ((key.text, v) :: before) outer rest
          (List.nodup_cons.2 ⟨hk, hnd⟩) fun entries hentries => by
            simpa using h _ (by simp [fieldValues?, hv, hentries])
        refine ⟨r, ?_, hrun⟩
        rcases hr with ⟨k, rfl, hdup⟩ | ⟨p, hp, hr⟩
        · exact .inl ⟨k, rfl, by simpa [Expression.keys] using hdup⟩
        · exact .inr ⟨p, List.mem_cons_of_mem _ hp, hr⟩

theorem run_items_fails : ∀ (more : List Derivation) (before : List Expression)
    (outer : List Frame) (rest : List Lexeme), itemValues? reader more = none →
      ∃ r, (∃ p ∈ more, p.Fails reader r) ∧
        run reader (.afterItem before outer) (moreItems more ++ rest) = .error r
  | [], before, outer, rest, h => by cases h
  | item :: more, before, outer, rest, h => by
    have hstart : run reader (.afterItem before outer) (moreItems (item :: more) ++ rest) =
        run reader (.value (.element before :: outer))
          (item.lexemes ++ (moreItems more ++ rest)) := by
      rw [← run_item]
      simp [moreItems, run, step]
    rw [hstart]
    cases hv : item.value? reader with
    | none =>
      obtain ⟨r, hr, hrun⟩ := run_value_fails item (.element before :: outer)
        (moreItems more ++ rest) hv
      exact ⟨r, ⟨item, List.mem_cons_self, hr⟩, hrun⟩
    | some v =>
      rw [run_value reader item _ _ hv]
      obtain ⟨r, ⟨p, hp, hr⟩, hrun⟩ := run_items_fails more (v :: before) outer rest
        (Option.eq_none_iff_forall_ne_some.2 (by simpa [itemValues?, hv] using h))
      exact ⟨r, ⟨p, List.mem_cons_of_mem _ hp, hr⟩, hrun⟩

end

/-- A derivation means nothing exactly if there is a reason to refuse it. -/
theorem value?_eq_none_iff {d : Derivation} :
    d.value? reader = none ↔ ∃ r, d.Fails reader r := by
  constructor
  · intro h
    obtain ⟨r, hr, -⟩ := run_value_fails reader d [] [] h
    exact ⟨r, hr⟩
  · rintro ⟨r, hr⟩
    exact value?_eq_none_of_fails reader hr

end
end Derivation

/-- The failure of a text whose literal cannot be read on. -/
def Refusal.failure (t : Text) : Refusal → Failure
  | .fault f => .literal t f
  | .atom f => f

/-- A text whose derivation means nothing is refused for a reason in the derivation. -/
theorem read_error_of_lex (reader : Option FilterReader) {t : Text} {d : Derivation}
    (h : lex t = .ok d.lexemes) (hd : d.value? reader = none) :
    ∃ r, d.Fails reader r ∧ read reader t = .error (r.failure t) := by
  obtain ⟨r, hr, hrun⟩ := d.run_value_fails reader [] [] hd
  rw [List.append_nil] at hrun
  refine ⟨r, hr, ?_⟩
  cases r <;> simp [read, h, readAll, hrun, Refusal.failure]

end Literal
end Hydration
