import Hydration.Proofs.Fragment.Checks
import Hydration.Proofs.Fragment.Compiled
import Hydration.Proofs.Markup.Near
/-!
# Expressions that are written alike

Expressions count as written alike if they differ in nothing but numbers that are equal across
their types, such as `1` and `true`. In every context they fail alike, or have values near each
other. The values are the same only if the constants are, and then the expressions are the same,
since a filter expression is what its text is compiled to.

* `compile_isRead`: what is known of an expression that was read.
* `eq_of_same`: expressions that are written alike and have the same constants are the same.
* `parallel_evaluate`: the values of expressions that are written alike.
-/
namespace Hydration

/-! ## Evaluations side by side -/

/-- From every context both evaluations fail alike, or they give results that are related and leave
the same context. -/
def Evaluation.Parallel {α β : Type} (R : α → β → Prop) (a : Evaluation α) (b : Evaluation β) :
    Prop :=
  ∀ c, (∃ f, a.run c = .error f ∧ b.run c = .error f) ∨
    ∃ x y d, a.run c = .ok (x, d) ∧ b.run c = .ok (y, d) ∧ R x y

namespace Evaluation
variable {α β γ δ : Type} {R : α → β → Prop} {S : γ → δ → Prop} {a : Evaluation α}
  {b : Evaluation β} {f : α → Evaluation γ} {g : β → Evaluation δ}

theorem parallel_pure {x : α} {y : β} (h : R x y) : Parallel R (pure x) (pure y) :=
  fun c => .inr ⟨x, y, c, rfl, rfl, h⟩

theorem parallel_refl {R : α → α → Prop} (hR : ∀ x, R x x) (a : Evaluation α) :
    Parallel R a a := by
  intro c
  cases h : a.run c with
  | error e => exact .inl ⟨e, rfl, rfl⟩
  | ok r => exact .inr ⟨r.1, r.1, r.2, rfl, rfl, hR r.1⟩

theorem parallel_bind (h : Parallel R a b) (hfg : ∀ x y, R x y → Parallel S (f x) (g y)) :
    Parallel S (a >>= f) (b >>= g) := by
  intro c
  rw [StateT.run_bind, StateT.run_bind]
  rcases h c with ⟨e, ha, hb⟩ | ⟨x, y, d, ha, hb, hxy⟩
  · rw [ha, hb]
    exact .inl ⟨e, rfl, rfl⟩
  · rw [ha, hb]
    exact hfg x y hxy d

end Evaluation

/-! ## Constants -/

/-- A constant as it is read: a scalar, and a floating-point number in canonical form. -/
def Value.IsConstant : Value → Prop
  | .none | .bool _ | .int _ => True
  | .float x => x.Canonical
  | .text safe _ => safe = false
  | _ => False

/-- A constant that equals a number is a number. -/
theorem Value.isNumber_of_equals {v w : Value} (hv : v.IsNumber) (hw : w.IsConstant)
    (h : v.equals w = true) : w.IsNumber := by
  cases w with
  | bool _ | int _ | float _ => exact hw
  | none | text _ _ =>
    cases v with
    | bool _ | int _ =>
      rw [equals] at h
      cases h
    | float _ => simp [equals] at h
    | _ => exact hv.elim
  | _ => exact hw.elim

theorem Value.near_of_isNumber {v w : Value} (hv : v.IsNumber) (hw : w.IsConstant)
    (h : v.equals w = true) : Near v w := .number hv (isNumber_of_equals hv hw h) h

/-- Constants that are equal are near each other. -/
theorem Value.near_of_equals {v w : Value} (hv : v.IsConstant) (hw : w.IsConstant)
    (h : v.equals w = true) : Near v w := by
  cases v with
  | bool _ | int _ | float _ => exact near_of_isNumber hv hw h
  | none =>
    cases w with
    | none => exact .same _
    | _ => simp [equals] at h
  | text _ s =>
    obtain rfl := hv
    cases w with
    | text _ t =>
      obtain rfl := hw
      have hst : (s == t) = true := by rwa [equals] at h
      rw [eq_of_beq hst]
      exact .same _
    | none | bool _ | int _ | float _ => simp [equals] at h
    | _ => exact hw.elim
  | _ => exact hv.elim

namespace Literal

theorem ReadWord.isConstant {v : Value} (h : ReadWord v) : v.IsConstant := by
  cases h <;> trivial

theorem ReadNumber.isConstant {t : Text} {v : Value} (h : ReadNumber t v) : v.IsConstant := by
  cases h with
  | float =>
    cases hread : Number.readFloat? t with
    | none => trivial
    | some x => exact (Binary64.isDouble_of_readFloat hread).canonical
  | int _ _ => trivial

end Literal

namespace Expression
open Value (Near NearEntries NearItems)

/-! ## What is read -/

mutual

/-- The expression is one that may be read: filter expressions are what their texts are compiled
to, and the keys of each object differ. -/
def IsRead : Expression → Prop
  | .constant v => v.IsConstant
  | .variable source pipe => Pipe.compile source = .ok pipe
  | .object entries => (keys entries).Nodup ∧ EntriesRead entries
  | .array items => ItemsRead items

def EntriesRead : List (Text × Expression) → Prop
  | [] => True
  | (_, e) :: rest => IsRead e ∧ EntriesRead rest

def ItemsRead : List Expression → Prop
  | [] => True
  | e :: rest => IsRead e ∧ ItemsRead rest

end

theorem entriesRead_of_forall {entries : List (Text × Expression)}
    (h : ∀ entry ∈ entries, entry.2.IsRead) : EntriesRead entries := by
  induction entries with
  | nil => trivial
  | cons entry rest ih => exact ⟨(List.forall_mem_cons.1 h).1, ih (List.forall_mem_cons.1 h).2⟩

theorem itemsRead_of_forall {items : List Expression} (h : ∀ e ∈ items, e.IsRead) :
    ItemsRead items := by
  induction items with
  | nil => trivial
  | cons e rest ih => exact ⟨(List.forall_mem_cons.1 h).1, ih (List.forall_mem_cons.1 h).2⟩

theorem isRead_of_readAtom {t : Text} {e : Expression}
    (h : Literal.ReadAtom (some Pipe.compile) t e) : e.IsRead := by
  cases h with
  | word h => exact h.isConstant
  | number _ h => exact (Literal.readNumber h).isConstant
  | filter hreader h =>
    cases hreader
    exact h

theorem compile_isRead {text : Text} {e : Expression}
    (h : Expression.compile (some Pipe.compile) text = .ok e) : e.IsRead := by
  replace h := Literal.meaning_of_compile h
  induction h with
  | atom h => exact isRead_of_readAtom (Literal.readAtom h)
  | string _ => exact rfl
  | object hnodup _ ih => exact ⟨hnodup, entriesRead_of_forall ih⟩
  | array _ ih => exact itemsRead_of_forall ih

/-! ## Written alike -/

mutual

/-- The constants of an expression, in the order in which they are written. -/
def constants : Expression → List Value
  | .constant v => [v]
  | .variable _ _ => []
  | .object entries => entriesConstants entries
  | .array items => itemsConstants items

def entriesConstants : List (Text × Expression) → List Value
  | [] => []
  | (_, e) :: rest => constants e ++ entriesConstants rest

def itemsConstants : List Expression → List Value
  | [] => []
  | e :: rest => constants e ++ itemsConstants rest

end

mutual

/-- Expressions that are written alike have constants in the same places. -/
theorem length_constants_of_same : ∀ (e : Expression) {e' : Expression}, e.same e' = true →
    e.constants.length = e'.constants.length
  | .constant _, .constant _, _ => rfl
  | .variable _ _, .variable _ _, _ => rfl
  | .object entries, .object _, h => length_entriesConstants_of_same entries h
  | .array items, .array _, h => length_itemsConstants_of_same items h

theorem length_entriesConstants_of_same : ∀ (entries : List (Text × Expression))
    {entries' : List (Text × Expression)}, sameEntries entries entries' = true →
    (entriesConstants entries).length = (entriesConstants entries').length
  | [], [], _ => rfl
  | (k, e) :: rest, (k', e') :: rest', h => by
    simp only [sameEntries, Bool.and_eq_true] at h
    simp only [entriesConstants, List.length_append, length_constants_of_same e h.1.2,
      length_entriesConstants_of_same rest h.2]

theorem length_itemsConstants_of_same : ∀ (items : List Expression) {items' : List Expression},
    sameItems items items' = true →
    (itemsConstants items).length = (itemsConstants items').length
  | [], [], _ => rfl
  | e :: rest, e' :: rest', h => by
    simp only [sameItems, Bool.and_eq_true] at h
    simp only [itemsConstants, List.length_append, length_constants_of_same e h.1,
      length_itemsConstants_of_same rest h.2]

end

theorem entriesConstants_cons_inj {k k' : Text} {e e' : Expression}
    {rest rest' : List (Text × Expression)} (h : e.same e' = true) :
    entriesConstants ((k, e) :: rest) = entriesConstants ((k', e') :: rest') ↔
      e.constants = e'.constants ∧ entriesConstants rest = entriesConstants rest' :=
  ⟨fun heq => List.append_inj heq (length_constants_of_same e h),
    fun heq => congrArg₂ (· ++ ·) heq.1 heq.2⟩

theorem itemsConstants_cons_inj {e e' : Expression} {rest rest' : List Expression}
    (h : e.same e' = true) :
    itemsConstants (e :: rest) = itemsConstants (e' :: rest') ↔
      e.constants = e'.constants ∧ itemsConstants rest = itemsConstants rest' :=
  ⟨fun heq => List.append_inj heq (length_constants_of_same e h),
    fun heq => congrArg₂ (· ++ ·) heq.1 heq.2⟩

mutual

/-- Expressions that are written alike and have the same constants are the same. -/
theorem eq_of_same : ∀ (e : Expression) {e' : Expression}, e.same e' = true → e.IsRead →
    e'.IsRead → e.constants = e'.constants → e = e'
  | .constant _, .constant _, _, _, _, h => by
    rw [List.singleton_inj.1 h]
  | .variable source pipe, .variable source' pipe', hsame, hread, hread', _ => by
    obtain rfl := eq_of_beq hsame
    rw [Except.ok.inj (Eq.trans (Eq.symm hread) hread')]
  | .object entries, .object _, hsame, hread, hread', h => by
    rw [eq_of_sameEntries entries hsame hread.2 hread'.2 h]
  | .array items, .array _, hsame, hread, hread', h => by
    rw [eq_of_sameItems items hsame hread hread' h]

theorem eq_of_sameEntries : ∀ (entries : List (Text × Expression))
    {entries' : List (Text × Expression)}, sameEntries entries entries' = true →
    EntriesRead entries → EntriesRead entries' →
    entriesConstants entries = entriesConstants entries' → entries = entries'
  | [], [], _, _, _, _ => rfl
  | (k, e) :: rest, (k', e') :: rest', hsame, hread, hread', h => by
    simp only [sameEntries, Bool.and_eq_true, beq_iff_eq] at hsame
    obtain ⟨⟨rfl, hfirst⟩, hrest⟩ := hsame
    obtain ⟨hconstants, hmore⟩ := (entriesConstants_cons_inj hfirst).1 h
    rw [eq_of_same e hfirst hread.1 hread'.1 hconstants,
      eq_of_sameEntries rest hrest hread.2 hread'.2 hmore]

theorem eq_of_sameItems : ∀ (items : List Expression) {items' : List Expression},
    sameItems items items' = true → ItemsRead items → ItemsRead items' →
    itemsConstants items = itemsConstants items' → items = items'
  | [], [], _, _, _, _ => rfl
  | e :: rest, e' :: rest', hsame, hread, hread', h => by
    simp only [sameItems, Bool.and_eq_true] at hsame
    obtain ⟨hconstants, hmore⟩ := (itemsConstants_cons_inj hsame.1).1 h
    rw [eq_of_same e hsame.1 hread.1 hread'.1 hconstants,
      eq_of_sameItems rest hsame.2 hread.2 hread'.2 hmore]

end

/-! ## Values -/

/-- Values of two expressions in one context: near each other, and the same only if the constants
are. -/
def Mirrors (e e' : Expression) (v w : Value) : Prop :=
  Near v w ∧ (v = w ↔ e.constants = e'.constants)

/-- Entries of two objects in one context, under the keys of the first one. -/
def EntriesMirror (entries entries' : List (Text × Expression))
    (values values' : List (Value × Value)) : Prop :=
  NearEntries values values' ∧ values.map (·.1) = (keys entries).map .str ∧
    (values = values' ↔ entriesConstants entries = entriesConstants entries')

/-- Items of two arrays in one context. -/
def ItemsMirror (items items' : List Expression) (values values' : List Value) : Prop :=
  NearItems values values' ∧ (values = values' ↔ itemsConstants items = itemsConstants items')

theorem str_injective : Function.Injective Value.str := fun _ _ h => by
  cases h
  rfl

mutual

/-- In every context expressions that are written alike fail alike, or have values that mirror each
other. -/
theorem parallel_evaluate : ∀ (e : Expression) {e' : Expression}, e.same e' = true → e.IsRead →
    e'.IsRead → Evaluation.Parallel (Mirrors e e') e.evaluate e'.evaluate
  | .constant v, .constant w, hsame, hread, hread' =>
    Evaluation.parallel_pure ⟨Value.near_of_equals hread hread' hsame, List.singleton_inj.symm⟩
  | .variable source pipe, .variable source' pipe', hsame, hread, hread' => by
    obtain rfl := eq_of_beq hsame
    obtain rfl := Except.ok.inj (Eq.trans (Eq.symm hread) hread')
    exact Evaluation.parallel_refl (fun v => ⟨.same v, iff_of_true rfl rfl⟩) _
  | .object entries, .object entries', hsame, hread, hread' => by
    rw [evaluate, evaluate]
    refine Evaluation.parallel_bind (parallel_entries entries hsame hread.2 hread'.2) ?_
    rintro values values' ⟨hnear, hkeys, hiff⟩
    refine Evaluation.parallel_pure ⟨.dict ?_ hnear, ?_⟩
    · rw [hkeys]
      exact hread.1.map str_injective
    · rw [Value.dict.injEq]
      exact hiff
  | .array items, .array items', hsame, hread, hread' => by
    rw [evaluate, evaluate]
    refine Evaluation.parallel_bind (parallel_items items hsame hread hread') ?_
    rintro values values' ⟨hnear, hiff⟩
    refine Evaluation.parallel_pure ⟨.list hnear, ?_⟩
    rw [Value.list.injEq]
    exact hiff

theorem parallel_entries : ∀ (entries : List (Text × Expression))
    {entries' : List (Text × Expression)}, sameEntries entries entries' = true →
    EntriesRead entries → EntriesRead entries' →
    Evaluation.Parallel (EntriesMirror entries entries') (evaluateEntries entries)
      (evaluateEntries entries')
  | [], [], _, _, _ => Evaluation.parallel_pure ⟨.nil, rfl, iff_of_true rfl rfl⟩
  | (k, e) :: rest, (k', e') :: rest', hsame, hread, hread' => by
    simp only [sameEntries, Bool.and_eq_true, beq_iff_eq] at hsame
    obtain ⟨⟨rfl, hfirst⟩, hrest⟩ := hsame
    rw [evaluateEntries, evaluateEntries]
    refine Evaluation.parallel_bind (parallel_evaluate e hfirst hread.1 hread'.1) ?_
    rintro v w ⟨hnear, hiff⟩
    refine Evaluation.parallel_bind (parallel_entries rest hrest hread.2 hread'.2) ?_
    rintro values values' ⟨hmore, hkeys, hmoreiff⟩
    refine Evaluation.parallel_pure ⟨.cons k hnear hmore, congrArg (Value.str k :: ·) hkeys, ?_⟩
    rw [entriesConstants_cons_inj hfirst, ← hiff, ← hmoreiff]
    simp

theorem parallel_items : ∀ (items : List Expression) {items' : List Expression},
    sameItems items items' = true → ItemsRead items → ItemsRead items' →
    Evaluation.Parallel (ItemsMirror items items') (evaluateItems items) (evaluateItems items')
  | [], [], _, _, _ => Evaluation.parallel_pure ⟨.nil, iff_of_true rfl rfl⟩
  | e :: rest, e' :: rest', hsame, hread, hread' => by
    simp only [sameItems, Bool.and_eq_true] at hsame
    rw [evaluateItems, evaluateItems]
    refine Evaluation.parallel_bind (parallel_evaluate e hsame.1 hread.1 hread'.1) ?_
    rintro v w ⟨hnear, hiff⟩
    refine Evaluation.parallel_bind (parallel_items rest hsame.2 hread.2 hread'.2) ?_
    rintro values values' ⟨hmore, hmoreiff⟩
    refine Evaluation.parallel_pure ⟨.cons hnear hmore, ?_⟩
    rw [itemsConstants_cons_inj hsame.1, ← hiff, ← hmoreiff]
    simp

end

end Expression
end Hydration
