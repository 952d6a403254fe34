import Hydration.Proofs.Fragment.Literal
import Hydration.Proofs.Markup.Container
/-!
# Checks before rendering

What is checked of an expression is what is known of its value: the value of a constant, and that an
object has a dict with its keys and an array a list. So what is refused before rendering would be
refused later, whatever the variables are. Of an expression without variables everything is known,
but a tag name that is written in brackets is not looked at.

* `evaluate_mayBe`: an expression has no value but one that it may have.
* `checkProps_of_normalizeProps`, `checkContainer_of_normalizeContainer`: what is accepted as a
  value was accepted before.
* `normalizeProps_of_checkProps`, `normalizeContainer_of_checkContainer`: without variables, what
  was accepted is accepted as a value, but for a tag name in brackets.
-/
namespace Hydration

namespace Expression

/-! ## What is known of a value -/

mutual

/-- The value may be that of the expression, as far as is known without a context. -/
def MayBe : Expression → Value → Prop
  | .constant w, v => v = w
  | .variable _ _, _ => True
  | .object entries, v => ∃ values, v = .dict values ∧ EntriesMayBe entries values
  | .array items, v => ∃ values, v = .list values ∧ ItemsMayBe items values

def EntriesMayBe : List (Text × Expression) → List (Value × Value) → Prop
  | [], values => values = []
  | (k, e) :: rest, values =>
    ∃ v more, values = (.str k, v) :: more ∧ MayBe e v ∧ EntriesMayBe rest more

def ItemsMayBe : List Expression → List Value → Prop
  | [], values => values = []
  | e :: rest, values => ∃ v more, values = v :: more ∧ MayBe e v ∧ ItemsMayBe rest more

end

end Expression

theorem Evaluation.run_bind_ok_iff {α β : Type} {a : Evaluation α} {f : α → Evaluation β}
    {c c' : Context} {y : β} :
    (a >>= f).run c = .ok (y, c') ↔ ∃ x d, a.run c = .ok (x, d) ∧ (f x).run d = .ok (y, c') := by
  rw [StateT.run_bind]
  cases h : a.run c with
  | error e =>
    refine iff_of_false (fun h => by cases h) ?_
    rintro ⟨x, d, hx, -⟩
    cases hx
  | ok p =>
    obtain ⟨x, d⟩ := p
    constructor
    · intro hy
      exact ⟨x, d, rfl, hy⟩
    · rintro ⟨_, _, hx, hy⟩
      cases hx
      exact hy

namespace Expression

mutual

theorem evaluate_mayBe : ∀ (e : Expression) {v : Value} {c c' : Context},
    e.evaluate.run c = .ok (v, c') → e.MayBe v
  | .constant w, v, c, c', h => by
    cases h
    exact rfl
  | .variable _ _, _, _, _, _ => trivial
  | .object entries, v, c, c', h => by
    rw [evaluate, Evaluation.run_bind_ok_iff] at h
    obtain ⟨values, d, hvalues, hv⟩ := h
    cases hv
    exact ⟨values, rfl, evaluateEntries_mayBe entries hvalues⟩
  | .array items, v, c, c', h => by
    rw [evaluate, Evaluation.run_bind_ok_iff] at h
    obtain ⟨values, d, hvalues, hv⟩ := h
    cases hv
    exact ⟨values, rfl, evaluateItems_mayBe items hvalues⟩

theorem evaluateEntries_mayBe : ∀ (entries : List (Text × Expression))
    {values : List (Value × Value)} {c c' : Context},
    (evaluateEntries entries).run c = .ok (values, c') → EntriesMayBe entries values
  | [], values, c, c', h => by
    cases h
    exact rfl
  | (k, e) :: rest, values, c, c', h => by
    simp only [evaluateEntries, Evaluation.run_bind_ok_iff] at h
    obtain ⟨v, d, hv, more, d', hmore, hvalues⟩ := h
    cases hvalues
    exact ⟨v, more, rfl, evaluate_mayBe e hv, evaluateEntries_mayBe rest hmore⟩

theorem evaluateItems_mayBe : ∀ (items : List Expression) {values : List Value}
    {c c' : Context}, (evaluateItems items).run c = .ok (values, c') → ItemsMayBe items values
  | [], values, c, c', h => by
    cases h
    exact rfl
  | e :: rest, values, c, c', h => by
    simp only [evaluateItems, Evaluation.run_bind_ok_iff] at h
    obtain ⟨v, d, hv, more, d', hmore, hvalues⟩ := h
    cases hvalues
    exact ⟨v, more, rfl, evaluate_mayBe e hv, evaluateItems_mayBe rest hmore⟩

end

theorem mayBe_of_literal? {e : Expression} {v : Value} (h : e.literal? = some v) : e.MayBe v := by
  have hrun : e.evaluate.run (.ofValues []) = .ok (v, .ofValues []) := by
    rw [evaluate_of_literal? e h]
    rfl
  exact evaluate_mayBe e hrun

/-! ## Entries -/

theorem lookup?_cons (key k : Text) (v : Value) (rest : List (Value × Value)) :
    Value.lookup? (.str key) ((.str k, v) :: rest) =
      if key = k then some v else Value.lookup? (.str key) rest := by
  unfold Value.lookup?
  by_cases h : key = k
  · subst h
    simp [Value.str, Value.equals]
  · have hb : (Value.str k).equals (.str key) = false := by
      simpa [Value.str, Value.equals] using fun hk : k = key => h hk.symm
    simp [h, hb]

theorem get?_cons (key k : Text) (e : Expression) (rest : List (Text × Expression)) :
    get? ((k, e) :: rest) key = if key = k then some e else get? rest key := by
  unfold get?
  rw [List.lookup_cons]
  by_cases h : key = k
  · simp [h]
  · rw [beq_false_of_ne h, if_neg h]

/-- A key of the values is one of the entries, with a value that the expression there may have. -/
theorem lookup?_of_mayBe (key : Text) :
    ∀ {entries : List (Text × Expression)} {values : List (Value × Value)},
      EntriesMayBe entries values →
        (get? entries key = none ∧ Value.lookup? (.str key) values = none) ∨
          ∃ e v, get? entries key = some e ∧ Value.lookup? (.str key) values = some v ∧ e.MayBe v
  | [], values, h => by
    obtain rfl := h
    exact .inl ⟨rfl, rfl⟩
  | (k, e) :: rest, values, h => by
    obtain ⟨v, more, rfl, he, hmore⟩ := h
    rw [get?_cons, lookup?_cons]
    by_cases hk : key = k
    · rw [if_pos hk, if_pos hk]
      exact .inr ⟨e, v, rfl, rfl, he⟩
    · rw [if_neg hk, if_neg hk]
      exact lookup?_of_mayBe key hmore

theorem keys_of_mayBe : ∀ {entries : List (Text × Expression)} {values : List (Value × Value)},
    EntriesMayBe entries values → values.map (·.1) = (keys entries).map .str
  | [], values, h => by
    obtain rfl := h
    rfl
  | (k, e) :: rest, values, h => by
    obtain ⟨v, more, rfl, -, hmore⟩ := h
    rw [List.map_cons, keys_of_mayBe hmore]
    rfl

theorem mem_literalEntries? : ∀ {entries : List (Text × Expression)}
    {values : List (Value × Value)}, literalEntries? entries = some values →
    EntriesOfScalars entries →
    ∀ w ∈ values, ∃ e : Expression, e.OfScalars ∧ e.literal? = some w.2
  | [], values, h, _ => by
    cases h
    simp
  | (k, e) :: rest, values, h, hs => by
    obtain ⟨v, more, hv, hmore, rfl⟩ := literalEntries?_cons_iff.1 h
    exact List.forall_mem_cons.2 ⟨⟨e, hs.1, hv⟩, mem_literalEntries? hmore hs.2⟩

theorem literal?_of_get? {key : Text} {e : Expression} :
    ∀ {entries : List (Text × Expression)} {values : List (Value × Value)},
      literalEntries? entries = some values → get? entries key = some e →
        ∃ v, e.literal? = some v ∧ Value.lookup? (.str key) values = some v
  | [], values, _, h => by cases h
  | (k, e') :: rest, values, h, he => by
    obtain ⟨v, more, hv, hmore, rfl⟩ := literalEntries?_cons_iff.1 h
    rw [get?_cons] at he
    rw [lookup?_cons]
    by_cases hk : key = k
    · rw [if_pos hk] at he ⊢
      cases he
      exact ⟨v, hv, rfl⟩
    · rw [if_neg hk] at he ⊢
      exact literal?_of_get? hmore he

theorem entries?_of_isScalar {v : Value} (h : v.IsScalar) : v.entries? = none := by
  cases v <;> first | rfl | exact h.elim

end Expression

open Markup Expression

/-! ## Props -/

theorem normalizeProps_ok_iff {v : Value} :
    (∃ entries, normalizeProps v = .ok entries) ↔
      isOmitted v = true ∨ v.entries?.isSome = true := by
  unfold normalizeProps
  cases isOmitted v with
  | true => simp
  | false => cases v.entries? <;> simp

namespace Fragment

theorem checkProps_constant_ok_iff {v : Value} :
    checkProps (.constant v) = .ok () ↔ isOmitted v = true := by
  unfold checkProps
  cases ho : isOmitted v with
  | true => simp [ho]
  | false => cases hi : v.inspect <;> simp [ho, hi, bind, Except.bind]

/-- Props that are accepted were accepted before they had a value. -/
theorem checkProps_of_normalizeProps {e : Expression} {v : Value}
    {entries : List (Value × Value)} (hs : e.OfScalars) (hv : e.MayBe v)
    (h : normalizeProps v = .ok entries) : checkProps e = .ok () := by
  cases e with
  | constant w =>
    obtain rfl := hv
    rw [checkProps_constant_ok_iff]
    rcases normalizeProps_ok_iff.1 ⟨entries, h⟩ with ho | he
    · exact ho
    · rw [entries?_of_isScalar hs] at he
      cases he
  | array items =>
    obtain ⟨values, rfl, -⟩ := hv
    rcases normalizeProps_ok_iff.1 ⟨entries, h⟩ with ho | he
    · rw [isOmitted_list] at ho
      cases ho
    · cases he
  | «variable» _ _ | object _ => rfl

/-- Props without variables that are accepted have a value that is. -/
theorem normalizeProps_of_checkProps {e : Expression} {v : Value} (hv : e.literal? = some v)
    (h : checkProps e = .ok ()) : ∃ entries, normalizeProps v = .ok entries := by
  rw [normalizeProps_ok_iff]
  cases e with
  | constant w =>
    cases hv
    exact .inl (checkProps_constant_ok_iff.1 h)
  | «variable» _ _ => cases hv
  | object entries =>
    obtain ⟨values, -, rfl⟩ := Option.map_eq_some_iff.1 hv
    exact .inr rfl
  | array items => cases h

/-! ## Containers -/

theorem checkNames_ok_iff {names : List Text} :
    checkNames names = .ok () ↔
      ∀ name ∈ names, name ≠ tagKey → ∃ own, checkAttributeName (.str name) = .ok own := by
  induction names with
  | nil => simp [checkNames]
  | cons name rest ih =>
    rw [checkNames, List.forall_mem_cons]
    by_cases htag : name = tagKey
    · simp [htag, ih]
    · rw [if_neg htag]
      cases hname : checkAttributeName (.str name) with
      | error f => simp [htag, bind, Except.bind]
      | ok own => simpa [htag, bind, Except.bind] using ih

theorem checkEntries_ok_iff {entries : List (Text × Expression)} :
    checkEntries entries = .ok () ↔
      ∃ tag, get? entries tagKey = some tag ∧
        (∀ v, tag = .constant v → ∃ name, checkTagName v = .ok name) ∧
        checkNames (keys entries) = .ok () := by
  unfold checkEntries
  cases htag : get? entries tagKey with
  | none => simp
  | some tag =>
    cases tag with
    | constant v =>
      cases hname : checkTagName v with
      | error f => simp [hname, bind, Except.bind]
      | ok name => simp [hname, bind, Except.bind]
    | _ => simp

theorem checkContainer_constant_ok_iff {v : Value} :
    checkContainer (.constant v) = .ok () ↔
      isOmitted v = true ∨ ∃ name, checkTagName v = .ok name := by
  unfold checkContainer
  cases ho : isOmitted v with
  | true => simp [ho]
  | false => cases hname : checkTagName v <;> simp [ho, hname, Except.map]

/-- Names may be used as attributes of an expression exactly if they may of its values. -/
theorem checkNames_iff_namesAllowed {entries : List (Text × Expression)}
    {values : List (Value × Value)} (h : EntriesMayBe entries values) :
    checkNames (keys entries) = .ok () ↔ NamesAllowed values := by
  have hkeys := keys_of_mayBe h
  have hvalues : NamesAllowed values ↔ ∀ k ∈ values.map (·.1), k.equals (.str tagKey) = false →
      ∃ name, checkAttributeName k = .ok name := by
    simp [NamesAllowed, isAttributeEntry]
  rw [checkNames_ok_iff, hvalues, hkeys, List.forall_mem_map]
  simp only [Value.str, Value.equals, beq_eq_false_iff_ne]

end Fragment

namespace Markup

theorem normalizeContainer_scalar_ok_iff {v : Value} (h : v.IsScalar) :
    (∃ c, normalizeContainer v = .ok c) ↔
      isOmitted v = true ∨ ∃ name, checkTagName v = .ok name := by
  unfold normalizeContainer
  cases isOmitted v with
  | true => simp
  | false =>
    cases v with
    | text safe t => cases checkTagName (.text safe t) <;> simp [Except.map]
    | none | bool _ | int _ | float _ =>
      simp only [Bool.false_eq_true, if_false, false_or, Value.entries?]
      refine iff_of_false (by simp) ?_
      rintro ⟨name, hname⟩
      obtain ⟨_, hv, -⟩ := checkTagName_ok_iff.1 hname
      cases hv
    | _ => exact h.elim

theorem normalizeContainer_dict_ok_iff {entries : List (Value × Value)} :
    (∃ c, normalizeContainer (.dict entries) = .ok c) ↔
      ∃ tag name attributes, Value.lookup? (.str tagKey) entries = some tag ∧
        checkTagName tag = .ok name ∧ readAttributes entries = .ok attributes := by
  constructor
  · rintro ⟨c, hc⟩
    obtain ⟨tag, htag, hname, hread⟩ := normalizeContainer_dict_cases hc
    exact ⟨tag, _, _, htag, hname, hread⟩
  · rintro ⟨tag, name, attributes, htag, hname, hread⟩
    exact ⟨_, by rw [normalizeContainer_of_entries rfl htag, hname, hread]; rfl⟩

end Markup

namespace Expression

/-- The expression is written in brackets. -/
def isBracketed : Expression → Bool
  | .object _ | .array _ => true
  | _ => false

/-- The expression is an object whose tag name is written in brackets. -/
def HasBracketedTag (e : Expression) : Prop :=
  ∃ entries tag, e = .object entries ∧ get? entries tagKey = some tag ∧ tag.isBracketed = true

/-- No value in brackets is a tag name. -/
theorem checkTagName_of_isBracketed {e : Expression} {v : Value} (he : e.isBracketed = true)
    (hv : e.MayBe v) (name : Text) : checkTagName v ≠ .ok name := by
  intro h
  obtain ⟨safe, rfl, -⟩ := checkTagName_ok_iff.1 h
  cases e with
  | object _ | array _ =>
    obtain ⟨values, hvalue, -⟩ := hv
    cases hvalue
  | _ => cases he

end Expression

namespace Fragment

/-- A container that is accepted was accepted before it had a value, and its tag name is not in
brackets. -/
theorem checkContainer_of_normalizeContainer {e : Expression} {v : Value} {c : Container}
    (hs : e.OfScalars) (hv : e.MayBe v) (h : normalizeContainer v = .ok c) :
    checkContainer e = .ok () ∧ ¬ e.HasBracketedTag := by
  cases e with
  | constant w =>
    obtain rfl := hv
    refine ⟨?_, fun ⟨_, _, he, _⟩ => by cases he⟩
    exact checkContainer_constant_ok_iff.2 ((normalizeContainer_scalar_ok_iff hs).1 ⟨c, h⟩)
  | «variable» _ _ => exact ⟨rfl, fun ⟨_, _, he, _⟩ => by cases he⟩
  | array items =>
    obtain ⟨values, rfl, -⟩ := hv
    exact absurd h (normalizeContainer_list_ne_ok values c)
  | object entries =>
    obtain ⟨values, rfl, hvalues⟩ := hv
    obtain ⟨tag, name, attributes, htag, hname, hread⟩ := normalizeContainer_dict_ok_iff.1 ⟨c, h⟩
    rcases lookup?_of_mayBe tagKey hvalues with ⟨-, hnone⟩ | ⟨expression, v, hget, hlookup, hmay⟩
    · rw [hnone] at htag
      cases htag
    · rw [hlookup] at htag
      cases htag
      constructor
      · refine checkEntries_ok_iff.2 ⟨expression, hget, ?_, ?_⟩
        · rintro w rfl
          obtain rfl := hmay
          exact ⟨name, hname⟩
        · exact (checkNames_iff_namesAllowed hvalues).2 (readAttributes_ok_iff.1 hread).1
      · rintro ⟨_, tag, he, hget', hbracketed⟩
        cases he
        rw [hget] at hget'
        cases hget'
        exact checkTagName_of_isBracketed hbracketed hmay name hname

/-- Entries whose names may be used give attributes, since their values have texts. -/
theorem readAttributes_of_literal {entries : List (Text × Expression)}
    {values : List (Value × Value)} (hs : EntriesOfScalars entries)
    (hv : literalEntries? entries = some values) (h : NamesAllowed values) :
    ∃ attributes, readAttributes values = .ok attributes := by
  have htexts := mem_literalEntries? hv hs
  clear hv
  induction values with
  | nil => exact ⟨[], rfl⟩
  | cons w rest ih =>
    obtain ⟨k, v⟩ := w
    obtain ⟨hfirst, hrest⟩ := namesAllowed_cons.1 h
    obtain ⟨⟨e, he, hlit⟩, htexts⟩ := List.forall_mem_cons.1 htexts
    obtain ⟨more, hmore⟩ := ih hrest htexts
    cases htag : isAttributeEntry (k, v) with
    | false => exact ⟨more, readAttributes_cons_ok_iff.2 (.inl ⟨htag, hmore⟩)⟩
    | true =>
      obtain ⟨name, hname⟩ := hfirst htag
      cases hd : isDropped v with
      | true =>
        exact ⟨more, readAttributes_cons_ok_iff.2 (.inr ⟨htag, name, hname, .inl ⟨hd, hmore⟩⟩)⟩
      | false =>
        obtain ⟨t, ht⟩ := exists_toText_of_literal? he hlit
        exact ⟨_, readAttributes_cons_ok_iff.2
          (.inr ⟨htag, name, hname, .inr ⟨hd, t, more, ht, hmore, rfl⟩⟩)⟩

/-- A container without variables that is accepted has a value that is, unless its tag name is in
brackets. -/
theorem normalizeContainer_of_checkContainer {e : Expression} {v : Value} (hs : e.OfScalars)
    (hv : e.literal? = some v) (h : checkContainer e = .ok ()) (htag : ¬ e.HasBracketedTag) :
    ∃ c, normalizeContainer v = .ok c := by
  cases e with
  | constant w =>
    cases hv
    exact (normalizeContainer_scalar_ok_iff hs).2 (checkContainer_constant_ok_iff.1 h)
  | «variable» _ _ => cases hv
  | array items => cases h
  | object entries =>
    obtain ⟨values, hvalues, rfl⟩ := Option.map_eq_some_iff.1 hv
    obtain ⟨_, hd, hmay⟩ := mayBe_of_literal? (e := .object entries) hv
    cases hd
    obtain ⟨tag, hget, hname, hnames⟩ := checkEntries_ok_iff.1 h
    obtain ⟨w, hw, hlookup⟩ := literal?_of_get? hvalues hget
    have hallowed := (checkNames_iff_namesAllowed hmay).1 hnames
    obtain ⟨attributes, hread⟩ := readAttributes_of_literal hs hvalues hallowed
    obtain ⟨name, hname⟩ : ∃ name, checkTagName w = .ok name := by
      cases tag with
      | constant u =>
        cases hw
        exact hname w rfl
      | «variable» _ _ => cases hw
      | object _ | array _ => exact absurd ⟨entries, _, rfl, hget, rfl⟩ htag
    exact normalizeContainer_dict_ok_iff.2 ⟨w, name, attributes, hlookup, hname, hread⟩

end Fragment
end Hydration
