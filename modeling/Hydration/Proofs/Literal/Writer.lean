import Hydration.Fragment
import Hydration.Proofs.Number.Numeral
import Hydration.Proofs.Tag.Extent
import Hydration.Proofs.Text.Joined
/-!
# Writing plain values

Plain values are what a literal can hold without variables: nothing, truth values, integers,
strings, lists and objects. `Plain.write` writes them as a literal, each string between quotes of
its own choice, with a backslash before every backslash and every such quote.

* `lexed_write`: a written value is cut into the lexemes of its derivation.
* `value?_derivation`: which means the value, under every reader of filter expressions.
* `evaluate_expression`: and evaluates to it in every context.
* `compile_written`: a tag with a written reference and written props is compiled to them.
-/
namespace Hydration
open Literal (Derivation Key Lexed FilterReader compileAtom)
open Text.Quoted (Closed isQuote)

/-- The quotes that a string is written between. -/
inductive Quote
  | double
  | single
  deriving DecidableEq, Repr

namespace Quote

def char : Quote → Char
  | .double => '"'
  | .single => '\''

theorem isQuote_char (q : Quote) : isQuote q.char = true := by
  cases q <;> rfl

/-- A text as a string between these quotes. -/
def write (q : Quote) (t : Text) : Text := Text.Quoted.encode q.char t

theorem decode?_write (q : Quote) (t : Text) : Text.Quoted.decode? (q.write t) = some t :=
  Text.Quoted.decode?_encode q.isQuote_char t

theorem closed_write (q : Quote) (t : Text) : Closed false (q.write t) :=
  Text.Quoted.closed_encode false q.isQuote_char t

theorem write_eq (q : Quote) (t : Text) : ∃ body, q.write t = q.char :: (body ++ [q.char]) ∧
    ∀ breaks, Text.Quoted.IsBody breaks q.char body :=
  ⟨_, rfl, fun breaks => Text.Quoted.isBody_encode breaks q.isQuote_char t⟩

end Quote

/-- A value without variables, with the quotes that its strings and keys are written between. -/
inductive Plain
  | null
  | bool (b : Bool)
  | int (i : Int)
  | str (q : Quote) (t : Text)
  | list (items : List Plain)
  | dict (entries : List (Quote × Text × Plain))

namespace Plain

/-- The words for nothing and for the truth values. -/
def writeWord : Option Bool → Text
  | none => "null"
  | some true => "true"
  | some false => "false"

mutual

/-- A plain value as it is written. -/
def write : Plain → Text
  | .null => writeWord none
  | .bool b => writeWord (some b)
  | .int i => Number.ofInt i
  | .str q t => q.write t
  | .list items => '[' :: ([',', ' '].intercalate (writeItems items) ++ [']'])
  | .dict entries => '{' :: ([',', ' '].intercalate (writeEntries entries) ++ ['}'])

def writeItems : List Plain → List Text
  | [] => []
  | p :: more => write p :: writeItems more

def writeEntries : List (Quote × Text × Plain) → List Text
  | [] => []
  | (q, key, p) :: more => (q.write key ++ ([':', ' '] ++ write p)) :: writeEntries more

end

mutual

/-- The value itself. -/
def value : Plain → Value
  | .null => .none
  | .bool b => .bool b
  | .int i => .int i
  | .str _ t => .str t
  | .list items => .list (itemValues items)
  | .dict entries => .dict (entryValues entries)

def itemValues : List Plain → List Value
  | [] => []
  | p :: more => value p :: itemValues more

def entryValues : List (Quote × Text × Plain) → List (Value × Value)
  | [] => []
  | (_, key, p) :: more => (.str key, value p) :: entryValues more

end

/-- The keys of entries. -/
def keys (entries : List (Quote × Text × Plain)) : List Text := entries.map (·.2.1)

mutual

/-- Integers have no more digits than can be read, and the keys of each object differ. -/
def Valid : Plain → Prop
  | .int i => (Text.ofNat i.natAbs).length ≤ Number.maxDigits
  | .list items => ValidItems items
  | .dict entries => (keys entries).Nodup ∧ ValidEntries entries
  | _ => True

def ValidItems : List Plain → Prop
  | [] => True
  | p :: more => Valid p ∧ ValidItems more

def ValidEntries : List (Quote × Text × Plain) → Prop
  | [] => True
  | (_, _, p) :: more => Valid p ∧ ValidEntries more

end

/-! ## Derivations of written values -/

mutual

/-- The derivation of a value as it is written. -/
def derivation : Plain → Derivation
  | .list [] => .emptyArray
  | .list (p :: more) => .array (derivation p) (itemDerivations more) false
  | .dict [] => .emptyObject
  | .dict ((q, key, p) :: more) =>
    .object (.quoted (q.write key)) (derivation p) (entryDerivations more) false
  | .str q t => .string (q.write t)
  | .null => .atom (writeWord none)
  | .bool b => .atom (writeWord (some b))
  | .int i => .atom (Number.ofInt i)

def itemDerivations : List Plain → List Derivation
  | [] => []
  | p :: more => derivation p :: itemDerivations more

def entryDerivations : List (Quote × Text × Plain) → List (Key × Derivation)
  | [] => []
  | (q, key, p) :: more => (.quoted (q.write key), derivation p) :: entryDerivations more

end

end Plain

namespace Literal

theorem Lexed.append {a b : Text} {la lb : List Lexeme} (ha : Lexed a la) (hb : Lexed b lb)
    (hends : EndsAtom b) : Lexed (a ++ b) (la ++ lb) := by
  refine lexed_of_lexFrom ?_
  rw [lexFrom_append (lexFrom_of_lexed ha) hends, lexFrom_of_lexed hb]
  rfl

theorem lexed_atom {a : Text} (hne : a ≠ []) (h : ∀ c ∈ a, isAtomChar c = true) :
    Lexed a [.atom a] := by
  have := Lexed.atom hne h endsAtom_nil .nil
  rwa [List.append_nil] at this

theorem isAtomChar_of_isDigit {c : Char} (h : c.isDigit = true) : isAtomChar c = true := by
  refine isAtomChar_iff.2 ⟨?_, ?_, Number.isBlank_of_isDigit h⟩
  · refine Bool.eq_false_iff.2 fun hq => ?_
    simp only [isQuote, Bool.or_eq_true, beq_iff_eq] at hq
    rcases hq with rfl | rfl <;> cases h
  · refine Bool.eq_false_iff.2 fun hm => ?_
    simp only [isMark, Bool.or_eq_true, beq_iff_eq] at hm
    rcases hm with ((((rfl | rfl) | rfl) | rfl) | rfl) | rfl <;> cases h

theorem isAtomChar_ofInt (i : Int) : ∀ c ∈ Number.ofInt i, isAtomChar c = true := by
  intro c hc
  rcases Number.mem_ofInt hc with rfl | hd
  · decide
  · exact isAtomChar_of_isDigit hd

theorem lexed_quoted (q : Quote) (t : Text) {rest : Text} {lexemes : List Lexeme}
    (h : Lexed rest lexemes) : Lexed (q.write t ++ rest) (.string (q.write t) :: lexemes) := by
  obtain ⟨body, heq, hbody⟩ := q.write_eq t
  rw [heq]
  simpa using Lexed.string q.isQuote_char (hbody true) h

end Literal
open Literal

namespace Plain

theorem endsAtom_comma {parts : List Text} {c : Char} (hc : isMark c = true) :
    EndsAtom (commaBefore parts ++ [c]) := by
  cases parts with
  | nil => exact endsAtom_cons (by simp [isAtomChar, hc]) []
  | cons part parts => exact endsAtom_cons (by decide) _

theorem isAtomChar_writeWord (word : Option Bool) : ∀ c ∈ writeWord word, isAtomChar c = true := by
  refine List.all_eq_true.1 ?_
  rcases word with _ | _ | _ <;> decide

theorem writeWord_ne_nil (word : Option Bool) : writeWord word ≠ [] := by
  rcases word with _ | _ | _ <;> decide

mutual

theorem lexed_write : ∀ p : Plain, Lexed p.write p.derivation.lexemes
  | .null => lexed_atom (writeWord_ne_nil none) (isAtomChar_writeWord none)
  | .bool b => lexed_atom (writeWord_ne_nil (some b)) (isAtomChar_writeWord (some b))
  | .int i => lexed_atom (Number.ofInt_ne_nil i) (isAtomChar_ofInt i)
  | .str q t => by
    have := lexed_quoted q t .nil
    rwa [List.append_nil] at this
  | .list [] => .mark (by decide) (.mark (by decide) .nil)
  | .list (p :: more) => by
    rw [write, writeItems, intercalate_comma, List.append_assoc]
    exact .mark (by decide) ((lexed_write p).append (lexed_items more) (endsAtom_comma (by decide)))
  | .dict [] => .mark (by decide) (.mark (by decide) .nil)
  | .dict ((q, key, p) :: more) => by
    rw [write, writeEntries, intercalate_comma]
    simp only [List.append_assoc]
    refine .mark (by decide) (lexed_quoted q key (.mark (by decide) (.blank (by decide) ?_)))
    exact (lexed_write p).append (lexed_entries more) (endsAtom_comma (by decide))

theorem lexed_items : ∀ more : List Plain, Lexed (commaBefore (writeItems more) ++ [']'])
    (Derivation.moreItems (itemDerivations more) ++ closing false ']')
  | [] => .mark (by decide) .nil
  | p :: more => by
    have h := (lexed_write p).append (lexed_items more) (endsAtom_comma (by decide))
    simpa [writeItems, commaBefore, itemDerivations, Derivation.moreItems] using
      Lexed.mark (c := ',') (by decide) (.blank (c := ' ') (by decide) h)

theorem lexed_entries : ∀ more : List (Quote × Text × Plain),
    Lexed (commaBefore (writeEntries more) ++ ['}'])
      (Derivation.moreFields (entryDerivations more) ++ closing false '}')
  | [] => .mark (by decide) .nil
  | (q, key, p) :: more => by
    have h := (lexed_write p).append (lexed_entries more) (endsAtom_comma (by decide))
    have hvalue := Lexed.mark (c := ':') (by decide) (.blank (c := ' ') (by decide) h)
    have hfield := lexed_quoted q key hvalue
    simpa [writeEntries, commaBefore, entryDerivations, Derivation.moreFields, Key.lexeme] using
      Lexed.mark (c := ',') (by decide) (.blank (c := ' ') (by decide) hfield)

end

mutual

/-- All strings of a written value can stand in a tag, since a backslash takes no line feed. -/
theorem closed_write : ∀ p : Plain, Closed false p.write
  | .null => closed_atom (isAtomChar_writeWord none)
  | .bool b => closed_atom (isAtomChar_writeWord (some b))
  | .int i => closed_atom (isAtomChar_ofInt i)
  | .str q t => q.closed_write t
  | .list [] => Text.Quoted.closed_of_all (by decide)
  | .list (p :: more) => by
    rw [write, writeItems, intercalate_comma]
    have hend : Closed false [']'] := Text.Quoted.closed_of_all (by decide)
    exact .char (by decide) (((closed_write p).append (closed_items more)).append hend)
  | .dict [] => Text.Quoted.closed_of_all (by decide)
  | .dict ((q, key, p) :: more) => by
    rw [write, writeEntries, intercalate_comma]
    have hend : Closed false ['}'] := Text.Quoted.closed_of_all (by decide)
    have hcolon : Closed false [':', ' '] := Text.Quoted.closed_of_all (by decide)
    have hfield := (q.closed_write key).append (hcolon.append (closed_write p))
    exact .char (by decide) ((hfield.append (closed_entries more)).append hend)

theorem closed_items : ∀ more : List Plain, Closed false (commaBefore (writeItems more))
  | [] => .nil
  | p :: more => .char (by decide) (.char (by decide) ((closed_write p).append (closed_items more)))

theorem closed_entries : ∀ more : List (Quote × Text × Plain),
    Closed false (commaBefore (writeEntries more))
  | [] => .nil
  | (q, key, p) :: more => by
    have hcolon : Closed false [':', ' '] := Text.Quoted.closed_of_all (by decide)
    have hfield := (q.closed_write key).append (hcolon.append (closed_write p))
    exact .char (by decide) (.char (by decide) (hfield.append (closed_entries more)))

end

/-! ## What they mean -/

mutual

/-- The expression that a value is read as. -/
def expression : Plain → Expression
  | .null => .constant .none
  | .bool b => .constant (.bool b)
  | .int i => .constant (.int i)
  | .str _ t => .constant (.str t)
  | .list items => .array (itemExpressions items)
  | .dict entries => .object (entryExpressions entries)

def itemExpressions : List Plain → List Expression
  | [] => []
  | p :: more => expression p :: itemExpressions more

def entryExpressions : List (Quote × Text × Plain) → List (Text × Expression)
  | [] => []
  | (_, key, p) :: more => (key, expression p) :: entryExpressions more

end

theorem keys_entryExpressions (entries : List (Quote × Text × Plain)) :
    Expression.keys (entryExpressions entries) = keys entries := by
  induction entries with
  | nil => rfl
  | cons e more ih =>
    simp only [Expression.keys, keys] at ih
    simp [Expression.keys, keys, entryExpressions, ih]

end Plain

namespace Literal

theorem afterDigits?_ofNat (n : Nat) : afterDigits? (Text.ofNat n) = some [] := by
  have hdigit : ∀ c ∈ Text.ofNat n, Text.isDigit c = true := by
    intro c hc
    rw [Text.isDigit, Number.digitValue?_of_isDigit (Number.isDigit_ofNat c hc)]
    rfl
  cases h : Text.ofNat n with
  | nil => exact absurd h (Number.ofNat_ne_nil n)
  | cons c rest =>
    rw [h] at hdigit
    simp only [afterDigits?, hdigit c List.mem_cons_self, if_true]
    rw [List.dropWhile_eq_nil_iff.2 fun d hd => hdigit d (List.mem_cons_of_mem _ hd)]

theorem isNumber_minus {rest : Text} (h : afterDigits? rest = some []) :
    isNumber ('-' :: rest) = true := by
  simp only [isNumber, h]
  rfl

theorem isNumber_digits {t : Text} (hm : ∀ rest, t ≠ '-' :: rest) (h : afterDigits? t = some []) :
    isNumber t = true := by
  simp only [isNumber, h]
  rfl

theorem isNumber_ofInt (i : Int) : isNumber (Number.ofInt i) = true := by
  unfold Number.ofInt
  split
  · exact isNumber_minus (afterDigits?_ofNat _)
  · refine isNumber_digits ?_ (afterDigits?_ofNat _)
    intro rest h
    have := Number.isDigit_ofNat '-' (by rw [h]; exact List.mem_cons_self)
    cases this

theorem wordConstant?_ofInt (i : Int) : wordConstant? (Number.ofInt i) = none := by
  have hne : ∀ word : Text, (∃ c ∈ word, c ≠ '-' ∧ c.isDigit = false) → Number.ofInt i ≠ word := by
    rintro word ⟨c, hc, hm, hd⟩ rfl
    rcases Number.mem_ofInt hc with rfl | hdigit
    · exact hm rfl
    · rw [hdigit] at hd
      cases hd
  unfold wordConstant?
  rw [if_neg (hne _ ⟨'t', by decide⟩), if_neg (hne _ ⟨'f', by decide⟩),
    if_neg (hne _ ⟨'n', by decide⟩)]

theorem compileAtom_word (reader : Option FilterReader) (b : Bool) :
    compileAtom reader (Plain.writeWord (some b)) = .ok (.constant (.bool b)) := by
  cases b <;> rfl

theorem compileAtom_ofInt (reader : Option FilterReader) {i : Int}
    (h : (Text.ofNat i.natAbs).length ≤ Number.maxDigits) :
    compileAtom reader (Number.ofInt i) = .ok (.constant (.int i)) := by
  have hplain : (Number.ofInt i).any (fun c => c == '.' || c == 'e' || c == 'E') = false := by
    refine List.any_eq_false.2 fun c hc => ?_
    rcases Number.mem_ofInt hc with rfl | hd
    · decide
    · intro hmark
      simp only [Bool.or_eq_true, beq_iff_eq] at hmark
      rcases hmark with (rfl | rfl) | rfl <;> cases hd
  have hvalue : numberValue (Number.ofInt i) = .ok (.int i) := by
    rw [numberValue, hplain, Number.readNumeral?_ofInt]
    simp only [Bool.false_eq_true, if_false, Option.getD_some, Number.length_digitsOf, h, if_true,
      Number.value_ofInt]
  simp only [compileAtom, wordConstant?_ofInt, isNumber_ofInt, if_true, hvalue]
  rfl

end Literal

namespace Plain

mutual

theorem value?_derivation (reader : Option FilterReader) : ∀ p : Plain, p.Valid →
    p.derivation.value? reader = some p.expression
  | .null, _ => rfl
  | .bool b, _ => by
    rw [derivation, Derivation.value?, compileAtom_word]
    rfl
  | .int i, h => by
    rw [derivation, Derivation.value?, compileAtom_ofInt reader (by simpa [Valid] using h)]
    rfl
  | .str q t, _ => by
    rw [derivation, Derivation.value?, q.decode?_write]
    rfl
  | .list [], _ => rfl
  | .list (p :: more), h => by
    simp only [Valid, ValidItems] at h
    simp [derivation, Derivation.value?, value?_derivation reader p h.1,
      itemValues?_derivations reader more h.2, expression, itemExpressions]
  | .dict [], _ => rfl
  | .dict ((q, key, p) :: more), h => by
    simp only [Valid, ValidEntries] at h
    have hkeys : (key :: Expression.keys (entryExpressions more)).Nodup := by
      rw [keys_entryExpressions]
      exact h.1
    simp [derivation, Derivation.value?, value?_derivation reader p h.2.1,
      fieldValues?_derivations reader more h.2.2, expression, entryExpressions, Key.text,
      q.decode?_write, List.nodup_cons.1 hkeys]

theorem itemValues?_derivations (reader : Option FilterReader) : ∀ more : List Plain,
    ValidItems more →
      Derivation.itemValues? reader (itemDerivations more) = some (itemExpressions more)
  | [], _ => rfl
  | p :: more, h => by
    simp [itemDerivations, Derivation.itemValues?, value?_derivation reader p h.1,
      itemValues?_derivations reader more h.2, itemExpressions]

theorem fieldValues?_derivations (reader : Option FilterReader) :
    ∀ more : List (Quote × Text × Plain), ValidEntries more →
      Derivation.fieldValues? reader (entryDerivations more) = some (entryExpressions more)
  | [], _ => rfl
  | (q, key, p) :: more, h => by
    simp [entryDerivations, Derivation.fieldValues?, value?_derivation reader p h.1,
      fieldValues?_derivations reader more h.2, entryExpressions, Key.text, q.decode?_write]

end

mutual

theorem evaluate_expression : ∀ p : Plain, p.expression.evaluate = pure p.value
  | .null | .bool _ | .int _ | .str _ _ => rfl
  | .list items => by
    rw [expression, Expression.evaluate, evaluate_items items]
    rfl
  | .dict entries => by
    rw [expression, Expression.evaluate, evaluate_entries entries]
    rfl

theorem evaluate_items : ∀ items : List Plain,
    Expression.evaluateItems (itemExpressions items) = pure (itemValues items)
  | [] => rfl
  | p :: more => by
    rw [itemExpressions, Expression.evaluateItems, evaluate_expression p, evaluate_items more]
    rfl

theorem evaluate_entries : ∀ entries : List (Quote × Text × Plain),
    Expression.evaluateEntries (entryExpressions entries) = pure (entryValues entries)
  | [] => rfl
  | (q, key, p) :: more => by
    rw [entryExpressions, Expression.evaluateEntries, evaluate_expression p, evaluate_entries more]
    rfl

end

theorem head_write_dict (entries : List (Quote × Text × Plain)) :
    ∃ rest, (Plain.dict entries).write = '{' :: (rest ++ ['}']) :=
  ⟨_, by rw [write]⟩

theorem opens_write_dict (entries : List (Quote × Text × Plain)) :
    opens (Plain.dict entries).write = true := by
  obtain ⟨rest, h⟩ := head_write_dict entries
  rw [h]
  rfl

/-- A written object is read as the value that was written. -/
theorem compile_write (reader : Option FilterReader) {entries : List (Quote × Text × Plain)}
    (h : (Plain.dict entries).Valid) :
    Expression.compile reader (Plain.dict entries).write = .ok (Plain.dict entries).expression := by
  have hopens := opens_write_dict entries
  have htrim : Text.trim (Plain.dict entries).write = (Plain.dict entries).write := by
    obtain ⟨rest, hw⟩ := head_write_dict entries
    rw [hw]
    refine Text.trim_eq_self ?_ ?_
    · intro c hc
      cases hc
      decide
    · intro c hc
      rw [← List.cons_append, List.getLast?_concat] at hc
      cases hc
      decide
  rw [compile_eq_read reader (by rw [htrim, hopens]), htrim, read_eq_ok_iff]
  exact ⟨_, (lex_eq_ok_iff _ _).2 (lexFrom_of_lexed (lexed_write _)),
    readAll_derivation reader (value?_derivation reader _ h)⟩

end Plain

/-! ## Whole tags -/

namespace Tag

theorem solid_write (q : Quote) (t : Text) : Solid (q.write t) := by
  obtain ⟨body, heq, hbody⟩ := q.write_eq t
  rw [heq]
  exact .string q.isQuote_char (hbody false) .nil

theorem classify_write (q : Quote) (t : Text) : classify (q.write t) = ⟨.string, q.write t⟩ := by
  obtain ⟨body, heq, hbody⟩ := q.write_eq t
  have hstring : Text.Quoted.isString (q.write t) = true := by
    rw [heq, Text.Quoted.isString, q.isQuote_char, hbody true []]
    rfl
  rw [classify, if_pos hstring]

theorem translationEnd?_write (q : Quote) (t : Text) : translationEnd? (q.write t) = none := by
  obtain ⟨body, heq, -⟩ := q.write_eq t
  rw [heq]
  cases q <;> rfl

/-- The contents of a tag before its props: its name and a written reference. -/
def writtenStart (q : Quote) (reference : Text) : Text :=
  "react ".toList ++ (q.write reference ++ " with ".toList)

/-- The contents of a tag with a written reference and written props. -/
def written (q : Quote) (reference : Text) (props : Plain) : Text :=
  writtenStart q reference ++ props.write

/-- The arguments that they are parsed to: the reference itself, and the props as they were
joined. -/
def writtenTag (reference : Text) (props : Plain) : ParsedTag :=
  ⟨"react", ⟨reference, some (spaced (bits props.write)), none, true⟩, []⟩

theorem inline_write (reader : Option FilterReader) {entries : List (Quote × Text × Plain)}
    (h : (Plain.dict entries).Valid) :
    Inline reader (Plain.dict entries).write (Plain.dict entries).expression
      (bits (Plain.dict entries).write) :=
  inline_bits (Plain.opens_write_dict entries) (Plain.closed_write _) (Plain.compile_write reader h)

theorem worded_reference (q : Quote) (reference : Text) :
    Worded ["react".toList, q.write reference] ("react ".toList ++ q.write reference) := by
  have hreact : Solid "react".toList :=
    .char (by decide) (.char (by decide) (.char (by decide) (.char (by decide)
      (.char (by decide) .nil))))
  have hreference : Worded [q.write reference] (q.write reference) := by
    obtain ⟨body, heq, -⟩ := q.write_eq reference
    have hne : q.write reference ≠ [] := by
      rw [heq]
      simp
    have := Worded.word (solid_write q reference) hne Text.startsBlank_nil .nil
    rwa [List.append_nil] at this
  have hblank : Text.isBlank ' ' = true := by decide
  exact .word hreact (by decide) (Text.startsBlank_cons.2 hblank) (.blank hblank hreference)

theorem reads_reference (q : Quote) {reference : Text} (hr : reference ≠ []) :
    (Layout.mk ⟨.string, q.write reference⟩ []).Reads ([q.write reference].map classify) where
  tokens_eq := by simp [Layout.tokens, classify_write]
  reference := .quoted (q.decode?_write reference) hr
  segments := by simp
  keywords := by simp

/-- Cutting the contents takes off the name, the reference and the keyword. -/
theorem cut_written (q : Quote) (reference rest : Text) :
    Cut (writtenStart q reference ++ rest)
      (["react".toList, q.write reference] ++ [Keyword.props.text]) rest := by
  have hclosed : Closed false ("react ".toList ++ q.write reference) :=
    (Text.Quoted.closed_of_all (by decide)).append (q.closed_write reference)
  have hgap : IsGap " ".toList := ⟨by decide, List.all_eq_true.1 (by decide)⟩
  have hcut := cut_keyword hclosed hgap .props hgap rest
  rw [(worded_reference q reference).bits] at hcut
  have hwith : " with ".toList = " ".toList ++ (Keyword.props.text ++ " ".toList) := by decide
  show Cut (("react ".toList ++ (q.write reference ++ " with ".toList)) ++ rest) _ rest
  rw [hwith]
  simp only [List.append_assoc] at hcut ⊢
  exact hcut

theorem joinTranslations_written (q : Quote) (reference : Text) :
    joinTranslations none (["react".toList, q.write reference] ++ [Keyword.props.text]) =
      .ok ("react".toList :: ([q.write reference] ++ [Keyword.props.text])) := by
  refine joinTranslations_plain ?_
  intro w hw
  simp only [List.cons_append, List.nil_append, List.mem_cons, List.not_mem_nil, or_false] at hw
  rcases hw with rfl | rfl | rfl
  · rfl
  · exact translationEnd?_write q reference
  · rfl

theorem parse_written (q : Quote) {reference : Text} (hr : reference ≠ [])
    {entries : List (Quote × Text × Plain)} (h : (Plain.dict entries).Valid) :
    parse (written q reference (.dict entries)) = .ok (writtenTag reference (.dict entries)) := by
  have hin := inline_write none h
  have hnothing : splitContents [] = .ok [] := by
    rw [splitContents, bits_nil]
    rfl
  have hsplit := split_inline hin (cut_written q reference _) (joinTranslations_written q reference)
    Text.startsBlank_nil hnothing
  rw [List.append_nil] at hsplit
  have hkeys : (([] : List Keyword) ++ Keyword.props :: []).Nodup := by decide
  have hmore : ([] : List Segment).flatMap Segment.tokens = ([] : List Text).map classify := rfl
  have hreads := reads_inline hin (reads_reference q hr) hmore (by simp) hkeys
  refine (parse_of_split hsplit hreads).trans ?_
  simp only [Layout.around, Layout.parsed, Layout.clauses, List.nil_append, List.filterMap_cons,
    Segment.clause?, Segment.handedBack?, List.filterMap_nil, writtenTag, Token.referenceText,
    q.decode?_write, joined_classify]
  rfl

end Tag

/-- **Written tags are read back.** A tag with a reference and an object of plain values as they are
written, each string between quotes of its own choice, is compiled to the component of the reference
and to props that have this object as their value in every context. -/
theorem compile_written (root extension : Text) (q : Quote) {reference : Text} (hr : reference ≠ [])
    {entries : List (Quote × Text × Plain)} (h : (Plain.dict entries).Valid) :
    ∃ parsed f, Tag.parse (Tag.written q reference (.dict entries)) = .ok parsed ∧
      parsed.forwarded = [] ∧ Fragment.compile root extension parsed = .ok f ∧
      f.component = .path root (Path.resolve root reference) ∧ f.container = none ∧
      ∃ props, f.props = some props ∧
        ∀ context, props.evaluate context = .ok ((Plain.dict entries).value, context) := by
  refine ⟨_, ⟨"react", .path root (Path.resolve root reference),
    some (Plain.dict entries).expression, none, extension⟩, Tag.parse_written q hr h, rfl, ?_, rfl,
    rfl, _, rfl, ?_⟩
  · have hprops := (Tag.inline_write (some Pipe.compile) h).compile_spaced
    simp only [Tag.writtenTag, Fragment.compile, Fragment.compileClause, hprops]
    rfl
  · intro context
    rw [Plain.evaluate_expression]
    rfl

/-- Strings with brackets, quotes, blanks and a line feed. -/
theorem compile_written_brackets :
    ∃ parsed f, Tag.parse ("react 'it\\'s' with ".toList ++
        "\x7b\"a \x7d\": ['\\\\ ]\n', -12, true]\x7d".toList) = .ok parsed ∧
      parsed.forwarded = [] ∧ Fragment.compile "ui".toList "react".toList parsed = .ok f ∧
      f.component = .path "ui".toList (Path.resolve "ui".toList "it's".toList) ∧
      f.container = none ∧
      ∃ props, f.props = some props ∧
        ∀ context, props.evaluate context = .ok (.dict [(.str "a \x7d".toList,
          .list [.str "\\ ]\n".toList, .int (-12), .bool true])], context) := by
  have hvalid : (Plain.dict [(.double, "a \x7d".toList,
      .list [.str .single "\\ ]\n".toList, .int (-12), .bool true])]).Valid := by
    simp only [Plain.Valid, Plain.ValidEntries, Plain.ValidItems]
    decide
  exact compile_written "ui" "react" .single (by decide : "it's".toList ≠ []) hvalid

end Hydration
