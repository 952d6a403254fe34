import Hydration.Literal.Lexeme
import Hydration.Expression
/-!
# Reading inline literals

    value  := object | array | atom | string
    object := '{' [pair (',' pair)* [',']] '}'      pair := (atom | string) ':' value
    array  := '[' [value (',' value)* [',']] ']'

The lexemes drive an automaton with a stack: a frame for every object or array that is still open,
with what was read of it. An atom is a constant, a number or a filter expression; how filter
expressions are read is a parameter, and without one they are refused.

* `run_append`: reading goes through lexemes from left to right.
-/
namespace Hydration.Literal

/-- Reads filter expressions. -/
abbrev FilterReader := Text → Except Failure Pipe

/-! ## Atoms -/

/-- The text after a run of digits, if there is a digit at the start. -/
def afterDigits? (t : Text) : Option Text :=
  match t with
  | [] => none
  | c :: rest => if Text.isDigit c then some (rest.dropWhile Text.isDigit) else none

/-- The text after a point and digits, or the text if it has none. -/
def afterFraction (t : Text) : Text :=
  match t with
  | '.' :: rest => (afterDigits? rest).getD t
  | _ => t

/-- The text after an exponent, or the text if it has none. -/
def afterExponent (t : Text) : Text :=
  match t with
  | c :: rest =>
    if c = 'e' ∨ c = 'E' then (afterDigits? (Number.takeSign rest).2).getD t else t
  | [] => []

/-- Whether the text is a number: digits after an optional minus, with a fraction and an exponent
or without. A line feed may follow. -/
def isNumber (t : Text) : Bool :=
  let body := match t with
    | '-' :: rest => rest
    | t => t
  match afterDigits? body with
  | none => false
  | some rest =>
    let left := afterExponent (afterFraction rest)
    left.isEmpty || left == ['\n']

/-- The value of a number, with a point or an exponent a floating-point number and otherwise an
integer. -/
def numberValue (t : Text) : Except Failure Value :=
  if t.any fun c => c == '.' || c == 'e' || c == 'E' then
    .ok (.float ((Number.readFloat? t).getD .nan))
  else
    let n := (Number.readNumeral? t).getD ⟨false, []⟩
    if n.digits.length ≤ Number.maxDigits then .ok (.int n.value)
    else .error (.value (.tooManyDigits (some n.digits.length)))

/-- The constants that are written as words. -/
def wordConstant? (t : Text) : Option Value :=
  if t = "true".toList then some (.bool true)
  else if t = "false".toList then some (.bool false)
  else if t = "null".toList then some .none
  else none

/-- The expression that an atom is. -/
def compileAtom (reader : Option FilterReader) (t : Text) : Except Failure Expression :=
  match wordConstant? t with
  | some v => .ok (.constant v)
  | none =>
    if isNumber t then (numberValue t).map .constant
    else
      match reader with
      | none => .error (.withoutTemplate t)
      | some read => (read t).map (.variable t)

/-! ## The automaton -/

/-- An object or array that is still open, with what was read of it, last part first. -/
inductive Frame
  | field (before : List (Text × Expression)) (key : Text)
  | element (before : List Expression)

/-- What may come next. -/
inductive State
  | value (outer : List Frame)
  | entry (before : List (Text × Expression)) (outer : List Frame)
  | colon (before : List (Text × Expression)) (key : Text) (outer : List Frame)
  | afterField (before : List (Text × Expression)) (outer : List Frame)
  | item (before : List Expression) (outer : List Frame)
  | afterItem (before : List Expression) (outer : List Frame)
  | done (e : Expression)

/-- Hands a complete value to the innermost open object or array. -/
def deliver (e : Expression) : List Frame → State
  | [] => .done e
  | .field before key :: outer => .afterField ((key, e) :: before) outer
  | .element before :: outer => .afterItem (e :: before) outer

/-- Why a literal cannot be read on: a fault of its own, or one in an atom. -/
inductive Refusal
  | fault (f : LiteralFault)
  | atom (f : Failure)

/-- Reads a value of one lexeme, or the start of one. -/
def readValue (reader : Option FilterReader) (outer : List Frame) :
    Lexeme → Except Refusal State
  | .mark '{' => .ok (.entry [] outer)
  | .mark '[' => .ok (.item [] outer)
  | .mark c => .error (.fault (.unexpected [c]))
  | .string t => .ok (deliver (.constant (.str ((Text.Quoted.decode? t).getD []))) outer)
  | .atom t =>
    match compileAtom reader t with
    | .ok e => .ok (deliver e outer)
    | .error f => .error (.atom f)

/-- Reads the key of an entry, which must be new. -/
def readKey (before : List (Text × Expression)) (outer : List Frame) (key : Text) :
    Except Refusal State :=
  if (Expression.keys before).contains key then .error (.fault (.duplicateKey key))
  else .ok (.colon before key outer)

/-- Reads one lexeme. -/
def step (reader : Option FilterReader) : State → Lexeme → Except Refusal State
  | .value outer, l => readValue reader outer l
  | .entry before outer, l =>
    match l with
    | .mark '}' => .ok (deliver (.object before.reverse) outer)
    | .mark c => .error (.fault (.expectedKey (some [c])))
    | .string t => readKey before outer ((Text.Quoted.decode? t).getD [])
    | .atom t => readKey before outer t
  | .colon before key outer, l =>
    if l = .mark ':' then .ok (.value (.field before key :: outer))
    else .error (.fault (.expectedMark ':' (some l.text)))
  | .afterField before outer, l =>
    if l = .mark '}' then .ok (deliver (.object before.reverse) outer)
    else if l = .mark ',' then .ok (.entry before outer)
    else .error (.fault (.expectedMark ',' (some l.text)))
  | .item before outer, l =>
    if l = .mark ']' then .ok (deliver (.array before.reverse) outer)
    else readValue reader (.element before :: outer) l
  | .afterItem before outer, l =>
    if l = .mark ']' then .ok (deliver (.array before.reverse) outer)
    else if l = .mark ',' then .ok (.item before outer)
    else .error (.fault (.expectedMark ',' (some l.text)))
  | .done _, l => .error (.fault (.unexpected l.text))

/-- Reads lexemes from left to right. -/
def run (reader : Option FilterReader) : State → List Lexeme → Except Refusal State
  | s, [] => .ok s
  | s, l :: rest =>
    match step reader s l with
    | .ok s => run reader s rest
    | .error r => .error r

/-- The value that was read, once no lexeme is left. -/
def finish : State → Except Refusal Expression
  | .done e => .ok e
  | .value _ | .item _ _ => .error (.fault .expectedValue)
  | .entry _ _ => .error (.fault (.expectedKey none))
  | .colon _ _ _ => .error (.fault (.expectedMark ':' none))
  | .afterField _ _ | .afterItem _ _ => .error (.fault (.expectedMark ',' none))

theorem run_append (reader : Option FilterReader) (s : State) (a b : List Lexeme) :
    run reader s (a ++ b) = (run reader s a).bind (run reader · b) := by
  induction a generalizing s with
  | nil => rfl
  | cons l rest ih =>
    simp only [List.cons_append, run]
    cases step reader s l with
    | ok s => exact ih s
    | error r => rfl

/-- Reads the lexemes of one value. -/
def readAll (reader : Option FilterReader) (lexemes : List Lexeme) : Except Refusal Expression :=
  match run reader (.value []) lexemes with
  | .ok s => finish s
  | .error r => .error r

/-- Reads an inline literal. -/
def read (reader : Option FilterReader) (t : Text) : Except Failure Expression :=
  match lex t with
  | .error f => .error f
  | .ok lexemes =>
    match readAll reader lexemes with
    | .ok e => .ok e
    | .error (.fault f) => .error (.literal t f)
    | .error (.atom f) => .error f

end Hydration.Literal

namespace Hydration

/-- Compiles the text of a clause: an inline literal, a quoted string or an atom. -/
def Expression.compile (reader : Option Literal.FilterReader) (text : Text) :
    Except Failure Expression :=
  let t := Text.trim text
  if Literal.opens t then Literal.read reader t
  else if Text.Quoted.isString t then
    .ok (.constant (.str ((Text.Quoted.decode? t).getD [])))
  else Literal.compileAtom reader t

end Hydration
