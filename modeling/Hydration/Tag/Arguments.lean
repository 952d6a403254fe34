import Hydration.Tag.Token
import Hydration.Tag.Words
/-!
# The arguments of a component tag

    NAME REFERENCE [with PROPS] [in CONTAINER]

The tokens after the tag's name are fed one by one to a machine. Each token is consumed, as the
reference, as a keyword or as part of an expression, or it is handed back to the caller. Nothing is
looked at twice. An inline literal may span several tokens: it is joined with single spaces until
its brackets are closed.

* `feed_stop`: the end of the tokens is never fed.
* `finish_clause`: the machine can finish whenever it stands between clauses.
-/
namespace Hydration.Tag

/-- The keywords, each of which starts a clause. -/
inductive Keyword
  | props
  | container
  deriving DecidableEq, Repr

namespace Keyword

/-- The keyword as written. -/
def text : Keyword → Text
  | .props => "with"
  | .container => "in"

/-- The keyword that a text is. -/
def ofText? (t : Text) : Option Keyword :=
  if t = Keyword.props.text then some .props
  else if t = Keyword.container.text then some .container
  else none

end Keyword

/-- The arguments of a tag. Expressions are kept as they were written. -/
structure TagArguments where
  reference : Text
  props : Option Text
  container : Option Text
  /-- whether the reference was a quoted string -/
  isLiteral : Bool
  deriving DecidableEq, Repr

/-- Where the machine stands: before the reference, between clauses, or in the expression of a
clause. -/
inductive Phase
  | reference
  | clause
  | props
  | container
  deriving DecidableEq, Repr

/-- The phase in which the expression of a clause is read. -/
def Keyword.phase : Keyword → Phase
  | .props => .props
  | .container => .container

/-- What a consumed token was. -/
inductive Part
  | component
  | keyword (k : Keyword)
  | expression (phase : Phase)
  deriving DecidableEq, Repr

/-- What became of a token. -/
inductive Step
  | consume (part : Part)
  | forward (token : Token)
  deriving DecidableEq, Repr

/-- The machine that reads the arguments. -/
structure Machine where
  tag : Text
  phase : Phase
  reference : Option Text
  isLiteral : Bool
  clauses : List (Keyword × Text)
  pending : Option Keyword
  buffer : List Text
  deriving DecidableEq, Repr

namespace Machine

/-- The machine before the first token. -/
def start (tag : Text) : Machine := ⟨tag, .reference, none, false, [], none, []⟩

def fail {α : Type} (m : Machine) (fault : ArgumentFault) : Except Failure α :=
  .error (.argument m.tag fault)

/-- The expression of a clause that was read. -/
def clause? (m : Machine) (k : Keyword) : Option Text := m.clauses.lookup k

/-- Reads the reference: a string by its value, or a variable expression as it is. -/
def feedReference (m : Machine) (token : Token) : Except Failure (Step × Machine) := do
  let m' ←
    if token.kind = .string then
      match Text.Quoted.decode? token.text with
      | none => .error (.value (.notAString (Text.inspect token.text)))
      | some [] => m.fail .emptyReference
      | some reference => pure { m with reference := some reference, isLiteral := true }
    else if (Keyword.ofText? token.text).isSome || Literal.opens token.text then
      m.fail (.notAReference token.text)
    else pure { m with reference := some token.text }
  pure (.consume .component, { m' with phase := .clause })

/-- Reads a keyword; any other token goes back to the caller. -/
def feedClause (m : Machine) (token : Token) : Except Failure (Step × Machine) :=
  if token.kind = .variable then
    match Keyword.ofText? token.text with
    | none => .ok (.forward token, m)
    | some k =>
      if (m.clause? k).isSome then m.fail (.repeatedClause k.text)
      else .ok (.consume (.keyword k), { m with pending := some k, phase := k.phase })
  else .ok (.forward token, m)

/-- Reads a token of an expression, whatever it is. -/
def feedExpression (m : Machine) (token : Token) : Step × Machine :=
  let buffer := m.buffer ++ [token.text]
  let text := [' '].intercalate buffer
  let step := Step.consume (.expression m.phase)
  if Literal.opens text && 0 < bracketDepth text then (step, { m with buffer := buffer })
  else
    let clauses := match m.pending with
      | some k => m.clauses ++ [(k, text)]
      | none => m.clauses
    (step, { m with clauses := clauses, pending := none, buffer := [], phase := .clause })

/-- Reads one token. A token that is refused leaves the machine as it was. -/
def feed (m : Machine) (token : Token) : Except Failure (Step × Machine) :=
  if token.kind = .stop then .error (.value .endFed)
  else
    match m.phase with
    | .reference => m.feedReference token
    | .clause => m.feedClause token
    | .props | .container => .ok (m.feedExpression token)

/-- The arguments, once all tokens were read. -/
def finish (m : Machine) : Except Failure TagArguments :=
  match m.reference with
  | none => m.fail .missingReference
  | some reference =>
    match m.pending, m.buffer with
    | some k, [] => m.fail (.missingExpression k.text)
    | some k, buffer => m.fail (.unterminatedLiteral k.text ([' '].intercalate buffer))
    | none, _ => .ok ⟨reference, m.clause? .props, m.clause? .container, m.isLiteral⟩

theorem feed_stop (m : Machine) (t : Text) :
    m.feed ⟨.stop, t⟩ = .error (.value .endFed) := rfl

theorem finish_clause {m : Machine} {reference : Text} (hr : m.reference = some reference)
    (hp : m.pending = none) : ∃ arguments, m.finish = .ok arguments := by
  unfold finish
  rw [hr]
  split
  · next h => cases h
  · next h => cases h; simp [hp]

end Machine

/-- A tag as it was read: its name, its arguments and the tokens that were handed back. -/
structure ParsedTag where
  name : Text
  arguments : TagArguments
  forwarded : List Token
  deriving DecidableEq, Repr

/-- Feeds tokens up to the end, collecting those that are handed back. -/
def feedAll : Machine → List Token → Except Failure (Machine × List Token)
  | m, [] => .ok (m, [])
  | m, token :: rest =>
    if token.kind = .stop then .ok (m, [])
    else do
      let (step, m) ← m.feed token
      let (m, forwarded) ← feedAll m rest
      match step with
      | .consume _ => pure (m, forwarded)
      | .forward token => pure (m, token :: forwarded)

/-- Reads the arguments of a tag from its tokens. -/
def parseTokens (name : Text) (tokens : List Token) : Except Failure ParsedTag := do
  let (m, forwarded) ← feedAll (Machine.start name) tokens
  let arguments ← m.finish
  pure ⟨name, arguments, forwarded⟩

/-- Reads a tag from its bits, the name first. -/
def parseBits : List Text → Except Failure ParsedTag
  | [] => .error (.index .bits)
  | name :: rest => parseTokens name (tokenize rest)

/-- Reads a tag from its contents. -/
def parse (contents : Text) : Except Failure ParsedTag := do
  let bits ← splitContents contents
  parseBits bits

end Hydration.Tag
