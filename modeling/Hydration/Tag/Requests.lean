import Hydration.Tag.Arguments
/-!
# Requests to a machine

A machine may also be held by its user, who asks it to read a token or to finish, in any order and
as often as wanted. A request works on the machine itself. It writes one field after the other, and
what was written before it failed stays written.

* `outcome_bind`: after a failure nothing more is done, and what was written stays.
* `replies_append`: requests are answered from left to right.
* `replies_length`: every request is answered.
-/
namespace Hydration.Tag

/-- What a machine may be asked: to read a token, or to finish. -/
inductive Request
  | feed (token : Token)
  | finish
  deriving DecidableEq, Repr

/-- What a machine replies. -/
inductive Reply
  | step (step : Step)
  | arguments (arguments : TagArguments)
  deriving DecidableEq, Repr

namespace Machine

/-! ## Work on the machine -/

/-- Work on a machine. When it fails, what it has written until then stays. -/
abbrev Work (α : Type) := ExceptT Failure (StateM Machine) α

namespace Work

/-- What the work gives, and the machine after it. -/
def outcome {α : Type} (w : Work α) (m : Machine) : Except Failure α × Machine := w.run.run m

@[simp] theorem outcome_pure {α : Type} (x : α) (m : Machine) :
    (pure x : Work α).outcome m = (.ok x, m) := rfl

@[simp] theorem outcome_throw {α : Type} (f : Failure) (m : Machine) :
    (throw f : Work α).outcome m = (.error f, m) := rfl

@[simp] theorem outcome_bind {α β : Type} (w : Work α) (f : α → Work β) (m : Machine) :
    (w >>= f).outcome m =
      match w.outcome m with
      | (.ok x, n) => (f x).outcome n
      | (.error e, n) => (.error e, n) := by
  simp only [outcome, ExceptT.run_bind, StateT.run_bind]
  rcases (w.run.run m : Except Failure α × Machine) with ⟨x | x, n⟩ <;> rfl

@[simp] theorem outcome_map {α β : Type} (f : α → β) (w : Work α) (m : Machine) :
    (f <$> w).outcome m = ((w.outcome m).1.map f, (w.outcome m).2) := by
  rw [← bind_pure_comp, outcome_bind]
  rcases w.outcome m with ⟨_ | _, _⟩ <;> rfl

@[simp] theorem outcome_get (m : Machine) : (get : Work Machine).outcome m = (.ok m, m) := rfl

@[simp] theorem outcome_modify (f : Machine → Machine) (m : Machine) :
    (modify f : Work Unit).outcome m = (.ok (), f m) := rfl

/-- Fails with a fault of the tag. -/
def refuse {α : Type} (fault : ArgumentFault) : Work α := do
  throw (.argument (← get).tag fault)

@[simp] theorem outcome_refuse {α : Type} (fault : ArgumentFault) (m : Machine) :
    (refuse fault : Work α).outcome m = (.error (.argument m.tag fault), m) := by
  simp [refuse]

/-- Stores the reference: a string by its value, or a variable expression as it is. -/
def takeReference (token : Token) : Work Step := do
  if token.kind = .string then
    match Text.Quoted.decode? token.text with
    | none => throw (.value (.notAString (Text.inspect token.text)))
    | some [] => refuse .emptyReference
    | some reference => modify fun m => { m with reference := some reference, isLiteral := true }
  else if (Keyword.ofText? token.text).isSome || Literal.opens token.text then
    refuse (.notAReference token.text)
  else modify fun m => { m with reference := some token.text }
  modify fun m => { m with phase := .clause }
  pure (.consume .component)

/-- Starts a clause at a keyword; any other token goes back to the caller. -/
def takeClause (token : Token) : Work Step := do
  if token.kind = .variable then
    match Keyword.ofText? token.text with
    | none => pure (.forward token)
    | some k =>
      if ((← get).clause? k).isSome then refuse (.repeatedClause k.text)
      else
        modify fun m => { m with pending := some k }
        modify fun m => { m with phase := k.phase }
        pure (.consume (.keyword k))
  else pure (.forward token)

/-- Adds a token to the expression, and closes the clause unless a literal is open. -/
def takeExpression (token : Token) : Work Step := do
  modify fun m => { m with buffer := m.buffer ++ [token.text] }
  let m ← get
  let text := [' '].intercalate m.buffer
  if Literal.opens text && 0 < bracketDepth text then pure (.consume (.expression m.phase))
  else
    match m.pending with
    | some k => modify fun m => { m with clauses := m.clauses ++ [(k, text)] }
    | none => pure ()
    modify fun m => { m with pending := none }
    modify fun m => { m with buffer := [] }
    modify fun m => { m with phase := .clause }
    pure (.consume (.expression m.phase))

/-- Reads one token. -/
def take (token : Token) : Work Step := do
  if token.kind = .stop then throw (.value .endFed)
  else
    match (← get).phase with
    | .reference => takeReference token
    | .clause => takeClause token
    | .props | .container => takeExpression token

/-- The arguments, once all tokens were read. -/
def conclude : Work TagArguments := do
  let m ← get
  match m.reference with
  | none => refuse .missingReference
  | some reference =>
    match m.pending with
    | some k =>
      if m.buffer.isEmpty then refuse (.missingExpression k.text)
      else refuse (.unterminatedLiteral k.text ([' '].intercalate m.buffer))
    | none => pure ⟨reference, m.clause? .props, m.clause? .container, m.isLiteral⟩

/-- Answers a request. -/
def answer : Request → Work Reply
  | .feed token => .step <$> take token
  | .finish => .arguments <$> conclude

end Work

/-! ## Requests one after the other -/

/-- A request that was answered: the reply, or why there is none, and the machine after it. -/
structure Exchange where
  request : Request
  reply : Except Failure Reply
  machine : Machine

/-- Answers one request. -/
def exchange (m : Machine) (request : Request) : Exchange :=
  let (reply, machine) := (Work.answer request).outcome m
  ⟨request, reply, machine⟩

/-- Answers requests one after the other. -/
def replies (m : Machine) : List Request → List Exchange
  | [] => []
  | first :: rest =>
    let done := m.exchange first
    done :: done.machine.replies rest

/-- The machine after requests. -/
def after (m : Machine) : List Request → Machine
  | [] => m
  | first :: rest => (m.exchange first).machine.after rest

theorem replies_append (m : Machine) (a b : List Request) :
    m.replies (a ++ b) = m.replies a ++ (m.after a).replies b := by
  induction a generalizing m with
  | nil => rfl
  | cons first rest ih => simp [replies, after, ih]

theorem replies_length (m : Machine) (requests : List Request) :
    (m.replies requests).length = requests.length := by
  induction requests generalizing m with
  | nil => rfl
  | cons first rest ih => simp [replies, ih]

end Machine
end Hydration.Tag
