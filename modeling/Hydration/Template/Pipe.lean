import Hydration.Text.Word
import Hydration.Value.Basic
/-!
# Filter expressions

    user.name|default:"you"|upper

An expression starts with an operand, a constant or the path of a variable, and hands it through
filters, each of which may take one argument. This module reads expressions; what they mean in a
context is in `Template.Lookup`.

* `filterAt?_shorter`: a filter takes at least one character.
-/
namespace Hydration

/-- The filters of expressions. -/
inductive Filter
  | default
  | defaultIfNone
  | upper
  | lower
  | title
  | length
  | first
  | last
  | join
  | add
  | cut
  | yesno
  | safe
  deriving DecidableEq, Repr

namespace Filter

/-- The name by which an expression calls a filter. -/
def name : Filter → Text
  | .default => "default"
  | .defaultIfNone => "default_if_none"
  | .upper => "upper"
  | .lower => "lower"
  | .title => "title"
  | .length => "length"
  | .first => "first"
  | .last => "last"
  | .join => "join"
  | .add => "add"
  | .cut => "cut"
  | .yesno => "yesno"
  | .safe => "safe"

/-- All filters. -/
def all : List Filter :=
  [.default, .defaultIfNone, .upper, .lower, .title, .length, .first, .last, .join, .add, .cut,
    .yesno, .safe]

/-- The filter of a name. -/
def ofName? (t : Text) : Option Filter := all.find? fun f => f.name == t

theorem ofName?_name (f : Filter) : ofName? f.name = some f := by
  cases f <;> decide

/-- The fewest and the most values that a filter takes, the one that it filters among them. -/
def arity : Filter → Nat × Nat
  | .default | .defaultIfNone | .add | .cut => (2, 2)
  | .join => (2, 3)
  | .yesno => (1, 2)
  | _ => (1, 1)

end Filter

/-- What an expression starts with and what a filter takes: a constant, or a variable by the text
it was written as and the names of its path. -/
inductive Operand
  | constant (v : Value)
  | variable (source : Text) (path : List Text)

/-- A filter with its argument. -/
structure FilterCall where
  filter : Filter
  argument : Option Operand

/-- A filter expression. An empty expression has no operand. -/
structure Pipe where
  operand : Option Operand
  calls : List FilterCall

namespace Operand

/-- The number that a word is. A word with a point or an `e` is read as a floating-point number, and
must not end in the point. -/
def number? (word : Text) : Option Value :=
  if word.contains '.' || word.contains 'e' || word.contains 'E' then
    if word.getLast? = some '.' then none else (Number.readFloat? word).map .float
  else (Number.readInt? word).map .int

/-- Line ends of all systems as line feeds. -/
private def unifyLines : Text → Text
  | '\r' :: '\n' :: rest => '\n' :: unifyLines rest
  | '\r' :: rest => '\n' :: unifyLines rest
  | c :: rest => c :: unifyLines rest
  | [] => []

/-- A word as an operand: a number or the path of a variable, in which no name starts with a low
line. -/
def ofWord (word : Text) : Except Failure Operand :=
  match number? word with
  | some v => .ok (.constant v)
  | none =>
    let path := Text.parts '.' word
    if path.tail.any (Text.opensWith ['_']) || Text.opensWith ['_'] word then
      .error (.template (.underscore word))
    else .ok (.variable word path)

/-- A quoted constant, which is safe as it stands in the template. One in `_(…)` is lazy, and keeps
its percent signs doubled. -/
def ofConstant (text : Text) : Operand :=
  match Text.after? "_(" text with
  | some rest =>
    let t := (Text.Quoted.decode? rest.dropLast).getD []
    .constant (.lazy true (unifyLines (Text.replaceChar '%' "%%" t)))
  | none => .constant (.text true ((Text.Quoted.decode? text).getD []))

end Operand

namespace Pipe

/-- A quoted string at the start of the text, and what follows it. -/
def stringAt? : Text → Option (Text × Text)
  | [] => none
  | q :: rest =>
    if Text.Quoted.isQuote q then
      (Text.Quoted.scan false q rest).map fun (body, after) => (q :: body ++ [q], after)
    else none

/-- A constant at the start of the text: a string, also in `_(…)`, and what follows it. -/
def constantAt? (t : Text) : Option (Text × Text) :=
  let translated : Option (Text × Text) := do
    let rest ← Text.after? "_(" t
    let (string, after) ← stringAt? rest
    match after with
    | ')' :: after => some ("_(" ++ string ++ [')'], after)
    | _ => none
  translated.or (stringAt? t)

/-- The characters of a path. -/
def isPathChar (c : Char) : Bool := Text.isWord c || c == '.'

/-- A path or number at the start of the text, and what follows it. -/
def wordAt? (t : Text) : Option (Text × Text) :=
  match t with
  | [] => none
  | c :: rest =>
    if isPathChar c then some (t.takeWhile isPathChar, t.dropWhile isPathChar)
    else if c = '-' ∨ c = '+' then
      match rest with
      | [] => none
      | d :: _ =>
        if Text.isDigit d then
          let isPart := fun x => Text.isDigit x || x == '.' || x == 'e'
          some (c :: rest.takeWhile isPart, rest.dropWhile isPart)
        else none
    else none

/-- The argument of a filter as it was written. -/
inductive RawArgument
  | none
  | constant (text : Text)
  | word (text : Text)

/-- The argument after a filter's name, if a colon and an operand follow. -/
def argumentAt (t : Text) : RawArgument × Text :=
  match t with
  | ':' :: rest =>
    match constantAt? rest with
    | some (constant, after) => (.constant constant, after)
    | Option.none =>
      match wordAt? rest with
      | some (word, after) => (.word word, after)
      | Option.none => (.none, t)
  | _ => (.none, t)

/-- A filter at the start of the text: a bar between blanks, a name and perhaps an argument. -/
def filterAt? (t : Text) : Option ((Text × RawArgument) × Text) :=
  match Text.trimLeft t with
  | '|' :: rest =>
    let rest := Text.trimLeft rest
    match rest.takeWhile Text.isWord with
    | [] => none
    | name =>
      let (argument, after) := argumentAt (rest.dropWhile Text.isWord)
      some ((name, argument), after)
  | _ => none

/-- The first filter in the text: what stands before it, the filter, and what follows. -/
def findFilter? (t : Text) : Option (Text × (Text × RawArgument) × Text) :=
  match filterAt? t with
  | some (filter, after) => some ([], filter, after)
  | none =>
    match t with
    | [] => none
    | c :: rest => (findFilter? rest).map fun (skipped, filter, after) => (c :: skipped, filter, after)

/-! ### Lengths -/

private theorem scan_rest_le {q : Char} {t body after : Text}
    (h : Text.Quoted.scan false q t = some (body, after)) : after.length ≤ t.length :=
  Nat.le_of_lt (Text.Quoted.scan_length h)

private theorem stringAt?_le {t s after : Text} (h : stringAt? t = some (s, after)) :
    after.length ≤ t.length := by
  unfold stringAt? at h
  split at h
  · cases h
  · split at h
    · obtain ⟨⟨b, a⟩, hs, he⟩ := Option.map_eq_some_iff.1 h
      simp only [Prod.mk.injEq] at he
      have := scan_rest_le hs
      rw [he.2] at this
      simp
      omega
    · cases h

private theorem constantAt?_le {t s after : Text} (h : constantAt? t = some (s, after)) :
    after.length ≤ t.length := by
  unfold constantAt? at h
  simp only [Option.or_eq_some_iff] at h
  rcases h with h | ⟨-, h⟩
  · simp only [Option.bind_eq_bind, Option.bind_eq_some_iff] at h
    obtain ⟨rest, hr, ⟨s', a⟩, hs, h⟩ := h
    have hle := stringAt?_le hs
    have hr' : rest.length ≤ t.length := by
      unfold Text.after? at hr
      split at hr
      · simp only [Option.some.injEq] at hr
        rw [← hr]
        simp
      · cases hr
    split at h
    · simp only [Option.some.injEq, Prod.mk.injEq] at h
      next heq =>
        simp only at heq
        subst heq
        simp only [List.length_cons] at hle
        rw [← h.2]
        omega
    · cases h
  · exact stringAt?_le h

private theorem dropWhile_le {α : Type} (p : α → Bool) (l : List α) :
    (l.dropWhile p).length ≤ l.length := (List.dropWhile_suffix p).length_le

private theorem wordAt?_le {t w after : Text} (h : wordAt? t = some (w, after)) :
    after.length ≤ t.length := by
  unfold wordAt? at h
  split at h
  · cases h
  · split at h
    · simp only [Option.some.injEq, Prod.mk.injEq] at h
      rw [← h.2]
      exact dropWhile_le _ _
    · split at h
      · split at h
        · cases h
        · split at h
          · simp only [Option.some.injEq, Prod.mk.injEq] at h
            rw [← h.2, List.length_cons]
            exact Nat.le_succ_of_le (dropWhile_le _ _)
          · cases h
      · cases h

private theorem argumentAt_le (t : Text) : (argumentAt t).2.length ≤ t.length := by
  unfold argumentAt
  split
  · split
    · next h =>
      have := constantAt?_le h
      simp
      omega
    · split
      · next h =>
        have := wordAt?_le h
        simp
        omega
      · simp
  · simp

theorem filterAt?_shorter {t after : Text} {f : Text × RawArgument}
    (h : filterAt? t = some (f, after)) : after.length < t.length := by
  unfold filterAt? at h
  split at h
  · next rest heq =>
    simp only at h
    split at h
    · cases h
    · simp only [Option.some.injEq, Prod.mk.injEq] at h
      have h1 := dropWhile_le Text.isBlank t
      have h2 := dropWhile_le Text.isBlank rest
      have h3 := dropWhile_le Text.isWord (rest.dropWhile Text.isBlank)
      have h4 := argumentAt_le ((rest.dropWhile Text.isBlank).dropWhile Text.isWord)
      unfold Text.trimLeft at heq h
      rw [heq, List.length_cons] at h1
      rw [h.2] at h4
      omega
  · cases h

theorem findFilter?_shorter {t skipped after : Text} {f : Text × RawArgument}
    (h : findFilter? t = some (skipped, f, after)) : after.length < t.length := by
  induction t generalizing skipped with
  | nil =>
    unfold findFilter? at h
    split at h
    · next hf =>
      simp only [Option.some.injEq, Prod.mk.injEq] at h
      rw [← h.2.2]
      exact filterAt?_shorter hf
    · cases h
  | cons c rest ih =>
    unfold findFilter? at h
    split at h
    · next hf =>
      simp only [Option.some.injEq, Prod.mk.injEq] at h
      rw [← h.2.2]
      exact filterAt?_shorter hf
    · obtain ⟨⟨s, g, a⟩, hs, he⟩ := Option.map_eq_some_iff.1 h
      simp only [Prod.mk.injEq] at he
      have := @ih s (by rw [hs, he.2.1, he.2.2])
      simp
      omega

/-! ### Reading an expression -/

/-- A filter call from a name and an argument as written. The argument is read before the name is
looked up. -/
def readCall (name : Text) (raw : RawArgument) : Except Failure FilterCall := do
  let argument ← match raw with
    | .none => pure none
    | .constant text => pure (some (Operand.ofConstant text))
    | .word text => some <$> Operand.ofWord text
  match Filter.ofName? name with
  | none => .error (.template (.unknownFilter name))
  | some filter =>
    let provided := if argument.isSome then 2 else 1
    let (fewest, most) := filter.arity
    if provided < fewest ∨ most < provided then
      .error (.template (.arity name fewest provided))
    else pure ⟨filter, argument⟩

/-- Reads the filters of an expression from the part that is left. -/
def readCalls (expression rest : Text) : Except Failure (List FilterCall) :=
  match _h : findFilter? rest with
  | none =>
    if rest.isEmpty then .ok [] else .error (.template (.remainder rest expression))
  | some (skipped, (name, raw), after) =>
    if skipped.isEmpty then do
      let call ← readCall name raw
      let calls ← readCalls expression after
      pure (call :: calls)
    else
      let before := expression.take (expression.length - rest.length)
      .error (.template (.unreadable before skipped (rest.drop skipped.length)))
termination_by rest.length
decreasing_by exact findFilter?_shorter _h

/-- Reads a filter expression. -/
def compile (expression : Text) : Except Failure Pipe :=
  match constantAt? expression with
  | some (constant, rest) => do
    let calls ← readCalls expression rest
    pure ⟨some (Operand.ofConstant constant), calls⟩
  | none =>
    match wordAt? expression with
    | some (word, rest) => do
      let operand ← Operand.ofWord word
      let calls ← readCalls expression rest
      pure ⟨some operand, calls⟩
    | none =>
      match findFilter? expression with
      | none =>
        if expression.isEmpty then .ok ⟨none, []⟩
        else .error (.template (.remainder expression expression))
      | some (skipped, _, _) =>
        if skipped.isEmpty then .error (.template (.missingVariable expression))
        else
          .error (.template (.unreadable [] skipped (expression.drop skipped.length)))

end Pipe
end Hydration
