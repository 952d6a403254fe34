import Hydration.Failure
/-!
# Percent directives

    %s   %-8s   %.3r   %%

A text with directives is filled with one value. A directive is a percent sign, flags, a width, a
precision, a letter for the size of numbers and the letter that says how the value is shown. Every
directive takes a value, so one directive is right and two are too many; a doubled percent sign is
none.

* `readHead_le`: the parts before the last letter are taken from the front.
* `fill_plain`: a text without percent signs takes no value.
-/
namespace Hydration.Text.Percent

/-- A value for directives: as text, as a message shows it, and the name of its type. -/
structure Subject where
  text : Text
  shown : Text
  type : Text

/-- The parts of a directive before its last letter. -/
structure Head where
  left : Bool
  width : Nat
  precision : Option Nat

/-- The flags of a directive. -/
def isFlag (c : Char) : Bool := c == '-' || c == '+' || c == ' ' || c == '#' || c == '0'

/-- The letters for the size of a number. -/
def isSize (c : Char) : Bool := c == 'h' || c == 'l' || c == 'L'

/-- Widths are below this number, 2^63. -/
def widthLimit : Nat := 9223372036854775808

/-- Precisions are below this number, 2^31. -/
def precisionLimit : Nat := 2147483648

/-- The number at the start of a text, and what follows it. -/
def takeNumber (t : Text) : Nat × Text :=
  ((t.takeWhile Char.isDigit).foldl (fun n c => 10 * n + (c.toNat - 48)) 0,
    t.dropWhile Char.isDigit)

/-- A width or a precision must not be left to another value: there is none, or it is no number. -/
def refuseStar {α : Type} (used : Bool) : Except DirectiveFault α :=
  .error (if used then .tooFew else .wantsWidth)

/-- Reads the precision of a directive. -/
def readPrecision (used : Bool) (t : Text) : Except DirectiveFault (Option Nat × Text) :=
  match t with
  | '.' :: '*' :: _ => refuseStar used
  | '.' :: rest =>
    let (n, rest) := takeNumber rest
    if precisionLimit ≤ n then .error .precisionTooBig else .ok (some n, rest)
  | t => .ok (none, t)

/-- Reads a directive up to its last letter. -/
def readHead (used : Bool) (t : Text) : Except DirectiveFault (Head × Text) :=
  let left := (t.takeWhile isFlag).contains '-'
  match t.dropWhile isFlag with
  | '*' :: _ => refuseStar used
  | rest =>
    let (width, rest) := takeNumber rest
    if widthLimit ≤ width then .error .widthTooBig
    else
      match readPrecision used rest with
      | .error fault => .error fault
      | .ok (precision, rest) =>
        match rest with
        | c :: more => .ok (⟨left, width, precision⟩, if isSize c then more else c :: more)
        | [] => .ok (⟨left, width, precision⟩, [])

private theorem dropWhile_length_le (p : Char → Bool) (t : Text) :
    (t.dropWhile p).length ≤ t.length := (List.dropWhile_suffix p).length_le

private theorem takeNumber_le {t rest : Text} {n : Nat} (h : takeNumber t = (n, rest)) :
    rest.length ≤ t.length := by
  cases h
  exact dropWhile_length_le Char.isDigit t

theorem readPrecision_le {used : Bool} {t rest : Text} {n : Option Nat}
    (h : readPrecision used t = .ok (n, rest)) : rest.length ≤ t.length := by
  unfold readPrecision at h
  split at h
  · cases h
  · next tail _ =>
    rcases hn : takeNumber tail with ⟨m, more⟩
    rw [hn] at h
    by_cases hm : precisionLimit ≤ m
    · simp [hm] at h
    · simp only [if_neg hm, Except.ok.injEq, Prod.mk.injEq] at h
      have := takeNumber_le hn
      rw [← h.2, List.length_cons]
      omega
  · cases h
    exact Nat.le_refl _

theorem readHead_le {used : Bool} {t rest : Text} {head : Head}
    (h : readHead used t = .ok (head, rest)) : rest.length ≤ t.length := by
  unfold readHead at h
  have h1 := dropWhile_length_le isFlag t
  simp only at h
  split at h
  · cases h
  · rcases hn : takeNumber (t.dropWhile isFlag) with ⟨width, more⟩
    rw [hn] at h
    have h2 := takeNumber_le hn
    by_cases hw : widthLimit ≤ width
    · simp [hw] at h
    · simp only [if_neg hw] at h
      split at h
      · cases h
      · next heq =>
        have h3 := readPrecision_le heq
        split at h
        · next c tail =>
          simp only [Except.ok.injEq, Prod.mk.injEq] at h
          rw [List.length_cons] at h3
          rw [← h.2]
          split
          · omega
          · rw [List.length_cons]
            omega
        · cases h
          simp

/-- The text cut to the precision and filled with spaces to the width. -/
def Head.place (head : Head) (t : Text) : Text :=
  let t := match head.precision with
    | none => t
    | some n => t.take n
  let spaces := List.replicate (head.width - t.length) ' '
  if head.left then t ++ spaces else spaces ++ t

/-- A message's form of a value with a number in place of every character that is not ASCII. -/
def asciiOnly (t : Text) : Text :=
  t.flatMap fun c =>
    let n := c.toNat
    if n < 128 then [c]
    else if n < 0x100 then "\\x" ++ ofHex 2 n
    else if n < 0x10000 then "\\u" ++ ofHex 4 n
    else "\\U" ++ ofHex 8 n

/-- How a letter shows the value. Letters for numbers take no other value. -/
def showBy (s : Subject) (index : Nat) (letter : Char) : Except DirectiveFault Text :=
  if letter = 's' then .ok s.text
  else if letter = 'r' then .ok s.shown
  else if letter = 'a' then .ok (asciiOnly s.shown)
  else if letter = 'd' ∨ letter = 'i' ∨ letter = 'u' then .error (.wantsNumber letter s.type)
  else if letter = 'o' ∨ letter = 'x' ∨ letter = 'X' then .error (.wantsInteger letter s.type)
  else if "eEfFgG".toList.contains letter then .error (.wantsReal s.type)
  else if letter = 'c' then .error .wantsCharacter
  else .error (.unsupported letter index)

/-- Fills the rest of a text of the given length. -/
def fillFrom (s : Subject) (length : Nat) (used : Bool) (t : Text) :
    Except DirectiveFault Text :=
  match t with
  | [] => if used then .ok [] else .error .unused
  | '%' :: '%' :: rest => (fillFrom s length used rest).map ('%' :: ·)
  | '%' :: '(' :: _ => .error .wantsMapping
  | '%' :: rest =>
    match _h : readHead used rest with
    | .error fault => .error fault
    | .ok (_, []) => .error .incomplete
    | .ok (head, letter :: more) =>
      if used then .error .tooFew
      else
        match showBy s (length - more.length - 1) letter with
        | .error fault => .error fault
        | .ok shown => (fillFrom s length true more).map (head.place shown ++ ·)
  | c :: rest => (fillFrom s length used rest).map (c :: ·)
termination_by t.length
decreasing_by
  · simp only [List.length_cons]
    omega
  · have := readHead_le _h
    simp only [List.length_cons] at this ⊢
    omega
  · simp only [List.length_cons]
    omega

/-- The text with its directive filled with a value. -/
def fill (s : Subject) (t : Text) : Except DirectiveFault Text := fillFrom s t.length false t

theorem fill_plain (s : Subject) {t : Text} (h : ∀ c ∈ t, c ≠ '%') :
    fill s t = .error .unused := by
  have go : ∀ (n : Nat) (u : Text), (∀ c ∈ u, c ≠ '%') → fillFrom s n false u = .error .unused := by
    intro n u
    induction u with
    | nil => intro; simp [fillFrom]
    | cons c rest ih =>
      intro hu
      have hc : c ≠ '%' := hu c (by simp)
      have hr := ih fun d hd => hu d (by simp [hd])
      rw [fillFrom]
      · rw [hr]
        rfl
      all_goals simp [hc]
  exact go _ t h

end Hydration.Text.Percent
