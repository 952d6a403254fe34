import Hydration.Failure
import Hydration.Text.Blank
/-!
# Cutting the contents of a tag into bits

A tag's contents are cut at blanks, but a quoted string holds its blanks: a bit is either plain
characters and strings in turn, with one string at least, or a run of characters that are not
blank. Bits from `_("` up to the closing quote and parenthesis are one translated text and are
joined again.

* `takeBit_append`: a bit and what follows it make up the text.
* `takeBit_shorter`: a bit takes at least one character.
-/
namespace Hydration.Tag

/-- The characters of a bit outside strings. -/
def isPlain (c : Char) : Bool := !Text.isBlank c && !Text.Quoted.isQuote c

/-- Strings, each with the plain characters after it, as far as they go. -/
def takeStrings : Text → Text × Text
  | [] => ([], [])
  | q :: rest =>
    if Text.Quoted.isQuote q then
      match _h : Text.Quoted.scan false q rest with
      | none => ([], q :: rest)
      | some (body, after) =>
        let (more, left) := takeStrings (after.dropWhile isPlain)
        (q :: body ++ q :: after.takeWhile isPlain ++ more, left)
    else ([], q :: rest)
termination_by t => t.length
decreasing_by
  have h1 := Text.Quoted.scan_length _h
  have h2 := (List.dropWhile_suffix isPlain (l := after)).length_le
  simp
  omega

theorem takeStrings_append (t : Text) : (takeStrings t).1 ++ (takeStrings t).2 = t := by
  fun_induction takeStrings t with
  | case1 => rfl
  | case2 => rfl
  | case3 q rest _ body after hs more left hm ih =>
    rw [hm] at ih
    simp only at ih
    rw [Text.Quoted.scan_eq_some hs]
    simp only [List.cons_append, List.append_assoc, ih, List.takeWhile_append_dropWhile]
  | case4 => rfl

/-- The bit at the start of a text that does not start with a blank, and what follows it. -/
def takeBit (t : Text) : Text × Text :=
  match takeStrings (t.dropWhile isPlain) with
  | ([], _) => (t.takeWhile (!Text.isBlank ·), t.dropWhile (!Text.isBlank ·))
  | (strings, left) => (t.takeWhile isPlain ++ strings, left)

theorem takeBit_append (t : Text) : (takeBit t).1 ++ (takeBit t).2 = t := by
  unfold takeBit
  split
  · exact List.takeWhile_append_dropWhile
  · next strings left _ h =>
    have := takeStrings_append (t.dropWhile isPlain)
    rw [h] at this
    simp only [List.append_assoc]
    simp only at this
    rw [this, List.takeWhile_append_dropWhile]

theorem takeBit_shorter {c : Char} {rest : Text} (hc : Text.isBlank c = false) :
    (takeBit (c :: rest)).2.length < (c :: rest).length := by
  have happ := congrArg List.length (takeBit_append (c :: rest))
  rw [List.length_append] at happ
  have hpos : 0 < (takeBit (c :: rest)).1.length := by
    unfold takeBit
    split
    · simp [hc]
    · next strings _ hne _ =>
      simp only [List.length_append]
      have : 0 < strings.length := List.length_pos_iff.2 hne
      omega
  omega

/-- The bits of a tag's contents. -/
def bits (t : Text) : List Text :=
  match t with
  | [] => []
  | c :: rest =>
    if _h : Text.isBlank c = true then bits rest
    else (takeBit (c :: rest)).1 :: bits (takeBit (c :: rest)).2
termination_by t.length
decreasing_by
  · simp
  · exact takeBit_shorter (by simpa using _h)

/-! ## Translated texts -/

/-- The end of a translated text that starts with the given bit. -/
def translationEnd? : Text → Option Text
  | '_' :: '(' :: q :: _ => if Text.Quoted.isQuote q then some [q, ')'] else none
  | _ => none

/-- Joins the bits of each translated text with single spaces. The first argument is the text that
is still open, with the end that it needs. -/
def joinTranslations : Option (Text × Text) → List Text → Except Failure (List Text)
  | none, [] => .ok []
  | some _, [] => .error .unfinishedTranslation
  | none, bit :: rest =>
    match translationEnd? bit with
    | none => (bit :: ·) <$> joinTranslations none rest
    | some ending =>
      if Text.endsWith ending bit then (bit :: ·) <$> joinTranslations none rest
      else joinTranslations (some (bit, ending)) rest
  | some (opened, ending), bit :: rest =>
    let joined := opened ++ ' ' :: bit
    if Text.endsWith ending bit then (joined :: ·) <$> joinTranslations none rest
    else joinTranslations (some (joined, ending)) rest

/-- The bits of a tag's contents, translated texts in one piece. -/
def splitContents (contents : Text) : Except Failure (List Text) :=
  joinTranslations none (bits contents)

end Hydration.Tag
