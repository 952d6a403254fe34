import Hydration.Text.Blank
/-!
# The source of a template

    text {% block %} text {{ expression }} text {# comment #}

A tag starts with a brace and one more character and ends on the same line; it ends as early as it
can. Everything outside tags is text. A tag that does not end is text as well, and so is every tag
after a block that says `verbatim`, up to the block that ends it.

* `splitTag?_shorter`: a tag takes at least two characters.
* `writtenAll_pieces`: the pieces make up the source.
* `writtenAll_settle`: what is taken for text does not change what is written.
-/
namespace Hydration.Template

/-- The kinds of tags. -/
inductive TagKind
  | block
  | output
  | comment
  deriving DecidableEq, Repr

/-- The character beside the brace at either end of a tag. -/
def TagKind.mark : TagKind → Char
  | .block => '%'
  | .output => '{'
  | .comment => '#'

/-- The character before the brace at the end of a tag. -/
def TagKind.closingMark : TagKind → Char
  | .output => '}'
  | k => k.mark

/-- A piece of a template: text, or what stands between the ends of a tag. -/
inductive Piece
  | text (t : Text)
  | tag (kind : TagKind) (inner : Text)
  deriving DecidableEq, Repr

namespace Piece

/-- The piece as it was written. -/
def written : Piece → Text
  | .text t => t
  | .tag kind inner => '{' :: kind.mark :: inner ++ [kind.closingMark, '}']

/-- The pieces one after the other. -/
def writtenAll (pieces : List Piece) : Text := pieces.flatMap written

end Piece

/-- The text of a line up to the first end of a tag, and what follows that end. -/
def splitEnd? (closing : Char) : Text → Option (Text × Text)
  | [] => none
  | [_] => none
  | c :: d :: rest =>
    if c = closing ∧ d = '}' then some ([], rest)
    else if c = '\n' then none
    else (splitEnd? closing (d :: rest)).map fun (inner, after) => (c :: inner, after)

theorem splitEnd?_append {closing : Char} {t inner after : Text}
    (h : splitEnd? closing t = some (inner, after)) :
    t = inner ++ closing :: '}' :: after := by
  fun_induction splitEnd? closing t generalizing inner after with
  | case1 => cases h
  | case2 => cases h
  | case3 c d rest hc =>
    obtain ⟨rfl, rfl⟩ := hc
    cases h
    rfl
  | case4 => cases h
  | case5 c d rest _ _ ih =>
    obtain ⟨⟨i, a⟩, hs, he⟩ := Option.map_eq_some_iff.1 h
    simp only [Prod.mk.injEq] at he
    obtain ⟨rfl, rfl⟩ := he
    rw [ih hs]
    rfl

/-- The kind of the tags that start with a brace and the given character. -/
def TagKind.ofMark? (c : Char) : Option TagKind :=
  if c = '%' then some .block else if c = '{' then some .output
  else if c = '#' then some .comment else none

theorem TagKind.mark_of_ofMark? {c : Char} {k : TagKind} (h : TagKind.ofMark? c = some k) :
    k.mark = c := by
  unfold TagKind.ofMark? at h
  split at h
  · next hc => cases h; exact hc.symm
  · split at h
    · next hc => cases h; exact hc.symm
    · split at h
      · next hc => cases h; exact hc.symm
      · cases h

/-- The tag at the start of a text, and what follows it. -/
def splitTag? : Text → Option (TagKind × Text × Text)
  | '{' :: c :: rest => do
    let kind ← TagKind.ofMark? c
    let (inner, after) ← splitEnd? kind.closingMark rest
    some (kind, inner, after)
  | _ => none

theorem splitTag?_append {t inner after : Text} {kind : TagKind}
    (h : splitTag? t = some (kind, inner, after)) :
    t = (Piece.tag kind inner).written ++ after := by
  unfold splitTag? at h
  split at h
  · next c rest =>
    simp only [Option.bind_eq_bind, Option.bind_eq_some_iff] at h
    obtain ⟨k, hk, ⟨i, a⟩, hs, h⟩ := h
    simp only [Option.some.injEq, Prod.mk.injEq] at h
    obtain ⟨rfl, rfl, rfl⟩ := h
    rw [splitEnd?_append hs]
    simp [Piece.written, TagKind.mark_of_ofMark? hk]
  · cases h

theorem splitTag?_shorter {t inner after : Text} {kind : TagKind}
    (h : splitTag? t = some (kind, inner, after)) : after.length < t.length := by
  rw [splitTag?_append h]
  simp [Piece.written]
  omega

/-- Puts a character in front of the pieces, into the text that they start with. -/
def pushChar (c : Char) : List Piece → List Piece
  | .text t :: rest => .text (c :: t) :: rest
  | pieces => .text [c] :: pieces

/-- The pieces of a template. -/
def pieces (t : Text) : List Piece :=
  match t with
  | [] => []
  | c :: rest =>
    match _h : splitTag? (c :: rest) with
    | some (kind, inner, after) => .tag kind inner :: pieces after
    | none => pushChar c (pieces rest)
termination_by t.length
decreasing_by
  · exact splitTag?_shorter _h
  · simp

theorem writtenAll_pushChar (c : Char) (ps : List Piece) :
    Piece.writtenAll (pushChar c ps) = c :: Piece.writtenAll ps := by
  unfold pushChar
  split <;> simp [Piece.writtenAll, Piece.written]

theorem writtenAll_pieces (t : Text) : Piece.writtenAll (pieces t) = t := by
  fun_induction pieces t with
  | case1 => rfl
  | case2 c rest kind inner after h ih =>
    simp only [Piece.writtenAll, List.flatMap_cons]
    rw [splitTag?_append h]
    simp only [Piece.writtenAll] at ih
    rw [ih]
  | case3 c rest _ ih => rw [writtenAll_pushChar, ih]

/-! ## Verbatim parts -/

/-- What the block says that ends the verbatim part which a block with the given contents starts. -/
def verbatimEnd? (contents : Text) : Option Text :=
  if contents = "verbatim".toList ∨ Text.opensWith "verbatim " contents then
    some ("end" ++ contents)
  else none

/-- The pieces with the tags of verbatim parts as text. A part that has begun ends with the block that
says what is given. -/
def settle : Option Text → List Piece → List Piece
  | _, [] => []
  | none, .tag .block inner :: rest =>
    .tag .block inner :: settle (verbatimEnd? (Text.trim inner)) rest
  | none, piece :: rest => piece :: settle none rest
  | some ending, .tag .block inner :: rest =>
    if Text.trim inner = ending then .tag .block inner :: settle none rest
    else .text (Piece.tag .block inner).written :: settle (some ending) rest
  | some ending, piece :: rest => .text piece.written :: settle (some ending) rest

theorem writtenAll_settle (ending : Option Text) (pieces : List Piece) :
    Piece.writtenAll (settle ending pieces) = Piece.writtenAll pieces := by
  fun_induction settle ending pieces <;> simp_all [Piece.writtenAll, Piece.written]

/-- How many lines a text ends. -/
def lineEnds (t : Text) : Nat := t.count '\n'

end Hydration.Template
