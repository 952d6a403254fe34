import Hydration.Proofs.Markup.Container
import Hydration.Proofs.Text.Blank
/-!
# Reading start tags

A reader of start tags that knows nothing of how they are written: a name up to a space or `>`, then
attributes, each a space, a name up to `=` and a value between double quotes, until `>`. What stands
in a name or a value can end it too early, so a tag is read as it was meant only if names and values
keep clear of the characters that end them.

* `readAttribute?_write`: an attribute that keeps clear of its ends is read as it is written.
* `read?_openTag`: so is the opening tag of a fragment, whatever follows it.
-/
namespace Hydration.Markup
open Text (Stops)

/-- A start tag: its name, and its attributes in order. -/
structure StartTag where
  name : Text
  attributes : List (Text × Text)
  deriving DecidableEq, Repr

/-- Reads an attribute: its name up to an equals sign, and its value between double quotes. -/
def readAttribute? (t : Text) : Option ((Text × Text) × Text) :=
  match t.dropWhile (· != '=') with
  | '=' :: '"' :: rest =>
    match rest.dropWhile (· != '"') with
    | '"' :: after => some ((t.takeWhile (· != '='), rest.takeWhile (· != '"')), after)
    | _ => none
  | _ => none

theorem readAttribute?_length {t after : Text} {a : Text × Text}
    (h : readAttribute? t = some (a, after)) : after.length < t.length := by
  unfold readAttribute? at h
  split at h
  · next rest hname =>
    split at h
    · next rest' hvalue =>
      have hn := (List.dropWhile_suffix (· != '=') (l := t)).length_le
      have hv := (List.dropWhile_suffix (· != '"') (l := rest)).length_le
      rw [hname] at hn
      rw [hvalue] at hv
      simp only [Option.some.injEq, Prod.mk.injEq] at h
      obtain ⟨-, rfl⟩ := h
      simp only [List.length_cons] at hn hv
      omega
    · cases h
  · cases h

/-- Reads attributes, each after a space, until the tag ends. -/
def readTagAttributes? : Text → Option (List (Text × Text) × Text)
  | '>' :: rest => some ([], rest)
  | ' ' :: rest =>
    match _h : readAttribute? rest with
    | some (a, after) => (readTagAttributes? after).map fun (more, end') => (a :: more, end')
    | none => none
  | _ => none
termination_by t => t.length
decreasing_by
  have := readAttribute?_length _h
  simp
  omega

/-- Whether a character ends the name of a tag. -/
def endsTagName (c : Char) : Bool := c == ' ' || c == '>'

/-- Reads a start tag. Gives the tag and what follows it. -/
def StartTag.read? : Text → Option (StartTag × Text)
  | '<' :: rest =>
    (readTagAttributes? (rest.dropWhile (!endsTagName ·))).map fun (attributes, after) =>
      (⟨rest.takeWhile (!endsTagName ·), attributes⟩, after)
  | _ => none

/-! ## Reading what was written -/

/-- The attribute keeps clear of the characters that end its name and its value. -/
def KeepsClear (a : Text × Text) : Prop := '=' ∉ a.1 ∧ '"' ∉ a.2

theorem all_ne_of_not_mem {c : Char} {w : Text} (h : c ∉ w) : ∀ d ∈ w, (d != c) = true := by
  intro d hd
  refine bne_iff_ne.2 ?_
  rintro rfl
  exact h hd

theorem readAttribute?_write {name value : Text} (h : KeepsClear (name, value)) (rest : Text) :
    readAttribute? (name ++ '=' :: '"' :: (value ++ '"' :: rest)) = some ((name, value), rest) := by
  have hname := all_ne_of_not_mem h.1
  have hvalue := all_ne_of_not_mem h.2
  have hequals : Stops (· != '=') ('=' :: '"' :: (value ++ '"' :: rest)) := Text.stops_cons rfl _
  have hquote : Stops (· != '"') ('"' :: rest) := Text.stops_cons rfl _
  unfold readAttribute?
  rw [Text.dropWhile_run hequals hname, Text.takeWhile_run hequals hname]
  simp only [Text.dropWhile_run hquote hvalue, Text.takeWhile_run hquote hvalue]

theorem readTagAttributes?_write {attributes : List (Text × Text)}
    (h : ∀ a ∈ attributes, KeepsClear a) (rest : Text) :
    readTagAttributes? ((attributes.flatMap fun (k, v) => writeAttribute k v) ++ '>' :: rest) =
      some (attributes, rest) := by
  induction attributes with
  | nil => rw [List.flatMap_nil, List.nil_append, readTagAttributes?]
  | cons a more ih =>
    obtain ⟨name, value⟩ := a
    have hread := readAttribute?_write (h _ List.mem_cons_self)
      ((more.flatMap fun (k, v) => writeAttribute k v) ++ '>' :: rest)
    have hmore := ih fun a ha => h a (List.mem_cons_of_mem _ ha)
    have htext : ((((name, value) :: more).flatMap fun (k, v) => writeAttribute k v) ++ '>' :: rest) =
        ' ' :: (name ++ '=' :: '"' :: (value ++ '"' ::
          ((more.flatMap fun (k, v) => writeAttribute k v) ++ '>' :: rest))) := by
      simp [writeAttribute]
    rw [htext, readTagAttributes?]
    split
    · next a' after hsome =>
      rw [hread] at hsome
      cases hsome
      rw [hmore]
      rfl
    · next hnone =>
      rw [hread] at hnone
      cases hnone

/-! ## The opening tag of a fragment -/

theorem endsTagName_of_isTagName {tag : Text} (h : isTagName tag = true) :
    ∀ c ∈ tag, (!endsTagName c) = true := by
  cases tag with
  | nil => cases h
  | cons first rest =>
    simp only [isTagName, Bool.and_eq_true, List.all_eq_true] at h
    obtain ⟨hfirst, hrest⟩ := h
    have key : ∀ c, (isLetter c || c.isDigit || c == '-') = true → (!endsTagName c) = true := by
      intro c hc
      refine Bool.not_eq_true' _ ▸ Bool.eq_false_iff.2 fun hend => ?_
      simp only [endsTagName, Bool.or_eq_true, beq_iff_eq] at hend
      rcases hend with rfl | rfl <;> revert hc <;> decide
    intro c hc
    rcases List.mem_cons.1 hc with rfl | hc
    · exact key _ (by simp [hfirst])
    · exact key c (hrest c hc)

theorem not_mem_of_isAttributeName {name : Text} (h : isAttributeName name = true) {c : Char}
    (hc : isAttributeChar c = false) : c ∉ name := by
  simp only [isAttributeName, Bool.and_eq_true, List.all_eq_true] at h
  intro hmem
  have := h.2 c hmem
  rw [hc] at this
  cases this

/-- The two attributes that the client reads. -/
def clientAttributes (path json : Text) : List (Text × Text) :=
  [(classAttribute, Text.escapeQuotes path), (propsAttribute, json)]

theorem keepsClear_clientAttributes (path : Text) {json : Text} (hjson : '"' ∉ json) :
    ∀ a ∈ clientAttributes path json, KeepsClear a := by
  intro a ha
  simp only [clientAttributes, List.mem_cons, List.not_mem_nil, or_false] at ha
  have hclass : '=' ∉ classAttribute := by decide
  have hprops : '=' ∉ propsAttribute := by decide
  rcases ha with rfl | rfl
  · exact ⟨hclass, Text.escapeQuotes_quote path⟩
  · exact ⟨hprops, hjson⟩

theorem read?_openTag {tag : Text} {attributes : List (Text × Text)} {path json : Text}
    (htag : isTagName tag = true) (hattributes : ∀ a ∈ attributes, KeepsClear a)
    (hjson : '"' ∉ json) (rest : Text) :
    StartTag.read? (openTag tag attributes path json ++ rest) =
      some (⟨tag, attributes ++ clientAttributes path json⟩, rest) := by
  have hall : ∀ a ∈ attributes ++ clientAttributes path json, KeepsClear a := by
    intro a ha
    rcases List.mem_append.1 ha with ha | ha
    · exact hattributes a ha
    · exact keepsClear_clientAttributes path hjson a ha
  have hname := endsTagName_of_isTagName htag
  have hread := readTagAttributes?_write hall rest
  -- The text after the name starts with the space of the first attribute.
  have hstops : Stops (!endsTagName ·) (((attributes ++ clientAttributes path json).flatMap
      fun (k, v) => writeAttribute k v) ++ '>' :: rest) := by
    cases attributes <;> (intro c more h; cases h; rfl)
  have htext : openTag tag attributes path json ++ rest =
      '<' :: (tag ++ (((attributes ++ clientAttributes path json).flatMap
        fun (k, v) => writeAttribute k v) ++ '>' :: rest)) := by
    simp [openTag_attributes, clientAttributes]
  rw [htext, StartTag.read?, Text.dropWhile_run hstops hname, Text.takeWhile_run hstops hname,
    hread]
  rfl

end Hydration.Markup
