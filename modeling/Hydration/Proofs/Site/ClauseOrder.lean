import Hydration.Proofs.Tag.Segments
import Hydration.Site.Pages
import Mathlib
/-!
# The order of clauses

    {% react page with props in 'section' %}    {% react page in 'section' with props %}

The machine stores each clause under its keyword, so a tag with both clauses is read as its
reference alone would be, with the two expressions added, whichever clause comes first. What is read
decides everything that follows, so both tags are compiled and rendered alike.

* `parseTokens_clauses`: what is read from a reference and two clauses.
* `compileTag_of_split`: a tag is compiled from the tokens of its bits.
* `clauses_in_either_order`: the order of the clauses makes no difference at any stage.
-/
namespace Hydration

namespace Tag

/-- The tokens of a clause. -/
def clauseTokens (k : Keyword) (run : List Token) : List Token := (Segment.clause k run).tokens

/-- The tag with these expressions for its clauses and nothing handed back. -/
def ParsedTag.withClauses (tag : ParsedTag) (props container : Text) : ParsedTag :=
  ⟨tag.name, ⟨tag.arguments.reference, some props, some container, tag.arguments.isLiteral⟩, []⟩

section
variable {k l : Keyword} {first second ending : List Token} (hkl : k ≠ l)
  (hfirst : IsExpression first) (hsecond : IsExpression second)
  (hkinds : ∀ t ∈ first ++ second, t.kind ≠ .stop) (hend : beforeStop ending = [])
include hkl hfirst hsecond hkinds hend

/-- A reference and two clauses are laid out as they are written. -/
theorem reads_clauses {reference : Token} (h : IsReference reference) :
    Layout.Reads ⟨reference, [.clause k first, .clause l second]⟩
      (beforeStop (reference :: (clauseTokens k first ++ (clauseTokens l second ++ ending)))) := by
  have hsegments : ∀ t ∈ clauseTokens k first ++ clauseTokens l second, t.kind ≠ .stop := by
    intro t ht
    simp only [clauseTokens, Segment.tokens, List.cons_append, List.mem_cons,
      List.mem_append] at ht
    rcases ht with rfl | ht | rfl | ht
    · simp
    · exact hkinds t (List.mem_append_left _ ht)
    · simp
    · exact hkinds t (List.mem_append_right _ ht)
  rw [← List.append_assoc, ← List.append_nil (clauseTokens l second)]
  refine reads_segments h ?_ ?_ ?_ hend
  · intro s hs
    simp only [List.mem_cons, List.not_mem_nil, or_false] at hs
    rcases hs with rfl | rfl
    · exact hfirst
    · exact hsecond
  · simpa [Segment.keyword?] using hkl
  · simpa [clauseTokens] using hsegments

/-- A tag with two clauses is read as its reference alone, with the expressions of the clauses. -/
theorem parseTokens_clauses (name : Text) (reference : Token) :
    parseTokens name (reference :: (clauseTokens k first ++ (clauseTokens l second ++ ending))) =
      (parseTokens name [reference]).map fun tag =>
        tag.withClauses (joined (if k = .props then first else second))
          (joined (if k = .props then second else first)) := by
  by_cases h : IsReference reference
  · have hreference : reference.kind ≠ .stop := by cases h <;> simp
    have halone : Layout.Reads ⟨reference, []⟩ (beforeStop [reference]) :=
      ⟨by simp [beforeStop, Layout.tokens, hreference], h, by simp, by simp⟩
    rw [parseTokens_of_reads (reads_clauses hkl hfirst hsecond hkinds hend h) name,
      parseTokens_of_reads halone name]
    cases k <;> cases l <;> first | exact absurd rfl hkl | rfl
  · obtain ⟨e, he⟩ := parseTokens_of_not_isReference name h
    rw [he, he]
    rfl

end
end Tag

namespace Action
open Tag (Token ParsedTag parseTokens IsExpression beforeStop joined clauseTokens)

/-- Compiles what was read of a component tag, against its root or that of the configuration. -/
def compileRead (root : Option Text) (extension : Text) (tag : Except Failure ParsedTag) :
    Action Fragment := do
  let tag ← ofExcept tag
  let root ← match root with
    | some (c :: rest) => pure (c :: rest)
    | _ => (fun r => r.config.componentRoot) <$> readConfig
  compileParsed root extension tag

/-- Compiles a component tag from its tokens. -/
def compileTokens (root : Option Text) (extension name : Text) (tokens : List Token) :
    Action Fragment := compileRead root extension (parseTokens name tokens)

/-- The contents of a tag are compiled from the tokens of their bits. -/
theorem compileTag_of_split {contents name : Text} {bits : List Text}
    (h : Tag.splitContents contents = .ok (name :: bits)) (root : Option Text) (extension : Text) :
    compileTag root extension contents = compileTokens root extension name (Tag.tokenize bits) := by
  have hparse : Tag.parse contents = parseTokens name (Tag.tokenize bits) := by
    rw [Tag.parse, h]
    rfl
  rw [compileTag, hparse]
  rfl

/-- Compiles a component tag from its tokens and renders it on a page of an engine or of none. -/
def renderTokens (root : Option Text) (extension name : Text) (tokens : List Token)
    (engine : Option Nat) (c : Context) : Action Text := do
  let f ← compileTokens root extension name tokens
  let rendered ← renderFragment engine c f
  pure rendered.1

/-- **The order of the clauses makes no difference.** Let both clauses have an expression each, a
single token that opens no literal or the shortest run that closes its brackets. Whichever clause
comes first, the tag is read as its reference alone would be, with the two expressions added and
nothing handed back, or refused as the reference alone is. So both orders give the same fragment or
the same failure against every root, and the same element or failure on every page of any site. -/
theorem clauses_in_either_order (name : Text) (reference : Token) {props container : List Token}
    (hprops : IsExpression props) (hcontainer : IsExpression container)
    (hkinds : ∀ t ∈ props ++ container, t.kind ≠ .stop) {ending : List Token}
    (hend : beforeStop ending = []) :
    let tokens := reference :: (clauseTokens .props props ++
      (clauseTokens .container container ++ ending))
    let swapped := reference :: (clauseTokens .container container ++
      (clauseTokens .props props ++ ending))
    parseTokens name tokens = (parseTokens name [reference]).map (fun tag =>
        tag.withClauses (joined props) (joined container)) ∧
      parseTokens name swapped = parseTokens name tokens ∧
      (∀ root extension, (parseTokens name swapped).bind (Fragment.compile root extension) =
        (parseTokens name tokens).bind (Fragment.compile root extension)) ∧
      ∀ root extension engine c s,
        (renderTokens root extension name swapped engine c).outcome s =
          (renderTokens root extension name tokens engine c).outcome s := by
  intro tokens swapped
  have htokens := Tag.parseTokens_clauses (k := .props) (l := .container) (by decide) hprops
    hcontainer hkinds hend name reference
  have hswapped := Tag.parseTokens_clauses (k := .container) (l := .props) (by decide) hcontainer
    hprops (fun t ht => hkinds t (by simpa [or_comm] using ht)) hend name reference
  have hsame : parseTokens name swapped = parseTokens name tokens := hswapped.trans htokens.symm
  refine ⟨htokens, hsame, fun root extension => by rw [hsame], fun root extension engine c s => ?_⟩
  rw [renderTokens, renderTokens, compileTokens, compileTokens, hsame]

/-- The tokens of props that hold a keyword. -/
def keywordProps : List Token :=
  [⟨.variable, "\x7bx:"⟩, ⟨.variable, "[in,"⟩, ⟨.variable, "with"⟩, ⟨.variable, "]\x7d"⟩]

/-- The tokens of a container with a bracket in a string. -/
def bracketContainer : List Token := [⟨.variable, "\x7btag:"⟩, ⟨.variable, "'\x7d'\x7d"⟩]

/-- Tags with these clauses are read alike, and so their contents are compiled alike. -/
theorem clauses_in_either_order_nested :
    IsExpression keywordProps ∧ IsExpression bracketContainer ∧
    (∀ t ∈ keywordProps ++ bracketContainer, t.kind ≠ .stop) ∧ beforeStop [Token.stop] = [] ∧
    parseTokens "react" (⟨.variable, "page"⟩ :: (clauseTokens .container bracketContainer ++
        (clauseTokens .props keywordProps ++ [Token.stop]))) =
      .ok ⟨"react", ⟨"page", some "\x7bx: [in, with ]\x7d", some "\x7btag: '\x7d'\x7d", false⟩,
        []⟩ ∧
    ∀ root extension s,
      (compileTag root extension
          "react page in \x7btag: '\x7d'\x7d with \x7bx: [in, with ]\x7d").outcome s =
        (compileTag root extension
          "react page with \x7bx: [in, with ]\x7d in \x7btag: '\x7d'\x7d").outcome s := by
  have hprops : IsExpression keywordProps := by
    refine (Tag.isExpression_iff _).2
      ⟨keywordProps.dropLast, ⟨.variable, "]\x7d"⟩, rfl, ?_, by cbv⟩
    exact Tag.openRun_concat (Tag.openRun_concat (Tag.openRun_concat Tag.openRun_nil (by cbv))
      (by cbv)) (by cbv)
  have hcontainer : IsExpression bracketContainer := by
    refine (Tag.isExpression_iff _).2
      ⟨bracketContainer.dropLast, ⟨.variable, "'\x7d'\x7d"⟩, rfl, ?_, by cbv⟩
    exact Tag.openRun_concat Tag.openRun_nil (by cbv)
  have hkinds : ∀ t ∈ keywordProps ++ bracketContainer, t.kind ≠ .stop := by decide
  have hend : beforeStop [Token.stop] = [] := rfl
  obtain ⟨htokens, hswapped, -, -⟩ := clauses_in_either_order "react" ⟨.variable, "page"⟩
    hprops hcontainer hkinds hend
  refine ⟨hprops, hcontainer, hkinds, hend, (hswapped.trans htokens).trans (by cbv), ?_⟩
  intro root extension s
  have hfirst : Tag.splitContents "react page with \x7bx: [in, with ]\x7d in \x7btag: '\x7d'\x7d" =
      .ok (["react", "page", "with", "\x7bx:", "[in,", "with", "]\x7d", "in", "\x7btag:",
        "'\x7d'\x7d"] : List Text) := by cbv
  have hsecond : Tag.splitContents "react page in \x7btag: '\x7d'\x7d with \x7bx: [in, with ]\x7d" =
      .ok (["react", "page", "in", "\x7btag:", "'\x7d'\x7d", "with", "\x7bx:", "[in,", "with",
        "]\x7d"] : List Text) := by cbv
  have hcompiled := congrArg (fun parsed => (compileRead root extension parsed).outcome s) hswapped
  rw [compileTag_of_split hfirst, compileTag_of_split hsecond]
  exact hcompiled

end Action
end Hydration
