import Hydration.Proofs.Markup.Element
import Hydration.Proofs.Site.Templates
import Hydration.Proofs.Tag.Inlining
/-!
# Pages with variables replaced by literals

    {% react page with {title: t} %}    {% react "home" with {title: "Hello"} %}

Whether a tag has variables or literals of the same values makes no difference for what it is
rendered to, as long as the variables keep these values while the tag is evaluated. A tag with a
literal may be refused when it is compiled, and the tag with the variable when it is rendered.

* `outcome_renderContents_inlined`: both tags are rendered to the same, or both are refused.
* `renderContents_not_inlined`: they are not if a method that is called on the way changes the
  variable, or if a quote is not closed.
-/
namespace Hydration

/-- A reference that is an empty text has no path. -/
theorem ComponentSource.run_resolvedPath_empty {c : Context} {x : Text}
    (h : c.get? x = some (.str [])) (root : Text) (r : Text × Context) :
    (reference root x (.plain x)).resolvedPath.run c ≠ .ok r := by
  have hrun := Pipe.run_plain h
  intro hr
  unfold resolvedPath at hr
  rw [StateT.run_bind, hrun] at hr
  cases hr

namespace Action
open Site (Alike)
open Text.Quoted (Closed)
open Tag (WordsOf bits)
open Literal (Derivation)

/-- Compiles the contents of a tag and renders it on a page of an engine or of none. -/
def renderContents (root : Option Text) (extension contents : Text) (engine : Option Nat)
    (c : Context) : Action Text := do
  let f ← compileTag root extension contents
  let rendered ← renderFragment engine c f
  pure rendered.1

theorem agree_defaultRenderer {own : Nat → Prop} : Agree own defaultRenderer defaultRenderer := by
  refine looksUp_defaultRenderer.agree fun s t h => ?_
  rw [Site.configured, Site.configured, h.config]
  congr 1
  funext c
  exact Site.imported_eq h.libraries _

/-- Fragments with the same values and the same renderer are rendered alike. -/
theorem agree_renderFragment {c : Context} {f f' : Fragment}
    (hvalues : f.values.run c = f'.values.run c) (hextension : f'.extension = f.extension)
    (engine : Option Nat) :
    Agree (fun _ => True) (renderFragment engine c f) (renderFragment engine c f') := by
  unfold renderFragment
  rw [← hvalues, hextension]
  refine agree_bind (agree_ofExcept _) fun found => ?_
  have hrenderer : Agree (fun _ => True) (getExtension (engine.map .engine) f.extension)
      (getExtension (engine.map .engine) f.extension) := by
    cases engine with
    | none => exact agree_defaultRenderer
    | some n => exact agree_getExtension trivial _
  refine agree_bind hrenderer fun r => ?_
  exact agree_bind (agree_renderElement r _ _ _) fun _ => agree_pure _

section
variable {b : Bindings} {contents contents' : Text} {root : Option Text} {extension : Text}
  {engine : Option Nat} {c : Context} {s t : Site} (hclosed : Closed false contents)
  (hclosed' : Closed false contents') (h : Tag.Contents b (Tag.bits contents) (Tag.bits contents'))

/-- What a tag is compiled to: its contents are read, and its root is found. -/
theorem outcome_compileTag_ok_iff {f : Fragment} :
    ((compileTag root extension contents).outcome s).1 = .ok f ↔
      ∃ tag r, Tag.parse contents = .ok tag ∧ s.capturedRoot root = .ok r ∧
        Fragment.compile r extension tag = .ok f := by
  rw [(looksUp_compileContents root extension contents s).1]
  cases Tag.parse contents with
  | error e => simp [Except.bind]
  | ok tag => cases hr : s.capturedRoot root <;> simp [Except.bind, hr]

/-- A tag that is rendered was compiled and has values that are accepted. -/
theorem outcome_renderContents_ok {html : Text}
    (hhtml : (renderContents root extension contents engine c).outcome s = (.ok html, t)) :
    ∃ f u path props container c' entries k,
      (compileTag root extension contents).outcome s = (.ok f, u) ∧
        f.values.run c = .ok ((path, props, container), c') ∧
        Markup.normalizeProps props = .ok entries ∧
        Markup.normalizeContainer container = .ok k := by
  obtain ⟨f, u, hcompile, hrender⟩ := outcome_bind_ok_iff.1 hhtml
  obtain ⟨⟨_, _⟩, _, hrender, -⟩ := outcome_bind_ok_iff.1 hrender
  obtain ⟨⟨⟨path, props, container⟩, c'⟩, _, hvalues, hrender⟩ := outcome_bind_ok_iff.1 hrender
  obtain ⟨r, _, -, hrender⟩ := outcome_bind_ok_iff.1 hrender
  obtain ⟨_, _, helement, -⟩ := outcome_bind_ok_iff.1 hrender
  obtain ⟨entries, k, -, -, -, hprops, hcontainer, -⟩ := outcome_renderElement_ok_iff.1 helement
  exact ⟨f, u, path, props, container, c', entries, k, hcompile, congrArg (·.1) hvalues, hprops,
    hcontainer⟩

theorem outcome_renderContents_error {e : Failure}
    (h : ((compileTag root extension contents).outcome s).1 = .error e) :
    ((renderContents root extension contents engine c).outcome s).1 = .error e := by
  rw [renderContents, outcome_bind]
  generalize (compileTag root extension contents).outcome s = compiled at h
  obtain ⟨_, u⟩ := compiled
  cases h
  rfl

/-- A tag that is compiled and has values is rendered by the renderer of its engine. -/
theorem outcome_renderContents_eq {f : Fragment} {n : Nat} {path html : Text}
    {props container : Value} {c' : Context} {r : Renderer}
    (hcompile : ((compileTag root extension contents).outcome s).1 = .ok f)
    (hvalues : f.values.run c = .ok ((path, props, container), c'))
    (hrenderer : s.rendererOf n f.extension = .ok r)
    (helement : ∀ t, ((renderElement r container path props).outcome t).1 = .ok html) :
    ((renderContents root extension contents (some n) c).outcome s).1 = .ok html := by
  obtain ⟨t, ht⟩ : ∃ t, (compileTag root extension contents).outcome s = (.ok f, t) :=
    ⟨_, Prod.ext hcompile rfl⟩
  have hframed := keeps_compileTag root extension contents s
  rw [ht] at hframed
  have hlookup := (looksUp_getExtension n f.extension t).1.trans
    ((hframed.rendererOf n f.extension).trans hrenderer)
  obtain ⟨u, hu⟩ : ∃ u, (getExtension (some (.engine n)) f.extension).outcome t = (.ok r, u) :=
    ⟨_, Prod.ext hlookup rfl⟩
  obtain ⟨v, hv⟩ : ∃ v, (renderElement r container path props).outcome u = (.ok html, v) :=
    ⟨_, Prod.ext (helement u) rfl⟩
  have hrendered : (renderFragment (some n) c f).outcome t = (.ok (html, c'), v) :=
    outcome_bind_ok_iff.2 ⟨_, t, outcome_ofExcept_ok_iff.2 ⟨hvalues, rfl⟩,
      outcome_bind_ok_iff.2 ⟨_, u, hu, outcome_bind_ok_iff.2 ⟨_, v, hv, rfl⟩⟩⟩
  have houtcome : (renderContents root extension contents (some n) c).outcome s =
      (.ok html, v) := by
    refine outcome_bind_ok_iff.2 ⟨f, t, ht, ?_⟩
    exact outcome_bind_ok_iff.2 ⟨_, v, hrendered, rfl⟩
  exact congrArg (·.1) houtcome

include hclosed hclosed' h

/-- What compiles with literals in the place of variables compiles with the variables. -/
theorem outcome_compileTag_of_inlined {f' : Fragment}
    (hf' : ((compileTag root extension contents').outcome s).1 = .ok f') :
    ∃ f, ((compileTag root extension contents).outcome s).1 = .ok f ∧ f.Inlines b f' := by
  obtain ⟨tag', r, hparse', hroot, hcompile'⟩ := outcome_compileTag_ok_iff.1 hf'
  rcases Tag.rel_parse hclosed hclosed' h with hrel | ⟨hnone, -⟩
  · rw [Literal.toOption_eq_some_iff.2 hparse'] at hrel
    generalize hparse : (Tag.parse contents).toOption = parsed at hrel
    cases hrel with
    | some htag =>
      obtain ⟨f, hf, hinlines⟩ := Fragment.compile_of_inlines htag hcompile'
      have hparse := Literal.toOption_eq_some_iff.1 hparse
      exact ⟨f, outcome_compileTag_ok_iff.2 ⟨_, r, hparse, hroot, hf⟩, hinlines⟩
  · rw [Literal.toOption_eq_some_iff.2 hparse'] at hnone
    cases hnone

/-- What is rendered with variables compiles with literals of their values. -/
theorem outcome_compileTag_inlined {html : Text}
    (hc : ∀ f u, (compileTag root extension contents).outcome s = (.ok f, u) →
      ∀ d ∈ f.contexts c, d.Binds b)
    (hhtml : (renderContents root extension contents engine c).outcome s = (.ok html, t)) :
    ∃ f', ((compileTag root extension contents').outcome s).1 = .ok f' := by
  obtain ⟨f, u, path, props, container, c', entries, k, hcompile, hvalues, hprops, hcontainer⟩ :=
    outcome_renderContents_ok hhtml
  obtain ⟨tag, r, hparse, hroot, hf⟩ := outcome_compileTag_ok_iff.1 (congrArg (·.1) hcompile)
  have hbinds := hc f u hcompile
  rcases Tag.rel_parse hclosed hclosed' h with hrel | ⟨-, hempty⟩
  · rw [Literal.toOption_eq_some_iff.2 hparse] at hrel
    generalize hparse' : (Tag.parse contents').toOption = parsed at hrel
    cases hrel with
    | some htag =>
      obtain ⟨f', hf', -⟩ := Fragment.compile_inlined htag hf hbinds hvalues hprops hcontainer
      have hparse' := Literal.toOption_eq_some_iff.1 hparse'
      exact ⟨f', outcome_compileTag_ok_iff.2 ⟨_, r, hparse', hroot, hf'⟩⟩
  · obtain ⟨hx, hliteral, hmem⟩ := hempty tag hparse
    obtain ⟨-, -, -, hsource, -, -⟩ := Fragment.compile_ok_iff.1 hf
    rw [ComponentSource.ofArguments, hliteral, hx.pipe] at hsource
    obtain ⟨_, _, hpath, -⟩ := Evaluation.run_bind_ok_iff.1 hvalues
    rw [← Except.ok.inj hsource] at hpath
    have hvalue := hbinds c List.mem_cons_self _ _ hmem
    exact absurd hpath (ComponentSource.run_resolvedPath_empty hvalue r _)

/-- **Variables and literals of their values are rendered alike.** In contents of closed strings
some variables, each the reference, a whole clause or a value in a literal, are replaced by
literals. If each of these variables has the value of its literal in all contexts that the
evaluation of the tag goes through, then both tags are rendered to the same element, or neither is
rendered, whether it is refused when it is compiled or later. -/
theorem outcome_renderContents_inlined
    (hc : ∀ f u, (compileTag root extension contents).outcome s = (.ok f, u) →
      ∀ d ∈ f.contexts c, d.Binds b) :
    ((renderContents root extension contents engine c).outcome s).1.toOption =
      ((renderContents root extension contents' engine c).outcome s).1.toOption := by
  cases hf' : ((compileTag root extension contents').outcome s).1 with
  | ok f' =>
    obtain ⟨f, hf, hinlines⟩ := outcome_compileTag_of_inlined hclosed hclosed' h hf'
    obtain ⟨u, hcompile⟩ : ∃ u, (compileTag root extension contents).outcome s = (.ok f, u) :=
      ⟨_, Prod.ext hf rfl⟩
    obtain ⟨u', hcompile'⟩ : ∃ u', (compileTag root extension contents').outcome s = (.ok f', u') :=
      ⟨_, Prod.ext hf' rfl⟩
    have hu := (looksUp_compileContents root extension contents s).2 fun _ => True
    have hu' := (looksUp_compileContents root extension contents' s).2 fun _ => True
    rw [hcompile] at hu
    rw [hcompile'] at hu'
    have hvalues := Fragment.run_values_of_inlines hinlines (hc f u hcompile)
    have hagree := agree_renderFragment hvalues hinlines.extension engine u u' (hu.symm.trans hu')
    have hrendered := agreeAt_bind hagree (f := fun rendered => pure rendered.1)
      (g := fun rendered => pure rendered.1) fun _ _ _ _ _ => agree_pure _ _ _
    rw [renderContents, renderContents, outcome_bind, outcome_bind, hcompile, hcompile']
    exact congrArg Except.toOption hrendered.1
  | error e =>
    rw [outcome_renderContents_error hf']
    rcases hrendered : (renderContents root extension contents engine c).outcome s with
      ⟨e' | html, t⟩
    · rfl
    · obtain ⟨f', hf''⟩ := outcome_compileTag_inlined hclosed hclosed' h hc hrendered
      rw [hf'] at hf''
      cases hf''

end

/-! ## Tags on a page -/

/-- A site with an engine that shows components as their path and the keys of their props. -/
def labelSite : Site :=
  { Site.start .none [] with
    engines := [⟨[], [("react", .function "label" (Renderer.runLabel "r"))], [], []⟩] }

/-- What a tag is rendered to there. -/
def labelPage (contents : Text) (values : Bindings) : Option Text :=
  ((renderContents (some "/ui".toList) "react" contents (some 0) (.ofValues values)).outcome
    labelSite).1.toOption

section
variable {contents : Text} {words : List Text} {tag : Tag.ParsedTag} {f : Fragment}

theorem parse_of_bits (hbits : bits contents = words)
    (hjoin : Tag.joinTranslations none words = .ok words) (htag : Tag.parseBits words = .ok tag) :
    Tag.parse contents = .ok tag := by
  rw [Tag.parse, Tag.splitContents, hbits, hjoin]
  exact htag

theorem outcome_compileTag_label (hparse : Tag.parse contents = .ok tag) :
    ((compileTag (some "/ui".toList) "react" contents).outcome labelSite).1 = .ok f ↔
      Fragment.compile "/ui" "react" tag = .ok f := by
  rw [outcome_compileTag_ok_iff]
  constructor
  · rintro ⟨_, _, hparse', hroot, hf⟩
    rw [hparse] at hparse'
    cases hparse'
    cases hroot
    exact hf
  · exact fun hf => ⟨tag, _, hparse, rfl, hf⟩

/-- What a component is shown as: its path, and the keys of its props. -/
theorem fst_outcome_renderElement_label {path json : Text} {entries : Props} {keys : List Text}
    (hkeys : Renderer.sortedKeys entries = .ok keys)
    (hjson : Markup.serializeProps (.dict entries) = .ok json) (s : Site) :
    ((renderElement (.function "label" (Renderer.runLabel "r")) .none path (.dict entries)).outcome
      s).1 = .ok (Markup.writeFragment ⟨"div", []⟩ path json
        ("[r|".toList ++ path ++ '|' :: [','].intercalate keys ++ [']'])) := by
  have hrun : Renderer.runLabel "r" path entries =
      .ok ⟨.str ("[r|".toList ++ path ++ '|' :: [','].intercalate keys ++ [']']), entries⟩ := by
    rw [Renderer.runLabel, hkeys]
    rfl
  have hbox : Markup.normalizeContainer .none = .ok ⟨"div", []⟩ := rfl
  simp only [renderElement, Markup.normalizeProps_dict, hbox]
  show ((ofExcept (Renderer.runLabel _ _ _) >>= fun rendered => _ : Action Text).outcome s).1 = _
  rw [hrun]
  show ((ofExcept (Markup.serializeProps _) >>= fun json => _ : Action Text).outcome s).1 = _
  rw [hjson]
  rfl

theorem labelPage_eq {path json : Text} {values : Bindings} {entries : Props} {keys : List Text}
    {c : Context} (hparse : Tag.parse contents = .ok tag)
    (hf : Fragment.compile "/ui" "react" tag = .ok f)
    (hvalues : f.values.run (.ofValues values) = .ok ((path, .dict entries, .none), c))
    (hkeys : Renderer.sortedKeys entries = .ok keys)
    (hjson : Markup.serializeProps (.dict entries) = .ok json) :
    labelPage contents values = some (Markup.writeFragment ⟨"div", []⟩ path json
      ("[r|".toList ++ path ++ '|' :: [','].intercalate keys ++ [']'])) := by
  have hrenderer : labelSite.rendererOf 0 f.extension =
      .ok (.function "label" (Renderer.runLabel "r")) := by
    rw [(Fragment.compile_ok_iff.1 hf).2.2.1]
    rfl
  rw [labelPage, outcome_renderContents_eq ((outcome_compileTag_label hparse).2 hf) hvalues
    hrenderer (fst_outcome_renderElement_label hkeys hjson)]
  rfl

end

/-! ### A tag with literals -/

/-- Variables of a page with their values. -/
def pageValues : Bindings := [("page", .str "home"), ("t", .dict [(.str "x", .none)])]

theorem binds_pageValues : (Context.ofValues pageValues).Binds pageValues := by
  intro x v h
  simp only [pageValues, List.mem_cons, List.not_mem_nil, Prod.mk.injEq, or_false] at h
  rcases h with ⟨rfl, rfl⟩ | ⟨rfl, rfl⟩ <;> rfl

theorem isVariable_page : IsVariable "page" :=
  isVariable_of_name (by decide) (List.all_eq_true.1 (by decide)) rfl rfl rfl rfl

theorem isVariable_t : IsVariable "t" :=
  isVariable_of_name (by decide) (List.all_eq_true.1 (by decide)) rfl rfl rfl rfl

/-- The tag with its variables. -/
def variableTag : Text := "react page with \x7btags: [t, true]\x7d"

/-- The tag with literals. -/
def literalTag : Text := "react 'home' with \x7btags: [\x7bx: null\x7d, true]\x7d"

theorem bits_variableTag : bits variableTag =
    (["react", "page", "with", "\x7btags:", "[t,", "true]\x7d"] : List Text) := by
  cbv

theorem bits_literalTag : bits literalTag =
    (["react", "'home'", "with", "\x7btags:", "[\x7bx:", "null\x7d,", "true]\x7d"] :
      List Text) := by
  cbv

/-- Props with an array that has this as its first item. -/
def tagged (d : Derivation) : Derivation :=
  .object (.bare "tags") (.array d [.atom "true"] false) [] false

theorem words_tagged : WordsOf ["\x7btags:", "[t,", "true]\x7d"] (tagged (.atom "t")) :=
  Tag.wordsOf_of_bits (t := "\x7btags: [t, true]\x7d") (Text.Quoted.closed_of_all (by decide))
    (by cbv) (by cbv)

theorem words_literal : WordsOf ["\x7btags:", "[\x7bx:", "null\x7d,", "true]\x7d"]
    (tagged (.object (.bare "x") (.atom "null") [] false)) :=
  Tag.wordsOf_of_bits (t := "\x7btags: [\x7bx: null\x7d, true]\x7d")
    (Text.Quoted.closed_of_all (by decide)) (by cbv) (by cbv)

theorem contents_pageValues : Tag.Contents pageValues (bits variableTag) (bits literalTag) := by
  have ht : Derivation.Inlines pageValues (.atom "t")
      (.object (.bare "x") (.atom "null") [] false) :=
    .inr ⟨.dict [(.str "x", .none)], .tail _ (.head _), isVariable_t,
      ⟨.object [("x", .constant .none)], rfl, rfl⟩⟩
  have hpage : WordsOf ["page"] (.atom "page") :=
    Tag.wordsOf_of_bits (t := "page") (Text.Quoted.closed_of_all (by decide)) (by cbv) (by cbv)
  have hhome : WordsOf ["'home'"] (.string "'home'") :=
    Tag.wordsOf_of_bits (t := "'home'") (Text.Quoted.closed_encode false rfl "home") (by cbv)
      (by cbv)
  rw [bits_variableTag, bits_literalTag]
  have hjoin : Tag.joinTranslations none ["react"] = .ok ["react"] := rfl
  refine .reference hjoin isVariable_page hpage rfl hhome (t := "home") rfl (.head _) ?_
  refine .inlined .props words_tagged words_literal ?_ (.same [])
  exact ⟨_, [], rfl, ⟨_, [.atom "true"], rfl, ht, ⟨_, [], rfl, .inl rfl, rfl⟩⟩, rfl⟩

/-- What the tag with its variables is compiled to. -/
def variableFragment : Fragment :=
  ⟨"react", .reference "/ui" "page" (.plain "page"),
    some (.object [("tags", .array [.variable "t" (.plain "t"), .constant (.bool true)])]), none,
    "react"⟩

theorem parse_variableTag : Tag.parse variableTag =
    .ok ⟨"react", ⟨"page", some "\x7btags: [t, true]\x7d", none, false⟩, []⟩ :=
  parse_of_bits bits_variableTag (by cbv) (by cbv)

theorem compile_variableTag : Fragment.compile "/ui" "react"
    ⟨"react", ⟨"page", some "\x7btags: [t, true]\x7d", none, false⟩, []⟩ =
      .ok variableFragment := by
  have hvalue : (tagged (.atom "t")).value? (some Pipe.compile) =
      some (.object [("tags", .array [.variable "t" (.plain "t"), .constant (.bool true)])]) := by
    simp only [tagged, Derivation.value?, Derivation.fieldValues?, Derivation.itemValues?,
      isVariable_t.compileAtom]
    rfl
  have hprops := words_tagged.compile_eq hvalue
  refine Fragment.compile_ok_iff.2 ⟨rfl, rfl, rfl, ?_,
    Fragment.compileClause_ok_iff.2 (.inr ⟨_, _, rfl, rfl, hprops, rfl⟩), rfl⟩
  show (Pipe.compile "page".toList).map _ = _
  rw [isVariable_page.pipe]
  rfl

theorem onlyVariables_variableFragment : variableFragment.OnlyVariables := by
  refine ⟨rfl, fun e he => ?_, fun e he => ?_⟩
  · cases he
    exact ⟨⟨rfl, trivial, trivial⟩, trivial⟩
  · cases he

theorem labelPage_literalTag : labelPage literalTag pageValues = some
    ("<div data-react-class=\"/ui/home\" data-react-props=\"\x7b&quot;tags&quot;:[\x7b" ++
      "&quot;x&quot;:null\x7d,true]\x7d\">[r|/ui/home|tags]</div>").toList := by
  have hparse : Tag.parse literalTag =
      .ok ⟨"react", ⟨"home", some "\x7btags: [\x7bx: null\x7d, true]\x7d", none, true⟩, []⟩ :=
    parse_of_bits bits_literalTag (by cbv) (by cbv)
  have hvalue : (tagged (.object (.bare "x") (.atom "null") [] false)).value?
      (some Pipe.compile) = some (.object [("tags", .array [.object [("x", .constant .none)],
        .constant (.bool true)])]) := rfl
  have hprops := words_literal.compile_eq hvalue
  have hcompile : Fragment.compile "/ui" "react"
      ⟨"react", ⟨"home", some "\x7btags: [\x7bx: null\x7d, true]\x7d", none, true⟩, []⟩ =
        .ok ⟨"react", .path "/ui" "/ui/home",
          some (.object [("tags", .array [.object [("x", .constant .none)],
            .constant (.bool true)])]), none, "react"⟩ :=
    Fragment.compile_ok_iff.2 ⟨rfl, rfl, rfl, rfl, Fragment.compileClause_ok_iff.2
      (.inr ⟨_, _, rfl, rfl, hprops, rfl⟩), rfl⟩
  have hjson : Markup.serializeProps
      (.dict [(.str "tags", .list [.dict [(.str "x", .none)], .bool true])]) =
        .ok "\x7b&quot;tags&quot;:[\x7b&quot;x&quot;:null\x7d,true]\x7d".toList := by
    cbv
  have hkeys : Renderer.sortedKeys [(.str "tags", .list [.dict [(.str "x", .none)], .bool true])] =
      .ok ["tags".toList] := by
    cbv
  rw [labelPage_eq hparse hcompile rfl hkeys hjson, String.toList_append]
  repeat rw [String.toList_ofList]
  rfl

/-- The reference and a variable in the props are replaced. -/
theorem outcome_renderContents_inlined_page :
    labelPage variableTag pageValues = labelPage literalTag pageValues ∧
      (labelPage literalTag pageValues).isSome := by
  have hreference : Closed false "react 'home'".toList :=
    .append (a := "react ".toList) (Text.Quoted.closed_of_all (by decide))
      (Text.Quoted.closed_encode (q := '\'') false rfl "home")
  have hprops : Closed false " with \x7btags: [\x7bx: null\x7d, true]\x7d".toList :=
    Text.Quoted.closed_of_all (by decide)
  refine ⟨?_, by rw [labelPage_literalTag]; rfl⟩
  refine outcome_renderContents_inlined (b := pageValues) (Text.Quoted.closed_of_all (by decide))
    (hreference.append hprops) contents_pageValues fun f u hf d hd => ?_
  have hf := (outcome_compileTag_label parse_variableTag).1 (congrArg (·.1) hf)
  rw [compile_variableTag] at hf
  cases hf
  rw [Fragment.contexts_of_onlyVariables onlyVariables_variableFragment hd]
  exact binds_pageValues

/-! ### Where a replacement shows -/

/-- A list on a page. -/
def listValues : Bindings := [("l", .list [.bool true, .none])]

/-- A tag that takes an item out of the list before it comes to the list. -/
def poppingTag : Text := "react 'X' with \x7ba: l.pop, b: l\x7d"

/-- The tag with the list as it was in the beginning. -/
def poppedTag : Text := "react 'X' with \x7ba: l.pop, b: [true, null]\x7d"

theorem bits_poppingTag : bits poppingTag =
    (["react", "'X'", "with", "\x7ba:", "l.pop,", "b:", "l\x7d"] : List Text) := by
  cbv

theorem bits_poppedTag : bits poppedTag =
    (["react", "'X'", "with", "\x7ba:", "l.pop,", "b:", "[true,", "null]\x7d"] : List Text) := by
  cbv

/-- Props with the item that is taken out of the list and something else. -/
def popping (d : Derivation) : Derivation :=
  .object (.bare "a") (.atom "l.pop") [(.bare "b", d)] false

theorem words_popping : WordsOf ["\x7ba:", "l.pop,", "b:", "l\x7d"] (popping (.atom "l")) :=
  Tag.wordsOf_of_bits (t := "\x7ba: l.pop, b: l\x7d") (Text.Quoted.closed_of_all (by decide))
    (by cbv) (by cbv)

theorem words_popped : WordsOf ["\x7ba:", "l.pop,", "b:", "[true,", "null]\x7d"]
    (popping (.array (.atom "true") [.atom "null"] false)) :=
  Tag.wordsOf_of_bits (t := "\x7ba: l.pop, b: [true, null]\x7d")
    (Text.Quoted.closed_of_all (by decide)) (by cbv) (by cbv)

theorem isVariable_l : IsVariable "l" :=
  isVariable_of_name (by decide) (List.all_eq_true.1 (by decide)) rfl rfl rfl rfl

theorem contents_listValues : Tag.Contents listValues (bits poppingTag) (bits poppedTag) := by
  have hl : Derivation.Inlines listValues (.atom "l")
      (.array (.atom "true") [.atom "null"] false) :=
    .inr ⟨.list [.bool true, .none], .head _, isVariable_l,
      ⟨.array [.constant (.bool true), .constant .none], rfl, rfl⟩⟩
  rw [bits_poppingTag, bits_poppedTag]
  have hjoin : Tag.joinTranslations none ["react", "'X'"] = .ok ["react", "'X'"] := rfl
  refine .kept hjoin ?_
  refine .inlined .props words_popping words_popped ?_ (.same [])
  exact ⟨.atom "l.pop", _, rfl, .inl rfl, _, [], rfl, hl, rfl⟩

/-- The filter expression of the method that takes an item out of the list. -/
def popPipe : Pipe := ⟨some (.variable "l.pop" ["l", "pop"]), []⟩

/-- What the tags with these props are compiled to. -/
def poppingFragment (e : Expression) : Fragment :=
  ⟨"react", .path "/ui" "/ui/X", some (.object [("a", .variable "l.pop" popPipe), ("b", e)]), none,
    "react"⟩

theorem compile_popping {ws : List Text} {d : Derivation} {e : Expression}
    (hws : WordsOf ws (popping d)) (he : d.value? (some Pipe.compile) = some e) :
    Fragment.compile "/ui" "react" ⟨"react", ⟨"X", some (Tag.spaced ws), none, true⟩, []⟩ =
      .ok (poppingFragment e) := by
  have hpipe : Pipe.compile "l.pop" = .ok popPipe := by
    rw [Pipe.compile_word (by decide) (List.all_eq_true.1 (by decide))]
    rfl
  have hword : Literal.wordConstant? "l.pop" = none := rfl
  have hnumber : Literal.isNumber "l.pop" = false := rfl
  have hvalue : (popping d).value? (some Pipe.compile) =
      some (.object [("a", .variable "l.pop" popPipe), ("b", e)]) := by
    simp only [popping, Derivation.value?, Derivation.fieldValues?, Literal.compileAtom, hword,
      hnumber, hpipe, he]
    rfl
  exact Fragment.compile_ok_iff.2 ⟨rfl, rfl, rfl, rfl, Fragment.compileClause_ok_iff.2
    (.inr ⟨_, _, rfl, rfl, hws.compile_eq hvalue, rfl⟩), rfl⟩

theorem labelPage_popping : labelPage poppingTag listValues = some
    ("<div data-react-class=\"/ui/X\" data-react-props=\"\x7b&quot;a&quot;:null," ++
      "&quot;b&quot;:[true]\x7d\">[r|/ui/X|a,b]</div>").toList := by
  have hparse : Tag.parse poppingTag =
      .ok ⟨"react", ⟨"X", some "\x7ba: l.pop, b: l\x7d", none, true⟩, []⟩ :=
    parse_of_bits bits_poppingTag (by cbv) (by cbv)
  have hcompile := compile_popping words_popping (e := .variable "l" (.plain "l")) (by
    rw [Derivation.value?, isVariable_l.compileAtom]
    rfl)
  have hvalues : (poppingFragment (.variable "l" (.plain "l"))).values.run (.ofValues listValues) =
      .ok (("/ui/X", .dict [(.str "a", .none), (.str "b", .list [.bool true])], .none),
        .ofValues [("l", .list [.bool true])]) := by
    cbv
  have hjson : Markup.serializeProps (.dict [(.str "a", .none), (.str "b", .list [.bool true])]) =
      .ok "\x7b&quot;a&quot;:null,&quot;b&quot;:[true]\x7d".toList := by
    cbv
  have hkeys : Renderer.sortedKeys [(.str "a", .none), (.str "b", .list [.bool true])] =
      .ok ["a".toList, "b".toList] := by
    cbv
  rw [labelPage_eq hparse hcompile hvalues hkeys hjson, String.toList_append]
  repeat rw [String.toList_ofList]
  rfl

theorem labelPage_popped : labelPage poppedTag listValues = some
    ("<div data-react-class=\"/ui/X\" data-react-props=\"\x7b&quot;a&quot;:null," ++
      "&quot;b&quot;:[true,null]\x7d\">[r|/ui/X|a,b]</div>").toList := by
  have hparse : Tag.parse poppedTag =
      .ok ⟨"react", ⟨"X", some "\x7ba: l.pop, b: [true, null]\x7d", none, true⟩, []⟩ :=
    parse_of_bits bits_poppedTag (by cbv) (by cbv)
  have hcompile := compile_popping words_popped
    (e := .array [.constant (.bool true), .constant .none]) rfl
  have hvalues : (poppingFragment (.array [.constant (.bool true), .constant .none])).values.run
      (.ofValues listValues) =
        .ok (("/ui/X", .dict [(.str "a", .none), (.str "b", .list [.bool true, .none])], .none),
          .ofValues [("l", .list [.bool true])]) := by
    cbv
  have hjson : Markup.serializeProps (.dict [(.str "a", .none), (.str "b", .list [.bool true, .none])]) =
      .ok "\x7b&quot;a&quot;:null,&quot;b&quot;:[true,null]\x7d".toList := by
    cbv
  have hkeys : Renderer.sortedKeys [(.str "a", .none), (.str "b", .list [.bool true, .none])] =
      .ok ["a".toList, "b".toList] := by
    cbv
  rw [labelPage_eq hparse hcompile hvalues hkeys hjson, String.toList_append]
  repeat rw [String.toList_ofList]
  rfl

/-- A tag with a quote that is not closed before its container. -/
def strayTag : Text := "react 'x in p \"\x7d"

/-- The tag with a string for its container that closes the quote. -/
def strayedTag : Text := "react 'x in \"' with \x7by: \" \"\x7d"

/-- A text on a page. -/
def strayValues : Bindings := [("p", .str "' with \x7by: ")]

theorem inlines_stray :
    Derivation.Inlines strayValues (.atom "p") (.string "\"' with \x7by: \"") :=
  .inr ⟨.str "' with \x7by: ", .head _,
    isVariable_of_name (by decide) (List.all_eq_true.1 (by decide)) rfl rfl rfl rfl,
    ⟨.constant (.str "' with \x7by: "), rfl, rfl⟩⟩

theorem labelPage_stray : labelPage strayTag strayValues = none := by
  have hbits : bits strayTag = (["react", "'x", "in", "p", "\"\x7d"] : List Text) := by cbv
  have hparse : Tag.parse strayTag =
      .ok ⟨"react", ⟨"'x", none, some "p", false⟩, [⟨.variable, "\"\x7d"⟩]⟩ :=
    parse_of_bits hbits (by cbv) (by cbv)
  cases h : ((compileTag (some "/ui".toList) "react" strayTag).outcome labelSite).1 with
  | ok f =>
    obtain ⟨hforwarded, -⟩ := Fragment.compile_ok_iff.1 ((outcome_compileTag_label hparse).1 h)
    cases hforwarded
  | error e =>
    rw [labelPage, outcome_renderContents_error h]
    rfl

theorem labelPage_strayed : labelPage strayedTag strayValues = some
    ("<div data-react-class=\"/ui/x in &quot;\" data-react-props=\"\x7b&quot;y&quot;:" ++
      "&quot; &quot;\x7d\">[r|/ui/x in \"|y]</div>").toList := by
  have hbits : bits strayedTag =
      (["react", "'x in \"'", "with", "\x7by:", "\" \"\x7d"] : List Text) := by
    cbv
  have hparse : Tag.parse strayedTag =
      .ok ⟨"react", ⟨"x in \"", some "\x7by: \" \"\x7d", none, true⟩, []⟩ :=
    parse_of_bits hbits (by cbv) (by cbv)
  have hcompile : Fragment.compile "/ui" "react"
      ⟨"react", ⟨"x in \"", some "\x7by: \" \"\x7d", none, true⟩, []⟩ =
        .ok ⟨"react", .path "/ui" "/ui/x in \"", some (.object [("y", .constant (.str " "))]), none,
          "react"⟩ := by
    cbv
  have hjson : Markup.serializeProps (.dict [(.str "y", .str " ")]) =
      .ok "\x7b&quot;y&quot;:&quot; &quot;\x7d".toList := by
    cbv
  have hkeys : Renderer.sortedKeys [(.str "y", .str " ")] =
      .ok ["y".toList] := by
    cbv
  rw [labelPage_eq hparse hcompile rfl hkeys hjson, String.toList_append]
  repeat rw [String.toList_ofList]
  rfl

/-- A replacement shows if the variable has another value when its turn comes, and if a quote that
is not closed ends in the literal. -/
theorem renderContents_not_inlined :
    (Closed false poppingTag ∧ Closed false poppedTag ∧
      Tag.Contents listValues (bits poppingTag) (bits poppedTag) ∧
      (Context.ofValues listValues).Binds listValues ∧
      (labelPage poppingTag listValues).isSome ∧ (labelPage poppedTag listValues).isSome ∧
      labelPage poppingTag listValues ≠ labelPage poppedTag listValues) ∧
    (∃ before literal after : Text, strayTag = before ++ ("p".toList ++ after) ∧
      strayedTag = before ++ (literal ++ after) ∧
      Derivation.Inlines strayValues (.atom "p") (.string literal) ∧
      (Context.ofValues strayValues).Binds strayValues ∧
      labelPage strayTag strayValues = none ∧ (labelPage strayedTag strayValues).isSome) := by
  have hclosed : ∀ props : Text, Closed false props → Closed false ("react 'X'".toList ++ props) :=
    fun _ => .append (.append (a := "react ".toList) (Text.Quoted.closed_of_all (by decide))
      (Text.Quoted.closed_encode (q := '\'') false rfl "X"))
  refine ⟨⟨?_, ?_, contents_listValues, ?_, ?_, ?_, ?_⟩, ?_⟩
  · exact hclosed " with \x7ba: l.pop, b: l\x7d" (Text.Quoted.closed_of_all (by decide))
  · exact hclosed " with \x7ba: l.pop, b: [true, null]\x7d"
      (Text.Quoted.closed_of_all (by decide))
  · intro x v h
    obtain ⟨rfl, rfl⟩ := Prod.mk.inj (List.mem_singleton.1 h)
    rfl
  · rw [labelPage_popping]
    rfl
  · rw [labelPage_popped]
    rfl
  · rw [labelPage_popping, labelPage_popped, String.toList_append, String.toList_append]
    repeat rw [String.toList_ofList]
    decide
  · refine ⟨"react 'x in ", "\"' with \x7by: \"", " \"\x7d", rfl, rfl, inlines_stray, ?_,
      labelPage_stray, ?_⟩
    · intro x v h
      obtain ⟨rfl, rfl⟩ := Prod.mk.inj (List.mem_singleton.1 h)
      rfl
    · rw [labelPage_strayed]
      rfl

end Action
end Hydration
