import Hydration.Proofs.Fragment.Checked
import Hydration.Proofs.Fragment.Defaults
import Hydration.Proofs.Site.ClauseOrder
import Hydration.Proofs.Site.Inlining
/-!
# Pages with clauses that stand for the defaults

    {% react 'Page' %}    {% react 'Page' with p in {tag: 'div', hidden: null} %}

In whichever way the clauses of a tag stand for the defaults, the tag is rendered as if it had none.
A variable counts with the value that it has when its clause is evaluated, and a method that the
reference calls may have changed it.

* `Action.map_renderFragment_of_isDefault`: such a tag is rendered without its clauses.
* `Action.default_clauses_alike`: all tags with such clauses are rendered alike.
* `Action.emptied_variable_not_alike`: a reference that takes the value of a variable away.
-/
namespace Hydration.Action
open Markup (plainContainer)
open Text.Quoted (Closed)
open Literal (Derivation)
open Tag (Token Clauses IsReference WordsOf beforeStop parseTokens)

/-- A tag whose clauses stand for the defaults is rendered as if it had none. -/
theorem map_renderFragment_of_isDefault {f : Fragment} {c : Context} (h : f.IsDefault c)
    (engine : Option Nat) : Prod.fst <$> renderFragment engine c f =
      Prod.fst <$> renderChecked engine c f [] plainContainer := by
  rw [renderFragment, renderChecked]
  cases hpath : f.component.resolvedPath.run c with
  | error e =>
    have hvalues : f.values.run c = .error e := by
      rw [Fragment.values, StateT.run_bind, hpath]
      rfl
    rw [hvalues]
    rfl
  | ok x =>
    obtain ⟨path, d⟩ := x
    have hleads := ComponentSource.leadsTo_iff.1 hpath
    obtain ⟨d₁, d₂, ⟨props, hprops, hentries⟩, container, hcontainer, hplain⟩ := h path d hleads
    rw [Fragment.evaluates_iff.2 (.parts hleads hprops hcontainer)]
    show Prod.fst <$> (getExtension _ _ >>= _) = Prod.fst <$> (getExtension _ _ >>= _)
    simp only [map_bind, map_pure]
    congr 1
    funext r
    rw [renderElement_of_checked (Markup.propsFrom_iff.2 hentries) (Markup.isPlain_iff.2 hplain)]

/-- Tags whose clauses stand for the defaults are rendered alike if they have the same reference and
extension. -/
theorem agree_renderFragment_of_isDefault {f f' : Fragment} {c : Context} (h : f.IsDefault c)
    (h' : f'.IsDefault c) (hcomponent : f'.component = f.component)
    (hextension : f'.extension = f.extension) (engine : Option Nat) :
    Agree (fun _ => True) (Prod.fst <$> renderFragment engine c f)
      (Prod.fst <$> renderFragment engine c f') := by
  have hsame : Prod.fst <$> renderFragment engine c f' =
      Prod.fst <$> renderFragment engine c f := by
    rw [map_renderFragment_of_isDefault h, map_renderFragment_of_isDefault h', renderChecked,
      renderChecked, hcomponent, hextension]
  rw [hsame, ← bind_pure_comp]
  exact agree_bind (agree_renderFragment rfl rfl engine) fun _ => agree_pure _

/-! ## Compiling -/

/-- Compiling a tag that was read gives what the tag and the configuration say. -/
theorem looksUp_compileRead (root : Option Text) (extension : Text)
    (tag : Except Failure Tag.ParsedTag) :
    LooksUp (fun s => tag.bind fun tag => (s.capturedRoot root).bind fun r =>
      Fragment.compile r extension tag) (compileRead root extension tag) :=
  looksUp_bind (looksUp_ofExcept _) (looksUp_compileAgainst root extension) fun tag s t hst => by
    rw [(hst fun _ => True).capturedRoot]

/-- A tag whose clauses stand for the defaults is compiled if its reference is. -/
theorem compileRead_of_standFor {k : Clauses} {props container : Option Expression}
    {asProps asContainer : Pipe → Prop} (h : k.StandFor props container asProps asContainer)
    (root : Option Text) (extension name : Text) (reference : Token) (s : Site) :
    ((compileRead root extension (.ok (k.parsed name reference))).outcome s).1 =
      ((s.capturedRoot root).bind reference.source).map fun source =>
        ⟨name, source, props, container, extension⟩ := by
  rw [(looksUp_compileRead root extension (.ok (k.parsed name reference)) s).1]
  cases hroot : s.capturedRoot root with
  | error e => simp only [hroot, Except.bind, Except.map]
  | ok r =>
    simp only [hroot, Except.bind]
    exact h.compile r extension name reference

/-- Compiles what was read of a component tag and renders it on a page of an engine or of none. -/
def renderRead (root : Option Text) (extension : Text) (tag : Except Failure Tag.ParsedTag)
    (engine : Option Nat) (c : Context) : Action Text := do
  let f ← compileRead root extension tag
  Prod.fst <$> renderFragment engine c f

theorem renderTokens_eq (root : Option Text) (extension name : Text) (tokens : List Token)
    (engine : Option Nat) (c : Context) : renderTokens root extension name tokens engine c =
      renderRead root extension (parseTokens name tokens) engine c := by
  simp only [renderTokens, renderRead, compileTokens, bind_pure_comp]

/-- What is not compiled is not rendered. -/
theorem outcome_renderRead_error {root : Option Text} {extension : Text}
    {tag : Except Failure Tag.ParsedTag} {s : Site} {e : Failure}
    (h : ((compileRead root extension tag).outcome s).1 = .error e) (engine : Option Nat)
    (c : Context) : ((renderRead root extension tag engine c).outcome s).1 = .error e := by
  rw [renderRead, outcome_bind]
  generalize (compileRead root extension tag).outcome s = compiled at h
  obtain ⟨_, u⟩ := compiled
  cases h
  rfl

/-- Tags whose clauses stand for the defaults are rendered alike, if they are read. -/
theorem outcome_renderRead_of_areDefault {k k' : Clauses} {reference : Token} {c : Context}
    (h : k.AreDefault reference c) (h' : k'.AreDefault reference c) (root : Option Text)
    (extension name : Text) (engine : Option Nat) (s : Site) :
    ((renderRead root extension (.ok (k.parsed name reference)) engine c).outcome s).1 =
      ((renderRead root extension (.ok (k'.parsed name reference)) engine c).outcome s).1 := by
  obtain ⟨props, container, hstand⟩ := h
  obtain ⟨props', container', hstand'⟩ := h'
  have hcompiled := compileRead_of_standFor hstand root extension name reference s
  have hcompiled' := compileRead_of_standFor hstand' root extension name reference s
  cases hsource : (s.capturedRoot root).bind reference.source with
  | error e =>
    rw [hsource] at hcompiled hcompiled'
    rw [outcome_renderRead_error hcompiled, outcome_renderRead_error hcompiled']
  | ok source =>
    obtain ⟨r, -, hr⟩ := Failure.bind_ok hsource
    rw [hsource] at hcompiled hcompiled'
    have hsite := (looksUp_compileRead root extension (.ok (k.parsed name reference)) s).2
      fun _ => True
    have hsite' := (looksUp_compileRead root extension (.ok (k'.parsed name reference)) s).2
      fun _ => True
    have hagree := agree_renderFragment_of_isDefault (hstand.isDefault hr name extension)
      (hstand'.isDefault hr name extension) rfl rfl engine
    rw [renderRead, renderRead, outcome_bind, outcome_bind]
    generalize (compileRead root extension (.ok (k.parsed name reference))).outcome s = compiled
      at hcompiled hsite
    generalize (compileRead root extension (.ok (k'.parsed name reference))).outcome s = compiled'
      at hcompiled' hsite'
    obtain ⟨_, u⟩ := compiled
    obtain ⟨_, u'⟩ := compiled'
    cases hcompiled
    cases hcompiled'
    exact (hagree u u' (hsite.symm.trans hsite')).1

/-- **Clauses that stand for the defaults make no difference.** Let each clause of two tags be left
out, a literal that stands for the default, or a filter expression that comes to such a value when
its turn comes, after the reference and after the props. Against every root, with every renderer and
on every page of any site, both tags are rendered to the same element, or fail alike. If the
reference is a string or a variable, then variables count with the values that they have on the
page. -/
theorem default_clauses_alike (name : Text) (reference : Token) {k k' : Clauses} (hk : k.Valid)
    (hk' : k'.Valid) {ending : List Token} (hend : beforeStop ending = []) (c : Context)
    (root : Option Text) (extension : Text) (engine : Option Nat) (s : Site) :
    let rendered := fun (k : Clauses) => ((renderTokens root extension name
      (reference :: (k.tokens ++ ending)) engine c).outcome s).1
    (k.AreDefault reference c → k'.AreDefault reference c → rendered k = rendered k') ∧
      (Clauses.IsSimple reference → k.AreDefaultIn c → k'.AreDefaultIn c →
        rendered k = rendered k') := by
  intro rendered
  have halike : k.AreDefault reference c → k'.AreDefault reference c →
      rendered k = rendered k' := by
    intro h h'
    simp only [rendered, renderTokens_eq]
    by_cases hreference : IsReference reference
    · rw [Tag.parseTokens_someClauses hk hreference hend,
        Tag.parseTokens_someClauses hk' hreference hend]
      exact outcome_renderRead_of_areDefault h h' root extension name engine s
    · obtain ⟨e, he⟩ := Tag.parseTokens_of_not_isReference name hreference
      rw [he, he]
  refine ⟨halike, fun hsimple h h' => ?_⟩
  exact halike (h.areDefault hsimple) (h'.areDefault hsimple)

/-- The contents of a tag are rendered from the tokens of their bits. -/
theorem renderContents_of_split {contents name : Text} {bits : List Text}
    (h : Tag.splitContents contents = .ok (name :: bits)) (root : Option Text) (extension : Text)
    (engine : Option Nat) (c : Context) : renderContents root extension contents engine c =
      renderTokens root extension name (Tag.tokenize bits) engine c := by
  rw [renderContents, renderTokens, compileTag_of_split h]

/-- The words of a literal are a clause that is read as what they mean. -/
theorem readAs_words {ws : List Text} {d : Derivation} (h : WordsOf ws d) {e : Expression}
    (he : d.value? (some Pipe.compile) = some e) :
    Tag.ReadAs (some (ws.map Tag.classify)) (some e) := by
  refine .read ?_
  rw [Tag.joined_classify]
  exact h.compile_eq he

/-- The words of literals are valid clauses. -/
theorem valid_words {k : Clauses}
    (h : ∀ s ∈ k.segments, ∃ keyword ws d, s = .clause keyword (ws.map Tag.classify) ∧
      WordsOf ws d) : k.Valid := by
  refine ⟨fun s hs => ?_, fun t ht => ?_⟩
  · obtain ⟨keyword, ws, d, rfl, hws⟩ := h s hs
    exact hws.isExpression
  · obtain ⟨s, hs, ht⟩ := List.mem_flatMap.1 ht
    obtain ⟨keyword, ws, d, rfl, -⟩ := h s hs
    rcases List.mem_cons.1 ht with rfl | ht
    · simp
    · obtain ⟨bit, -, rfl⟩ := List.mem_map.1 ht
      exact Tag.classify_kind bit

/-- A variable that is missing, and a mapping of which only the tag name is kept. -/
def plainClauses : Clauses :=
  ⟨some (["p"].map Tag.classify),
    some (["\x7btag:", "'div',", "hidden:", "null\x7d"].map Tag.classify)⟩

/-- No props, and no clause for the container. -/
def emptyClauses : Clauses := ⟨some (["\x7b\x7d"].map Tag.classify), none⟩

/-- The mapping of which only the tag name is kept. -/
def droppedAttribute : Derivation :=
  .object (.bare "tag") (.string "'div'") [(.bare "hidden", .atom "null")] false

theorem words_p : WordsOf ["p"] (.atom "p") :=
  Tag.wordsOf_of_bits (t := "p") (Text.Quoted.closed_of_all (by decide)) (by cbv) (by cbv)

theorem words_droppedAttribute :
    WordsOf ["\x7btag:", "'div',", "hidden:", "null\x7d"] droppedAttribute := by
  have hclosed : Closed false ("\x7btag: ".toList ++ "'div', hidden: null\x7d".toList) :=
    .append (Text.Quoted.closed_of_all (by decide))
      (.append (a := "'div'".toList) (Text.Quoted.closed_encode (q := '\'') false rfl "div")
        (Text.Quoted.closed_of_all (by decide)))
  exact Tag.wordsOf_of_bits (t := "\x7btag: 'div', hidden: null\x7d") hclosed (by cbv) (by cbv)

theorem words_empty : WordsOf ["\x7b\x7d"] .emptyObject :=
  Tag.wordsOf_of_bits (t := "\x7b\x7d") (Text.Quoted.closed_of_all (by decide)) (by cbv) (by cbv)

theorem isPlain_droppedAttribute :
    Markup.IsPlain (.dict [(.str "tag", .str "div"), (.str "hidden", .none)]) := by
  refine Markup.isPlain_of_dropped fun e he => ?_
  obtain rfl := List.mem_singleton.1 he
  exact ⟨⟨"hidden", Markup.checkAttributeName_ok_iff.2 ⟨false, rfl, by decide, by decide⟩⟩, rfl⟩

/-- The variable is missing, and the values of the literals are defaults. -/
theorem areDefaultIn_plainClauses {c : Context} (h : c.get? "p" = none) :
    plainClauses.AreDefaultIn c := by
  have hp : IsVariable "p" :=
    isVariable_of_name (by decide) (List.all_eq_true.1 (by decide)) rfl rfl rfl rfl
  refine ⟨_, _, readAs_words words_p (e := .variable "p" (.plain "p")) ?_,
    readAs_words words_droppedAttribute rfl, ?_, ?_⟩
  · rw [Derivation.value?, hp.compileAtom]
    rfl
  · intro e he
    cases he
    exact .variable "p" ⟨"p", rfl, fun v hv => by rw [h] at hv; cases hv⟩
  · intro e he
    cases he
    exact .literal rfl isPlain_droppedAttribute

theorem areDefaultIn_emptyClauses (c : Context) : emptyClauses.AreDefaultIn c := by
  refine ⟨_, none, readAs_words words_empty rfl, .omitted, ?_, by simp⟩
  intro e he
  cases he
  exact .literal rfl (.mapping rfl)

theorem valid_plainClauses : plainClauses.Valid := by
  refine valid_words fun s hs => ?_
  simp only [plainClauses, Clauses.segments, Option.map_some, Option.toList_some, List.cons_append,
    List.nil_append, List.mem_cons, List.not_mem_nil, or_false] at hs
  rcases hs with rfl | rfl
  · exact ⟨.props, _, _, rfl, words_p⟩
  · exact ⟨.container, _, _, rfl, words_droppedAttribute⟩

theorem valid_emptyClauses : emptyClauses.Valid := by
  refine valid_words fun s hs => ?_
  obtain rfl := List.mem_singleton.1 hs
  exact ⟨.props, _, _, rfl, words_empty⟩

/-- Tags with these clauses are rendered alike on pages where the variable is missing. -/
theorem default_clauses_alike_missing :
    plainClauses.Valid ∧ emptyClauses.Valid ∧ beforeStop [Token.stop] = [] ∧
    ∀ root extension engine s (c : Context), c.get? "p" = none →
      ((renderContents root extension "react page with p in \x7btag: 'div', hidden: null\x7d"
          engine c).outcome s).1 =
        ((renderContents root extension "react page with \x7b\x7d" engine c).outcome s).1 := by
  refine ⟨valid_plainClauses, valid_emptyClauses, rfl, fun root extension engine s c hc => ?_⟩
  have hpage : Clauses.IsSimple ⟨.variable, "page"⟩ := .inr ⟨rfl, isVariable_page⟩
  have hsplit : Tag.splitContents "react page with p in \x7btag: 'div', hidden: null\x7d" =
      .ok (["react", "page", "with", "p", "in", "\x7btag:", "'div',", "hidden:", "null\x7d"] :
        List Text) := by
    cbv
  have hsplit' : Tag.splitContents "react page with \x7b\x7d" =
      .ok (["react", "page", "with", "\x7b\x7d"] : List Text) := by
    cbv
  rw [renderContents_of_split hsplit, renderContents_of_split hsplit']
  have hend : beforeStop [Token.stop] = [] := rfl
  exact (default_clauses_alike "react" ⟨.variable, "page"⟩ valid_plainClauses valid_emptyClauses
    hend c root extension engine s).2 hpage (areDefaultIn_plainClauses hc)
      (areDefaultIn_emptyClauses c)

/-- The key of the item that is taken out of a mapping. -/
def popitemPipe : Pipe := ⟨some (.variable "d.popitem.0" ["d", "popitem", "0"]), []⟩

/-- A tag whose reference takes the item out of the mapping, with this container. -/
def emptyingFragment (container : Option Expression) : Fragment :=
  ⟨"react", .reference "/ui" "d.popitem.0" popitemPipe, some (.object []), container, "react"⟩

/-- A page with a mapping that stands for the container of a tag without one. -/
def mappingValues : Bindings := [("d", .dict [(.str "tag", .str "div")])]

theorem run_emptyingFragment {container : Option Expression} {v : Value}
    (h : (Fragment.clauseValue container).run (.ofValues [("d", .dict [])]) =
      .ok (v, .ofValues [("d", .dict [])])) :
    (emptyingFragment container).values.run (.ofValues mappingValues) =
      .ok (("/ui/tag", .dict [], v), .ofValues [("d", .dict [])]) := by
  have hleads : (emptyingFragment container).component.LeadsTo (.ofValues mappingValues) "/ui/tag"
      (.ofValues [("d", .dict [])]) := by
    refine ComponentSource.leadsTo_iff.1 ?_
    cbv
  exact Fragment.evaluates_iff.2 (.parts hleads rfl h)

theorem compile_emptying {container : Option Text} {e : Option Expression}
    (h : Fragment.compileClause Fragment.checkContainer container = .ok e) :
    Fragment.compile "/ui" "react"
        ⟨"react", ⟨"d.popitem.0", some "\x7b\x7d", container, false⟩, []⟩ =
      .ok (emptyingFragment e) := by
  have hpipe : Pipe.compile "d.popitem.0" = .ok popitemPipe := by
    rw [Pipe.compile_word (by decide) (List.all_eq_true.1 (by decide))]
    rfl
  have hprops : Fragment.compileClause Fragment.checkProps (some "\x7b\x7d".toList) =
      .ok (some (.object [])) := by
    cbv
  refine Fragment.compile_ok_iff.2 ⟨rfl, rfl, rfl, ?_, hprops, h⟩
  show (Pipe.compile "d.popitem.0".toList).map _ = _
  rw [hpipe]
  rfl

/-- A page fails if the container of its tag is refused. -/
theorem labelPage_of_refused {contents path : Text} {values : Bindings} {tag : Tag.ParsedTag}
    {f : Fragment} {props container : Value} {c : Context} {failure : Failure}
    (hparse : Tag.parse contents = .ok tag) (hf : Fragment.compile "/ui" "react" tag = .ok f)
    (hvalues : f.values.run (.ofValues values) = .ok ((path, props, container), c))
    (hrefused : Markup.normalizeContainer container = .error failure) :
    labelPage contents values = none := by
  rw [labelPage]
  generalize houtcome : (renderContents _ _ _ _ _).outcome labelSite = outcome
  obtain ⟨_ | html, t⟩ := outcome
  · rfl
  · obtain ⟨f', u, path', props', container', c', entries, k, hf', hvalues', -, hk⟩ :=
      outcome_renderContents_ok houtcome
    cases hf.symm.trans ((outcome_compileTag_label hparse).1 (congrArg (·.1) hf'))
    cases hvalues.symm.trans hvalues'
    cases hrefused.symm.trans hk

theorem labelPage_emptying :
    (labelPage "react d.popitem.0 with \x7b\x7d" mappingValues).isSome := by
  have hbits : Tag.bits "react d.popitem.0 with \x7b\x7d" =
      (["react", "d.popitem.0", "with", "\x7b\x7d"] : List Text) := by cbv
  have hparse : Tag.parse "react d.popitem.0 with \x7b\x7d" =
      .ok ⟨"react", ⟨"d.popitem.0", some "\x7b\x7d", none, false⟩, []⟩ :=
    parse_of_bits hbits (by cbv) (by cbv)
  have hjson : Markup.serializeProps (.dict []) = .ok "\x7b\x7d".toList := by cbv
  rw [labelPage_eq hparse (compile_emptying rfl) (run_emptyingFragment rfl) rfl hjson]
  rfl

theorem labelPage_emptied :
    labelPage "react d.popitem.0 with \x7b\x7d in d" mappingValues = none := by
  have hbits : Tag.bits "react d.popitem.0 with \x7b\x7d in d" =
      (["react", "d.popitem.0", "with", "\x7b\x7d", "in", "d"] : List Text) := by cbv
  have hparse : Tag.parse "react d.popitem.0 with \x7b\x7d in d" =
      .ok ⟨"react", ⟨"d.popitem.0", some "\x7b\x7d", some "d", false⟩, []⟩ :=
    parse_of_bits hbits (by cbv) (by cbv)
  have hd : IsVariable "d" :=
    isVariable_of_name (by decide) (List.all_eq_true.1 (by decide)) rfl rfl rfl rfl
  have hwords : WordsOf ["d"] (.atom "d") :=
    Tag.wordsOf_of_bits (t := "d") (Text.Quoted.closed_of_all (by decide)) (by cbv) (by cbv)
  have hvalue : (Derivation.atom "d").value? (some Pipe.compile) =
      some (.variable "d" (.plain "d")) := by
    rw [Derivation.value?, hd.compileAtom]
    rfl
  have hclause : Fragment.compileClause Fragment.checkContainer (some "d".toList) =
      .ok (some (.variable "d" (.plain "d"))) :=
    Fragment.compileClause_ok_iff.2 (.inr ⟨_, _, rfl, rfl, hwords.compile_eq hvalue, rfl⟩)
  have hrun : (Fragment.clauseValue (some (.variable "d" (.plain "d")))).run
      (.ofValues [("d", .dict [])]) = .ok (.dict [], .ofValues [("d", .dict [])]) := by
    cbv
  have hmissing : Markup.normalizeContainer (.dict []) = .error (.container .missingTag) := by
    cbv
  exact labelPage_of_refused hparse (compile_emptying hclause) (run_emptyingFragment hrun) hmissing

/-- The variable stands for the default when the tag's turn comes, but no longer when its own turn
comes: the reference has taken the item out of it. -/
theorem emptied_variable_not_alike :
    (Context.ofValues mappingValues).get? "d" = some (.dict [(.str "tag", .str "div")]) ∧
      Markup.IsPlain (.dict [(.str "tag", .str "div")]) ∧
      (labelPage "react d.popitem.0 with \x7b\x7d" mappingValues).isSome ∧
      labelPage "react d.popitem.0 with \x7b\x7d in d" mappingValues = none :=
  ⟨rfl, Markup.isPlain_of_dropped (by simp), labelPage_emptying, labelPage_emptied⟩

end Hydration.Action
