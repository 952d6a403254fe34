import Hydration.Proofs.Fragment.Equality
import Hydration.Proofs.Json.Values
import Hydration.Proofs.Markup.Element
import Mathlib
/-!
# Tags that are written alike

Two tags that are compiled to fragments which count as equal may still differ in their constants:
`1`, `1.0` and `true` are equal, and so are the two zeros. With the same constants the fragments are
the same, and so is whatever they are rendered to. With other constants there is always a page on
which they differ: the props are seen by the renderer, and the attributes of the container are
written as texts, by which a number can be told from an equal one of another type.

* `eq_of_same`: fragments that count as equal and have the same constants are the same.
* `parallel_values`: the values of fragments that count as equal.
* `rendered_alike_iff`: which of them are rendered alike on all pages.
* `equal_fragments_rendered_alike`: the same of contents that are compiled.
-/
namespace Hydration

/-- The reference of a component is what its text is compiled to. -/
def ComponentSource.IsRead : ComponentSource → Prop
  | .path _ _ => True
  | .reference _ source pipe => Pipe.compile source = .ok pipe

theorem ComponentSource.eq_of_same {s t : ComponentSource} (h : s.same t = true) (hs : s.IsRead)
    (ht : t.IsRead) : s = t := by
  cases s with
  | path r p =>
    cases t with
    | path r' p' =>
      simp only [same, Bool.and_eq_true, beq_iff_eq] at h
      rw [h.1, h.2]
    | reference _ _ _ => cases h
  | reference r source pipe =>
    cases t with
    | path _ _ => cases h
    | reference r' source' pipe' =>
      simp only [same, Bool.and_eq_true, beq_iff_eq] at h
      obtain ⟨rfl, rfl⟩ := h
      obtain rfl := Except.ok.inj (Eq.trans (Eq.symm hs) ht)
      rfl

namespace Fragment
open Value (Near)

/-- The constants of a clause. -/
def clauseConstants : Option Expression → List Value
  | none => []
  | some e => e.constants

/-- The constants of a tag, in the order in which they are written. -/
def constants (f : Fragment) : List Value := clauseConstants f.props ++ clauseConstants f.container

/-- The parts of the fragment are such as are read. -/
structure IsRead (f : Fragment) : Prop where
  component : f.component.IsRead
  props : ∀ e, f.props = some e → e.IsRead
  container : ∀ e, f.container = some e → e.IsRead

theorem isRead_of_ofArguments {root : Text} {arguments : Tag.TagArguments} {s : ComponentSource}
    (h : ComponentSource.ofArguments root arguments = .ok s) : s.IsRead := by
  unfold ComponentSource.ofArguments at h
  split at h
  · cases h
    trivial
  · obtain ⟨pipe, hpipe, rfl⟩ := Failure.map_ok h
    exact hpipe

theorem isRead_of_compileClause {check : Expression → Except Failure Unit} {text : Option Text}
    {clause : Option Expression} (h : compileClause check text = .ok clause) {e : Expression}
    (he : clause = some e) : e.IsRead := by
  rcases compileClause_ok_iff.1 h with ⟨-, hnone⟩ | ⟨t, e', -, hsome, hcompile, -⟩
  · exact nomatch hnone.symm.trans he
  · obtain rfl := Option.some.inj (hsome.symm.trans he)
    exact Expression.compile_isRead hcompile

theorem isRead_of_compile {root extension : Text} {tag : Tag.ParsedTag} {f : Fragment}
    (h : Fragment.compile root extension tag = .ok f) : f.IsRead := by
  obtain ⟨-, -, -, hcomponent, hprops, hcontainer⟩ := compile_ok_iff.1 h
  exact ⟨isRead_of_ofArguments hcomponent, fun e => isRead_of_compileClause hprops,
    fun e => isRead_of_compileClause hcontainer⟩

/-! ## Clauses -/

section
variable {a b : Option Expression} (hsame : sameClause a b = true)
  (ha : ∀ e, a = some e → e.IsRead) (hb : ∀ e, b = some e → e.IsRead)
include hsame

theorem length_clauseConstants : (clauseConstants a).length = (clauseConstants b).length := by
  cases a <;> cases b <;>
    first | rfl | cases hsame | exact Expression.length_constants_of_same _ hsame

include ha hb

theorem eq_of_sameClause (h : clauseConstants a = clauseConstants b) : a = b := by
  cases a with
  | none =>
    cases b with
    | none => rfl
    | some _ => cases hsame
  | some e =>
    cases b with
    | none => cases hsame
    | some e' => rw [Expression.eq_of_same e hsame (ha e rfl) (hb e' rfl) h]

theorem parallel_clauseValue : Evaluation.Parallel
    (fun v w => Near v w ∧ (v = w ↔ clauseConstants a = clauseConstants b))
    (clauseValue a) (clauseValue b) := by
  cases a with
  | none =>
    cases b with
    | none => exact Evaluation.parallel_pure ⟨.same _, iff_of_true rfl rfl⟩
    | some _ => cases hsame
  | some e =>
    cases b with
    | none => cases hsame
    | some e' => exact Expression.parallel_evaluate e hsame (ha e rfl) (hb e' rfl)

end

/-! ## Fragments -/

section
variable {f g : Fragment} (hsame : f.same g = true)
include hsame

theorem same_parts : f.tag = g.tag ∧ f.component.same g.component = true ∧
    sameClause f.props g.props = true ∧ sameClause f.container g.container = true ∧
      f.extension = g.extension := by
  simp only [same, Bool.and_eq_true, beq_iff_eq] at hsame
  obtain ⟨⟨⟨⟨htag, hcomponent⟩, hprops⟩, hcontainer⟩, hextension⟩ := hsame
  exact ⟨htag, hcomponent, hprops, hcontainer, hextension⟩

theorem constants_eq_iff : f.constants = g.constants ↔
    clauseConstants f.props = clauseConstants g.props ∧
      clauseConstants f.container = clauseConstants g.container :=
  ⟨fun h => List.append_inj h (length_clauseConstants (same_parts hsame).2.2.1),
    fun h => congrArg₂ (· ++ ·) h.1 h.2⟩

variable (hf : f.IsRead) (hg : g.IsRead)
include hf hg

/-- Fragments that count as equal and have the same constants are the same. -/
theorem eq_of_same (h : f.constants = g.constants) : f = g := by
  obtain ⟨htag, hcomponent, hprops, hcontainer, hextension⟩ := same_parts hsame
  obtain ⟨hpc, hcc⟩ := (constants_eq_iff hsame).1 h
  have hc := ComponentSource.eq_of_same hcomponent hf.component hg.component
  have hp := eq_of_sameClause hprops hf.props hg.props hpc
  have hk := eq_of_sameClause hcontainer hf.container hg.container hcc
  cases f
  cases g
  simp_all

/-- In every context fragments that count as equal fail alike, or have the same path, and props and
containers near each other; these are the same only if the constants are. -/
theorem parallel_values : Evaluation.Parallel
    (fun x y => x.1 = y.1 ∧ Near x.2.1 y.2.1 ∧ Near x.2.2 y.2.2 ∧
      (x.2.1 = y.2.1 ∧ x.2.2 = y.2.2 ↔ f.constants = g.constants)) f.values g.values := by
  obtain ⟨-, hcomponent, hprops, hcontainer, -⟩ := same_parts hsame
  rw [values, values, ComponentSource.eq_of_same hcomponent hf.component hg.component]
  refine Evaluation.parallel_bind (Evaluation.parallel_refl (R := Eq) (fun _ => rfl) _) ?_
  rintro path _ rfl
  refine Evaluation.parallel_bind (parallel_clauseValue hprops hf.props hg.props) ?_
  rintro props props' ⟨hnear, hiff⟩
  refine Evaluation.parallel_bind
    (parallel_clauseValue hcontainer hf.container hg.container) ?_
  rintro container container' ⟨hnear', hiff'⟩
  refine Evaluation.parallel_pure ⟨rfl, hnear, hnear', ?_⟩
  rw [hiff, hiff', constants_eq_iff hsame]

end

/-- The context gives the fragment props and a container that are accepted. -/
def IsAccepted (f : Fragment) (c : Context) : Prop :=
  ∃ path props container d entries k, f.values.run c = .ok ((path, props, container), d) ∧
    Markup.normalizeProps props = .ok entries ∧ Markup.normalizeContainer container = .ok k

end Fragment

namespace Action
open Fragment
open Value (Near)

/-- A renderer that knows its props: it fails for all others. -/
theorem exists_probe (entries : Props) : ∃ run : Text → Props → Except Failure Rendered,
    (∀ path, run path entries = .ok ⟨.str [], []⟩) ∧
      ∀ path props r, run path props = .ok r → props = entries ∧ r = ⟨.str [], []⟩ := by
  classical
  refine ⟨fun _ props => if props = entries then .ok ⟨.str [], []⟩
    else .error (.value (.raised [])), fun _ => if_pos rfl, fun _ props r h => ?_⟩
  by_cases hprops : props = entries
  · exact ⟨hprops, (Except.ok.inj ((if_pos hprops).symm.trans h)).symm⟩
  · exact nomatch (if_neg hprops).symm.trans h

/-- A site whose first engine has one renderer. -/
def withRenderer (extension : Text) (r : Renderer) : Site :=
  { Site.start .none [] with engines := [⟨[], [(extension, r)], [], []⟩] }

theorem outcome_getExtension_withRenderer (extension : Text) (r : Renderer) :
    (getExtension (some (.engine 0)) extension).outcome (withRenderer extension r) =
      (.ok r, withRenderer extension r) := by
  have hentry : (withRenderer extension r).extension? 0 extension = some r :=
    List.lookup_cons_self
  simp only [getExtension, asEngine, outcome_bind, outcome_pure, outcome_get, hentry]

/-- A fragment on a page of an engine with one renderer. -/
theorem outcome_renderFragment_withRenderer {f : Fragment} {c d : Context} {path : Text}
    {props container : Value} (h : f.values.run c = .ok ((path, props, container), d))
    (r : Renderer) :
    ((renderFragment (some 0) c f).outcome (withRenderer f.extension r)).1 =
      ((renderElement r container path props).outcome (withRenderer f.extension r)).1.map
        (·, d) := by
  rw [renderFragment, h]
  simp only [outcome_bind, outcome_ofExcept, Option.map_some, outcome_getExtension_withRenderer]
  rcases (renderElement r container path props).outcome (withRenderer f.extension r) with
    ⟨_ | _, _⟩ <;> rfl

theorem map_mk_injective (d : Context) :
    Function.Injective fun x : Except Failure Text => x.map (·, d) := by
  rintro (_ | _) (_ | _) h <;> cases h <;> rfl

/-- Near props and containers that are accepted are the same if the elements are that a renderer
gives which knows the props. -/
theorem eq_of_probe {path : Text} {props props' container container' : Value} {entries : Props}
    {k : Markup.Container} {run : Text → Props → Except Failure Rendered}
    (hprops : Near props props') (hcontainer : Near container container')
    (hentries : Markup.normalizeProps props = .ok entries)
    (hk : Markup.normalizeContainer container = .ok k)
    (hrun : run path entries = .ok ⟨.str [], []⟩)
    (hknows : ∀ other r, run path other = .ok r → other = entries ∧ r = ⟨.str [], []⟩) (s : Site)
    (h : ((renderElement (.function [] run) container path props).outcome s).1 =
      ((renderElement (.function [] run) container' path props').outcome s).1) :
    props = props' ∧ container = container' := by
  have hjson : Markup.serializeProps (.dict []) = .ok "\x7b\x7d" := rfl
  have hbody : (Value.str []).toText = .ok [] := rfl
  have hprobe : (runRenderer (.function [] run) path entries).outcome s =
      (.ok ⟨.str [], []⟩, s) := by
    rw [runRenderer, hrun, outcome_ofExcept]
  have helement := outcome_renderElement_ok_iff.2
    ⟨entries, k, _, _, _, hentries, hk, hprobe, hjson, hbody, rfl⟩
  rcases hother : (renderElement (.function [] run) container' path props').outcome s with ⟨_, t⟩
  rw [helement, hother] at h
  obtain rfl := h
  obtain ⟨entries', k', rendered, json, body, hentries', hk', hprobe', hjson', hbody', hhtml⟩ :=
    outcome_renderElement_ok_iff.1 hother
  rw [runRenderer, outcome_ofExcept, Prod.mk.injEq] at hprobe'
  obtain ⟨rfl, rfl⟩ := hknows entries' rendered hprobe'.1
  obtain rfl := Except.ok.inj (hjson.symm.trans hjson')
  obtain rfl := Except.ok.inj (hbody.symm.trans hbody')
  refine ⟨Markup.eq_of_normalizeProps hprops hentries hentries', ?_⟩
  have hquote := Markup.not_mem_serializeProps hjson
  have hread := Markup.read?_writeFragment hk hquote path []
  rw [hhtml, Markup.read?_writeFragment hk' hquote path [], Option.some.injEq, Prod.mk.injEq,
    Markup.StartTag.mk.injEq, List.append_cancel_right_eq] at hread
  exact Markup.eq_of_normalizeContainer hcontainer hk hk' hread.1.2.symm

end Action

namespace Fragment
open Hydration.Action

/-- Fragments that count as equal are rendered alike on all pages only if their constants are the
same. -/
theorem rendered_alike_iff {f g : Fragment} (hsame : f.same g = true) (hf : f.IsRead)
    (hg : g.IsRead) {c : Context} (hc : f.IsAccepted c) :
    (∀ engine s, ((renderFragment engine c f).outcome s).1 =
      ((renderFragment engine c g).outcome s).1) ↔ f.constants = g.constants := by
  constructor
  · intro halike
    obtain ⟨path, props, container, d, entries, k, hvalues, hentries, hk⟩ := hc
    rcases parallel_values hsame hf hg c with ⟨e, herror, -⟩ |
      ⟨x, ⟨path', props', container'⟩, d', hx, hy, hpath, hprops, hcontainer, hconstants⟩
    · exact nomatch herror.symm.trans hvalues
    · obtain ⟨rfl, rfl⟩ := Prod.mk.inj (Except.ok.inj (hx.symm.trans hvalues))
      obtain rfl : path = path' := hpath
      obtain ⟨run, hgives, hknows⟩ := exists_probe entries
      -- on a page whose renderer knows the props of one of them, the other one gives the same
      have hpage := halike (some 0) (withRenderer f.extension (.function [] run))
      rw [outcome_renderFragment_withRenderer hx, (same_parts hsame).2.2.2.2,
        outcome_renderFragment_withRenderer hy] at hpage
      exact hconstants.1 (eq_of_probe hprops hcontainer hentries hk (hgives path) (hknows path) _
        (map_mk_injective d' hpage))
  · intro h engine s
    rw [eq_of_same hsame hf hg h]

/-- What contents of a tag are compiled to. -/
def ofContents (root extension contents : Text) : Except Failure Fragment :=
  (Tag.parse contents).bind (Fragment.compile root extension)

theorem isRead_of_ofContents {root extension contents : Text} {f : Fragment}
    (h : ofContents root extension contents = .ok f) : f.IsRead := by
  obtain ⟨tag, -, hcompile⟩ := Failure.bind_ok h
  exact isRead_of_compile hcompile

/-- A fragment without values in a context is not rendered on any page. -/
theorem outcome_renderFragment_of_error {f : Fragment} {c : Context} {e : Failure}
    (h : f.values.run c = .error e) (engine : Option Nat) (s : Site) :
    (renderFragment engine c f).outcome s = (.error e, s) := by
  rw [renderFragment, h, outcome_bind, outcome_ofExcept]

section
variable {root extension a b : Text} {f g : Fragment} (ha : ofContents root extension a = .ok f)
  (hb : ofContents root extension b = .ok g) (hsame : f.same g = true)
include ha hb hsame

/-- **Fragments that are equal in all their constants are rendered alike.** Two tags may be compiled
to fragments that count as equal. They are the same fragment exactly if their constants are the
same, numbers with their types and signs; then they give the same on every page, element or fault,
and leave the same site. Otherwise they are rendered apart: in every context in which one of them
is given props and a container that are accepted, there is a page on which they differ. Where one
of them has no values, both give the same fault. -/
theorem equal_fragments_rendered_alike :
    (f.constants = g.constants ↔ f = g) ∧
    (f.constants = g.constants → ∀ engine c s,
      (renderFragment engine c f).outcome s = (renderFragment engine c g).outcome s) ∧
    (∀ c, f.IsAccepted c → ((∀ engine s, ((renderFragment engine c f).outcome s).1 =
      ((renderFragment engine c g).outcome s).1) ↔ f.constants = g.constants)) ∧
    ∀ c e, f.values.run c = .error e → ∀ engine s,
      (renderFragment engine c f).outcome s = (.error e, s) ∧
        (renderFragment engine c g).outcome s = (.error e, s) := by
  have hf := isRead_of_ofContents ha
  have hg := isRead_of_ofContents hb
  refine ⟨⟨eq_of_same hsame hf hg, congrArg constants⟩, fun h engine c s => ?_,
    fun c => rendered_alike_iff hsame hf hg, fun c e herror engine s => ?_⟩
  · rw [eq_of_same hsame hf hg h]
  · rcases parallel_values hsame hf hg c with ⟨e', hx, hy⟩ | ⟨x, y, d, hx, -⟩
    · obtain rfl := Except.error.inj (hx.symm.trans herror)
      exact ⟨outcome_renderFragment_of_error hx engine s, outcome_renderFragment_of_error hy engine s⟩
    · exact nomatch herror.symm.trans hx

end

/-- A tag with a prop and a container, and the same tag in another spelling. -/
def spelledTag : Text := "react 'X' with \x7bn: 1\x7d in 'p'"

def respelledTag : Text := "react \"X\" in \"p\" with \x7b 'n': 1,\x7d"

/-- What a tag with this prop is compiled to. -/
def numbered (n : Value) (container : Option Expression) : Fragment :=
  ⟨"react", .path "/ui" "/ui/X", some (.object [("n", .constant n)]), container, "react"⟩

/-- The constants of these tags are the same, and the tags are accepted. -/
theorem equal_fragments_rendered_alike_spelled :
    ∃ f g, ofContents "/ui" "react" spelledTag = .ok f ∧
      ofContents "/ui" "react" respelledTag = .ok g ∧ f.same g = true ∧
      f.IsAccepted ⟨[], none⟩ ∧ f.constants = [.int 1, .str "p"] ∧ f = g ∧
      ∀ engine s, ((renderFragment engine ⟨[], none⟩ f).outcome s).1 =
        ((renderFragment engine ⟨[], none⟩ g).outcome s).1 := by
  let f := numbered (.int 1) (some (.constant (.str "p")))
  have ha : ofContents "/ui" "react" spelledTag = .ok f := by cbv
  have hb : ofContents "/ui" "react" respelledTag = .ok f := by cbv
  have hsame : f.same f = true := by cbv
  have hcontainer : Markup.normalizeContainer (.str "p") = .ok ⟨"p", []⟩ := by cbv
  have hc : f.IsAccepted ⟨[], none⟩ :=
    ⟨_, _, _, _, _, _, rfl, Markup.normalizeProps_dict _, hcontainer⟩
  obtain ⟨hiff, -, halike, -⟩ := equal_fragments_rendered_alike ha hb hsame
  exact ⟨f, f, ha, hb, hsame, hc, rfl, hiff.1 rfl, (halike _ hc).2 rfl⟩

/-- The tag on a page whose renderer shows the path and the keys of the props. -/
theorem outcome_numbered {n : Value} {json : Text}
    (hjson : Markup.serializeProps (.dict [(.str "n", n)]) = .ok json) :
    ((renderFragment (some 0) ⟨[], none⟩ (numbered n none)).outcome
      (withRenderer "react" (.label "r"))).1 =
        .ok (Markup.writeFragment ⟨"div", []⟩ "/ui/X" json "[r|/ui/X|n]", ⟨[], none⟩) := by
  have hcontainer : Markup.normalizeContainer .none = .ok ⟨"div", []⟩ := by cbv
  have hrun : (runRenderer (.label "r") "/ui/X" [(.str "n", n)]).outcome
      (withRenderer "react" (.label "r")) =
        (.ok ⟨.str "[r|/ui/X|n]", [(.str "n", n)]⟩, withRenderer "react" (.label "r")) := by
    rw [Renderer.label, runRenderer, outcome_ofExcept]
    cbv
  have hpage : ((renderFragment (some 0) ⟨[], none⟩ (numbered n none)).outcome
      (withRenderer "react" (.label "r"))).1 =
        ((renderElement (.label "r") .none "/ui/X" (.dict [(.str "n", n)])).outcome
          (withRenderer "react" (.label "r"))).1.map (·, ⟨[], none⟩) :=
    outcome_renderFragment_withRenderer (f := numbered n none) rfl _
  rw [hpage, outcome_renderElement_ok_iff.2
    ⟨_, _, _, _, _, Markup.normalizeProps_dict _, hcontainer, hrun, hjson, rfl, rfl⟩]
  rfl

/-- A tag with a number, and one with a truth value that equals it: each is shown as it is
written. -/
theorem equal_fragments_rendered_apart :
    ofContents "/ui" "react" "react 'X' with \x7bn: 1\x7d" = .ok (numbered (.int 1) none) ∧
    ofContents "/ui" "react" "react 'X' with \x7bn: true\x7d" =
      .ok (numbered (.bool true) none) ∧
    (numbered (.int 1) none).same (numbered (.bool true) none) = true ∧
    ((renderFragment (some 0) ⟨[], none⟩ (numbered (.int 1) none)).outcome
      (withRenderer "react" (.label "r"))).1 =
      .ok (("<div data-react-class=\"/ui/X\" data-react-props=\"\x7b&quot;n&quot;:1\x7d\">" ++
        "[r|/ui/X|n]</div>").toList, ⟨[], none⟩) ∧
    ((renderFragment (some 0) ⟨[], none⟩ (numbered (.bool true) none)).outcome
      (withRenderer "react" (.label "r"))).1 =
      .ok (("<div data-react-class=\"/ui/X\" data-react-props=\"\x7b&quot;n&quot;:true\x7d\">" ++
        "[r|/ui/X|n]</div>").toList, ⟨[], none⟩) := by
  have hlt : ∀ digits, digits ≠ 0 → 1 < Nat.pow 10 digits :=
    fun _ hdigits => Nat.one_lt_pow hdigits (by decide)
  have hone : (Value.int 1).encode = .ok (.int 1) :=
    Value.encode_int (Value.intText?_of_lt (hlt Number.maxDigits (by decide)))
  have hjson : Markup.serializeProps (.dict [(.str "n", .int 1)]) =
      .ok "\x7b&quot;n&quot;:1\x7d" := by
    rw [Markup.serializeProps, Value.encode, Value.encodeEntries, hone]
    cbv
  have htrue : Markup.serializeProps (.dict [(.str "n", .bool true)]) =
      .ok "\x7b&quot;n&quot;:true\x7d" := by cbv
  refine ⟨by cbv, by cbv, by cbv, ?_, ?_⟩
  · rw [outcome_numbered hjson]
    cbv
  · rw [outcome_numbered htrue]
    cbv

end Fragment
end Hydration
