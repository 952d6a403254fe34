import Hydration.Proofs.Markup.Element
/-!
# Reserved attributes

Two attributes of an element are for the client, and a container must not supply them. The check
compares names exactly, but a reader of markup compares them without regard to the case of ASCII
letters and keeps the first of several attributes of one name. So the client finds the path and the
props exactly if no attribute of the container has a reserved name in another case.

* `values_clientAttributes`: what a reader finds under a reserved name.
* `normalizeContainer_reserved`: a reserved name in a container is a conflict.
* `checkEntries_reserved`: also in a container that is checked before it has a value.
* `client_attributes_found`: when the client finds what is meant for it.
-/
namespace Hydration.Markup

/-! ## Names as readers compare them -/

/-- A name without regard to the case of ASCII letters. -/
def foldName (name : Text) : Text := name.map Char.toLower

/-- The values that a reader finds under a name, the one that counts first. -/
def StartTag.values (tag : StartTag) (name : Text) : List Text :=
  (tag.attributes.filter fun a => foldName a.1 == name).map (·.2)

/-- A name that a reader takes for a reserved one. -/
def ReadsReserved (name : Text) : Prop := isReserved (foldName name) = true

theorem readsReserved_iff {name : Text} :
    ReadsReserved name ↔ foldName name = classAttribute ∨ foldName name = propsAttribute := by
  simp [ReadsReserved, isReserved]

/-- A reader finds the client's attributes after those of the container. -/
theorem values_clientAttributes (tag path json : Text) (attributes : List (Text × Text)) :
    (StartTag.mk tag (attributes ++ clientAttributes path json)).values classAttribute =
        (StartTag.mk tag attributes).values classAttribute ++ [Text.escapeQuotes path] ∧
      (StartTag.mk tag (attributes ++ clientAttributes path json)).values propsAttribute =
        (StartTag.mk tag attributes).values propsAttribute ++ [json] := by
  have hclass : foldName classAttribute = classAttribute := by decide
  have hprops : foldName propsAttribute = propsAttribute := by decide
  have hdiffer : classAttribute ≠ propsAttribute := by decide
  simp [StartTag.values, clientAttributes, hclass, hprops, hdiffer, hdiffer.symm]

/-- A reader that compares names exactly finds them as well, since no name of the container is
reserved. -/
theorem lookup_clientAttributes {attributes : List (Text × Text)} (path json : Text)
    (h : ∀ a ∈ attributes, isReserved a.1 = false) :
    (attributes ++ clientAttributes path json).lookup classAttribute =
        some (Text.escapeQuotes path) ∧
      (attributes ++ clientAttributes path json).lookup propsAttribute = some json := by
  have hdiffer : (propsAttribute == classAttribute) = false := by decide
  induction attributes with
  | nil => simp [clientAttributes, List.lookup_cons, hdiffer]
  | cons a more ih =>
    have hfirst := h a List.mem_cons_self
    simp only [isReserved, Bool.or_eq_false_iff] at hfirst
    obtain ⟨hclass, hprops⟩ := hfirst
    rw [List.cons_append, List.lookup_cons, List.lookup_cons, BEq.comm, hclass, BEq.comm, hprops]
    exact ih fun b hb => h b (List.mem_cons_of_mem _ hb)

theorem values_eq_nil_iff {tag : StartTag} {name : Text} :
    tag.values name = [] ↔ ∀ a ∈ tag.attributes, foldName a.1 ≠ name := by
  simp [StartTag.values, List.filter_eq_nil_iff]

/-- Neither name is found among attributes exactly if none of them is read as reserved. -/
theorem values_reserved_iff (tag : Text) {attributes : List (Text × Text)} :
    ((StartTag.mk tag attributes).values classAttribute = [] ∧
        (StartTag.mk tag attributes).values propsAttribute = []) ↔
      ∀ a ∈ attributes, ¬ ReadsReserved a.1 := by
  simp only [values_eq_nil_iff, readsReserved_iff, not_or]
  exact ⟨fun h a ha => ⟨h.1 a ha, h.2 a ha⟩, fun h => ⟨fun a ha => (h a ha).1,
    fun a ha => (h a ha).2⟩⟩

/-! ## Refused containers -/

/-- The reserved name that a key is. -/
def reservedKey? : Value → Option Text
  | .text _ t => if isReserved t then some t else none
  | _ => none

theorem reservedKey?_eq_some {k : Value} {name : Text} (h : reservedKey? k = some name) :
    ∃ safe, k = .text safe name ∧ isReserved name = true := by
  unfold reservedKey? at h
  split at h
  · next safe t =>
    split at h
    · next hr =>
      cases h
      exact ⟨safe, rfl, hr⟩
    · cases h
  · cases h

theorem checkAttributeName_of_reservedKey {k : Value} {name : Text}
    (h : reservedKey? k = some name) : checkAttributeName k = .error (.reserved name) := by
  obtain ⟨safe, rfl, hr⟩ := reservedKey?_eq_some h
  exact checkAttributeName_of_isReserved safe hr

theorem ne_tagKey_of_isReserved {name : Text} (h : isReserved name = true) : name ≠ tagKey := by
  rcases isReserved_iff.1 h with rfl | rfl <;> decide

theorem equals_tagKey_of_reserved {k : Value} {name : Text} (h : reservedKey? k = some name) :
    k.equals (.str tagKey) = false := by
  obtain ⟨safe, rfl, hr⟩ := reservedKey?_eq_some h
  simp [Value.equals_str, ne_tagKey_of_isReserved hr]

/-- The entries of a container but for those under a reserved name. -/
def withoutReserved (entries : List (Value × Value)) : List (Value × Value) :=
  entries.filter fun e => (reservedKey? e.1).isNone

theorem lookup?_withoutReserved (entries : List (Value × Value)) :
    Value.lookup? (.str tagKey) (withoutReserved entries) =
      Value.lookup? (.str tagKey) entries := by
  unfold Value.lookup? withoutReserved
  rw [List.find?_filter]
  congr 2
  funext e
  cases h : reservedKey? e.1 with
  | none => simp
  | some name => simp [equals_tagKey_of_reserved h]

/-- The first reserved name among entries that are accepted without it is the one that is refused. -/
theorem readAttributes_reserved {entries : List (Value × Value)} {name : Text}
    (hname : entries.findSome? (fun e => reservedKey? e.1) = some name)
    {attributes : List (Text × Text)}
    (hothers : readAttributes (withoutReserved entries) = .ok attributes) :
    readAttributes entries = .error (.reserved name) := by
  induction entries generalizing attributes with
  | nil => cases hname
  | cons e rest ih =>
    obtain ⟨k, v⟩ := e
    rw [List.findSome?_cons] at hname
    cases hk : reservedKey? k with
    | some reserved =>
      rw [hk] at hname
      cases hname
      simp [readAttributes, equals_tagKey_of_reserved hk, checkAttributeName_of_reservedKey hk, bind,
        Except.bind]
    | none =>
      rw [hk] at hname
      have hsplit : withoutReserved ((k, v) :: rest) = (k, v) :: withoutReserved rest := by
        simp [withoutReserved, hk]
      rw [hsplit, readAttributes_cons_ok_iff] at hothers
      -- whatever the first entry is, the others are accepted
      rcases hothers with ⟨htag, hrest⟩ | ⟨htag, own, hown, ⟨hd, hrest⟩ |
        ⟨hd, t, more, ht, hrest, -⟩⟩
      · have hrest := ih hname hrest
        simp only [isAttributeEntry, Bool.not_eq_false'] at htag
        simp [readAttributes, htag, hrest]
      · have hrest := ih hname hrest
        simp only [isAttributeEntry, Bool.not_eq_true'] at htag
        simp [readAttributes, htag, hown, hd, hrest, bind, Except.bind]
      · have hrest := ih hname hrest
        simp only [isAttributeEntry, Bool.not_eq_true'] at htag
        simp [readAttributes, htag, hown, hd, ht, hrest, bind, Except.bind]

/-- A mapping that is a container without its reserved names is refused with the first of them. -/
theorem normalizeContainer_reserved {container : Value} {name : Text} {c : Container}
    (hname : (containerEntries container).findSome? (fun e => reservedKey? e.1) = some name)
    (hothers : normalizeContainer (.dict (withoutReserved (containerEntries container))) = .ok c) :
    normalizeContainer container = .error (.reserved name) := by
  obtain ⟨tag, htag, hcheck, hread⟩ := normalizeContainer_dict_cases hothers
  rw [lookup?_withoutReserved] at htag
  have hread := readAttributes_reserved hname hread
  have hmapping : container.entries? = some (containerEntries container) := by
    cases container <;> first | rfl | cases hname
  rw [normalizeContainer_of_entries hmapping htag, hcheck, hread]
  rfl

/-! ## Containers that are checked before they have a value -/

theorem checkNames_reserved {names : List Text} {name : Text}
    (hname : names.find? isReserved = some name)
    (hothers : Fragment.checkNames (names.filter fun n => !isReserved n) = .ok ()) :
    Fragment.checkNames names = .error (.reserved name) := by
  induction names with
  | nil => cases hname
  | cons first rest ih =>
    cases hr : isReserved first with
    | true =>
      rw [List.find?_cons_of_pos hr] at hname
      cases hname
      have hrefused : checkAttributeName (.str name) = .error (.reserved name) :=
        checkAttributeName_of_isReserved false hr
      rw [Fragment.checkNames, if_neg (ne_tagKey_of_isReserved hr), hrefused]
      rfl
    | false =>
      rw [List.find?_cons_of_neg (by simp [hr])] at hname
      rw [List.filter_cons_of_pos (by simp [hr])] at hothers
      rw [Fragment.checkNames] at hothers ⊢
      by_cases htag : first = tagKey
      · rw [if_pos htag] at hothers ⊢
        exact ih hname hothers
      · rw [if_neg htag] at hothers ⊢
        cases hcheck : checkAttributeName (.str first) with
        | error f =>
          rw [hcheck] at hothers
          cases hothers
        | ok own =>
          rw [hcheck] at hothers
          exact ih hname hothers

/-- The entries of an object but for those under a reserved name. -/
def withoutReservedKeys (entries : List (Text × Expression)) : List (Text × Expression) :=
  entries.filter fun e => !isReserved e.1

theorem get?_withoutReservedKeys (entries : List (Text × Expression)) :
    Expression.get? (withoutReservedKeys entries) tagKey = Expression.get? entries tagKey := by
  unfold Expression.get? withoutReservedKeys
  induction entries with
  | nil => rfl
  | cons e rest ih =>
    obtain ⟨k, v⟩ := e
    cases hr : isReserved k with
    | true =>
      have hne : (tagKey == k) = false := beq_false_of_ne (ne_tagKey_of_isReserved hr).symm
      rw [List.filter_cons_of_neg (by simp [hr]), ih, List.lookup_cons, hne]
    | false => rw [List.filter_cons_of_pos (by simp [hr]), List.lookup_cons, List.lookup_cons, ih]

/-- An object that is a container without its reserved names is refused with the first of them. -/
theorem checkContainer_reserved {entries : List (Text × Expression)} {name : Text}
    (hname : (Expression.keys entries).find? isReserved = some name)
    (hothers : Fragment.checkContainer (.object (withoutReservedKeys entries)) = .ok ()) :
    Fragment.checkContainer (.object entries) = .error (.reserved name) := by
  have hkeys : Expression.keys (withoutReservedKeys entries) =
      (Expression.keys entries).filter fun n => !isReserved n := by
    simp only [Expression.keys, withoutReservedKeys, List.filter_map]
    rfl
  simp only [Fragment.checkContainer, Fragment.checkEntries, get?_withoutReservedKeys, hkeys]
    at hothers ⊢
  cases htag : Expression.get? entries tagKey with
  | none =>
    rw [htag] at hothers
    cases hothers
  | some tag =>
    simp only [htag] at hothers ⊢
    split at hothers
    · next v =>
      cases hcheck : checkTagName v with
      | error f =>
        rw [hcheck] at hothers
        cases hothers
      | ok own =>
        rw [hcheck] at hothers
        rw [checkNames_reserved hname hothers]
        rfl
    · exact checkNames_reserved hname hothers

/-! ## What the client finds -/

/-- No kept entry of the container has a name that is read as a reserved one. -/
def LeavesReserved (container : Value) : Prop :=
  ∀ e ∈ keptEntries (containerEntries container),
    ∀ name, checkAttributeName e.1 = .ok name → ¬ ReadsReserved name

theorem leavesReserved_iff {container : Value} {c : Container}
    (h : normalizeContainer container = .ok c) :
    LeavesReserved container ↔ ∀ a ∈ c.attributes, ¬ ReadsReserved a.1 := by
  have hwritten := attributes_of_normalizeContainer h
  unfold LeavesReserved
  generalize keptEntries (containerEntries container) = entries at hwritten ⊢
  generalize c.attributes = attributes at hwritten ⊢
  induction hwritten with
  | nil => simp
  | cons hfirst _ ih =>
    simp only [List.forall_mem_cons, ih, hfirst.1, Except.ok.injEq, forall_eq']

/-- **The client finds what is meant for it unless a name in another case is in front.** An element
has exactly one attribute that is read as `data-react-class` and exactly one that is read as
`data-react-props`, with the path and the props, if and only if no kept entry of the container has a
name that differs from one of these in case alone; compared exactly, the first attribute of each
name always has the path and the props. A container that would be accepted without its reserved names
is refused with a conflict about the first of them, when it is rendered and, if it is an object in a
tag, already before. -/
theorem client_attributes_found (container : Value) :
    (∀ (r : Renderer) (props : Value) (path html : Text) (s t : Site),
      (Action.renderElement r container path props).outcome s = (.ok html, t) →
      ∃ entries rendered json tag rest,
        normalizeProps props = .ok entries ∧
        (Action.runRenderer r path entries).outcome s = (.ok rendered, t) ∧
        serializeProps (.dict rendered.props) = .ok json ∧
        StartTag.read? html = some (tag, rest) ∧
        tag.attributes.lookup classAttribute = some (Text.escapeQuotes path) ∧
        tag.attributes.lookup propsAttribute = some json ∧
        ((tag.values classAttribute = [Text.escapeQuotes path] ∧
            tag.values propsAttribute = [json]) ↔ LeavesReserved container)) ∧
    (∀ (name : Text) (c : Container),
      (containerEntries container).findSome? (fun e => reservedKey? e.1) = some name →
      normalizeContainer (.dict (withoutReserved (containerEntries container))) = .ok c →
      normalizeContainer container = .error (.reserved name)) ∧
    (∀ (entries : List (Text × Expression)) (name : Text),
      (Expression.keys entries).find? isReserved = some name →
      Fragment.checkContainer (.object (withoutReservedKeys entries)) = .ok () →
      Fragment.checkContainer (.object entries) = .error (.reserved name)) := by
  refine ⟨?_, fun _ _ => normalizeContainer_reserved, fun _ _ => checkContainer_reserved⟩
  intro r props path html s t h
  obtain ⟨entries, c, rendered, json, body, hprops, hc, hrun, hjson, -, rfl⟩ :=
    Action.outcome_renderElement_ok_iff.1 h
  have hexact := lookup_clientAttributes path json fun a ha =>
    (attribute_of_normalizeContainer hc ha).2.1
  obtain ⟨hclass, hvalues⟩ := values_clientAttributes c.tag path json c.attributes
  refine ⟨entries, rendered, json, _, _, hprops, hrun, hjson,
    read?_writeFragment hc (not_mem_serializeProps hjson) path body, hexact.1, hexact.2, ?_⟩
  rw [leavesReserved_iff hc, ← values_reserved_iff c.tag, hclass, hvalues]
  simp

/-- A name in upper case is accepted, and a reader of markup keeps its value as the path. -/
theorem client_attributes_overridden :
    ∃ html site tag rest,
      (Action.renderElement Renderer.clearing
        (.dict [(.str "tag", .str "div"), (.str "DATA-REACT-CLASS", .str "other")]) "/m/X"
        (.dict [])).outcome (Site.start .none []) = (.ok html, site) ∧
      StartTag.read? html = some (tag, rest) ∧
      tag.values classAttribute = ["other".toList, "/m/X".toList] := by
  have htag : isTagName "div".toList = true := by decide
  have hname : isAttributeName "DATA-REACT-CLASS".toList = true := by decide
  have hc := normalizeContainer_pair htag hname (by decide) (by decide) "other"
  have hjson : serializeProps (.dict []) = .ok "\x7b\x7d".toList := rfl
  refine ⟨_, Site.start .none [], _, _, Action.outcome_renderElement_ok_iff.2
    ⟨[], _, ⟨.str "<c/>", []⟩, _, "<c/>".toList, normalizeProps_dict [],
      hc, rfl, hjson, rfl, rfl⟩,
    read?_writeFragment hc (by decide) _ _, by decide⟩

end Hydration.Markup
