import Hydration.Proofs.Markup.StartTag
import Hydration.Site.Pages
/-!
# Reading the element of a component

The element of a component is written from five things that must all be there: entries for props, a
container, what the renderer gives, the props as JSON and the body as text. Its start tag is read
back as it was meant, whatever container, path, props and body are, so none of them can add an
attribute or end the tag.

* `outcome_renderElement_ok_iff`: when there is an element, and its text.
* `keepsClear_of_normalizeContainer`: names and values of an accepted container end nothing early.
* `read?_renderElement`: the element starts with a tag that is read in one way only.
-/
namespace Hydration

namespace Action

theorem outcome_renderElement_ok_iff {r : Renderer} {container props : Value} {path html : Text}
    {s t : Site} :
    (renderElement r container path props).outcome s = (.ok html, t) ↔
      ∃ entries c rendered json body,
        Markup.normalizeProps props = .ok entries ∧ Markup.normalizeContainer container = .ok c ∧
        (runRenderer r path entries).outcome s = (.ok rendered, t) ∧
        Markup.serializeProps (.dict rendered.props) = .ok json ∧
        rendered.body.toText = .ok body ∧ html = Markup.writeFragment c path json body := by
  simp only [renderElement, outcome_bind_ok_iff, outcome_ofExcept_ok_iff, outcome_pure,
    Prod.mk.injEq, Except.ok.injEq]
  constructor
  · rintro ⟨entries, _, ⟨hprops, rfl⟩, c, _, ⟨hcontainer, rfl⟩, rendered, u, hrun, json, _,
      ⟨hjson, rfl⟩, body, _, ⟨hbody, rfl⟩, hhtml, rfl⟩
    exact ⟨entries, c, rendered, json, body, hprops, hcontainer, hrun, hjson, hbody, hhtml.symm⟩
  · rintro ⟨entries, c, rendered, json, body, hprops, hcontainer, hrun, hjson, hbody, rfl⟩
    exact ⟨entries, s, ⟨hprops, rfl⟩, c, s, ⟨hcontainer, rfl⟩, rendered, t, hrun, json, t,
      ⟨hjson, rfl⟩, body, t, ⟨hbody, rfl⟩, rfl, rfl⟩

end Action

namespace Markup

/-- The tag that closes an element. -/
def closingTag (tag : Text) : Text := '<' :: '/' :: tag ++ ['>']

theorem writeFragment_eq (c : Container) (path json body : Text) :
    writeFragment c path json body =
      openTag c.tag c.attributes path json ++ (body ++ closingTag c.tag) := by
  simp [writeFragment, closingTag]

/-- Serialised props hold no double quote. -/
theorem not_mem_serializeProps {v : Value} {json : Text} (h : serializeProps v = .ok json) :
    '"' ∉ json := by
  unfold serializeProps at h
  cases hv : v.encode with
  | error f =>
    rw [hv] at h
    cases h
  | ok document =>
    rw [hv] at h
    cases h
    exact Text.escapeQuotes_quote _

theorem keepsClear_of_normalizeContainer {v : Value} {c : Container}
    (h : normalizeContainer v = .ok c) : ∀ a ∈ c.attributes, KeepsClear a := by
  intro a ha
  obtain ⟨hname, -, hvalue⟩ := attribute_of_normalizeContainer h ha
  exact ⟨not_mem_of_isAttributeName hname (by decide), hvalue⟩

theorem read?_writeFragment {v : Value} {c : Container} (hc : normalizeContainer v = .ok c)
    {json : Text} (hjson : '"' ∉ json) (path body : Text) :
    StartTag.read? (writeFragment c path json body) =
      some (⟨c.tag, c.attributes ++ clientAttributes path json⟩, body ++ closingTag c.tag) := by
  rw [writeFragment_eq]
  exact read?_openTag (isTagName_of_normalizeContainer hc) (keepsClear_of_normalizeContainer hc)
    hjson _

/-- **The start tag of an element is read in one way only.** There is an element exactly if props
and container are accepted, the renderer succeeds, the props that it leaves have JSON and the body
has text. Then a reader of start tags finds the name of the container's tag, one attribute for each
kept entry of the container in order, with the entry's text as its escaped value, and the two
attributes for the client; it stops where the opening tag was meant to stop, and what it leaves is
the body and the closing tag. -/
theorem read?_renderElement (r : Renderer) (container props : Value) (path html : Text)
    (s t : Site) :
    (Action.renderElement r container path props).outcome s = (.ok html, t) ↔
      ∃ entries c rendered json body,
        normalizeProps props = .ok entries ∧ normalizeContainer container = .ok c ∧
        (Action.runRenderer r path entries).outcome s = (.ok rendered, t) ∧
        serializeProps (.dict rendered.props) = .ok json ∧ rendered.body.toText = .ok body ∧
        List.Forall₂ WrittenAs (keptEntries (containerEntries container)) c.attributes ∧
        html = openTag c.tag c.attributes path json ++ (body ++ closingTag c.tag) ∧
        StartTag.read? html = some
          (⟨c.tag, c.attributes ++
            [(classAttribute, Text.escapeQuotes path), (propsAttribute, json)]⟩,
            body ++ closingTag c.tag) := by
  rw [Action.outcome_renderElement_ok_iff]
  constructor
  · rintro ⟨entries, c, rendered, json, body, hprops, hc, hrun, hjson, hbody, rfl⟩
    have hread := read?_writeFragment hc (not_mem_serializeProps hjson) path body
    exact ⟨entries, c, rendered, json, body, hprops, hc, hrun, hjson, hbody,
      attributes_of_normalizeContainer hc, writeFragment_eq c path json body, hread⟩
  · rintro ⟨entries, c, rendered, json, body, hprops, hc, hrun, hjson, hbody, -, rfl, -⟩
    exact ⟨entries, c, rendered, json, body, hprops, hc, hrun, hjson, hbody,
      (writeFragment_eq c path json body).symm⟩

end Markup
end Hydration
