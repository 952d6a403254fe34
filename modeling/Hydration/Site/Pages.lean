import Hydration.Site.Extensions
import Hydration.Template.Display
import Hydration.Template.Source
/-!
# Compiling templates and rendering pages

A template is compiled piece by piece with the tags of its engine, to which it may load more, and
keeps what it found: later changes to the engine's tags leave it as it is. A page is rendered with
the renderers that the engine has at that time.

* `outcome_render_text`: text stands in the page as it is.
* `outcome_renderElement_of_props`: props that are no mapping are refused before anything runs.
-/
namespace Hydration

/-- A part of a compiled template. -/
inductive Node
  | text (t : Text)
  | output (p : Pipe)
  | component (f : Fragment)

/-- A compiled template: its engine and its parts. -/
structure Template where
  engine : Nat
  nodes : List Node

/-- Tags by name, each with the root that it was given. -/
abbrev TagTable := List (Text × Option Text)

namespace Action

/-! ## Tags -/

/-- Compiles a component tag that was read. -/
def compileParsed (root extension : Text) (tag : Tag.ParsedTag) : Action Fragment := do
  let f ← ofExcept (Fragment.compile root extension tag)
  record .debug .compiler (f.describe tag.arguments)
  pure f

/-- Compiles the contents of a component tag. Without a root the one of the configuration is
used. -/
def compileTag (root : Option Text) (extension contents : Text) : Action Fragment := do
  let tag ← ofExcept (Tag.parse contents)
  let root ← match root with
    | some (c :: rest) => pure (c :: rest)
    | _ => (fun r => r.config.componentRoot) <$> readConfig
  compileParsed root extension tag

/-! ## Loading -/

/-- The library with the component tag. -/
def tagLibrary : Text := "react"

/-- The tags of a library. -/
def libraryTags (library : Text) : TagTable :=
  if library = tagLibrary then [(defaultTagName, none)] else []

/-- A library that a template may load. -/
def findLibrary (libraries : List Text) (name : Text) : Except Failure TagTable :=
  if libraries.contains name then .ok (libraryTags name)
  else
    .error (.template (.unknownLibrary name (libraries.mergeSort Text.precedes)))

/-- Some tags of a library. -/
def selectTags (library : Text) (tags : TagTable) : List Text → Except Failure TagTable
  | [] => .ok []
  | name :: rest =>
    match tags.lookup name with
    | none => .error (.template (.notInLibrary name library))
    | some root => (fun more => more ++ [(name, root)]) <$> selectTags library tags rest

/-- The tags of several libraries, the one that was named last in front. -/
def loadAll (libraries : List Text) : List Text → TagTable → Except Failure TagTable
  | [], tags => .ok tags
  | name :: rest, tags => do
    let more ← findLibrary libraries name
    loadAll libraries rest (more ++ tags)

/-- The tags after a tag that loads libraries, or a choice of tags from one library. -/
def loadTags (libraries words : List Text) (tags : TagTable) : Except Failure TagTable :=
  match words.reverse with
  | library :: keyword :: name :: names =>
    if keyword = "from".toList ∧ 4 ≤ words.length then do
      let found ← findLibrary libraries library
      let chosen ← selectTags library found ((name :: names).reverse.drop 1)
      pure (chosen ++ tags)
    else loadAll libraries (words.drop 1) tags
  | _ => loadAll libraries (words.drop 1) tags

/-! ## Templates -/

/-- Compiles what stands between the ends of a tag, on the given line. Gives the tags from there on
and the part of the template, if there is one. -/
def compileInner (libraries : List Text) (tags : TagTable) (line : Nat) (kind : Template.TagKind)
    (inner : Text) : Action (TagTable × Option Node) := do
  let contents := Text.trim inner
  match kind with
  | .comment => pure (tags, none)
  | .output =>
    if contents = [] then refuse (.template (.emptyVariable line))
    else
      let p ← ofExcept (Pipe.compile contents)
      pure (tags, some (.output p))
  | .block =>
    let words := Text.words contents
    match words with
    | [] => refuse (.template (.emptyBlock line))
    | command :: _ =>
      match tags.lookup command with
      | some root =>
        let f ← compileTag root Fragment.defaultExtension contents
        pure (tags, some (.component f))
      | none =>
        if command = "load".toList then
          let tags ← ofExcept (loadTags libraries words tags)
          pure (tags, none)
        else refuse (.template (.unknownBlock line command))

/-- Compiles the pieces of a template from the given line on. -/
def compilePieces (libraries : List Text) : TagTable → Nat → List Template.Piece →
    Action (List Node)
  | _, _, [] => pure []
  | tags, line, .text t :: rest => do
    let nodes ← compilePieces libraries tags (line + Template.lineEnds t) rest
    pure (.text t :: nodes)
  | tags, line, .tag kind inner :: rest => do
    let (tags, node) ← compileInner libraries tags line kind inner
    let nodes ← compilePieces libraries tags line rest
    pure (node.toList ++ nodes)

/-- Compiles a template for an engine. -/
def compileTemplate (engine : Nat) (source : Text) : Action Template := do
  match (← get).engines[engine]? with
  | none => pure ⟨engine, []⟩
  | some e =>
    let nodes ← compilePieces e.libraries e.tags 1 (Template.settle none (Template.pieces source))
    pure ⟨engine, nodes⟩

/-! ## Pages -/

/-- Runs a renderer. -/
def runRenderer (r : Renderer) (path : Text) (props : Props) : Action Rendered :=
  match r with
  | .components => do
    let markup ← renderComponent path (.dict props)
    pure ⟨.str markup, props⟩
  | .function _ run => ofExcept (run path props)

/-- The element of a component: props and container are checked first, then the renderer runs, and
the props are written as it leaves them. -/
def renderElement (r : Renderer) (container : Value) (path : Text) (props : Value) :
    Action Text := do
  let entries ← ofExcept (Markup.normalizeProps props)
  let container ← ofExcept (Markup.normalizeContainer container)
  let rendered ← runRenderer r path entries
  let json ← ofExcept (Markup.serializeProps (.dict rendered.props))
  let body ← ofExcept rendered.body.toText
  pure (Markup.writeFragment container path json body)

/-- The element of a compiled tag, on a page of an engine or of none, and the context after it. -/
def renderFragment (engine : Option Nat) (c : Context) (f : Fragment) :
    Action (Text × Context) := do
  let ((path, props, container), c) ← ofExcept (f.values.run c)
  let r ← getExtension (engine.map .engine) f.extension
  let t ← renderElement r container path props
  pure (t, c)

/-- The text of a part of a template, and the context after it. -/
def renderNode (engine : Nat) (c : Context) : Node → Action (Text × Context)
  | .text t => pure (t, c)
  | .output p => do
    let (v, c) ← ofExcept (p.output.run c)
    let t ← ofExcept v.display
    pure (t, c)
  | .component f => renderFragment (some engine) c f

/-- The parts of a template one after the other. -/
def renderNodes (engine : Nat) (c : Context) : List Node → Action Text
  | [] => pure []
  | node :: rest => do
    let (t, c) ← renderNode engine c node
    let more ← renderNodes engine c rest
    pure (t ++ more)

/-- The text that an engine shows for what is missing. -/
def invalidText (engine : Nat) : Action Text := do
  pure (((← get).engines[engine]?.map fun e => e.invalid).getD [])

/-- A page with the given variables. -/
def render (t : Template) (values : List (Text × Value)) : Action Text := do
  let invalid ← invalidText t.engine
  renderNodes t.engine ⟨values, some invalid⟩ t.nodes

theorem outcome_invalidText (engine : Nat) (s : Site) :
    (invalidText engine).outcome s =
      (.ok ((s.engines[engine]?.map fun e => e.invalid).getD []), s) := rfl

theorem outcome_render_text (engine : Nat) (values : List (Text × Value)) (t : Text) (s : Site) :
    (render ⟨engine, [.text t]⟩ values).outcome s = (.ok t, s) := by
  simp [render, renderNodes, renderNode, outcome_invalidText, Except.map]

theorem outcome_renderElement_of_props {props : Value} {f : Failure}
    (h : Markup.normalizeProps props = .error f) (r : Renderer) (container : Value) (path : Text)
    (s : Site) : (renderElement r container path props).outcome s = (.error f, s) := by
  simp [renderElement, h]

end Action
end Hydration
