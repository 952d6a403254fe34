import Hydration.Fragment
import Hydration.Site.Components
/-!
# Renderers of a site

Each engine has renderers under names of its own; under any other name it uses the renderer of the
configuration. Enabling the tag on an engine registers a renderer and adds the tag for the templates
that are compiled from then on.

* `outcome_setExtension_notCallable`: a value that cannot be called is refused, and nothing changes.
* `outcome_asEngine_foreign`: nothing but an engine has renderers.
-/
namespace Hydration

/-- What a caller passes for an engine: one of the engines of the site, or a value of another
type. -/
inductive Target
  | engine (n : Nat)
  | foreign (type : Text)
  deriving DecidableEq, Repr

namespace Site

/-- The renderer that an engine has under a name. -/
def extension? (s : Site) (engine : Nat) (name : Text) : Option Renderer := do
  let e ← s.engines[engine]?
  e.extensions.lookup name

/-- Changes one engine. -/
def updateEngine (s : Site) (engine : Nat) (change : Engine → Engine) : Site :=
  { s with engines := s.engines.modify engine change }

end Site

/-- The engine with a renderer under a name. -/
def Engine.withExtension (name : Text) (r : Renderer) (e : Engine) : Engine :=
  { e with extensions := (name, r) :: e.extensions }

/-- The engine with one more tag. -/
def Engine.withTag (name : Text) (root : Option Text) (e : Engine) : Engine :=
  { e with tags := (name, root) :: e.tags }

namespace Action

/-- The renderer of a dotted name, remembered or imported now. -/
def importRenderer (name : Text) : Action Renderer := do
  let s ← get
  let found := s.imports.find name
  set { s with imports := found.2 }
  match found.1 with
  | .ok (.renderer r) => pure r
  | .ok .notCallable => refuse (.settings (.rendererNotCallable name))
  | .error (.unusable f) => refuse f
  | .error (.missing message) =>
    record .error .extensions ("Renderer import failed for " ++ name ++ ": " ++ message)
    refuse (.settings (.rendererMissing name))

/-- The renderer of the configuration. -/
def defaultRenderer : Action Renderer := do
  let c ← readConfig
  importRenderer c.config.renderer

/-- The engine that a caller passes. -/
def asEngine : Target → Action Nat
  | .engine n => pure n
  | .foreign type => refuse (.type (.notAnEngine type))

/-- Registers a renderer under a name. What is registered is checked before the engine is. -/
def setExtension (target : Target) (name : Text) : Extension → Action Unit
  | .notCallable => refuse (.type (.extensionNotCallable name))
  | .renderer r => do
    let n ← asEngine target
    modify fun s => s.updateEngine n (Engine.withExtension name r)

/-- The renderer under a name, of an engine or of none. -/
def getExtension (target : Option Target) (name : Text) : Action Renderer := do
  match target with
  | none => defaultRenderer
  | some target =>
    let n ← asEngine target
    match (← get).extension? n name with
    | some r => pure r
    | none => defaultRenderer

/-- The name of the tag unless another is chosen. -/
def defaultTagName : Text := "react"

/-- Enables the tag on an engine, with the given renderer or that of the configuration. Gives the
name of the tag. -/
def useTag (target : Target) (name : Text) (extension : Option Extension) (root : Option Text) :
    Action Text := do
  let n ← asEngine target
  let extension ← match extension with
    | some e => pure e
    | none => Extension.renderer <$> defaultRenderer
  setExtension (.engine n) Fragment.defaultExtension extension
  let name := if name = [] then defaultTagName else name
  modify fun s => s.updateEngine n (Engine.withTag name root)
  let shown := match root with
    | some (c :: rest) => c :: rest
    | _ => "<settings>"
  record .info .registration ("Component tag '" ++ name ++ "' enabled (root=" ++ shown ++ ")")
  pure name

theorem outcome_setExtension_notCallable (target : Target) (name : Text) (s : Site) :
    (setExtension target name .notCallable).outcome s =
      (.error (.type (.extensionNotCallable name)), s) := rfl

theorem outcome_asEngine_foreign (type : Text) (s : Site) :
    (asEngine (.foreign type)).outcome s = (.error (.type (.notAnEngine type)), s) := rfl

end Action
end Hydration
