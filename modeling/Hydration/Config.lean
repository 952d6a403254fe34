import Hydration.Text.Utf8
import Hydration.Value.Text
/-!
# Configuration

The settings name the directory of the components, the renderer and the attribute of a module that
is its component. Settings that are left out or empty are the defaults; else they must be a dict
with known keys and texts that are not blank. Every fault is reported: those of the known fields in
their order, then the keys that are not known in theirs.

* `ofSettings_of_not_isTrue`: settings that are empty are the defaults.
* `field_withField`: setting a field changes that field and no other.
-/
namespace Hydration

/-- A valid configuration. -/
structure Config where
  componentRoot : Text
  renderer : Text
  componentAttribute : Text
  deriving DecidableEq, Repr

namespace Config

/-- The fields of a configuration. -/
inductive Field
  | componentRoot
  | renderer
  | componentAttribute
  deriving DecidableEq, Repr

/-- The key of a field in the settings. -/
def Field.key : Field → Text
  | .componentRoot => "component_root"
  | .renderer => "renderer"
  | .componentAttribute => "component_attr"

/-- The fields in their order. -/
def Field.all : List Field := [.componentRoot, .renderer, .componentAttribute]

/-- The value of a field. -/
def field (c : Config) : Field → Text
  | .componentRoot => c.componentRoot
  | .renderer => c.renderer
  | .componentAttribute => c.componentAttribute

/-- The configuration without settings. -/
def default : Config where
  componentRoot := "./modules/"
  renderer := "apps.prerender.renderer.render_component_to_string"
  componentAttribute := "Component"

/-- The configuration with a field set. -/
def withField (c : Config) (f : Field) (t : Text) : Config :=
  match f with
  | .componentRoot => { c with componentRoot := t }
  | .renderer => { c with renderer := t }
  | .componentAttribute => { c with componentAttribute := t }

theorem field_withField (c : Config) (f g : Field) (t : Text) :
    (c.withField f t).field g = if f = g then t else c.field g := by
  cases f <;> cases g <;> rfl

/-! ## Checking -/

/-- The text that a value of a field is, or why it is refused. -/
def checkText (v : Value) : Except SettingReason Text :=
  let text : Except SettingReason Text :=
    match v with
    | .text _ t => .ok t
    | .bytes b =>
      match Text.Utf8.decode? b with
      | some t => .ok t
      | none => .error .notUtf8
    | _ => .error .notText
  match text with
  | .ok t => if Text.isAllBlank t then .error .blank else .ok t
  | .error r => .error r

/-- Takes the fields from the entries one by one, collecting what is refused. -/
def takeFields (entries : List (Value × Value)) : List Field → Config × List SettingDetail →
    Config × List SettingDetail
  | [], result => result
  | f :: rest, (c, faults) =>
    match Value.lookup? (.str f.key) entries with
    | none => takeFields entries rest (c, faults)
    | some v =>
      match checkText v with
      | .ok t => takeFields entries rest (c.withField f t, faults)
      | .error reason => takeFields entries rest (c, faults ++ [⟨reason, .key f.key⟩])

/-- Numbers of 64 bits are below this one, 2^63, and not below its negative. -/
def numberLimit : Int := 9223372036854775808

/-- The place of a key that is not text: an integer of 64 bits by its number, any other key as a
message shows it. -/
def keyPlace (v : Value) : SettingPlace :=
  let shown : SettingPlace :=
    .key (v.inspect.toOption.getD ("<unprintable " ++ v.typeName ++ " object>"))
  match v with
  | .bool b => .number (Value.boolInt b)
  | .int i => if -numberLimit ≤ i ∧ i < numberLimit then .number i else shown
  | _ => shown

/-- Why a key is refused, if it is. -/
def checkKey : Value → Option SettingDetail
  | .text _ t => if Field.all.any fun f => f.key == t then none else some ⟨.unknownKey, .key t⟩
  | v => some ⟨.keyNotText, keyPlace v⟩

/-- The configuration that settings describe. -/
def ofSettings (settings : Value) : Except Failure Config :=
  if settings.isTrue then
    match settings with
    | .dict entries =>
      let (c, faults) := takeFields entries Field.all (default, [])
      match faults ++ entries.filterMap fun e => checkKey e.1 with
      | [] => .ok c
      | details => .error (.settings (.invalid details))
    | _ => .error (.settings .notADict)
  else .ok default

theorem ofSettings_of_not_isTrue {settings : Value} (h : settings.isTrue = false) :
    ofSettings settings = .ok default := by
  simp [ofSettings, h]

end Config
end Hydration
