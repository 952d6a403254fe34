import Hydration.Proofs.Site.Configuration
/-!
# Faults in clauses

Props and containers are refused with failures of three kinds. Nothing else that happens to a tag on
a page fails with one of these, but for its reference and its renderer: neither writing values as
text or as JSON, nor reading the settings, nor looking a renderer up.

* `serializeProps_error`: values that cannot be written as JSON.
* `getExtension_error`: renderers that are not found.
-/
namespace Hydration

namespace Value

theorem encodeKey_error {v : Value} {f : Failure} (h : v.encodeKey = .error f) :
    f.kind = .type ∨ f.kind = .value := by
  cases v with
  | int i =>
    rw [encodeKey] at h
    rw [intText_error h]
    exact .inr rfl
  | _ => cases h <;> exact .inl rfl

theorem encodeLeaf_error (v : Value) {f : Failure} (h : v.encodeLeaf = .error f) :
    f.kind = .type ∨ f.kind = .value := by
  cases v with
  | int i =>
    rw [encodeLeaf] at h
    rw [intText_error (Failure.map_error h)]
    exact .inr rfl
  | clock c =>
    rw [encodeLeaf] at h
    split at h <;> cases h
    exact .inr rfl
  | _ => cases h <;> exact .inl rfl

mutual

theorem encode_error : ∀ (v : Value) {f : Failure},
    v.encode = .error f → f.kind = .type ∨ f.kind = .value
  | .list items, f | .tuple items, f | .record _ items, f => fun h =>
    encodeItems_error items (Failure.map_error h)
  | .dict entries, f => fun h => encodeEntries_error entries (Failure.map_error h)
  | .none, _ | .bool _, _ | .int _, _ | .float _, _ | .text _ _, _ | .lazy _ _, _ | .bytes _, _
  | .set _, _ | .mapping _, _ | .view _ _, _ | .decimal _, _ | .uuid _, _ | .day _, _
  | .moment _, _ | .clock _, _ | .span _, _ | .object _ _, _ | .call _, _ => by
    simp only [encode]
    exact encodeLeaf_error _

theorem encodeItems_error : ∀ (items : List Value) {f : Failure},
    encodeItems items = .error f → f.kind = .type ∨ f.kind = .value
  | [], _, h => by cases h
  | v :: rest, f, h => by
    rcases Failure.bind_error h with h | ⟨_, -, h⟩
    · exact encode_error v h
    · exact encodeItems_error rest (Failure.map_error h)

theorem encodeEntries_error : ∀ (entries : List (Value × Value)) {f : Failure},
    encodeEntries entries = .error f → f.kind = .type ∨ f.kind = .value
  | [], _, h => by cases h
  | (k, v) :: rest, f, h => by
    rcases Failure.bind_error h with h | ⟨_, -, h⟩
    · exact encodeKey_error h
    · rcases Failure.bind_error h with h | ⟨_, -, h⟩
      · exact encode_error v h
      · exact encodeEntries_error rest (Failure.map_error h)

end

end Value

theorem Markup.serializeProps_kind {v : Value} {f : Failure}
    (h : Markup.serializeProps v = .error f) : f.kind = .type ∨ f.kind = .value :=
  Value.encode_error v (Failure.map_error h)

/-- A failure of one of the kinds that props and containers are refused with. -/
def Failure.IsClauseFault (f : Failure) : Prop :=
  f.kind = .container ∨ f.kind = .conflict ∨ f.kind = .propsType

theorem Failure.not_isClauseFault_noText : ¬ Failure.noText.IsClauseFault := by
  simp [Failure.IsClauseFault, Failure.kind]

theorem Markup.serializeProps_error {v : Value} {f : Failure}
    (h : Markup.serializeProps v = .error f) : ¬ f.IsClauseFault := by
  rcases Markup.serializeProps_kind h with hkind | hkind <;> simp [Failure.IsClauseFault, hkind]

theorem Action.getExtension_error {engine : Option Nat} {name : Text} {s t : Site} {f : Failure}
    (h : (getExtension (engine.map .engine) name).outcome s = (.error f, t)) :
    ¬ f.IsClauseFault := by
  have hrenderer : s.rendererFor engine name = .error f :=
    (looksUp_rendererFor engine name s).1.symm.trans (congrArg (·.1) h)
  rcases Site.rendererFor_kind hrenderer with hkind | hkind | hkind <;>
    simp [Failure.IsClauseFault, hkind]

end Hydration
