import Hydration.Site.Basic
/-!
# Reading the settings

The settings are read once and remembered, until somebody says that they have changed. A reading
that fails is not remembered.

* `outcome_readConfig_of_some`: what was read is given again, whatever the settings are now.
* `outcome_readConfig_of_ok`: the first reading that succeeds is remembered.
* `outcome_readConfig_of_error`: a failing reading leaves the site as it was.
-/
namespace Hydration.Action

/-- The configuration: the one that was read, or the one that the settings describe now. -/
def readConfig : Action ReadConfig := do
  let s ← get
  match s.config with
  | some c => pure c
  | none =>
    let config ← ofExcept (Config.ofSettings s.settings)
    let c : ReadConfig := ⟨s.readings, config⟩
    set { s with config := some c, readings := s.readings + 1 }
    pure c

/-- Forgets what was read of the settings. -/
def forgetConfig : Action Unit := modify fun s => { s with config := none }

/-- Replaces the settings; what was read is forgotten only if the change is announced. -/
def changeSettings (settings : Value) (announced : Bool) : Action Unit := do
  modify fun s => { s with settings := settings }
  if announced then forgetConfig

theorem outcome_readConfig_of_some {s : Site} {c : ReadConfig} (h : s.config = some c) :
    readConfig.outcome s = (.ok c, s) := by
  simp [readConfig, h]

theorem outcome_readConfig_of_ok {s : Site} {config : Config} (h : s.config = none)
    (hc : Config.ofSettings s.settings = .ok config) :
    readConfig.outcome s =
      (.ok ⟨s.readings, config⟩,
        { s with config := some ⟨s.readings, config⟩, readings := s.readings + 1 }) := by
  simp [readConfig, h, hc, Except.map]

theorem outcome_readConfig_of_error {s : Site} {f : Failure} (h : s.config = none)
    (hf : Config.ofSettings s.settings = .error f) : readConfig.outcome s = (.error f, s) := by
  simp [readConfig, h, hf]

end Hydration.Action
