import Hydration.Proofs.Site.Events
import Mathlib.Data.List.Induction
/-!
# What readings of the configuration give

The configuration is what the settings described at the first reading that succeeded since it was
forgotten last. All readings from there on give that very object, whatever becomes of the settings,
until it is forgotten again: by a change that is announced or by an invalidation. A reading that
fails is not remembered. So if every change is announced, every reading gives what the settings
describe.

* `Event.remembered`: what is remembered, told from the events.
* `Site.Moves.config`: what a site remembers.
* `Session.readings_remembered`: all of this for the readings of a run, wherever they happen.
-/
namespace Hydration

namespace Event

/-- The event makes the configuration forgotten. -/
def Forgets : Event → Prop
  | .forgot | .changed true => True
  | _ => False

/-- No reading has succeeded since the configuration was forgotten last. -/
def Unread (events : List Event) : Prop :=
  ∀ before s c after, events = before ++ .read s (.ok c) :: after → ∃ e ∈ after, e.Forgets

/-- What is remembered after an event. -/
def remember (known : Option ReadConfig) : Event → Option ReadConfig
  | .read _ (.ok c) => some (known.getD c)
  | .changed true | .forgot => none
  | _ => known

/-- What is remembered after events. -/
def remembered (events : List Event) : Option ReadConfig := events.foldl remember none

variable {events before after : List Event} {e : Event} {c : ReadConfig}

theorem remembered_concat (events : List Event) (e : Event) :
    remembered (events ++ [e]) = remember (remembered events) e := by
  rw [remembered, List.foldl_append]
  rfl

theorem remember_of_forgets (h : e.Forgets) (known : Option ReadConfig) :
    remember known e = none := by
  unfold Forgets at h
  split at h
  · rfl
  · rfl
  · exact h.elim

theorem remember_some (h : ¬ e.Forgets) : remember (some c) e = some c := by
  unfold Forgets at h
  unfold remember
  split
  · rfl
  · exact absurd trivial h
  · exact absurd trivial h
  · rfl

theorem foldl_remember_some (h : ∀ e ∈ after, ¬ e.Forgets) :
    after.foldl remember (some c) = some c := by
  induction after with
  | nil => rfl
  | cons e rest ih =>
    rw [List.foldl_cons, remember_some (h e List.mem_cons_self)]
    exact ih fun x hx => h x (List.mem_cons_of_mem _ hx)

/-- What is remembered was read since it was forgotten last, and nothing before that. -/
theorem exists_of_remembered (h : remembered events = some c) :
    ∃ before s after, events = before ++ .read s (.ok c) :: after ∧ remembered before = none ∧
      ∀ e ∈ after, ¬ e.Forgets := by
  induction events using List.reverseRecOn with
  | nil => cases h
  | append_singleton events e ih =>
    rw [remembered_concat] at h
    cases hknown : remembered events with
    | some d =>
      have hforgets : ¬ e.Forgets := fun he => by cases (remember_of_forgets he _).symm.trans h
      rw [hknown, remember_some hforgets] at h
      obtain ⟨before, s, after, rfl, hbefore, hafter⟩ := ih (hknown.trans h)
      refine ⟨before, s, after ++ [e], by simp, hbefore, fun x hx => ?_⟩
      rcases List.mem_append.1 hx with hx | hx
      · exact hafter x hx
      · rwa [List.mem_singleton.1 hx]
    | none =>
      rw [hknown] at h
      unfold remember at h
      split at h
      · next s d =>
        cases h
        exact ⟨events, s, [], rfl, hknown, fun x hx => by cases hx⟩
      · cases h
      · cases h
      · cases h

theorem remembered_append_of_some (h : remembered before = some c)
    (hafter : ∀ e ∈ after, ¬ e.Forgets) : remembered (before ++ after) = some c := by
  rw [remembered, List.foldl_append, show before.foldl remember none = some c from h]
  exact foldl_remember_some hafter

theorem remembered_append_of_none (h : remembered before = none)
    (hafter : ∀ s c, .read s (.ok c) ∉ after) : remembered (before ++ after) = none := by
  induction after using List.reverseRecOn with
  | nil => rwa [List.append_nil]
  | append_singleton after e ih =>
    have hbefore := ih fun s c hmem => hafter s c (List.mem_append_left _ hmem)
    rw [← List.append_assoc, remembered_concat, hbefore]
    unfold remember
    split
    · next s c => exact absurd (List.mem_append_right _ List.mem_cons_self) (hafter s c)
    · rfl
    · rfl
    · rfl

theorem remembered_eq_none_iff : remembered events = none ↔ Unread events := by
  constructor
  · rintro h before s c after rfl
    refine Classical.byContradiction fun hnone => ?_
    have hafter : ∀ e ∈ after, ¬ e.Forgets := fun e he hf => hnone ⟨e, he, hf⟩
    have hread : remembered (before ++ [.read s (.ok c)]) = some ((remembered before).getD c) :=
      remembered_concat ..
    rw [← List.singleton_append, ← List.append_assoc, remembered_append_of_some hread hafter] at h
    cases h
  · intro h
    cases hknown : remembered events with
    | none => rfl
    | some c =>
      obtain ⟨before, s, after, hevents, -, hafter⟩ := exists_of_remembered hknown
      obtain ⟨e, he, hforgets⟩ := h before s c after hevents
      exact absurd hforgets (hafter e he)

end Event

/-! ## Sites -/

namespace Action

theorem outcome_changeSettings (s : Site) (settings : Value) (announced : Bool) :
    ((changeSettings settings announced).outcome s).2 =
      { s with settings := settings, config := if announced then none else s.config } := by
  cases announced <;> rfl

theorem keepsConfig_loadModule (s : Site) (path : Text) :
    ((loadModule path).outcome s).2.settings = s.settings ∧
      ((loadModule path).outcome s).2.config = s.config ∧
      ((loadModule path).outcome s).2.readings = s.readings := by
  cases hc : s.modules.lookup? path with
  | some m =>
    rw [outcome_loadModule_of_some hc]
    exact ⟨rfl, rfl, rfl⟩
  | none =>
    rw [outcome_loadModule_of_none hc]
    rcases s.fresh path with f | ⟨source, file⟩ <;> exact ⟨rfl, rfl, rfl⟩

end Action

namespace Site
open Event
variable {s t u : Site} {events before : List Event}

theorem Move.config (h : Move s events t) (hs : s.config = remembered before) :
    t.config = remembered (before ++ events) := by
  cases h with
  | aside h => rwa [List.append_nil, h.config]
  | called h => rwa [List.append_nil]
  | read =>
    rw [remembered_concat, ← hs]
    cases hread : s.config with
    | some c =>
      rw [Action.outcome_readConfig_of_some hread]
      exact hread
    | none =>
      cases hsettings : Config.ofSettings s.settings with
      | error f =>
        rw [Action.outcome_readConfig_of_error hread hsettings]
        exact hread
      | ok config =>
        rw [Action.outcome_readConfig_of_ok hread hsettings]
        rfl
  | changed settings announced =>
    rw [remembered_concat, ← hs, Action.outcome_changeSettings]
    cases announced <;> rfl
  | forgot => rw [remembered_concat]; rfl
  | loaded path =>
    rw [remembered_concat, (Action.keepsConfig_loadModule s path).2.1, hs]
    rfl
  | cleared => rwa [remembered_concat]

/-- The site remembers what the events say. -/
theorem Moves.config (h : Moves s events t) (hs : s.config = none) :
    t.config = remembered events := by
  induction h with
  | refl => exact hs
  | more _ hmove ih => exact hmove.config ih

/-- The configuration that is remembered, if there is one, is what the settings describe. -/
def Settled (s : Site) : Prop :=
  ∀ c, s.config = some c → Config.ofSettings s.settings = .ok c.config

theorem settled_of_config (h : t.config = s.config) (hsettings : t.settings = s.settings)
    (hs : s.Settled) : t.Settled := by
  intro c hc
  rw [hsettings]
  exact hs c (h.symm.trans hc)

theorem settled_readConfig (h : s.Settled) : (Action.readConfig.outcome s).2.Settled := by
  cases hread : s.config with
  | some c =>
    rw [Action.outcome_readConfig_of_some hread]
    exact h
  | none =>
    cases hsettings : Config.ofSettings s.settings with
    | error f =>
      rw [Action.outcome_readConfig_of_error hread hsettings]
      exact h
    | ok config =>
      rw [Action.outcome_readConfig_of_ok hread hsettings]
      rintro c hc
      cases hc
      exact hsettings

/-- A site whose configuration was forgotten with every change is settled. -/
theorem Move.settled (h : Move s events t) (hs : s.Settled) (hquiet : .changed false ∉ events) :
    t.Settled := by
  cases h with
  | aside h => exact settled_of_config h.config h.settings hs
  | called => exact hs
  | read => exact settled_readConfig hs
  | changed settings announced =>
    cases announced with
    | false => exact absurd List.mem_cons_self hquiet
    | true => exact fun c hc => by cases hc
  | forgot => exact fun c hc => by cases hc
  | loaded path =>
    obtain ⟨hsettings, hconfig, -⟩ := Action.keepsConfig_loadModule s path
    exact settled_of_config hconfig hsettings hs
  | cleared => exact hs

theorem Moves.settled (h : Moves s events t) (hs : s.Settled) (hquiet : .changed false ∉ events) :
    t.Settled := by
  induction h with
  | refl => exact hs
  | more _ hmove ih =>
    rw [List.mem_append, not_or] at hquiet
    exact hmove.settled (ih hquiet.1) hquiet.2

theorem Settled.reading {r : Except Failure ReadConfig} (h : s.Settled)
    (hr : (Action.readConfig.outcome s).1 = r) :
    r.map (·.config) = Config.ofSettings s.settings := by
  rw [← hr]
  cases hread : s.config with
  | some c =>
    rw [Action.outcome_readConfig_of_some hread, h c hread]
    rfl
  | none =>
    cases hsettings : Config.ofSettings s.settings with
    | error f =>
      rw [Action.outcome_readConfig_of_error hread hsettings]
      rfl
    | ok config =>
      rw [Action.outcome_readConfig_of_ok hread hsettings]
      rfl

/-- The serial numbers of the configurations that were read are lower than the next one. -/
def Numbered (events : List Event) (s : Site) : Prop :=
  ∀ s' c, .read s' (.ok c) ∈ events → c.serial < s.readings

theorem Move.numbered (h : Move s events t) (hs : s.config = remembered before)
    (hnumbered : Numbered before s) : Numbered (before ++ events) t := by
  have hkeep : ∀ e : Event, (∀ s c, e ≠ .read s (.ok c)) → t.readings = s.readings →
      Numbered (before ++ [e]) t := by
    intro e he hreadings s' c hmem
    rw [hreadings]
    rcases List.mem_append.1 hmem with hmem | hmem
    · exact hnumbered s' c hmem
    · exact absurd (List.mem_singleton.1 hmem).symm (he s' c)
  cases h with
  | aside h =>
    rw [List.append_nil, Numbered, h.readings]
    exact hnumbered
  | called => rwa [List.append_nil]
  | read =>
    cases hread : s.config with
    | some c =>
      rw [Action.outcome_readConfig_of_some hread] at hkeep ⊢
      intro s' d hmem
      rcases List.mem_append.1 hmem with hmem | hmem
      · exact hnumbered s' d hmem
      · cases List.mem_singleton.1 hmem
        obtain ⟨first, s₀, later, rfl, -, -⟩ := exists_of_remembered (hs.symm.trans hread)
        exact hnumbered s₀ c (List.mem_append_right _ List.mem_cons_self)
    | none =>
      cases hsettings : Config.ofSettings s.settings with
      | error f =>
        rw [Action.outcome_readConfig_of_error hread hsettings] at hkeep ⊢
        exact hkeep _ (fun _ _ h => by cases h) rfl
      | ok config =>
        rw [Action.outcome_readConfig_of_ok hread hsettings]
        intro s' d hmem
        rcases List.mem_append.1 hmem with hmem | hmem
        · exact Nat.lt_succ_of_lt (hnumbered s' d hmem)
        · cases List.mem_singleton.1 hmem
          exact Nat.lt_succ_self _
  | changed settings announced =>
    exact hkeep _ (fun _ _ h => by cases h) (by rw [Action.outcome_changeSettings])
  | forgot => exact hkeep _ (fun _ _ h => by cases h) rfl
  | loaded path =>
    exact hkeep _ (fun _ _ h => by cases h) (Action.keepsConfig_loadModule s path).2.2
  | cleared => exact hkeep _ (fun _ _ h => by cases h) rfl

theorem Moves.numbered (h : Moves s events t) (hs : s.config = none) : Numbered events t := by
  induction h with
  | refl => exact fun s' c hmem => by cases hmem
  | more hmoves hmove ih => exact hmove.numbered (hmoves.config hs) ih

section
variable {s' : Site} {r : Except Failure ReadConfig} {c : ReadConfig} {after : List Event}

/-- A reading among events happens at a site that the events before it lead to. -/
theorem Moves.reading (h : Moves s (before ++ .read s' r :: after) u) :
    Moves s before s' ∧ (Action.readConfig.outcome s').1 = r := by
  obtain ⟨t, t', ht, hmove, -⟩ := h.split
  cases hmove
  exact ⟨ht, rfl⟩

variable (h : Moves s (before ++ .read s' r :: after) u) (hs : s.config = none)
include h hs

/-- A reading gives what is remembered, or validates the settings. -/
theorem Moves.reading_cases :
    (∃ c, remembered before = some c ∧ r = .ok c) ∨
      remembered before = none ∧ r.map (·.config) = Config.ofSettings s'.settings ∧
        ∀ c, r = .ok c → c.serial = s'.readings := by
  obtain ⟨hbefore, rfl⟩ := h.reading
  have hconfig := hbefore.config hs
  rw [← hconfig]
  cases hread : s'.config with
  | some c =>
    rw [Action.outcome_readConfig_of_some hread]
    exact .inl ⟨c, rfl, rfl⟩
  | none =>
    refine .inr ⟨rfl, ?_⟩
    cases hsettings : Config.ofSettings s'.settings with
    | error f =>
      rw [Action.outcome_readConfig_of_error hread hsettings]
      exact ⟨rfl, fun c h => by cases h⟩
    | ok config =>
      rw [Action.outcome_readConfig_of_ok hread hsettings]
      refine ⟨rfl, fun c h => ?_⟩
      cases h
      rfl

theorem Moves.reading_of_unread (hbefore : remembered before = none) :
    r.map (·.config) = Config.ofSettings s'.settings ∧ ∀ c, r = .ok c → c.serial = s'.readings := by
  rcases h.reading_cases hs with ⟨d, hd, -⟩ | ⟨-, hreading⟩
  · cases hbefore.symm.trans hd
  · exact hreading

/-- After a reading its result is remembered. -/
theorem Moves.remembered_reading : remembered (before ++ [.read s' r]) = r.toOption := by
  rw [remembered_concat]
  rcases h.reading_cases hs with ⟨c, hc, rfl⟩ | ⟨hnone, -, -⟩
  · rw [hc]
    rfl
  · rw [hnone]
    rcases r with f | c <;> rfl

end

end Site

/-! ## Runs -/

namespace Event

/-- What the readings among some events give. Each is given with the site that it happens at, so
`s.settings` are the settings as they are then. -/
structure ReadsRemembered (events : List Event) : Prop where
  /-- A reading that succeeds gives what the settings described at the first one that succeeded
  since the configuration was forgotten last. -/
  first : ∀ before s c after, events = before ++ .read s (.ok c) :: after →
    ∃ earlier s' later, before ++ [.read s (.ok c)] = earlier ++ .read s' (.ok c) :: later ∧
      Unread earlier ∧ (∀ e ∈ later, ¬ e.Forgets) ∧ Config.ofSettings s'.settings = .ok c.config
  /-- Until it is forgotten, readings give the very configuration that one gave. -/
  again : ∀ before s c between s' r after,
    events = before ++ .read s (.ok c) :: (between ++ .read s' r :: after) →
      (∀ e ∈ between, ¬ e.Forgets) → r = .ok c
  /-- As long as none has succeeded, a reading validates the settings as they are. -/
  unread : ∀ before s r after, events = before ++ .read s r :: after → Unread before →
    r.map (·.config) = Config.ofSettings s.settings
  /-- The first one that succeeds gives a new configuration. -/
  new : ∀ before s c after, events = before ++ .read s (.ok c) :: after → Unread before →
    ∀ s' d, .read s' (.ok d) ∈ before → d.serial ≠ c.serial
  /-- A reading that fails is not remembered. -/
  failed : ∀ before s f between s' r after,
    events = before ++ .read s (.error f) :: (between ++ .read s' r :: after) →
      (∀ s c, .read s (.ok c) ∉ between) → r.map (·.config) = Config.ofSettings s'.settings
  /-- If every change was announced, a reading validates the settings as they are. -/
  announced : ∀ before s r after, events = before ++ .read s r :: after →
    .changed false ∉ before → r.map (·.config) = Config.ofSettings s.settings

variable {s t : Site} {events : List Event}

theorem readsRemembered_of_moves (h : s.Moves events t) (hs : s.config = none) :
    ReadsRemembered events := by
  have hregroup : ∀ before e between e' after,
      (before ++ e :: (between ++ e' :: after) : List Event) =
        (before ++ [e] ++ between) ++ e' :: after := fun _ _ _ _ _ => by simp
  refine ⟨?first, ?again, ?unread, ?new, ?failed, ?announced⟩
  case first =>
    rintro before s' c after rfl
    obtain ⟨earlier, s₀, later, hsplit, hearlier, hlater⟩ :=
      exists_of_remembered (h.remembered_reading hs)
    refine ⟨earlier, s₀, later, hsplit, remembered_eq_none_iff.1 hearlier, hlater, ?_⟩
    rw [← List.singleton_append, ← List.append_assoc, hsplit, List.append_assoc] at h
    exact (h.reading_of_unread hs hearlier).1.symm
  case again =>
    rintro before s' c between s'' r after rfl hbetween
    have hknown := remembered_append_of_some (h.remembered_reading hs) hbetween
    rw [hregroup] at h
    rcases h.reading_cases hs with ⟨d, hd, rfl⟩ | ⟨hnone, -, -⟩
    · cases hknown.symm.trans hd
      rfl
    · cases hknown.symm.trans hnone
  case unread =>
    rintro before s' r after rfl hbefore
    exact (h.reading_of_unread hs (remembered_eq_none_iff.2 hbefore)).1
  case new =>
    rintro before s' c after rfl hbefore s'' d hmem
    have hserial := (h.reading_of_unread hs (remembered_eq_none_iff.2 hbefore)).2 c rfl
    have hlt := h.reading.1.numbered hs s'' d hmem
    omega
  case failed =>
    rintro before s' f between s'' r after rfl hbetween
    have hnone := remembered_append_of_none (h.remembered_reading hs) hbetween
    rw [hregroup] at h
    exact (h.reading_of_unread hs hnone).1
  case announced =>
    rintro before s' r after rfl hquiet
    obtain ⟨hbefore, hr⟩ := h.reading
    have hsettled : s.Settled := fun c hc => by cases hs.symm.trans hc
    exact (hbefore.settled hsettled hquiet).reading hr

end Event

/-- Over every run of a session, and wherever in its steps they happen, readings of the
configuration give what the settings described when it was first read since it was forgotten. -/
theorem Session.readings_remembered (settings : Value) (libraries : List Library)
    (steps : List Step) :
    (∃ events, (Session.start settings libraries).Traces steps events) ∧
      ∀ events, (Session.start settings libraries).Traces steps events →
        Event.ReadsRemembered events :=
  ⟨Session.exists_traces _ _, fun _ h => Event.readsRemembered_of_moves h.moves rfl⟩

end Hydration
