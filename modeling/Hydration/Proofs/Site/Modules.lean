import Hydration.Proofs.Component.Recency
import Hydration.Proofs.Site.Events
import Mathlib.Data.Finset.Card
import Mathlib.Data.List.Induction
/-!
# Which modules loads give

A module is loaded once for a path, and given again as long as the cache keeps it: until the cache
is cleared, or until as many other paths were loaded as it has room for. What is there in the files
does not matter before that, and decides alone after it. A load that fails leaves the cache as it
is.

* `Event.used`: the paths in the order of their latest loads, told from the events.
* `Site.Moves.keeps`: what is in the cache of a site.
* `Session.modules_loaded_once`: all of this for the loads of a run, wherever they happen.
-/
namespace Hydration

/-- The modules are one object: only its calls may have gone on. -/
structure LoadedModule.Same (m n : LoadedModule) : Prop where
  serial : m.serial = n.serial
  source : m.source = n.source
  file : m.file = n.file

namespace Event

/-- The path of a load that succeeded. -/
def loadedPath? : Event → Option Text
  | .loaded _ path (.ok _) => some path
  | _ => none

/-- The paths that were loaded. -/
def loadedPaths (events : List Event) : List Text := events.filterMap loadedPath?

/-- The other paths that were loaded, each once. -/
def otherPaths (path : Text) (events : List Event) : Finset Text :=
  (loadedPaths events).toFinset.erase path

/-- The paths after an event, the one that was loaded last first. -/
def use (used : List Text) : Event → List Text
  | .loaded _ path (.ok _) => path :: used.filter (· != path)
  | .cleared => []
  | _ => used

/-- The paths that were loaded since the last clear, the one that was loaded last first. -/
def used (events : List Event) : List Text := events.foldl use []

/-- The module that was loaded last for a path, after an event. -/
def renew (path : Text) (known : Option LoadedModule) : Event → Option LoadedModule
  | .loaded _ other (.ok m) => if other = path then some m else known
  | _ => known

/-- The module that was loaded last for a path. -/
def latest (path : Text) (events : List Event) : Option LoadedModule :=
  events.foldl (renew path) none

/-- Among the events a module was loaded for the path, and it is to be given again. -/
def Kept (path : Text) (events : List Event) : Prop :=
  ∃ before s m between, events = before ++ .loaded s path (.ok m) :: between ∧
    path ∉ loadedPaths between ∧ .cleared ∉ between ∧
      (otherPaths path between).card < Cache.capacity

variable {events before between : List Event} {e : Event} {path : Text}

theorem used_concat (events : List Event) (e : Event) :
    used (events ++ [e]) = use (used events) e := by
  rw [used, List.foldl_append]
  rfl

theorem latest_concat (path : Text) (events : List Event) (e : Event) :
    latest path (events ++ [e]) = renew path (latest path events) e := by
  rw [latest, List.foldl_append]
  rfl

theorem loadedPaths_concat (events : List Event) (e : Event) :
    loadedPaths (events ++ [e]) = loadedPaths events ++ e.loadedPath?.toList := by
  rw [loadedPaths, List.filterMap_append]
  cases h : e.loadedPath? <;> simp [h, loadedPaths]

/-- What an event does to the paths that were loaded and to the latest modules. -/
theorem use_cases (e : Event) :
    (∃ s path m, e = .loaded s path (.ok m)) ∨ e = .cleared ∨
      e.loadedPath? = none ∧ e ≠ .cleared ∧ (∀ used, use used e = used) ∧
        ∀ path known, renew path known e = known := by
  rcases e with ⟨s, r⟩ | announced | _ | ⟨s, path, f | m⟩ | _
  · exact .inr (.inr ⟨rfl, by simp, fun _ => rfl, fun _ _ => rfl⟩)
  · exact .inr (.inr ⟨rfl, by simp, fun _ => rfl, fun _ _ => rfl⟩)
  · exact .inr (.inr ⟨rfl, by simp, fun _ => rfl, fun _ _ => rfl⟩)
  · exact .inr (.inr ⟨rfl, by simp, fun _ => rfl, fun _ _ => rfl⟩)
  · exact .inl ⟨s, path, m, rfl⟩
  · exact .inr (.inl rfl)

theorem nodup_used (events : List Event) : (used events).Nodup := by
  induction events using List.reverseRecOn with
  | nil => exact List.nodup_nil
  | append_singleton events e ih =>
    rw [used_concat]
    rcases use_cases e with ⟨s, path, m, rfl⟩ | rfl | ⟨-, -, huse, -⟩
    · exact List.nodup_cons.2 ⟨by simp, ih.filter _⟩
    · exact List.nodup_nil
    · rwa [huse]

theorem mem_loadedPaths_of_mem_used (h : path ∈ used events) : path ∈ loadedPaths events := by
  induction events using List.reverseRecOn with
  | nil => cases h
  | append_singleton events e ih =>
    rw [used_concat] at h
    rw [loadedPaths_concat]
    rcases use_cases e with ⟨s, other, m, rfl⟩ | rfl | ⟨-, -, huse, -⟩
    · rcases List.mem_cons.1 h with rfl | h
      · exact List.mem_append_right _ List.mem_cons_self
      · exact List.mem_append_left _ (ih (List.mem_filter.1 h).1)
    · cases h
    · rw [huse] at h
      exact List.mem_append_left _ (ih h)

theorem mem_used_iff (h : .cleared ∉ events) : path ∈ used events ↔ path ∈ loadedPaths events := by
  refine ⟨mem_loadedPaths_of_mem_used, ?_⟩
  induction events using List.reverseRecOn with
  | nil => exact id
  | append_singleton events e ih =>
    rw [List.mem_append, not_or] at h
    have ih := ih h.1
    rw [used_concat, loadedPaths_concat, List.mem_append]
    rcases use_cases e with ⟨s, other, m, rfl⟩ | rfl | ⟨hpath, -, huse, -⟩
    · rintro (hmem | hmem)
      · by_cases hp : path = other
        · exact List.mem_cons.2 (.inl hp)
        · exact List.mem_cons_of_mem _ (List.mem_filter.2 ⟨ih hmem, by simpa using hp⟩)
      · exact List.mem_cons.2 (.inl (List.mem_singleton.1 hmem))
    · exact absurd List.mem_cons_self h.2
    · rw [huse, hpath]
      rintro (hmem | hmem)
      · exact ih hmem
      · cases hmem

/-- As many others were used as other paths were loaded. -/
theorem length_used (h : .cleared ∉ between) (hpath : path ∉ loadedPaths between) :
    (used between).length = (otherPaths path between).card := by
  have hset : (used between).toFinset = otherPaths path between := by
    ext other
    rw [List.mem_toFinset, mem_used_iff h, otherPaths, Finset.mem_erase, List.mem_toFinset]
    constructor
    · intro hother
      refine ⟨?_, hother⟩
      rintro rfl
      exact hpath hother
    · exact fun hother => hother.2
  rw [← hset, List.toFinset_card_of_nodup (nodup_used between)]

/-- Behind the paths that were loaded since stands the path itself. -/
theorem used_load (before : List Event) (s : Site) (m : LoadedModule) (h : .cleared ∉ between)
    (hpath : path ∉ loadedPaths between) :
    ∃ rest, used (before ++ .loaded s path (.ok m) :: between) = used between ++ path :: rest := by
  induction between using List.reverseRecOn with
  | nil => exact ⟨_, used_concat before _⟩
  | append_singleton between e ih =>
    rw [loadedPaths_concat, List.mem_append, not_or] at hpath
    rw [List.mem_append, not_or] at h
    obtain ⟨rest, hrest⟩ := ih h.1 hpath.1
    rw [← List.cons_append, ← List.append_assoc, used_concat, used_concat, hrest]
    rcases use_cases e with ⟨s', other, n, rfl⟩ | rfl | ⟨-, -, huse, -⟩
    · have hne : (path != other) = true := by
        rw [bne_iff_ne]
        rintro rfl
        exact hpath.2 List.mem_cons_self
      refine ⟨rest.filter (· != other), ?_⟩
      simp only [use, List.filter_append, List.filter_cons, hne, if_true, List.cons_append]
    · exact absurd List.mem_cons_self h.2
    · rw [huse, huse]
      exact ⟨rest, rfl⟩

/-- After a clear nothing from before it is used any more. -/
theorem not_mem_used_of_cleared (before : List Event) (h : .cleared ∈ between)
    (hpath : path ∉ loadedPaths between) : path ∉ used (before ++ between) := by
  obtain ⟨first, last, rfl⟩ := List.append_of_mem h
  have hused : used (before ++ (first ++ .cleared :: last)) = used last := by
    rw [used, ← List.append_assoc, List.foldl_append]
    rfl
  rw [hused]
  intro hmem
  refine hpath ?_
  rw [loadedPaths, List.filterMap_append, List.mem_append]
  exact .inr (mem_loadedPaths_of_mem_used hmem)

theorem latest_load (before : List Event) (s : Site) (m : LoadedModule)
    (hpath : path ∉ loadedPaths between) :
    latest path (before ++ .loaded s path (.ok m) :: between) = some m := by
  induction between using List.reverseRecOn with
  | nil =>
    rw [latest_concat]
    exact if_pos rfl
  | append_singleton between e ih =>
    rw [loadedPaths_concat, List.mem_append, not_or] at hpath
    rw [← List.cons_append, ← List.append_assoc, latest_concat, ih hpath.1]
    rcases use_cases e with ⟨s', other, n, rfl⟩ | rfl | ⟨-, -, -, hrenew⟩
    · refine if_neg ?_
      rintro rfl
      exact hpath.2 List.mem_cons_self
    · rfl
    · exact hrenew _ _

theorem exists_of_latest {m : LoadedModule} (h : latest path events = some m) :
    ∃ before s between, events = before ++ .loaded s path (.ok m) :: between ∧
      path ∉ loadedPaths between := by
  induction events using List.reverseRecOn with
  | nil => cases h
  | append_singleton events e ih =>
    rw [latest_concat] at h
    have hbefore : latest path events = some m → path ∉ loadedPaths [e] →
        ∃ before s between, events ++ [e] = before ++ .loaded s path (.ok m) :: between ∧
          path ∉ loadedPaths between := by
      intro hm he
      obtain ⟨before, s, between, rfl, hbetween⟩ := ih hm
      refine ⟨before, s, between ++ [e], by simp, ?_⟩
      rw [loadedPaths, List.filterMap_append, List.mem_append]
      exact not_or.2 ⟨hbetween, he⟩
    rcases use_cases e with ⟨s, other, n, rfl⟩ | rfl | ⟨hpath, -, -, hrenew⟩
    · unfold renew at h
      dsimp only at h
      split at h
      · next hother =>
        cases h
        exact ⟨events, s, [], by rw [hother], List.not_mem_nil⟩
      · next hother => exact hbefore h fun hmem => hother (List.mem_singleton.1 hmem).symm
    · exact hbefore h List.not_mem_nil
    · rw [hrenew] at h
      refine hbefore h ?_
      rw [loadedPaths, List.filterMap_cons, hpath]
      exact List.not_mem_nil

/-- A path that is not among those that were used last is not until it is loaded again. -/
theorem not_mem_take_used (h : path ∉ (used before).take Cache.capacity)
    (hpath : path ∉ loadedPaths between) :
    path ∉ (used (before ++ between)).take Cache.capacity := by
  induction between using List.reverseRecOn with
  | nil => rwa [List.append_nil]
  | append_singleton between e ih =>
    rw [loadedPaths_concat, List.mem_append, not_or] at hpath
    have ih := ih hpath.1
    rw [← List.append_assoc, used_concat]
    rcases use_cases e with ⟨s, other, m, rfl⟩ | rfl | ⟨-, -, huse, -⟩
    · intro hmem
      rcases List.mem_cons.1 hmem with rfl | hmem
      · exact hpath.2 List.mem_cons_self
      · rw [← take_filter_ne (nodup_used _)] at hmem
        exact ih (List.mem_filter.1 (List.mem_of_mem_take hmem)).1
    · exact List.not_mem_nil
    · rwa [huse]

end Event

/-! ## Sites -/

namespace Site
open Event
variable {s t u : Site} {events before : List Event} {path : Text} {m : LoadedModule}

/-- What the cache of a site has to do with the events before: it has the paths that were loaded
last, each with its latest module, and the next module is another one than those before. -/
structure Keeps (events : List Event) (s : Site) : Prop where
  names : s.modules.names = (used events).take Cache.capacity
  same : ∀ path m, s.modules.lookup? path = some m → ∃ n, latest path events = some n ∧ m.Same n
  numbered : ∀ s' path m, .loaded s' path (.ok m) ∈ events → m.serial < s.loads

namespace Keeps

theorem lookup?_eq_none_iff (h : Keeps events s) :
    s.modules.lookup? path = none ↔ path ∉ (used events).take Cache.capacity := by
  rw [Cache.lookup?_eq_none_iff, h.names]

theorem of_eq (h : Keeps events s) (hmodules : t.modules = s.modules) (hloads : t.loads = s.loads) :
    Keeps events t where
  names := by rw [hmodules, h.names]
  same := by rw [hmodules]; exact h.same
  numbered := by rw [hloads]; exact h.numbered

/-- An event that is neither a load nor a clear leaves the cache as it is. -/
theorem concat {e : Event} (h : Keeps events s) (hpath : e.loadedPath? = none) (he : e ≠ .cleared)
    (hmodules : t.modules = s.modules) (hloads : t.loads = s.loads) : Keeps (events ++ [e]) t := by
  rcases use_cases e with ⟨s', path, m, rfl⟩ | rfl | ⟨-, -, huse, hrenew⟩
  · cases hpath
  · exact absurd rfl he
  · have h := h.of_eq hmodules hloads
    refine ⟨?_, fun path m hm => ?_, fun s' path m hmem => ?_⟩
    · rw [used_concat, huse, h.names]
    · rw [latest_concat, hrenew]
      exact h.same path m hm
    · rcases List.mem_append.1 hmem with hmem | hmem
      · exact h.numbered s' path m hmem
      · rw [← List.mem_singleton.1 hmem] at hpath
        cases hpath

/-- Counting a call leaves the module in front. -/
theorem countCall {rest : List (Text × LoadedModule)} (h : Keeps events s)
    (hfront : s.modules.entries = (path, m) :: rest) :
    Keeps events ((Action.countCall path m).outcome s).2 := by
  have hm : s.modules.lookup? path = some m := by
    rw [Cache.lookup?, hfront, List.lookup_cons_self]
  refine ⟨?_, fun other found hfound => ?_, h.numbered⟩
  · have hnames : s.modules.names = path :: rest.map Prod.fst := by
      rw [Cache.names, hfront, List.map_cons]
    have hnodup : s.modules.names.Nodup := by
      rw [h.names]
      exact (nodup_used events).sublist (List.take_sublist _ _)
    rw [hnames, List.nodup_cons] at hnodup
    rw [← h.names]
    change (s.modules.use path _).names = s.modules.names
    rw [Cache.names, Cache.use, List.map_cons, Cache.map_others, hnames]
    have hself : ¬ (path != path) = true := by simp
    rw [List.filter_cons, if_neg hself, List.filter_eq_self.2 fun other hother => ?_]
    rw [bne_iff_ne]
    rintro rfl
    exact hnodup.1 hother
  · change (s.modules.use path _).lookup? other = some found at hfound
    rw [Cache.lookup?_use] at hfound
    split at hfound
    · next hother =>
      cases hfound
      rw [hother]
      obtain ⟨n, hn, hsame⟩ := h.same path m hm
      exact ⟨n, hn, hsame.serial, hsame.source, hsame.file⟩
    · exact h.same other found hfound

/-- A module that is in the cache is given, and comes to the front. -/
theorem hit (h : Keeps events s) (hm : s.modules.lookup? path = some m) :
    Keeps (events ++ [.loaded s path (.ok m)]) { s with modules := s.modules.use path m } := by
  obtain ⟨n, hn, hsame⟩ := h.same path m hm
  refine ⟨?_, fun other found hfound => ?_, fun s' other found hmem => ?_⟩
  · rw [used_concat]
    refine Cache.names_use h.names (nodup_used events) ?_
    refine Classical.byContradiction fun hnot => ?_
    cases (Cache.lookup?_eq_none_iff.2 hnot).symm.trans hm
  · rw [latest_concat]
    change (s.modules.use path m).lookup? other = some found at hfound
    rw [Cache.lookup?_use] at hfound
    by_cases hother : other = path
    · rw [if_pos hother] at hfound
      cases hfound
      exact ⟨m, if_pos hother.symm, rfl, rfl, rfl⟩
    · rw [if_neg hother] at hfound
      obtain ⟨n, hn, hsame⟩ := h.same other found hfound
      exact ⟨n, (if_neg (Ne.symm hother)).trans hn, hsame⟩
  · rcases List.mem_append.1 hmem with hmem | hmem
    · exact h.numbered s' other found hmem
    · cases List.mem_singleton.1 hmem
      obtain ⟨first, s'', last, rfl, -⟩ := exists_of_latest hn
      rw [hsame.serial]
      exact h.numbered s'' path n (List.mem_append_right _ List.mem_cons_self)

/-- A new module comes to the front, and another may go. -/
theorem miss {log : List LogRecord} (h : Keeps events s) (hserial : m.serial = s.loads) :
    Keeps (events ++ [.loaded s path (.ok m)])
      { s with modules := s.modules.store path m, loads := s.loads + 1, log := log } := by
  refine ⟨?_, fun other found hfound => ?_, fun s' other found hmem => ?_⟩
  · rw [used_concat]
    exact Cache.names_store h.names (nodup_used events)
  · rw [latest_concat]
    change (s.modules.store path m).lookup? other = some found at hfound
    by_cases hother : other = path
    · rw [hother, Cache.lookup?_store] at hfound
      cases hfound
      exact ⟨m, if_pos hother.symm, rfl, rfl, rfl⟩
    · obtain ⟨n, hn, hsame⟩ := h.same other found (Cache.lookup?_of_store hother hfound)
      exact ⟨n, (if_neg (Ne.symm hother)).trans hn, hsame⟩
  · rcases List.mem_append.1 hmem with hmem | hmem
    · exact Nat.lt_succ_of_lt (h.numbered s' other found hmem)
    · cases List.mem_singleton.1 hmem
      exact hserial ▸ Nat.lt_succ_self _

end Keeps

theorem Move.keeps (h : Move s events t) (hs : Keeps before s) : Keeps (before ++ events) t := by
  cases h with
  | aside h =>
    rw [List.append_nil]
    exact hs.of_eq h.modules h.loads
  | called hfront =>
    rw [List.append_nil]
    exact hs.countCall hfront
  | read =>
    obtain ⟨hmodules, hloads⟩ := Action.keepsModules_readConfig s
    exact hs.concat rfl (by simp) hmodules hloads
  | changed settings announced =>
    refine hs.concat rfl (by simp) ?_ ?_ <;> cases announced <;> rfl
  | forgot => exact hs.concat rfl (by simp) rfl rfl
  | loaded path =>
    cases hm : s.modules.lookup? path with
    | some m =>
      rw [Action.outcome_loadModule_of_some hm]
      exact hs.hit hm
    | none =>
      rw [Action.outcome_loadModule_of_none hm]
      rcases s.fresh path with f | ⟨source, file⟩
      · exact hs.concat rfl (by simp) rfl rfl
      · exact hs.miss rfl
  | cleared =>
    refine ⟨by rw [used_concat]; rfl, fun path m hm => (by cases hm), fun s' path m hmem => ?_⟩
    rcases List.mem_append.1 hmem with hmem | hmem
    · exact hs.numbered s' path m hmem
    · cases List.mem_singleton.1 hmem

/-- The cache of a site has what the events say. -/
theorem Moves.keeps (h : Moves s events t) (hs : Keeps [] s) : Keeps events t := by
  induction h with
  | refl => exact hs
  | more _ hmove ih => exact hmove.keeps ih

theorem keeps_start (settings : Value) (libraries : List Library) :
    Keeps [] (start settings libraries) :=
  ⟨rfl, fun path m hm => (by cases hm), fun s' path m hmem => (by cases hmem)⟩

section
variable {s' : Site} {r : Except Failure LoadedModule} {between after : List Event}

/-- A load among events happens at a site that the events before it lead to. -/
theorem Moves.loading (h : Moves s (before ++ .loaded s' path r :: after) u) :
    Moves s before s' ∧ ((Action.loadModule path).outcome s').1 = r := by
  obtain ⟨t, t', ht, hmove, -⟩ := h.split
  cases hmove
  exact ⟨ht, rfl⟩

/-- The path is still in the cache if and only if nothing was cleared and few others were loaded. -/
theorem Keeps.mem_iff (h : Keeps (before ++ .loaded s' path (.ok m) :: between) s)
    (hpath : path ∉ loadedPaths between) :
    (∃ n, s.modules.lookup? path = some n) ↔
      .cleared ∉ between ∧ (otherPaths path between).card < Cache.capacity := by
  rw [← Option.isSome_iff_exists, ← Option.ne_none_iff_isSome, Ne, h.lookup?_eq_none_iff, not_not]
  by_cases hcleared : .cleared ∈ between
  · have hused := not_mem_used_of_cleared (before ++ [.loaded s' path (.ok m)]) hcleared hpath
    rw [List.append_assoc, List.singleton_append] at hused
    exact ⟨fun hmem => absurd (List.mem_of_mem_take hmem) hused, fun hno => absurd hcleared hno.1⟩
  · obtain ⟨rest, hrest⟩ := used_load before s' m hcleared hpath
    have hfront : path ∉ used between := fun hmem => hpath (mem_loadedPaths_of_mem_used hmem)
    rw [hrest, mem_take_iff hfront, length_used hcleared hpath]
    exact ⟨fun hcard => ⟨hcleared, hcard⟩, fun hboth => hboth.2⟩

theorem Keeps.kept_iff (h : Keeps events s) :
    (∃ n, s.modules.lookup? path = some n) ↔ Kept path events := by
  constructor
  · rintro ⟨n, hn⟩
    obtain ⟨m, hm, -⟩ := h.same path n hn
    obtain ⟨before, s', between, rfl, hpath⟩ := exists_of_latest hm
    obtain ⟨hcleared, hcard⟩ := (h.mem_iff hpath).1 ⟨n, hn⟩
    exact ⟨before, s', m, between, rfl, hpath, hcleared, hcard⟩
  · rintro ⟨before, s', m, between, rfl, hpath, hcleared, hcard⟩
    exact (h.mem_iff hpath).2 ⟨hcleared, hcard⟩

theorem Keeps.lookup?_of_not_kept (h : Keeps events s) (hpath : ¬ Kept path events) :
    s.modules.lookup? path = none := by
  cases hm : s.modules.lookup? path with
  | none => rfl
  | some m => exact absurd (h.kept_iff.1 ⟨m, hm⟩) hpath

/-- What the files lead to is loaded, as a module that is another one than those before. -/
theorem Keeps.fresh (h : Keeps events s) (hm : s.modules.lookup? path = none)
    (hr : ((Action.loadModule path).outcome s).1 = r) :
    r.map (fun m => (m.source, m.file)) = s.fresh path ∧
      ∀ m, r = .ok m → ∀ s' other n, .loaded s' other (.ok n) ∈ events → n.serial < m.serial := by
  rw [← hr, Action.outcome_loadModule_of_none hm]
  rcases s.fresh path with f | ⟨source, file⟩
  · exact ⟨rfl, fun m h => by cases h⟩
  · refine ⟨rfl, fun m hm s' other n hmem => ?_⟩
    cases hm
    exact h.numbered s' other n hmem

end
end Site

/-! ## Runs -/

namespace Event

/-- What the loads among some events give. Each is given with the site that it happens at, so
`s.fresh` is what the files lead to then. -/
structure LoadedOnce (events : List Event) : Prop where
  /-- The module of the latest load is given again if and only if nothing was cleared and fewer
  other paths were loaded than the cache has room for. -/
  again : ∀ before s path m between s' r after,
    events = before ++ .loaded s path (.ok m) :: (between ++ .loaded s' path r :: after) →
      path ∉ loadedPaths between →
        ((∃ n, r = .ok n ∧ n.Same m) ↔
          .cleared ∉ between ∧ (otherPaths path between).card < Cache.capacity)
  /-- No file is looked at then. -/
  unseen : ∀ before s path r after, events = before ++ .loaded s path r :: after →
    Kept path before → ∀ files, ((Action.loadModule path).outcome { s with files := files }).1 = r
  /-- Otherwise the files decide, and a module that is loaded is another one than all before. -/
  fresh : ∀ before s path r after, events = before ++ .loaded s path r :: after →
    ¬ Kept path before →
      r.map (fun m => (m.source, m.file)) = s.fresh path ∧
        ∀ m, r = .ok m → ∀ s' other n, .loaded s' other (.ok n) ∈ before → n.serial ≠ m.serial
  /-- A load that fails leaves the cache as it is. -/
  failed : ∀ before s path f after, events = before ++ .loaded s path (.error f) :: after →
    ((Action.loadModule path).outcome s).2.modules = s.modules
  /-- After a load that fails, the files decide. -/
  retried : ∀ before s path f between s' r after,
    events = before ++ .loaded s path (.error f) :: (between ++ .loaded s' path r :: after) →
      path ∉ loadedPaths between → r.map (fun m => (m.source, m.file)) = s'.fresh path

variable {s t : Site} {events : List Event}

theorem loadedOnce_of_moves (h : s.Moves events t) (hs : s.Keeps []) : LoadedOnce events := by
  have hregroup : ∀ before e between e' after,
      (before ++ e :: (between ++ e' :: after) : List Event) =
        (before ++ e :: between) ++ e' :: after := fun _ _ _ _ _ => by simp
  refine ⟨?again, ?unseen, ?fresh, ?failed, ?retried⟩
  case again =>
    rintro before s₀ path m between s' r after rfl hpath
    rw [hregroup] at h
    obtain ⟨hbefore, hr⟩ := h.loading
    have hkeeps := hbefore.keeps hs
    rw [← hkeeps.mem_iff hpath]
    constructor
    · rintro ⟨n, rfl, hsame⟩
      cases hm : s'.modules.lookup? path with
      | some n => exact ⟨n, rfl⟩
      | none =>
        have hlt := (hkeeps.fresh hm hr).2 n rfl s₀ path m
          (List.mem_append_right _ List.mem_cons_self)
        exact absurd hsame.serial.symm (Nat.ne_of_lt hlt)
    · rintro ⟨n, hn⟩
      rw [Action.outcome_loadModule_of_some hn] at hr
      obtain ⟨n', hn', hsame⟩ := hkeeps.same path n hn
      rw [latest_load before s₀ m hpath] at hn'
      cases hn'
      exact ⟨n, hr.symm, hsame⟩
  case unseen =>
    rintro before s' path r after rfl hkept files
    obtain ⟨hbefore, rfl⟩ := h.loading
    obtain ⟨n, hn⟩ := (hbefore.keeps hs).kept_iff.2 hkept
    rw [Action.outcome_loadModule_of_some hn,
      Action.outcome_loadModule_of_some (s := { s' with files := files }) hn]
  case fresh =>
    rintro before s' path r after rfl hkept
    obtain ⟨hbefore, hr⟩ := h.loading
    have hkeeps := hbefore.keeps hs
    obtain ⟨hresult, hserial⟩ := hkeeps.fresh (hkeeps.lookup?_of_not_kept hkept) hr
    exact ⟨hresult, fun m hm s₀ other n hmem => Nat.ne_of_lt (hserial m hm s₀ other n hmem)⟩
  case failed =>
    rintro before s' path f after rfl
    obtain ⟨-, hr⟩ := h.loading
    exact Action.modules_loadModule_of_error hr
  case retried =>
    rintro before s₀ path f between s' r after rfl hpath
    obtain ⟨hfirst, hf⟩ := h.loading
    have hnone := Action.lookup?_of_error hf
    rw [(hfirst.keeps hs).lookup?_eq_none_iff] at hnone
    rw [hregroup] at h
    obtain ⟨hbefore, hr⟩ := h.loading
    have hkeeps := hbefore.keeps hs
    refine (hkeeps.fresh (hkeeps.lookup?_eq_none_iff.2 (not_mem_take_used hnone ?_)) hr).1
    exact hpath

end Event

/-- Over every run of a session, and wherever in its steps they happen, loads give the module that
was loaded last for the path as long as the cache keeps it, and what the files lead to otherwise. -/
theorem Session.modules_loaded_once (settings : Value) (libraries : List Library)
    (steps : List Step) :
    (∃ events, (Session.start settings libraries).Traces steps events) ∧
      ∀ events, (Session.start settings libraries).Traces steps events →
        Event.LoadedOnce events :=
  ⟨Session.exists_traces _ _, fun _ h =>
    Event.loadedOnce_of_moves h.moves (Site.keeps_start settings libraries)⟩

end Hydration
