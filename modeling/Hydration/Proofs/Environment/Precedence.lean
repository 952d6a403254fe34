import Hydration.Environment.Profile
import Hydration.Proofs.Path.Walk
import Hydration.Proofs.Text.Parts
import Mathlib.Data.List.Infix
import Mathlib.Data.List.Nodup
/-!
# Where settings come from

A variable has the value that the environment gives it, else the value of its last binding in the
file of variables, else none (`Seen`). The file is the nearest one, in the working directory or
above (`IsNearest`), and none at all if the environment switches files off. A file that binds what
no environment can hold is not loaded at all. The profiles change a few of the settings that all of
them share.

* `Dotenv.lookup_read`: what a file binds a name to is told by its last binding.
* `Environment.find?_of_not_mem`: a name without slashes is that of a file in the directory.
* `Environment.nearestFile?_eq_some_iff`: which file is the nearest one.
* `Environment.exists_load_of_fits`, `Environment.load_eq_error`: what is seen of a variable, and
  when nothing is.
* `Profile.settings_precedence`: the settings of all profiles.
-/
namespace Hydration

/-! ## The last binding -/

namespace Dotenv

variable {environment : Variables}

/-- The last binding of a name in a file: its value, with variables filled in from the environment
and the bindings before it, or nothing. -/
inductive LastBinding (environment : Variables) (file name : Text) : Option Text → Prop
  | intro {before after : List Binding} {b : Binding} (hfile : bindings file = before ++ b :: after)
    (hname : b.name = name) (hlast : ∀ c ∈ after, c.name ≠ name) :
    LastBinding environment file name
      (b.value.map fun t =>
        (atoms t).flatMap (Atom.resolve environment (resolve environment [] before)))

theorem lookup_putLast_of_ne {name other : Text} (h : other ≠ name) (value : Option Text)
    (bound : Bound) : (putLast other value bound).lookup name = bound.lookup name := by
  have hne : (name == other) = false := by simp [h.symm]
  induction bound with
  | nil => simp [putLast, List.lookup_cons, hne]
  | cons e rest ih =>
    obtain ⟨n, v⟩ := e
    by_cases hn : n = other
    · subst hn
      simp [putLast, List.lookup_cons, hne]
    · by_cases hname : name = n
      · simp [putLast, hn, hname]
      · simp [putLast, hn, List.lookup_cons, ih]

theorem resolve_append (bound : Bound) (a b : List Binding) :
    resolve environment bound (a ++ b) = resolve environment (resolve environment bound a) b := by
  induction a generalizing bound with
  | nil => rfl
  | cons c a ih => exact ih _

theorem lookup_resolve_of_forall_ne {name : Text} {bs : List Binding}
    (h : ∀ b ∈ bs, b.name ≠ name) (bound : Bound) :
    (resolve environment bound bs).lookup name = bound.lookup name := by
  induction bs generalizing bound with
  | nil => rfl
  | cons b bs ih =>
    obtain ⟨hb, hbs⟩ := List.forall_mem_cons.1 h
    rw [resolve, ih hbs, lookup_putLast_of_ne hb]

theorem exists_last_of_mem {name : Text} {bs : List Binding} (h : ∃ b ∈ bs, b.name = name) :
    ∃ before b after, bs = before ++ b :: after ∧ b.name = name ∧
      ∀ c ∈ after, c.name ≠ name := by
  induction bs with
  | nil => simp at h
  | cons b bs ih =>
    by_cases hlater : ∃ c ∈ bs, c.name = name
    · obtain ⟨before, c, after, rfl, hc, hlast⟩ := ih hlater
      exact ⟨b :: before, c, after, rfl, hc, hlast⟩
    · obtain ⟨c, hc, hname⟩ := h
      rcases List.mem_cons.1 hc with rfl | hc
      · exact ⟨[], c, bs, rfl, hname, fun d hd hdname => hlater ⟨d, hd, hdname⟩⟩
      · exact absurd ⟨c, hc, hname⟩ hlater

/-- What a file binds a name to is told by its last binding of that name. -/
theorem lookup_read {file name : Text} {value : Option Text} :
    (read environment file).lookup name = some value ↔
      LastBinding environment file name value := by
  have hlookup : ∀ {before after : List Binding} {b : Binding}, (∀ c ∈ after, c.name ≠ b.name) →
      (resolve environment [] (before ++ b :: after)).lookup b.name = some (b.value.map fun t =>
        (atoms t).flatMap (Atom.resolve environment (resolve environment [] before))) := by
    intro before after b hlast
    rw [resolve_append, resolve, lookup_resolve_of_forall_ne hlast, lookup_putLast]
  unfold read
  constructor
  · intro h
    by_cases hbound : ∃ b ∈ bindings file, b.name = name
    · obtain ⟨before, b, after, hfile, rfl, hlast⟩ := exists_last_of_mem hbound
      rw [hfile, hlookup hlast] at h
      cases h
      exact .intro hfile rfl hlast
    · rw [lookup_resolve_of_forall_ne (fun b hb hname => hbound ⟨b, hb, hname⟩)] at h
      cases h
  · rintro ⟨hfile, rfl, hlast⟩
    rw [hfile, hlookup hlast]

/-! ## Names are bound once -/

theorem names_putLast (name : Text) (value : Option Text) (bound : Bound) :
    (putLast name value bound).map (·.1) =
      if name ∈ bound.map (·.1) then bound.map (·.1) else bound.map (·.1) ++ [name] := by
  induction bound with
  | nil => simp [putLast]
  | cons e rest ih =>
    obtain ⟨n, v⟩ := e
    by_cases h : n = name
    · simp [putLast, h]
    · simp only [putLast, h, if_false, List.map_cons, ih, List.mem_cons, Ne.symm h, false_or]
      split <;> rfl

theorem nodup_putLast {name : Text} {value : Option Text} {bound : Bound}
    (h : (bound.map (·.1)).Nodup) : ((putLast name value bound).map (·.1)).Nodup := by
  rw [names_putLast]
  split
  · exact h
  · next hnew =>
    exact h.append (List.nodup_singleton name) (List.disjoint_singleton.2 hnew)

theorem nodup_read (environment : Variables) (file : Text) :
    ((read environment file).map (·.1)).Nodup := by
  have hresolve : ∀ (bs : List Binding) (bound : Bound), (bound.map (·.1)).Nodup →
      ((resolve environment bound bs).map (·.1)).Nodup := by
    intro bs
    induction bs with
    | nil => exact fun _ h => h
    | cons b bs ih => exact fun _ h => ih _ (nodup_putLast h)
  exact hresolve _ [] List.nodup_nil

end Dotenv

/-! ## The nearest file -/

namespace Environment

variable {vars all : Variables} {files : Files Text} {here : List Text} {bound : Dotenv.Bound}

/-- A name without slashes leads to the file that it names in the directory. -/
theorem find?_of_not_mem {name : Text} (hslash : '/' ∉ name) (hname : Path.IsOrdinary name)
    (hhere : files.isDirectory here = true) :
    find? files here name = (files.lookup? (here ++ [name])).join := by
  have hopens : Text.opensWith "/" name = false := by
    cases name with
    | nil => rfl
    | cons c rest =>
      have hc : '/' ≠ c := fun h => hslash (h ▸ List.mem_cons_self)
      simp [Text.opensWith, List.isPrefixOf, hc]
  have hparts : Text.parts '/' name = [name] := by
    have hjoined : (['/'].intercalate [name]).splitOn '/' = [name] :=
      List.splitOn_intercalate '/' (by simpa using hslash) (by simp)
    rwa [List.intercalate_singleton, ← Text.parts_eq_splitOn] at hjoined
  have hreach : reach files here [name] = some (here ++ [name]) := by
    simp [reach, hhere, Path.stepSegment_down hname]
  rw [find?, hopens, hparts]
  change (reach files here [name]).bind (fun place => (files.lookup? place).bind id) = _
  rw [hreach, Option.bind_some]
  cases files.lookup? (here ++ [name]) <;> rfl

/-- The text of the nearest file that a name leads to, from the working directory or one above. -/
def IsNearest (files : Files Text) (here : List Text) (name t : Text) : Prop :=
  ∃ above below, here = above ++ below ∧ find? files above name = some t ∧
    ∀ nearer rest, here = nearer ++ rest → above.length < nearer.length →
      find? files nearer name = none

theorem upwards_append (above : List Text) (segment : Text) :
    upwards (above ++ [segment]) = (above ++ [segment]) :: upwards above := by
  have htake : ∀ n ∈ List.range (above.length + 1),
      (above ++ [segment]).take n = above.take n := by
    intro n hn
    rw [List.take_append_of_le_length (by simp at hn; omega)]
  unfold upwards
  rw [List.length_append, List.length_singleton, List.range_succ, List.map_append,
    List.reverse_append, List.map_congr_left htake]
  simp

/-- What is found first on the way upwards is found in a directory below which there is nothing. -/
theorem findSome?_upwards_eq_some_iff {α : Type} {find : List Text → Option α} {a : α} :
    (upwards here).findSome? find = some a ↔
      ∃ above below, here = above ++ below ∧ find above = some a ∧
        ∀ nearer rest, here = nearer ++ rest → above.length < nearer.length →
          find nearer = none := by
  induction here using List.reverseRecOn with
  | nil =>
    have hup : upwards [] = [[]] := rfl
    simp [hup]
  | append_singleton above segment ih =>
    rw [upwards_append, List.findSome?_cons]
    cases hfind : find (above ++ [segment]) with
    | some b =>
      constructor
      · rintro ⟨⟩
        refine ⟨_, [], (List.append_nil _).symm, hfind, fun nearer rest hrest hlt => ?_⟩
        rw [hrest, List.length_append] at hlt
        omega
      · rintro ⟨far, below, hfar, hfound, hnone⟩
        rcases below.eq_nil_or_concat with rfl | ⟨_, _, rfl⟩
        · rw [List.append_nil] at hfar
          rw [hfar, hfound] at hfind
          exact hfind.symm
        · rw [hnone _ [] (List.append_nil _).symm (by simp [hfar])] at hfind
          cases hfind
    | none =>
      rw [ih]
      constructor
      · rintro ⟨far, below, rfl, hfound, hnone⟩
        refine ⟨far, below ++ [segment], by simp, hfound, fun nearer rest hrest hlt => ?_⟩
        rcases rest.eq_nil_or_concat with rfl | ⟨rest, last, rfl⟩
        · rwa [← List.append_nil nearer, ← hrest]
        · refine hnone nearer rest ?_ hlt
          rw [List.concat_eq_append, ← List.append_assoc] at hrest
          exact (List.append_inj' hrest rfl).1
      · rintro ⟨far, below, hfar, hfound, hnone⟩
        rcases below.eq_nil_or_concat with rfl | ⟨below, last, rfl⟩
        · rw [List.append_nil] at hfar
          rw [hfar, hfound] at hfind
          cases hfind
        · rw [List.concat_eq_append, ← List.append_assoc] at hfar
          obtain ⟨habove, -⟩ := List.append_inj' hfar rfl
          refine ⟨far, below, habove, hfound, fun nearer rest hrest hlt => ?_⟩
          exact hnone nearer (rest ++ [segment]) (by rw [hrest, List.append_assoc]) hlt

theorem nearestFile?_eq_some_iff {name t : Text} :
    nearestFile? files here name = some t ↔ IsNearest files here name t :=
  findSome?_upwards_eq_some_iff

/-- The file of variables that counts, unless the environment switches files off. -/
def consulted? (vars : Variables) (files : Files Text) (here : List Text) : Option Text :=
  if isOff vars then none else nearestFile? files here (get vars fileName defaultFileName)

theorem load_eq (vars : Variables) (files : Files Text) (here : List Text) :
    load vars files here =
      match consulted? vars files here with
      | none => .ok vars
      | some t => add vars (Dotenv.read vars t) := by
  unfold load consulted?
  cases nearestFile? files here (get vars fileName defaultFileName) <;> cases isOff vars <;> rfl

/-! ## What is seen of a variable -/

/-- What is seen of a variable: the value that the environment gives it, else the value of its last
binding in the file that counts, if that has one. -/
inductive Seen (vars : Variables) (file : Option Text) (name : Text) : Option Text → Prop
  | environment {v : Text} (hset : vars.lookup name = some v) : Seen vars file name (some v)
  | file {t v : Text} (hset : vars.lookup name = none) (hfile : file = some t)
      (hbound : Dotenv.LastBinding vars t name (some v)) : Seen vars file name (some v)
  | unset (hset : vars.lookup name = none)
      (hbound : ∀ t v, file = some t → ¬ Dotenv.LastBinding vars t name (some v)) :
      Seen vars file name none

/-- A variable that the file would add to the environment, which cannot hold it. -/
def Refused (vars : Variables) (file : Option Text) (name : Text) (f : Failure) : Prop :=
  vars.lookup name = none ∧ ∃ t v, file = some t ∧ Dotenv.LastBinding vars t name (some v) ∧
    checkVariable name v = .error f

theorem raised_of_checkVariable {name v : Text} {f : Failure}
    (h : checkVariable name v = .error f) : ∃ message, f = .value (.raised message) := by
  unfold checkVariable at h
  split at h
  · exact ⟨_, (Except.error.inj h).symm⟩
  · split at h
    · exact ⟨_, (Except.error.inj h).symm⟩
    · cases h

theorem mem_iff_lookup {name : Text} {value : Option Text} (h : (bound.map (·.1)).Nodup) :
    (name, value) ∈ bound ↔ bound.lookup name = some value := by
  induction bound with
  | nil => simp
  | cons e rest ih =>
    obtain ⟨n, v⟩ := e
    obtain ⟨hn, hrest⟩ := List.nodup_cons.1 h
    rw [List.mem_cons, List.lookup_cons, ih hrest]
    by_cases hname : name = n
    · subst hname
      have hnone : rest.lookup name ≠ some value := fun hsome =>
        hn (List.mem_map.2 ⟨_, (ih hrest).2 hsome, rfl⟩)
      simp [hnone, eq_comm]
    · simp [hname, beq_eq_false_iff_ne.2 hname]

theorem get?_append_eq_none {name other v : Text} :
    get? (vars ++ [(other, v)]) name = none ↔ get? vars name = none ∧ name ≠ other := by
  unfold get?
  by_cases h : name = other
  · simp [List.lookup_append, h]
  · simp [List.lookup_append, List.lookup_cons, h, beq_eq_false_iff_ne.2 h]

/-- If all that is not set yet can be held, it is added, and nothing else changes. -/
theorem add_eq_ok (hnodup : (bound.map (·.1)).Nodup)
    (hfits : ∀ name v, get? vars name = none → (name, some v) ∈ bound →
      checkVariable name v = .ok ()) :
    ∃ all, add vars bound = .ok all ∧
      ∀ name, get? all name = (get? vars name).or (bound.lookup name).join := by
  induction bound generalizing vars with
  | nil => exact ⟨vars, rfl, by simp⟩
  | cons e rest ih =>
    obtain ⟨n, value⟩ := e
    obtain ⟨hn, hrest⟩ := List.nodup_cons.1 hnodup
    have hnone : rest.lookup n = none := List.lookup_eq_none_iff.2 fun e he =>
      bne_iff_ne.2 fun hname => hn (hname ▸ List.mem_map.2 ⟨e, he, rfl⟩)
    unfold add
    split
    · next v hset =>
      rw [hfits n v hset (List.mem_cons_self ..)]
      obtain ⟨all, hall, hget⟩ := @ih (vars ++ [(n, v)]) hrest fun name w hname hw =>
        hfits name w (get?_append_eq_none.1 hname).1 (List.mem_cons_of_mem _ hw)
      refine ⟨all, hall, fun name => ?_⟩
      rw [hget]
      by_cases hname : name = n
      · subst hname
        have hname : vars.lookup name = none := hset
        simp [get?, List.lookup_append, hname]
      · simp [get?, List.lookup_append, List.lookup_cons, beq_eq_false_iff_ne.2 hname]
    · next value _ _ hskip =>
      obtain ⟨all, hall, hget⟩ := ih hrest fun name w hname hw =>
        hfits name w hname (List.mem_cons_of_mem _ hw)
      refine ⟨all, hall, fun name => ?_⟩
      rw [hget]
      by_cases hname : name = n
      · subst hname
        cases hset : get? vars name with
        | some v => simp
        | none =>
          have hvalue : value = none := Option.eq_none_iff_forall_ne_some.2 fun v => hskip v hset
          simp [hnone, hvalue]
      · simp [List.lookup_cons, beq_eq_false_iff_ne.2 hname]

/-- If some of what is not set yet cannot be held, the first of it is told. -/
theorem add_eq_error (hnodup : (bound.map (·.1)).Nodup)
    (hrefused : ∃ name v f, get? vars name = none ∧ (name, some v) ∈ bound ∧
      checkVariable name v = .error f) :
    ∃ name v f, get? vars name = none ∧ (name, some v) ∈ bound ∧
      checkVariable name v = .error f ∧ add vars bound = .error f := by
  induction bound generalizing vars with
  | nil => simp at hrefused
  | cons e rest ih =>
    obtain ⟨n, value⟩ := e
    obtain ⟨hn, hrest⟩ := List.nodup_cons.1 hnodup
    obtain ⟨name, w, f, hset, hmem, hcheck⟩ := hrefused
    unfold add
    split
    · next v hnset =>
      cases hv : checkVariable n v with
      | error g => exact ⟨n, v, g, hnset, List.mem_cons_self .., hv, rfl⟩
      | ok _ =>
        have hlater : (name, some w) ∈ rest := by
          rcases List.mem_cons.1 hmem with heq | hmem
          · cases heq
            rw [hv] at hcheck
            cases hcheck
          · exact hmem
        have hne : name ≠ n := fun hname => hn (hname ▸ List.mem_map.2 ⟨_, hlater, rfl⟩)
        obtain ⟨name', w', g, hset', hmem', hcheck', hadd⟩ := @ih (vars ++ [(n, v)]) hrest
          ⟨name, w, f, get?_append_eq_none.2 ⟨hset, hne⟩, hlater, hcheck⟩
        exact ⟨name', w', g, (get?_append_eq_none.1 hset').1, List.mem_cons_of_mem _ hmem', hcheck',
          hadd⟩
    · next hskip =>
      have hlater : (name, some w) ∈ rest := by
        rcases List.mem_cons.1 hmem with heq | hmem
        · cases heq
          exact absurd rfl (hskip w hset)
        · exact hmem
      obtain ⟨name', w', g, hset', hmem', hcheck', hadd⟩ :=
        ih hrest ⟨name, w, f, hset, hlater, hcheck⟩
      exact ⟨name', w', g, hset', List.mem_cons_of_mem _ hmem', hcheck', hadd⟩

theorem exists_load_of_fits (hfits : ∀ name f, ¬ Refused vars (consulted? vars files here) name f) :
    ∃ all, load vars files here = .ok all ∧
      ∀ name, Seen vars (consulted? vars files here) name (get? all name) := by
  rw [load_eq]
  cases hfile : consulted? vars files here with
  | none =>
    refine ⟨vars, rfl, fun name => ?_⟩
    cases hset : get? vars name with
    | some v => exact .environment hset
    | none => exact .unset hset (by simp)
  | some t =>
    rw [hfile] at hfits
    obtain ⟨all, hall, hget⟩ := @add_eq_ok vars _ (Dotenv.nodup_read vars t)
      fun name v hset hmem => by
        cases hcheck : checkVariable name v with
        | ok _ => rfl
        | error f =>
          have hbound := Dotenv.lookup_read.1 ((mem_iff_lookup (Dotenv.nodup_read vars t)).1 hmem)
          exact absurd ⟨hset, t, v, rfl, hbound, hcheck⟩ (hfits name f)
    refine ⟨all, hall, fun name => ?_⟩
    rw [hget]
    cases hset : get? vars name with
    | some v => exact .environment hset
    | none =>
      cases hbound : (Dotenv.read vars t).lookup name with
      | none =>
        refine .unset hset fun u v hu hlast => ?_
        cases hu
        rw [Dotenv.lookup_read.2 hlast] at hbound
        cases hbound
      | some value =>
        cases value with
        | some v => exact .file hset rfl (Dotenv.lookup_read.1 hbound)
        | none =>
          refine .unset hset fun u v hu hlast => ?_
          cases hu
          rw [Dotenv.lookup_read.2 hlast] at hbound
          cases hbound

theorem load_eq_error (hrefused : ∃ name f, Refused vars (consulted? vars files here) name f) :
    ∃ name f, Refused vars (consulted? vars files here) name f ∧
      load vars files here = .error f := by
  obtain ⟨name, f, hset, t, v, hfile, hbound, hcheck⟩ := hrefused
  have hmem : (name, some v) ∈ Dotenv.read vars t :=
    (mem_iff_lookup (Dotenv.nodup_read vars t)).2 (Dotenv.lookup_read.2 hbound)
  obtain ⟨name', w, g, hset', hmem', hcheck', hadd⟩ := add_eq_error (Dotenv.nodup_read vars t)
    ⟨name, v, f, hset, hmem, hcheck⟩
  have hbound' := Dotenv.lookup_read.1 ((mem_iff_lookup (Dotenv.nodup_read vars t)).1 hmem')
  exact ⟨name', g, ⟨hset', t, w, hfile, hbound', hcheck'⟩, by
    rw [load_eq, hfile]
    exact hadd⟩

end Environment

/-! ## The settings of the profiles -/

/-- **Precedence of settings.** Whatever the environment, the files and the working directory are,
one file at most counts: the nearest one of the name that the environment gives, unless the
environment switches files off. If the file would add what no environment can hold, no profile
loads, and all of them fail alike. Otherwise all profiles load. Every variable has the value that is
seen of it, and the settings that depend on one have a default each for a variable without a value.
The profiles for development and tests change no more than the settings that they name. -/
theorem Profile.settings_precedence (vars : Variables) (files : Files Text) (here : List Text)
    (directory : Text) :
    ∃ file : Option Text,
      (∀ t, file = some t ↔ Environment.isOff vars = false ∧
        Environment.IsNearest files here ((vars.lookup ("DOTENV_FILE" : Text)).getD ".env") t) ∧
      ((∃ name f, Environment.Refused vars file name f) →
        ∃ name f, Environment.Refused vars file name f ∧ (∃ message, f = .value (.raised message)) ∧
          ∀ p : Profile, p.load directory vars files here = .error f) ∧
      ((∀ name f, ¬ Environment.Refused vars file name f) →
        ∃ value : Text → Option Text, (∀ name, Environment.Seen vars file name (value name)) ∧
        ∃ level, level = (value "LOG_LEVEL").getD "INFO" ∧
        ∃ base : SiteSettings,
          base = {
            secretKey := (value "SECRET_KEY").getD "CHANGE_ME_DEV_ONLY"
            debug := Environment.flag (value "DJANGO_DEBUG") false
            allowedHosts := []
            prerender :=
              [("component_root", (value "PRERENDER_COMPONENT_ROOT").getD "./modules/"),
                ("renderer", (value "PRERENDER_RENDERER").getD
                  "apps.prerender.renderer.render_component_to_string"),
                ("component_attr", "Component")]
            logLevel := level
            levels := ⟨level, level, level⟩ } ∧
          Profile.base.load directory vars files here = .ok base ∧
          Profile.development.load directory vars files here = .ok { base with
            debug := true
            allowedHosts := ["127.0.0.1", "localhost", "testserver"]
            levels := { base.levels with prerender := "DEBUG" } } ∧
          Profile.test.load directory vars files here = .ok { base with
            debug := false
            prerender := [("component_root",
              directory ++ "/apps/prerender/tests/fixtures/components".toList)]
            levels := { base.levels with root := "WARNING", prerender := "WARNING" } }) := by
  refine ⟨Environment.consulted? vars files here, fun t => ?_, fun hrefused => ?_, fun hfits => ?_⟩
  · rw [← Environment.nearestFile?_eq_some_iff]
    unfold Environment.consulted?
    cases Environment.isOff vars with
    | false => exact (and_iff_right rfl).symm
    | true => simp
  · obtain ⟨name, f, h, hload⟩ := Environment.load_eq_error hrefused
    refine ⟨name, f, h, ?_, fun p => by rw [Profile.load, hload]; rfl⟩
    obtain ⟨-, _, v, -, -, hcheck⟩ := h
    exact Environment.raised_of_checkVariable hcheck
  · obtain ⟨all, hload, hseen⟩ := Environment.exists_load_of_fits hfits
    refine ⟨fun name => Environment.get? all name, hseen, _, rfl, _, rfl, ?_, ?_, ?_⟩ <;>
    · rw [Profile.load, hload]
      rfl

/-- An environment that switches files off sees nothing of the nearest one, and a null character in
a value keeps every profile from loading. -/
theorem Profile.files_without_effect :
    (Environment.IsNearest ⟨[([".env"], some "SECRET_KEY=x")]⟩ [] ".env" "SECRET_KEY=x" ∧
      Dotenv.LastBinding [("PYTHON_DOTENV_DISABLED", "1")] "SECRET_KEY=x" "SECRET_KEY" (some "x") ∧
      (Profile.base.load "/srv" [("PYTHON_DOTENV_DISABLED", "1")]
        ⟨[([".env"], some "SECRET_KEY=x")]⟩ []).map (·.secretKey) =
          .ok ("CHANGE_ME_DEV_ONLY" : Text)) ∧
    Profile.base.load "/srv" [] ⟨[([".env"], some ['A', '=', '\x00'])]⟩ [] =
      .error (.value (.raised "embedded null byte")) :=
  ⟨⟨Environment.nearestFile?_eq_some_iff.1 (by decide), Dotenv.lookup_read.1 (by decide),
    by decide⟩, by decide⟩

end Hydration
