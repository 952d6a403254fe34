import Hydration.Proofs.Tag.Refusals
import Hydration.Proofs.Tag.Segments
import Mathlib.Data.List.Nodup
/-!
# The fields of a machine agree

A machine has six fields that change, and whatever it was asked, refused requests included, it
stands in one of three ways (`Stands`): before the reference, between two clauses, or in a clause
with an unfinished literal or nothing read. So each field tells what the others can be
(`Consistent`), and the phase alone tells whether the machine can finish; if it cannot, there is
exactly one thing that it lacks (`Lacks`).

* `Stands.feed`: what one token does to where the machine stands.
* `stands_after`: where requests can lead.
* `finish_of_clause`, `exists_lacks`, `finish_of_lacks`: when a machine can finish, and what it lacks
  if it cannot.
* `consistent_after`: all this, in terms of the fields.
-/
namespace Hydration.Tag

/-- Each clause is stored once. -/
def Progress.Distinct (p : Progress) : Prop := (p.clauses.map (·.1)).Nodup

theorem lookup_eq_none_iff {clauses : List (Keyword × Text)} {k : Keyword} :
    clauses.lookup k = none ↔ k ∉ clauses.map (·.1) := by
  simp only [List.lookup_eq_none_iff, List.mem_map, not_exists, not_and, bne_iff_ne]
  exact ⟨fun h c hc hk => h c hc hk.symm, fun h c hc hk => h c hc hk.symm⟩

/-- A clause that was not stored yet may be stored. -/
theorem Progress.Distinct.store {p : Progress} {k : Keyword} (h : p.Distinct)
    (hk : p.clauses.lookup k = none) (t : Text) : (p.store [(k, t)]).Distinct := by
  unfold Progress.Distinct Progress.store at *
  rw [List.map_append, List.nodup_append']
  exact ⟨h, List.nodup_singleton k, List.disjoint_singleton.2 (lookup_eq_none_iff.1 hk)⟩

namespace Machine

/-! ## Where a machine stands -/

/-- Where a machine for a tag can stand. -/
inductive Stands (tag : Text) : Machine → Prop
  | start : Stands tag (start tag)
  | between {p : Progress} (htag : p.tag = tag) (hdistinct : p.Distinct) : Stands tag p.between
  | within {p : Progress} {k : Keyword} {read : List Token} (htag : p.tag = tag)
    (hdistinct : p.Distinct) (hk : p.clauses.lookup k = none) (hopen : OpenRun read) :
    Stands tag (p.within k read)

variable {tag : Text} {m m' : Machine}

/-- One token leads from one way to stand to another. -/
theorem Stands.feed (h : Stands tag m) {token : Token} {step : Step}
    (hfeed : m.feed token = .ok (step, m')) : Stands tag m' := by
  have hs : token.kind ≠ .stop := by
    intro hstop
    simp [Machine.feed, hstop] at hfeed
  cases h with
  | start =>
    rw [feed_reference tag (isReference_of_feed hs hfeed)] at hfeed
    cases hfeed
    exact .between rfl List.nodup_nil
  | @between p htag hdistinct =>
    cases hkeyword : token.keyword? with
    | none =>
      rw [p.feed_other hs hkeyword] at hfeed
      cases hfeed
      exact .between htag hdistinct
    | some k =>
      rw [Token.eq_of_keyword? hkeyword] at hfeed
      cases hk : p.clauses.lookup k with
      | none =>
        rw [p.feed_keyword hk] at hfeed
        cases hfeed
        exact .within htag hdistinct hk openRun_nil
      | some t =>
        rw [p.feed_repeated (by rw [hk]; rfl)] at hfeed
        cases hfeed
  | @within p k read htag hdistinct hk hopen =>
    rw [p.feed_within k read hs] at hfeed
    cases hfeed
    split
    · next hmore => exact .within htag hdistinct hk (openRun_concat hopen hmore)
    · exact .between htag (hdistinct.store hk _)

/-- A request that is refused leaves the machine, and any other one feeds it. -/
theorem Stands.exchange (h : Stands tag m) (r : Request) :
    Stands tag (m.exchange r).machine := by
  cases r with
  | finish => rwa [machine_exchange (.inl rfl)]
  | feed token =>
    cases hfeed : m.feed token with
    | error f =>
      have hidle : (m.exchange (.feed token)).Idle := .inr ⟨f, by
        simp [Machine.exchange, Work.answer, Work.outcome_take, hfeed, Except.map]⟩
      rwa [machine_exchange hidle]
    | ok next =>
      obtain ⟨step, m'⟩ := next
      have hnext : (m.exchange (.feed token)).machine = m' := by
        simp [Machine.exchange, Work.answer, Work.outcome_take, hfeed]
      rw [hnext]
      exact h.feed hfeed

/-- Where a machine stands after any requests. -/
theorem stands_after (h : Stands tag m) (requests : List Request) :
    Stands tag (m.after requests) := by
  induction requests generalizing m with
  | nil => exact h
  | cons first rest ih => exact ih (h.exchange first)

/-! ## What the fields tell of each other -/

/-- The fields of a machine agree. -/
structure Consistent (m : Machine) : Prop where
  /-- before the reference there is none, and after it there is one -/
  reference : m.phase = .reference ↔ m.reference = none
  /-- in a clause its keyword is pending, and no keyword is pending elsewhere -/
  pending : ∀ k : Keyword, m.phase = k.phase ↔ m.pending = some k
  /-- a clause is not stored before its expression was read -/
  unstored : ∀ k, m.pending = some k → k ∉ m.clauses.map (·.1)
  /-- what was read of an expression is an inline literal with open brackets -/
  buffer : m.buffer ≠ [] → (∃ k, m.pending = some k) ∧
    Literal.opens ([' '].intercalate m.buffer) = true ∧
    0 < bracketDepth ([' '].intercalate m.buffer)
  /-- a clause is stored once, under one of the two keywords -/
  clauses : (m.clauses.map (·.1)).Nodup ∧
    ∀ c ∈ m.clauses, c.1.text = "with".toList ∨ c.1.text = "in".toList

theorem Stands.consistent (h : Stands tag m) : m.Consistent := by
  have hkeywords : ∀ clauses : List (Keyword × Text),
      ∀ c ∈ clauses, c.1.text = "with".toList ∨ c.1.text = "in".toList := by
    rintro clauses ⟨_ | _, t⟩ -
    · exact .inl rfl
    · exact .inr rfl
  cases h with
  | start =>
    exact {
      reference := by simp [Machine.start]
      pending := by rintro (_ | _) <;> simp [Machine.start, Keyword.phase]
      unstored := by simp [Machine.start]
      buffer := by simp [Machine.start]
      clauses := ⟨List.nodup_nil, hkeywords _⟩ }
  | @between p htag hdistinct =>
    exact {
      reference := by simp [Progress.between]
      pending := by rintro (_ | _) <;> simp [Progress.between, Keyword.phase]
      unstored := by simp [Progress.between]
      buffer := by simp [Progress.between]
      clauses := ⟨hdistinct, hkeywords _⟩ }
  | @within p k read htag hdistinct hk hopen =>
    refine {
      reference := by cases k <;> simp [Progress.within, Keyword.phase]
      pending := by cases k <;> rintro (_ | _) <;> simp [Progress.within, Keyword.phase]
      unstored := ?_
      buffer := fun hread => ⟨⟨k, rfl⟩, ?_⟩
      clauses := ⟨hdistinct, hkeywords _⟩ }
    · rintro _ ⟨⟩
      exact lookup_eq_none_iff.1 hk
    · have hread : read ≠ [] := by simpa [Progress.within] using hread
      exact (isOpen_iff _).1 (hopen read [] (by simp) hread)

/-! ## What a machine lacks -/

/-- What keeps a machine from finishing, and how a message says it. -/
inductive Lacks (m : Machine) : ArgumentFault → Text → Prop
  | reference (hphase : m.phase = .reference) :
    Lacks m .missingReference "requires a component reference."
  | expression {k : Keyword} (hpending : m.pending = some k) (hbuffer : m.buffer = []) :
    Lacks m (.missingExpression k.text) ("expected an expression after '" ++ k.text ++ "'.")
  | closing {k : Keyword} (hpending : m.pending = some k) (hbuffer : m.buffer ≠ []) :
    Lacks m (.unterminatedLiteral k.text ([' '].intercalate m.buffer))
      ("has an unterminated literal after '" ++ k.text ++ "': " ++ [' '].intercalate m.buffer)

theorem Lacks.message_eq {fault : ArgumentFault} {said : Text} (h : m.Lacks fault said) :
    fault.message = said := by
  cases h with
  | reference => rfl
  | @expression k => cases k <;> decide
  | @closing k =>
    have hclosed : "has an unterminated literal after ".toList ++ ('\'' :: k.text ++ ['\'']) ++
        ": ".toList = "has an unterminated literal after '".toList ++ k.text ++ "': ".toList := by
      cases k <;> decide
    exact congrArg (· ++ [' '].intercalate m.buffer) hclosed

/-- A message names the tag and says what it lacks. -/
theorem Lacks.message {fault : ArgumentFault} {said : Text} (h : m.Lacks fault said) (tag : Text) :
    (Failure.argument tag fault).message = "'" ++ tag ++ "' tag " ++ said := by
  calc (Failure.argument tag fault).message
      = '\'' :: tag ++ ['\''] ++ " tag ".toList ++ fault.message := rfl
    _ = "'".toList ++ tag ++ (['\''] ++ " tag ".toList) ++ said := by
      rw [h.message_eq, List.append_assoc ('\'' :: tag)]
      rfl
    _ = "'" ++ tag ++ "' tag " ++ said := rfl

namespace Consistent

/-- Between two clauses a reference is there and no keyword is pending. -/
theorem finish_of_clause (h : m.Consistent) (hphase : m.phase = .clause) :
    ∃ arguments, m.finish = .ok arguments := by
  have hreference : m.reference ≠ none := by
    intro hnone
    rw [h.reference.2 hnone] at hphase
    cases hphase
  have hpending : m.pending = none := by
    cases hk : m.pending with
    | none => rfl
    | some k =>
      rw [(h.pending k).2 hk] at hphase
      cases k <;> cases hphase
  obtain ⟨reference, hr⟩ := Option.ne_none_iff_exists'.1 hreference
  exact finish_clause hr hpending

/-- Elsewhere something is lacking. -/
theorem exists_lacks (h : m.Consistent) (hphase : m.phase ≠ .clause) :
    ∃ fault said, m.Lacks fault said := by
  have hclause : ∀ k : Keyword, m.phase = k.phase → ∃ fault said, m.Lacks fault said := by
    intro k hk
    by_cases hbuffer : m.buffer = []
    · exact ⟨_, _, .expression ((h.pending k).1 hk) hbuffer⟩
    · exact ⟨_, _, .closing ((h.pending k).1 hk) hbuffer⟩
  cases hm : m.phase with
  | reference => exact ⟨_, _, .reference hm⟩
  | clause => exact absurd hm hphase
  | props => exact hclause .props hm
  | container => exact hclause .container hm

/-- What is lacking is told. -/
theorem finish_of_lacks (h : m.Consistent) {fault : ArgumentFault} {said : Text}
    (hlacks : m.Lacks fault said) : m.finish = .error (.argument m.tag fault) := by
  have hreference : ∀ k, m.pending = some k → ∃ reference, m.reference = some reference := by
    intro k hk
    refine Option.ne_none_iff_exists'.1 fun hnone => ?_
    have hphase := (h.pending k).2 hk
    rw [h.reference.2 hnone] at hphase
    cases k <;> cases hphase
  cases hlacks with
  | reference hphase => simp [Machine.finish, h.reference.1 hphase, fail]
  | expression hk hbuffer =>
    obtain ⟨reference, hr⟩ := hreference _ hk
    simp [Machine.finish, hr, hk, hbuffer, fail]
  | closing hk hbuffer =>
    obtain ⟨reference, hr⟩ := hreference _ hk
    obtain ⟨t, rest, hread⟩ := List.exists_cons_of_ne_nil hbuffer
    simp [Machine.finish, hr, hk, hread, fail]

end Consistent

theorem Stands.tag_eq (h : Stands tag m) : m.tag = tag := by
  cases h with
  | start => rfl
  | between htag | within htag => exact htag

theorem reply_finish (m : Machine) : (m.exchange .finish).reply = m.finish.map .arguments := by
  simp [Machine.exchange, Work.answer, Work.outcome_conclude]

/-- **The fields of a machine agree after any requests.** Whatever a machine was asked since it was
made, in any order and with any number of requests that were refused, its phase tells whether it has
a reference and which keyword is pending; a pending keyword has no clause yet; texts are kept only
for a pending keyword, and joined they are an inline literal with brackets left open; and what is
stored are clauses of the two keywords, one of each at most. The machine can finish exactly if it
stands between clauses. Otherwise there is one thing that it lacks, the reference, the expression
after a keyword or the end of a literal, and its refusal tells which. -/
theorem consistent_after (tag : Text) (requests : List Request) :
    let m := (start tag).after requests
    m.Consistent ∧
      ((∃ arguments, (m.exchange .finish).reply = .ok (.arguments arguments)) ↔
        m.phase = .clause) ∧
      ∀ failure, (m.exchange .finish).reply = .error failure ↔
        ∃ fault said, m.Lacks fault said ∧ failure = .argument tag fault ∧
          failure.message = "'" ++ tag ++ "' tag " ++ said := by
  intro m
  have hstands : Stands tag m := stands_after .start requests
  have hm := hstands.consistent
  have hlacks : ∀ {fault said}, m.Lacks fault said → m.finish = .error (.argument tag fault) :=
    fun h => by rw [hm.finish_of_lacks h, hstands.tag_eq]
  simp only [reply_finish]
  by_cases hphase : m.phase = .clause
  · obtain ⟨arguments, hfinish⟩ := hm.finish_of_clause hphase
    refine ⟨hm, ⟨fun _ => hphase, fun _ => ⟨arguments, by rw [hfinish]; rfl⟩⟩, fun failure => ?_⟩
    constructor
    · intro h
      rw [hfinish] at h
      cases h
    · rintro ⟨fault, said, h, -⟩
      rw [hlacks h] at hfinish
      cases hfinish
  · obtain ⟨fault, said, hfault⟩ := hm.exists_lacks hphase
    refine ⟨hm, ⟨?_, fun h => absurd h hphase⟩, fun failure => ⟨fun h => ?_, ?_⟩⟩
    · rintro ⟨arguments, h⟩
      rw [hlacks hfault] at h
      cases h
    · rw [hlacks hfault] at h
      cases h
      exact ⟨fault, said, hfault, rfl, hfault.message tag⟩
    · rintro ⟨fault, said, h, rfl, -⟩
      rw [hlacks h]
      rfl

end Machine
end Hydration.Tag
