import Hydration.Tag.Requests
/-!
# Refused requests

A machine writes nothing before it knows that it will not refuse: every check stands before the
first field that is written, and the end of an expression, which is written piece by piece, is never
refused. So a request that fails leaves the machine as it was, and a request to finish always does.

* `Work.outcome_take`, `Work.outcome_conclude`: work on the machine gives what `Machine.feed` and
  `Machine.finish` give, and a failure keeps the machine.
* `machine_exchange`: a request that is idle leaves the machine as it was.
* `replies_without_refused`: idle requests may be left out of a run, and nobody notices.
-/
namespace Hydration.Tag.Machine
namespace Work

/-! ## Work and its outcome -/

theorem outcome_takeReference (token : Token) (m : Machine) :
    (takeReference token).outcome m =
      match m.feedReference token with
      | .ok (step, m') => (.ok step, m')
      | .error f => (.error f, m) := by
  unfold takeReference feedReference
  by_cases hs : token.kind = .string
  · rcases Text.Quoted.decode? token.text with _ | (_ | ⟨c, rest⟩) <;> simp [hs] <;> rfl
  · by_cases hr : ((Keyword.ofText? token.text).isSome || Literal.opens token.text) = true <;>
      simp [hs, hr] <;> rfl

theorem outcome_takeClause (token : Token) (m : Machine) :
    (takeClause token).outcome m =
      match m.feedClause token with
      | .ok (step, m') => (.ok step, m')
      | .error f => (.error f, m) := by
  unfold takeClause feedClause
  by_cases hv : token.kind = .variable
  · rcases Keyword.ofText? token.text with _ | k
    · simp [hv]
    · by_cases hc : (m.clause? k).isSome = true <;> simp [hv, hc, fail, Except.map]
  · simp [hv]

/-- A token of an expression is never refused, so it does no harm that the buffer is written
first. -/
theorem outcome_takeExpression (token : Token) (m : Machine) :
    (takeExpression token).outcome m =
      (.ok (m.feedExpression token).1, (m.feedExpression token).2) := by
  unfold takeExpression feedExpression
  simp only [outcome_bind, outcome_modify, outcome_get]
  by_cases ho : (Literal.opens ([' '].intercalate (m.buffer ++ [token.text])) &&
      decide (0 < bracketDepth ([' '].intercalate (m.buffer ++ [token.text])))) = true
  · rw [if_pos ho, if_pos ho, outcome_pure]
  · rw [if_neg ho, if_neg ho]
    cases m.pending <;> simp [Except.map]

/-- A machine that reads a token in place gives the step of `Machine.feed`, or its failure, and then
it is as before. -/
theorem outcome_take (token : Token) (m : Machine) :
    (take token).outcome m =
      match m.feed token with
      | .ok (step, m') => (.ok step, m')
      | .error f => (.error f, m) := by
  unfold take feed
  by_cases hs : token.kind = .stop
  · simp [hs]
  · simp only [hs, if_false, outcome_bind, outcome_get]
    cases m.phase with
    | reference => exact outcome_takeReference token m
    | clause => exact outcome_takeClause token m
    | props | container => exact outcome_takeExpression token m

theorem outcome_conclude (m : Machine) : conclude.outcome m = (m.finish, m) := by
  unfold conclude finish
  rcases hr : m.reference with _ | reference
  · simp [hr, fail]
  · rcases hp : m.pending with _ | k
    · simp [hr, hp]
    · rcases hb : m.buffer with _ | ⟨t, rest⟩ <;> simp [hr, hp, hb, fail]

end Work

/-! ## Requests that change nothing -/

/-- A request that was refused, or that was to finish. -/
def Exchange.Idle (e : Exchange) : Prop := e.request = .finish ∨ ∃ f, e.reply = .error f

instance (e : Exchange) : Decidable e.Idle :=
  match e with
  | ⟨.finish, _, _⟩ => .isTrue (.inl rfl)
  | ⟨.feed _, .error f, _⟩ => .isTrue (.inr ⟨f, rfl⟩)
  | ⟨.feed _, .ok _, _⟩ => .isFalse (by rintro (h | ⟨_, h⟩) <;> cases h)

@[simp] theorem request_exchange (m : Machine) (r : Request) : (m.exchange r).request = r := rfl

/-- What one request does to the machine: nothing, if it is idle. -/
theorem machine_exchange {m : Machine} {r : Request} (h : (m.exchange r).Idle) :
    (m.exchange r).machine = m := by
  cases r with
  | finish => simp [exchange, Work.answer, Work.outcome_conclude]
  | feed token =>
    rcases h with h | ⟨f, h⟩
    · cases h
    · simp only [exchange, Work.answer, Work.outcome_map, Work.outcome_take] at h ⊢
      rcases hm : m.feed token with f' | ⟨step, m'⟩
      · rfl
      · rw [hm] at h
        cases h

/-! ## Runs -/

/-- The exchanges that are marked to stay. -/
def kept (marked : List (Exchange × Bool)) : List Exchange :=
  (marked.filter Prod.snd).map Prod.fst

@[simp] theorem kept_cons (e : Exchange) (mark : Bool) (marked : List (Exchange × Bool)) :
    kept ((e, mark) :: marked) = if mark then e :: kept marked else kept marked := by
  cases mark <;> rfl

/-- Requests that were refused, and requests to finish, may be left out of a run, any of them: the
machine answers the others as before and is the same after each of them, and at the end. -/
theorem replies_without_refused (m : Machine) (requests : List Request)
    (marked : List (Exchange × Bool)) (hrun : marked.map Prod.fst = m.replies requests)
    (hidle : ∀ e ∈ marked, e.2 = false → e.1.Idle) :
    m.replies ((kept marked).map Exchange.request) = kept marked ∧
      m.after ((kept marked).map Exchange.request) = m.after requests := by
  induction requests generalizing m marked with
  | nil =>
    obtain rfl : marked = [] := List.map_eq_nil_iff.1 hrun
    exact ⟨rfl, rfl⟩
  | cons first rest ih =>
    obtain ⟨⟨e, mark⟩, marked, rfl, he, hrest⟩ := List.map_eq_cons_iff.1 hrun
    obtain rfl : e = m.exchange first := he
    have ih := ih _ marked hrest fun e he => hidle e (List.mem_cons_of_mem _ he)
    cases mark with
    | true => simp [replies, after, ih]
    | false =>
      -- the first request is left out, so the rest must run from the machine before it
      have hm := machine_exchange (hidle _ (List.mem_cons_self ..) rfl)
      simpa [after, hm] using ih

/-- A run with refusals in every phase: without a reference, with an empty, an unquoted and a
bracketed one, at the end of the tokens, in the middle of a literal and at a repeated keyword. One
refused request stays, and so does the last request to finish. -/
theorem replies_without_refused_mixed :
    let token := fun (kind : TokenKind) (t : Text) => Request.feed ⟨kind, t⟩
    let requests := [.finish, token .string "\"\"", token .string "x", token .variable "[",
      token .string "\"A\"", token .stop "", token .variable "in", .finish, token .variable "\x7bk:",
      .finish, token .variable "1\x7d", token .variable "in", token .variable "with",
      token .variable "p", token .variable "with", token .string "x", .finish]
    let marks := [false, false, true, false, true, false, true, false, true, false, true, false,
      true, true, false, true, true]
    let marked := ((start "react").replies requests).zip marks
    (∀ e ∈ marked, e.2 = false → e.1.Idle) ∧
      (start "react").replies ((kept marked).map Exchange.request) = kept marked ∧
      (start "react").after ((kept marked).map Exchange.request) =
        (start "react").after requests := by
  intro token requests marks marked
  have hrun : marked.map Prod.fst = (start "react").replies requests :=
    List.map_fst_zip (by rw [replies_length]; decide)
  have hidle : ∀ e ∈ marked, e.2 = false → e.1.Idle := by decide +kernel
  exact ⟨hidle, replies_without_refused _ requests marked hrun hidle⟩

end Hydration.Tag.Machine
