import Hydration.Tag.Arguments
import Mathlib.Data.List.Induction
/-!
# Runs of the argument machine

Once the reference is read, the machine stands either between clauses (`Progress.between`) or in the
expression of one (`Progress.within`). What one token does to it is said once, by the `feed` lemmas
below; everything that is proved about whole tags goes through them.

An expression ends at the first token after which the joined text is no open literal, so a run of
tokens is an expression (`IsExpression`) when it is one token that opens no literal, or the shortest
run whose brackets are closed.

* `feedAll_expression`: the machine reads an expression and stands between clauses again.
* `feedAll_openRun`: in an unfinished literal it goes on reading.
* `openRun_or_expression`: tokens are an unfinished literal or start with an expression.
-/
namespace Hydration.Tag

/-- The keyword that a token is; a quoted one is none. -/
def Token.keyword? (t : Token) : Option Keyword :=
  if t.kind = .variable then Keyword.ofText? t.text else none

/-- The texts of tokens joined with single spaces. -/
def joined (tokens : List Token) : Text := [' '].intercalate (tokens.map (·.text))

/-- An inline literal whose brackets are not closed yet. -/
def isOpen (t : Text) : Bool := Literal.opens t && decide (0 < bracketDepth t)

theorem isOpen_iff (t : Text) : isOpen t = true ↔ Literal.opens t = true ∧ 0 < bracketDepth t := by
  simp [isOpen]

theorem Keyword.ofText?_text (k : Keyword) : Keyword.ofText? k.text = some k := by
  cases k <;> decide

theorem Keyword.text_of_ofText? {t : Text} {k : Keyword} (h : Keyword.ofText? t = some k) :
    t = k.text := by
  unfold Keyword.ofText? at h
  split at h
  · cases h; assumption
  · split at h
    · cases h; assumption
    · cases h

theorem Token.eq_of_keyword? {t : Token} {k : Keyword} (h : t.keyword? = some k) :
    t = ⟨.variable, k.text⟩ := by
  obtain ⟨kind, text⟩ := t
  unfold Token.keyword? at h
  split at h
  · rename_i hv
    simp only at hv h
    rw [hv, Keyword.text_of_ofText? h]
  · cases h

theorem Token.keyword?_text (k : Keyword) : (Token.mk .variable k.text).keyword? = some k := by
  simp [Token.keyword?, Keyword.ofText?_text]

theorem joined_concat (read : List Token) (t : Token) :
    [' '].intercalate (read.map (·.text) ++ [t.text]) = joined (read ++ [t]) := by
  simp [joined]

theorem opens_joined (t : Token) (rest : List Token) :
    Literal.opens (joined (t :: rest)) = Literal.opens t.text := by
  obtain ⟨kind, text⟩ := t
  cases rest with
  | nil => simp [joined]
  | cons u rest => cases text <;> simp [joined, List.intercalate_cons_cons, Literal.opens]

/-! ## Expressions -/

/-- Tokens of one expression: a single token that opens no literal, or else the shortest run whose
joined text has no bracket left open. -/
def IsExpression : List Token → Prop
  | [] => False
  | first :: rest =>
    if Literal.opens first.text then
      bracketDepth (joined (first :: rest)) ≤ 0 ∧
        ∀ read, read <+: first :: rest → read ≠ [] → read ≠ first :: rest →
          0 < bracketDepth (joined read)
    else rest = []

/-- Tokens after each of which the literal is still open. -/
def OpenRun (read : List Token) : Prop :=
  ∀ a b, read = a ++ b → a ≠ [] → isOpen (joined a) = true

theorem openRun_nil : OpenRun [] := by
  intro a b h ha
  exact absurd (List.append_eq_nil_iff.1 h.symm).1 ha

theorem openRun_concat {read : List Token} {t : Token} (h : OpenRun read)
    (ht : isOpen (joined (read ++ [t])) = true) : OpenRun (read ++ [t]) := by
  intro a b hab ha
  rcases List.eq_nil_or_concat b with rfl | ⟨b, u, rfl⟩
  · rw [List.append_nil] at hab
    rwa [← hab]
  · rw [List.concat_eq_append, ← List.append_assoc] at hab
    exact h a b (List.append_inj_left' hab rfl) ha

/-- The last token of an expression is the first one after which no literal is open. -/
theorem IsExpression.split {run : List Token} (h : IsExpression run) :
    ∃ read last, run = read ++ [last] ∧ OpenRun read ∧ isOpen (joined run) = false := by
  cases run with
  | nil => cases h
  | cons first rest =>
    have hopens := opens_joined first rest
    obtain ⟨read, last, hrun⟩ : ∃ read last, first :: rest = read ++ [last] :=
      ⟨_, _, (List.dropLast_concat_getLast (List.cons_ne_nil first rest)).symm⟩
    refine ⟨read, last, hrun, ?_, ?_⟩
    · intro a b hab ha
      subst hab
      obtain ⟨x, a, rfl⟩ := List.exists_cons_of_ne_nil ha
      simp only [List.cons_append, List.cons.injEq] at hrun
      obtain ⟨rfl, rfl⟩ := hrun
      by_cases ho : Literal.opens first.text = true
      · simp only [IsExpression, ho, if_true] at h
        refine (isOpen_iff _).2 ⟨by rw [opens_joined, ho], h.2 _ ⟨b ++ [last], by simp⟩ ha ?_⟩
        intro he
        simpa using congrArg List.length he
      · simp [IsExpression, ho] at h
    · simp only [IsExpression] at h
      split at h
      · simp only [isOpen, Bool.and_eq_false_iff, decide_eq_false_iff_not, Int.not_lt]
        exact Or.inr h.1
      · rename_i ho
        simp only [isOpen, hopens, Bool.and_eq_false_iff]
        exact Or.inl (by simpa using ho)

theorem isExpression_of_openRun {read : List Token} {last : Token} (hopen : OpenRun read)
    (hclosed : isOpen (joined (read ++ [last])) = false) : IsExpression (read ++ [last]) := by
  cases read with
  | nil =>
    simp only [List.nil_append] at hclosed ⊢
    simp only [IsExpression]
    split
    · rename_i ho
      refine ⟨by simpa [isOpen, opens_joined, ho] using hclosed, ?_⟩
      rintro a ha hne hall
      rcases List.prefix_cons_iff.1 ha with rfl | ⟨t, rfl, ht⟩
      · exact absurd rfl hne
      · rw [List.prefix_nil.1 ht] at hall
        exact absurd rfl hall
    · trivial
  | cons first read =>
    -- a literal that is open after the first token was opened by it
    have ho := ((isOpen_iff _).1 (hopen [first] read rfl (List.cons_ne_nil _ _))).1
    rw [opens_joined] at ho
    simp only [List.cons_append, IsExpression, ho, if_true]
    refine ⟨?_, ?_⟩
    · simpa [isOpen, opens_joined, ho] using hclosed
    · rintro a ⟨b, hab⟩ ha hne
      rcases List.eq_nil_or_concat b with rfl | ⟨b, u, rfl⟩
      · exact absurd (by simpa using hab) hne
      · rw [List.concat_eq_append, ← List.append_assoc, ← List.cons_append] at hab
        exact ((isOpen_iff _).1 (hopen a b (List.append_inj_left' hab rfl).symm ha)).2

theorem isExpression_iff (run : List Token) :
    IsExpression run ↔
      ∃ read last, run = read ++ [last] ∧ OpenRun read ∧ isOpen (joined run) = false := by
  constructor
  · exact IsExpression.split
  · rintro ⟨read, last, rfl, hopen, hclosed⟩
    exact isExpression_of_openRun hopen hclosed

theorem IsExpression.openRun {read rest : List Token} (h : IsExpression (read ++ rest))
    (hrest : rest ≠ []) : OpenRun read := by
  obtain ⟨init, last, hinit, hopen, -⟩ := (isExpression_iff _).1 h
  rcases List.eq_nil_or_concat rest with rfl | ⟨rest, u, rfl⟩
  · exact absurd rfl hrest
  · rw [List.concat_eq_append, ← List.append_assoc] at hinit
    intro a b hab ha
    refine hopen a (b ++ rest) ?_ ha
    rw [← List.append_inj_left' hinit rfl, hab, List.append_assoc]

theorem openRun_or_expression (read rest : List Token) (h : OpenRun read) :
    OpenRun (read ++ rest) ∨ ∃ run tail, read ++ rest = run ++ tail ∧ IsExpression run := by
  induction rest generalizing read with
  | nil => left; simpa using h
  | cons t rest ih =>
    cases ht : isOpen (joined (read ++ [t])) with
    | true => simpa using ih (read ++ [t]) (openRun_concat h ht)
    | false =>
      right
      exact ⟨read ++ [t], rest, by simp, (isExpression_iff _).2 ⟨read, t, rfl, h, ht⟩⟩

/-! ## Steps of the machine -/

/-- What the machine knows once it has a reference. -/
structure Progress where
  tag : Text
  reference : Text
  isLiteral : Bool
  clauses : List (Keyword × Text)

namespace Progress

/-- The machine between two clauses. -/
def between (p : Progress) : Machine :=
  ⟨p.tag, .clause, some p.reference, p.isLiteral, p.clauses, none, []⟩

/-- The machine in the expression of a clause, of which some tokens were read. -/
def within (p : Progress) (k : Keyword) (read : List Token) : Machine :=
  ⟨p.tag, k.phase, some p.reference, p.isLiteral, p.clauses, some k, read.map (·.text)⟩

/-- The progress when more clauses were read. -/
def store (p : Progress) (clauses : List (Keyword × Text)) : Progress :=
  { p with clauses := p.clauses ++ clauses }

theorem feed_other (p : Progress) {t : Token} (hs : t.kind ≠ .stop) (hk : t.keyword? = none) :
    p.between.feed t = .ok (.forward t, p.between) := by
  simp only [Machine.feed, if_neg hs, between, Machine.feedClause]
  unfold Token.keyword? at hk
  split
  · rename_i hv
    rw [if_pos hv] at hk
    rw [hk]
  · rfl

theorem feed_keyword (p : Progress) {k : Keyword} (hk : p.clauses.lookup k = none) :
    p.between.feed ⟨.variable, k.text⟩ = .ok (.consume (.keyword k), p.within k []) := by
  simp [Machine.feed, between, within, Machine.feedClause, Keyword.ofText?_text, Machine.clause?,
    hk]

theorem feed_repeated (p : Progress) {k : Keyword} (hk : (p.clauses.lookup k).isSome) :
    p.between.feed ⟨.variable, k.text⟩ = .error (.argument p.tag (.repeatedClause k.text)) := by
  simp [Machine.feed, between, Machine.feedClause, Keyword.ofText?_text, Machine.clause?, hk,
    Machine.fail]

theorem feed_within (p : Progress) (k : Keyword) (read : List Token) {t : Token}
    (hs : t.kind ≠ .stop) :
    (p.within k read).feed t =
      .ok (.consume (.expression k.phase),
        if isOpen (joined (read ++ [t])) then p.within k (read ++ [t])
        else (p.store [(k, joined (read ++ [t]))]).between) := by
  have hphase : (p.within k read).feed t = .ok ((p.within k read).feedExpression t) := by
    cases k <;> simp [Machine.feed, hs, within, Keyword.phase]
  rw [hphase]
  simp only [Machine.feedExpression, within, joined_concat, between, store]
  split
  · rename_i h
    rw [if_pos (by simpa [isOpen] using h)]
    simp
  · rename_i h
    rw [if_neg (by simpa [isOpen] using h)]

theorem finish_between (p : Progress) :
    p.between.finish = .ok ⟨p.reference, p.clauses.lookup .props, p.clauses.lookup .container,
      p.isLiteral⟩ := rfl

theorem finish_within (p : Progress) (k : Keyword) (read : List Token) :
    ∃ f, (p.within k read).finish = .error f := by
  cases read <;> exact ⟨_, rfl⟩

end Progress

/-! ## Runs of the machine -/

/-- The tokens before the end. -/
def beforeStop (tokens : List Token) : List Token := tokens.takeWhile (·.kind ≠ .stop)

theorem kind_of_mem_beforeStop {tokens : List Token} {t : Token} (h : t ∈ beforeStop tokens) :
    t.kind ≠ .stop := by
  simpa using List.all_eq_true.1 List.all_takeWhile t h

theorem feedAll_beforeStop (m : Machine) (tokens : List Token) :
    feedAll m tokens = feedAll m (beforeStop tokens) := by
  induction tokens generalizing m with
  | nil => rfl
  | cons t rest ih =>
    by_cases hs : t.kind = .stop
    · simp [beforeStop, feedAll, hs]
    · simp only [beforeStop] at ih
      simp only [beforeStop, feedAll, hs, if_false, List.takeWhile_cons, ne_eq, not_false_eq_true,
        decide_true, if_true, ih]

theorem feedAll_consume {m m' : Machine} {t : Token} {part : Part} (hs : t.kind ≠ .stop)
    (h : m.feed t = .ok (.consume part, m')) (rest : List Token) :
    feedAll m (t :: rest) = feedAll m' rest := by
  simp only [feedAll, hs, if_false, h]
  show (feedAll m' rest >>= fun r => pure (r.1, r.2)) = feedAll m' rest
  exact bind_pure _

theorem feedAll_forward {m m' : Machine} {t u : Token} (hs : t.kind ≠ .stop)
    (h : m.feed t = .ok (.forward u, m')) (rest : List Token) :
    feedAll m (t :: rest) = (feedAll m' rest).map fun r => (r.1, u :: r.2) := by
  simp only [feedAll, hs, if_false, h]
  show (feedAll m' rest >>= fun r => pure (r.1, u :: r.2)) = _
  cases feedAll m' rest <;> rfl

theorem feedAll_forward_ok {m m' m₂ : Machine} {t u : Token} {rest forwarded : List Token}
    (hs : t.kind ≠ .stop) (h : m.feed t = .ok (.forward u, m'))
    (hr : feedAll m (t :: rest) = .ok (m₂, forwarded)) :
    ∃ more, feedAll m' rest = .ok (m₂, more) ∧ forwarded = u :: more := by
  rw [feedAll_forward hs h] at hr
  cases hf : feedAll m' rest with
  | error f => rw [hf] at hr; cases hr
  | ok r =>
    rw [hf] at hr
    cases hr
    exact ⟨r.2, rfl, rfl⟩

theorem feedAll_error {m : Machine} {t : Token} {f : Failure} (hs : t.kind ≠ .stop)
    (h : m.feed t = .error f) (rest : List Token) : feedAll m (t :: rest) = .error f := by
  simp only [feedAll, hs, if_false, h]
  rfl

theorem feedAll_append {m m' : Machine} {a forwarded : List Token} (hs : ∀ t ∈ a, t.kind ≠ .stop)
    (h : feedAll m a = .ok (m', forwarded)) (b : List Token) :
    feedAll m (a ++ b) = (feedAll m' b).map fun r => (r.1, forwarded ++ r.2) := by
  induction a generalizing m forwarded with
  | nil =>
    cases h
    cases hb : feedAll m' b <;> simp [hb, Except.map]
  | cons t rest ih =>
    have ht := hs t List.mem_cons_self
    have hrest : ∀ t ∈ rest, t.kind ≠ .stop := fun u hu => hs u (List.mem_cons_of_mem _ hu)
    cases hf : m.feed t with
    | error f => rw [feedAll_error ht hf] at h; cases h
    | ok r =>
      obtain ⟨step, m₁⟩ := r
      cases step with
      | consume part =>
        rw [feedAll_consume ht hf] at h
        rw [List.cons_append, feedAll_consume ht hf, ih hrest h]
      | forward u =>
        obtain ⟨more, hr, rfl⟩ := feedAll_forward_ok ht hf h
        rw [List.cons_append, feedAll_forward ht hf, ih hrest hr]
        cases feedAll m' b <;> simp [Except.map]

/-- In an unfinished literal the machine keeps every token. -/
theorem feedAll_openRun (p : Progress) (k : Keyword) {read : List Token}
    (hs : ∀ t ∈ read, t.kind ≠ .stop) (h : OpenRun read) :
    feedAll (p.within k []) read = .ok (p.within k read, []) := by
  induction read using List.reverseRecOn with
  | nil => rfl
  | append_singleton read t ih =>
    have hread : OpenRun read := fun a b hab => h a (b ++ [t]) (by rw [hab, List.append_assoc])
    have hkind : ∀ u ∈ read, u.kind ≠ .stop := fun u hu => hs u (by simp [hu])
    rw [feedAll_append hkind (ih hkind hread),
      feedAll_consume (hs t (by simp)) (p.feed_within k read (hs t (by simp))),
      if_pos (h _ [] (by simp) (by simp))]
    rfl

/-- An expression is consumed, and stored as it was joined. -/
theorem feedAll_expression (p : Progress) (k : Keyword) {run : List Token}
    (hs : ∀ t ∈ run, t.kind ≠ .stop) (h : IsExpression run) :
    feedAll (p.within k []) run = .ok ((p.store [(k, joined run)]).between, []) := by
  obtain ⟨read, last, rfl, hopen, hclosed⟩ := (isExpression_iff run).1 h
  rw [feedAll_append (fun u hu => hs u (by simp [hu]))
      (feedAll_openRun p k (fun u hu => hs u (by simp [hu])) hopen),
    feedAll_consume (hs last (by simp)) (p.feed_within k read (hs last (by simp))), hclosed]
  rfl

end Hydration.Tag
