import Hydration.Proofs.Tag.Machine
/-!
# The language of tag arguments

The tokens of a tag are a reference and segments: tokens that are handed back, and clauses, each a
keyword with the tokens of its expression. `Layout.Reads` says which tokens are laid out how,
without the machine; `Layout.parsed` is what a layout stands for.

* `Layout.eq_of_reads`: tokens have one layout at most.
* `feedAll_segments`: the machine reads segments one after the other.
* `segments_of_feedAll`: whatever it reads and can finish is made of segments.
* `parseTokens_iff_layout`: a tag is read exactly if its tokens before the end have a layout, and
  as that layout says.
-/
namespace Hydration.Tag

/-- A part of a tag after its reference: a token that is handed back, or a clause with the tokens of
its expression. -/
inductive Segment
  | handedBack (token : Token)
  | clause (k : Keyword) (run : List Token)

namespace Segment

def tokens : Segment → List Token
  | .handedBack t => [t]
  | .clause k run => ⟨.variable, k.text⟩ :: run

def keyword? : Segment → Option Keyword
  | .handedBack _ => none
  | .clause k _ => some k

/-- The clause of a segment, its expression joined with single spaces. -/
def clause? : Segment → Option (Keyword × Text)
  | .handedBack _ => none
  | .clause k run => some (k, joined run)

def handedBack? : Segment → Option Token
  | .handedBack t => some t
  | .clause _ _ => none

/-- A token that is handed back is no keyword; a clause has one expression. -/
def Valid : Segment → Prop
  | .handedBack t => t.keyword? = none
  | .clause _ run => IsExpression run

end Segment

/-- The tokens that may stand first: a quoted string whose value is not empty, or an expression that
is neither a keyword nor an inline literal. -/
inductive IsReference : Token → Prop
  | quoted {t v : Text} (h : Text.Quoted.decode? t = some v) (hv : v ≠ []) :
    IsReference ⟨.string, t⟩
  | expression {t : Text} (hk : Keyword.ofText? t = none) (ho : Literal.opens t = false) :
    IsReference ⟨.variable, t⟩

/-- The reference that a token is: the value of a string, or the expression itself. -/
def Token.referenceText (t : Token) : Text :=
  if t.kind = .string then (Text.Quoted.decode? t.text).getD [] else t.text

/-- A reference and the segments after it. -/
structure Layout where
  reference : Token
  segments : List Segment

namespace Layout

def tokens (l : Layout) : List Token := l.reference :: l.segments.flatMap Segment.tokens

def clauses (l : Layout) : List (Keyword × Text) := l.segments.filterMap Segment.clause?

/-- The tokens are laid out in this way, each keyword in one clause at most. -/
structure Reads (l : Layout) (tokens : List Token) : Prop where
  tokens_eq : l.tokens = tokens
  reference : IsReference l.reference
  segments : ∀ s ∈ l.segments, s.Valid
  keywords : (l.segments.filterMap Segment.keyword?).Nodup

/-- The tag that a layout stands for. -/
def parsed (l : Layout) (name : Text) : ParsedTag :=
  ⟨name, ⟨l.reference.referenceText, l.clauses.lookup .props, l.clauses.lookup .container,
    decide (l.reference.kind = .string)⟩, l.segments.filterMap Segment.handedBack?⟩

end Layout

/-! ## One layout at most -/

theorem IsExpression.eq_of_prefix {a b : List Token} (ha : IsExpression a) (hb : IsExpression b)
    (h : a <+: b) : a = b := by
  obtain ⟨read, last, rfl, hopen, -⟩ := (isExpression_iff b).1 hb
  obtain ⟨_, _, rfl, -, hclosed⟩ := (isExpression_iff a).1 ha
  rcases List.prefix_concat_iff.1 h with he | ⟨tail, ht⟩
  · exact he
  · rw [hopen _ tail ht.symm (by simp)] at hclosed
    cases hclosed

theorem IsExpression.eq_of_append {a b u v : List Token} (ha : IsExpression a)
    (hb : IsExpression b) (h : a ++ u = b ++ v) : a = b := by
  have hpa : a <+: b ++ v := ⟨u, h⟩
  rcases List.prefix_or_prefix_of_prefix hpa (List.prefix_append b v) with hab | hba
  · exact ha.eq_of_prefix hb hab
  · exact (hb.eq_of_prefix ha hba).symm

theorem Segment.eq_of_append {s t : Segment} {u v : List Token} (hs : s.Valid) (ht : t.Valid)
    (h : s.tokens ++ u = t.tokens ++ v) : s = t := by
  cases s with
  | handedBack a =>
    cases t with
    | handedBack b =>
      simp only [tokens, List.cons_append, List.nil_append, List.cons.injEq] at h
      rw [h.1]
    | clause k run =>
      simp only [tokens, List.cons_append, List.nil_append, List.cons.injEq] at h
      rw [Valid, h.1, Token.keyword?_text] at hs
      cases hs
  | clause k run =>
    cases t with
    | handedBack b =>
      simp only [tokens, List.cons_append, List.nil_append, List.cons.injEq] at h
      rw [Valid, ← h.1, Token.keyword?_text] at ht
      cases ht
    | clause l run' =>
      simp only [tokens, List.cons_append, List.cons.injEq, Token.mk.injEq, true_and] at h
      have hkl : some k = some l := by
        rw [← Keyword.ofText?_text k, h.1, Keyword.ofText?_text]
      cases hkl
      rw [IsExpression.eq_of_append hs ht h.2]

theorem Segment.tokens_ne_nil (s : Segment) : s.tokens ≠ [] := by
  cases s <;> simp [tokens]

theorem segments_eq {a b : List Segment} (ha : ∀ s ∈ a, s.Valid) (hb : ∀ s ∈ b, s.Valid)
    (h : a.flatMap Segment.tokens = b.flatMap Segment.tokens) : a = b := by
  induction a generalizing b with
  | nil =>
    cases b with
    | nil => rfl
    | cons t b => exact absurd h.symm (by simp [Segment.tokens_ne_nil])
  | cons s a ih =>
    cases b with
    | nil => exact absurd h (by simp [Segment.tokens_ne_nil])
    | cons t b =>
      simp only [List.flatMap_cons] at h
      obtain rfl := Segment.eq_of_append (ha s List.mem_cons_self) (hb t List.mem_cons_self) h
      rw [ih (fun u hu => ha u (List.mem_cons_of_mem _ hu))
        (fun u hu => hb u (List.mem_cons_of_mem _ hu)) (List.append_cancel_left h)]

theorem Layout.eq_of_reads {a b : Layout} {tokens : List Token} (ha : a.Reads tokens)
    (hb : b.Reads tokens) : a = b := by
  have h := ha.tokens_eq.trans hb.tokens_eq.symm
  simp only [Layout.tokens, List.cons.injEq] at h
  obtain ⟨ra, sa⟩ := a
  obtain ⟨rb, sb⟩ := b
  simp only at h
  obtain rfl := segments_eq ha.segments hb.segments h.2
  rw [h.1]

/-! ## Segments and the machine -/

theorem lookup_store {p : Progress} {k l : Keyword} {t : Text} (h : p.clauses.lookup l = none)
    (hne : l ≠ k) : (p.store [(k, t)]).clauses.lookup l = none := by
  simp [Progress.store, List.lookup_append, h, List.lookup_cons, beq_eq_false_iff_ne.2 hne]

theorem store_store (p : Progress) (a b : List (Keyword × Text)) :
    (p.store a).store b = p.store (a ++ b) := by
  simp [Progress.store]

theorem feedAll_segments (p : Progress) {segments : List Segment}
    (hs : ∀ t ∈ segments.flatMap Segment.tokens, t.kind ≠ .stop)
    (hv : ∀ s ∈ segments, s.Valid) (hk : (segments.filterMap Segment.keyword?).Nodup)
    (hp : ∀ k ∈ segments.filterMap Segment.keyword?, p.clauses.lookup k = none) :
    feedAll p.between (segments.flatMap Segment.tokens) =
      .ok ((p.store (segments.filterMap Segment.clause?)).between,
        segments.filterMap Segment.handedBack?) := by
  induction segments generalizing p with
  | nil => simp [feedAll, Progress.store]
  | cons s segments ih =>
    have hs' : ∀ t ∈ segments.flatMap Segment.tokens, t.kind ≠ .stop := by
      intro t ht
      exact hs t (by rw [List.flatMap_cons]; exact List.mem_append_right _ ht)
    have hv' : ∀ s ∈ segments, s.Valid := fun s h => hv s (List.mem_cons_of_mem _ h)
    have hvs := hv s List.mem_cons_self
    cases s with
    | handedBack t =>
      simp only [List.filterMap_cons, Segment.keyword?] at hk hp
      simp only [List.flatMap_cons, Segment.tokens, List.cons_append, List.nil_append]
      have ht : t.kind ≠ .stop := hs t (by simp [Segment.tokens])
      rw [feedAll_forward ht (p.feed_other ht hvs), ih p hs' hv' hk hp]
      rfl
    | clause k run =>
      simp only [List.filterMap_cons, Segment.keyword?, List.nodup_cons, List.mem_cons] at hk hp
      simp only [List.flatMap_cons, Segment.tokens, List.cons_append]
      have hrun : ∀ t ∈ run, t.kind ≠ .stop := fun t ht => hs t (by simp [Segment.tokens, ht])
      rw [feedAll_consume (by simp) (p.feed_keyword (hp k (Or.inl rfl))),
        feedAll_append hrun (feedAll_expression p k hrun hvs), ih _ hs' hv' hk.2]
      · simp only [store_store, Except.map, List.nil_append]
        rfl
      · intro l hl
        refine lookup_store (hp l (Or.inr hl)) ?_
        rintro rfl
        exact hk.1 hl

/-- If the machine can finish after a keyword, it has read an expression and gone on behind it. -/
theorem clause_of_feedAll (p : Progress) (k : Keyword) {rest forwarded : List Token} {m : Machine}
    {arguments : TagArguments} (hs : ∀ t ∈ rest, t.kind ≠ .stop)
    (h : feedAll (p.within k []) rest = .ok (m, forwarded)) (hm : m.finish = .ok arguments) :
    ∃ run tail more, rest = run ++ tail ∧ IsExpression run ∧
      feedAll (p.store [(k, joined run)]).between tail = .ok (m, more) := by
  rcases openRun_or_expression [] rest openRun_nil with hopen | ⟨run, tail, hrun, hexp⟩
  · rw [List.nil_append] at hopen
    rw [feedAll_openRun p k hs hopen] at h
    cases h
    obtain ⟨f, hf⟩ := p.finish_within k rest
    rw [hf] at hm
    cases hm
  · rw [List.nil_append] at hrun
    subst hrun
    have hr : ∀ t ∈ run, t.kind ≠ .stop := fun u hu => hs u (by simp [hu])
    rw [feedAll_append hr (feedAll_expression p k hr hexp)] at h
    cases htail : feedAll (p.store [(k, joined run)]).between tail with
    | error f => rw [htail] at h; cases h
    | ok r =>
      rw [htail] at h
      cases h
      exact ⟨run, tail, r.2, rfl, hexp, htail⟩

/-- The segments of tokens that the machine reads from between two clauses and can finish, by
induction on the tokens: a run that it does not close leaves it unable to finish. -/
theorem segments_of_feedAll (n : Nat) (p : Progress) {tokens forwarded : List Token} {m : Machine}
    {arguments : TagArguments} (hn : tokens.length ≤ n) (hs : ∀ t ∈ tokens, t.kind ≠ .stop)
    (h : feedAll p.between tokens = .ok (m, forwarded)) (hm : m.finish = .ok arguments) :
    ∃ segments : List Segment, segments.flatMap Segment.tokens = tokens ∧
      (∀ s ∈ segments, s.Valid) ∧ (segments.filterMap Segment.keyword?).Nodup ∧
      ∀ k ∈ segments.filterMap Segment.keyword?, p.clauses.lookup k = none := by
  induction n generalizing p tokens forwarded with
  | zero =>
    obtain rfl := List.length_eq_zero_iff.1 (Nat.le_zero.1 hn)
    exact ⟨[], by simp⟩
  | succ n ih =>
    cases tokens with
    | nil => exact ⟨[], by simp⟩
    | cons t rest =>
      have ht := hs t List.mem_cons_self
      have hrest : ∀ t ∈ rest, t.kind ≠ .stop := fun u hu => hs u (List.mem_cons_of_mem _ hu)
      simp only [List.length_cons] at hn
      cases hk : t.keyword? with
      | none =>
        obtain ⟨more, hr, -⟩ := feedAll_forward_ok ht (p.feed_other ht hk) h
        obtain ⟨segments, rfl, hv, hnd, hp⟩ := ih p (Nat.le_of_succ_le_succ hn) hrest hr
        refine ⟨.handedBack t :: segments, rfl, ?_, hnd, hp⟩
        exact List.forall_mem_cons.2 ⟨hk, hv⟩
      | some k =>
        obtain rfl := Token.eq_of_keyword? hk
        cases hl : p.clauses.lookup k with
        | some text =>
          rw [feedAll_error ht (p.feed_repeated (by rw [hl]; rfl))] at h
          cases h
        | none =>
          rw [feedAll_consume ht (p.feed_keyword hl)] at h
          obtain ⟨run, tail, more, rfl, hexp, htail⟩ := clause_of_feedAll p k hrest h hm
          obtain ⟨segments, rfl, hv, hnd, hp⟩ := ih (p.store [(k, joined run)])
            (by simp only [List.length_append] at hn; omega)
            (fun u hu => hrest u (by simp [hu])) htail
          refine ⟨.clause k run :: segments, rfl, List.forall_mem_cons.2 ⟨hexp, hv⟩, ?_, ?_⟩
          · refine List.nodup_cons.2 ⟨fun hmem => ?_, hnd⟩
            simpa [Progress.store, List.lookup_append, hl] using hp k hmem
          · refine List.forall_mem_cons.2 ⟨hl, fun l hl' => ?_⟩
            have := hp l hl'
            simp only [Progress.store, List.lookup_append, Option.or_eq_none_iff] at this
            exact this.1

/-! ## The reference -/

theorem feed_reference (name : Text) {t : Token} (h : IsReference t) :
    (Machine.start name).feed t = .ok (.consume .component,
      (Progress.mk name t.referenceText (decide (t.kind = .string)) []).between) := by
  cases h with
  | quoted h hv =>
    obtain ⟨x, v, rfl⟩ := List.exists_cons_of_ne_nil hv
    simp only [Machine.feed, Machine.start, Machine.feedReference, h, Token.referenceText]
    rfl
  | expression hk ho =>
    simp only [Machine.feed, Machine.start, Machine.feedReference, hk, ho, Token.referenceText]
    rfl

theorem isReference_of_feed {name : Text} {t : Token} {r : Step × Machine} (hs : t.kind ≠ .stop)
    (h : (Machine.start name).feed t = .ok r) : IsReference t := by
  obtain ⟨kind, text⟩ := t
  simp only [Machine.feed, hs, if_false, Machine.start, Machine.feedReference] at h
  rcases kind with _ | _ | _
  · simp only [if_true] at h
    split at h
    · cases h
    · cases h
    · rename_i v hne hd
      exact .quoted hd hne
  · simp only [reduceCtorEq, if_false, Bool.or_eq_true] at h
    split at h
    · cases h
    · rename_i hn
      rw [not_or] at hn
      exact .expression (by simpa using hn.1) (by simpa using hn.2)
  · exact absurd rfl hs

/-! ## Whole tags -/

/-- What the machine knows when it has read the tokens of a layout. -/
def Layout.progress (l : Layout) (name : Text) : Progress :=
  ⟨name, l.reference.referenceText, decide (l.reference.kind = .string), l.clauses⟩

theorem feedAll_layout {l : Layout} {tokens : List Token} (hs : ∀ t ∈ tokens, t.kind ≠ .stop)
    (h : l.Reads tokens) (name : Text) :
    feedAll (Machine.start name) tokens =
      .ok ((l.progress name).between, l.segments.filterMap Segment.handedBack?) := by
  obtain ⟨reference, segments⟩ := l
  obtain rfl := h.tokens_eq
  have hsegments := feedAll_segments
    (Progress.mk name reference.referenceText (decide (reference.kind = .string)) [])
    (fun t ht => hs t (List.mem_cons_of_mem _ ht)) h.segments h.keywords (fun _ _ => rfl)
  rw [Layout.tokens, feedAll_consume (hs reference List.mem_cons_self)
    (feed_reference name h.reference), hsegments]
  rfl

theorem parseTokens_of_reads {l : Layout} {tokens : List Token} (h : l.Reads (beforeStop tokens))
    (name : Text) : parseTokens name tokens = .ok (l.parsed name) := by
  unfold parseTokens
  rw [feedAll_beforeStop, feedAll_layout (fun t => kind_of_mem_beforeStop) h name]
  show ((l.progress name).between.finish >>= fun a => pure (ParsedTag.mk name a _)) = _
  rw [Progress.finish_between]
  rfl

theorem reads_of_parseTokens {name : Text} {tokens : List Token} {parsed : ParsedTag}
    (h : parseTokens name tokens = .ok parsed) : ∃ l : Layout, l.Reads (beforeStop tokens) := by
  unfold parseTokens at h
  rw [feedAll_beforeStop] at h
  have hs : ∀ t ∈ beforeStop tokens, t.kind ≠ .stop := fun t => kind_of_mem_beforeStop
  generalize beforeStop tokens = ts at h hs ⊢
  cases ts with
  | nil => cases h
  | cons t rest =>
    have ht := hs t List.mem_cons_self
    cases hf : (Machine.start name).feed t with
    | error f => rw [feedAll_error ht hf] at h; cases h
    | ok r =>
      have href := isReference_of_feed ht hf
      rw [feedAll_consume ht (feed_reference name href)] at h
      cases hrun : feedAll (Progress.mk name t.referenceText (decide (t.kind = .string)) []).between
          rest with
      | error f => rw [hrun] at h; cases h
      | ok r =>
        obtain ⟨m, forwarded⟩ := r
        rw [hrun] at h
        cases hm : m.finish with
        | error f =>
          simp only [bind, Except.bind, hm] at h
          cases h
        | ok arguments =>
          obtain ⟨segments, rfl, hv, hk, -⟩ := segments_of_feedAll rest.length _ (Nat.le_refl _)
            (fun u hu => hs u (List.mem_cons_of_mem _ hu)) hrun hm
          exact ⟨⟨t, segments⟩, rfl, href, hv, hk⟩

/-- A token that cannot stand first is refused, whatever follows it. -/
theorem parseTokens_of_not_isReference (name : Text) {reference : Token}
    (h : ¬ IsReference reference) :
    ∃ e, ∀ rest, parseTokens name (reference :: rest) = .error e := by
  by_cases hs : reference.kind = .stop
  · refine ⟨.argument name .missingReference, fun rest => ?_⟩
    rw [parseTokens, feedAll, if_pos hs]
    rfl
  · cases hf : (Machine.start name).feed reference with
    | ok r => exact absurd (isReference_of_feed hs hf) h
    | error e =>
      refine ⟨e, fun rest => ?_⟩
      rw [parseTokens, feedAll_error hs hf]
      rfl

theorem beforeStop_append {a b : List Token} (ha : ∀ t ∈ a, t.kind ≠ .stop)
    (hb : beforeStop b = []) : beforeStop (a ++ b) = a := by
  rw [beforeStop, List.takeWhile_append_of_pos fun t ht => by simpa using ha t ht]
  exact (congrArg (a ++ ·) hb).trans (List.append_nil a)

/-- A reference and segments, whatever follows their end, are laid out as they are written. -/
theorem reads_segments {reference : Token} {segments : List Segment} {ending : List Token}
    (h : IsReference reference) (hsegments : ∀ s ∈ segments, s.Valid)
    (hkeywords : (segments.filterMap Segment.keyword?).Nodup)
    (hkinds : ∀ t ∈ segments.flatMap Segment.tokens, t.kind ≠ .stop)
    (hend : beforeStop ending = []) : Layout.Reads ⟨reference, segments⟩
      (beforeStop (reference :: (segments.flatMap Segment.tokens ++ ending))) where
  tokens_eq := by
    have hreference : reference.kind ≠ .stop := by cases h <;> simp
    have hall : ∀ t ∈ reference :: segments.flatMap Segment.tokens, t.kind ≠ .stop :=
      List.forall_mem_cons.2 ⟨hreference, hkinds⟩
    rw [← List.cons_append, beforeStop_append hall hend]
    rfl
  reference := h
  segments := hsegments
  keywords := hkeywords

/-- **The language of tag arguments.** A tag is read if and only if its tokens before the end have a
layout, which is then the only one, and what is read is what the layout stands for. -/
theorem parseTokens_iff_layout (name : Text) (tokens : List Token) :
    ((∃ parsed, parseTokens name tokens = .ok parsed) ↔
      ∃! l : Layout, l.Reads (beforeStop tokens)) ∧
    ∀ l : Layout, l.Reads (beforeStop tokens) → parseTokens name tokens = .ok (l.parsed name) := by
  refine ⟨⟨?_, ?_⟩, fun l h => parseTokens_of_reads h name⟩
  · rintro ⟨parsed, h⟩
    obtain ⟨l, hl⟩ := reads_of_parseTokens h
    exact ⟨l, hl, fun l' hl' => Layout.eq_of_reads hl' hl⟩
  · rintro ⟨l, hl, -⟩
    exact ⟨_, parseTokens_of_reads hl name⟩

end Hydration.Tag
