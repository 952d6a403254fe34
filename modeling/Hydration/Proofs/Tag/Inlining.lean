import Hydration.Proofs.Fragment.Inlining
import Hydration.Proofs.Tag.Wording
import Mathlib.Data.List.Forall2
/-!
# Tags with variables replaced by literals

    react page with {title: t} in box    react "home" with {title: {x: 1}} in 'span'

In a tag some variables are replaced by literals: the reference by a string, a whole clause, or
variables in the literal of a clause. A literal may have more words than the variable, so the words
of both tags are put side by side (`Replaced`, `Contents`): words that are handed back, clauses that
stay as they are, and clauses that are literals with variables replaced. Whatever follows may be
anything, if it stays as it is.

* `rel_words`: both tags are read alike after their references.
* `rel_parse`: both tags are read alike, or the reference is replaced by an empty string.
-/
namespace Hydration.Tag
open Literal (Derivation)
open Text.Quoted (Closed)

/-! ## Words side by side -/

/-- The words after a tag's reference, and those with literals in the place of some variables. -/
inductive Replaced (b : Bindings) : List Text → List Text → Prop
  | same (ws : List Text) : Replaced b ws ws
  | handedBack {run bits ws ws' : List Text} (hjoin : joinTranslations none run = .ok bits)
    (hbits : ∀ bit ∈ bits, (classify bit).keyword? = none) (h : Replaced b ws ws') :
    Replaced b (run ++ ws) (run ++ ws')
  | clause (k : Keyword) {run bits ws ws' : List Text}
    (hjoin : joinTranslations none run = .ok bits) (hrun : IsExpression (bits.map classify))
    (h : Replaced b ws ws') :
    Replaced b (k.text :: (run ++ ws)) (k.text :: (run ++ ws'))
  | inlined (k : Keyword) {run run' ws ws' : List Text} {d d' : Derivation} (hrun : WordsOf run d)
    (hrun' : WordsOf run' d') (hd : d.Inlines b d') (h : Replaced b ws ws') :
    Replaced b (k.text :: (run ++ ws)) (k.text :: (run' ++ ws'))

/-- The words of a tag, and those with literals in the place of some variables. The reference stays
as it is, or it is a variable and replaced by a string. -/
inductive Contents (b : Bindings) : List Text → List Text → Prop
  | kept {start ws ws' : List Text} {name reference : Text}
    (hjoin : joinTranslations none start = .ok [name, reference]) (h : Replaced b ws ws') :
    Contents b (start ++ ws) (start ++ ws')
  | reference {start ws ws' : List Text} {name x q t : Text}
    (hjoin : joinTranslations none start = .ok [name]) (hx : IsVariable x)
    (hword : WordsOf [x] (.atom x)) (hkeyword : Keyword.ofText? x = none)
    (hq : WordsOf [q] (.string q)) (ht : Text.Quoted.decode? q = some t) (hb : (x, .str t) ∈ b)
    (h : Replaced b ws ws') : Contents b (start ++ x :: ws) (start ++ q :: ws')

/-! ## What is read from between two clauses -/

/-- What the machine gives if it reads the tokens from between two clauses and can finish: the
arguments, and the tokens that it hands back. -/
def Progress.conclude? (p : Progress) (tokens : List Token) : Option (TagArguments × List Token) :=
  (feedAll p.between tokens).toOption.bind fun r => r.1.finish.toOption.map (·, r.2)

namespace Progress
variable (p : Progress)

theorem conclude?_other {t : Token} (hs : t.kind ≠ .stop) (hk : t.keyword? = none)
    (rest : List Token) :
    p.conclude? (t :: rest) = (p.conclude? rest).map fun r => (r.1, t :: r.2) := by
  rw [conclude?, conclude?, feedAll_forward hs (p.feed_other hs hk)]
  cases feedAll p.between rest with
  | error f => rfl
  | ok r =>
    show Option.map _ r.1.finish.toOption = Option.map _ (Option.map _ r.1.finish.toOption)
    rw [Option.map_map]
    rfl

theorem conclude?_repeated {k : Keyword} (hk : (p.clauses.lookup k).isSome) (rest : List Token) :
    p.conclude? (⟨.variable, k.text⟩ :: rest) = none := by
  rw [conclude?, feedAll_error (by simp) (p.feed_repeated hk)]
  rfl

theorem conclude?_clause {k : Keyword} (hk : p.clauses.lookup k = none) {run : List Token}
    (hs : ∀ t ∈ run, t.kind ≠ .stop) (hrun : IsExpression run) (rest : List Token) :
    p.conclude? (⟨.variable, k.text⟩ :: (run ++ rest)) =
      (p.store [(k, joined run)]).conclude? rest := by
  rw [conclude?, conclude?, feedAll_consume (by simp) (p.feed_keyword hk),
    feedAll_append hs (feedAll_expression p k hs hrun)]
  cases feedAll (p.store [(k, joined run)]).between rest <;> rfl

theorem conclude?_openRun {k : Keyword} (hk : p.clauses.lookup k = none) {read : List Token}
    (hs : ∀ t ∈ read, t.kind ≠ .stop) (hread : OpenRun read) :
    p.conclude? (⟨.variable, k.text⟩ :: read) = none := by
  obtain ⟨f, hf⟩ := p.finish_within k read
  rw [conclude?, feedAll_consume (by simp) (p.feed_keyword hk), feedAll_openRun p k hs hread]
  show Option.map _ (p.within k read).finish.toOption = none
  rw [hf]
  rfl

end Progress

/-! ## Tokens side by side -/

section
variable {b : Bindings}

/-- The second clauses are the first ones with some variables replaced. -/
def ClausesInline (b : Bindings) : List (Keyword × Text) → List (Keyword × Text) → Prop :=
  List.Forall₂ fun a a' => a'.1 = a.1 ∧ TextInlines b a.2 a'.2

/-- Two results with these references: the clauses of the second one are those of the first one with
some variables replaced, and the same tokens are handed back. -/
structure ResultInlines (b : Bindings) (ref ref' : Text × Bool)
    (r r' : TagArguments × List Token) : Prop where
  reference : (r.1.reference, r.1.isLiteral) = ref
  reference' : (r'.1.reference, r'.1.isLiteral) = ref'
  props : Option.Rel (TextInlines b) r.1.props r'.1.props
  container : Option.Rel (TextInlines b) r.1.container r'.1.container
  handedBack : r'.2 = r.2

theorem textInlines_refl (t : Text) : TextInlines b t t := rel_refl Expression.inlines_refl _

theorem rel_lookup {clauses clauses' : List (Keyword × Text)} (k : Keyword)
    (h : ClausesInline b clauses clauses') :
    Option.Rel (TextInlines b) (clauses.lookup k) (clauses'.lookup k) := by
  induction h with
  | nil => exact .none
  | @cons a a' rest rest' ha _ ih =>
    obtain ⟨l, t⟩ := a
    obtain ⟨l', t'⟩ := a'
    obtain ⟨hl, ht⟩ := ha
    obtain rfl : l' = l := hl
    rw [List.lookup_cons, List.lookup_cons]
    cases k == l' with
    | true => exact .some ht
    | false => exact ih

/-- A keyword is new for both or for neither. -/
theorem ClausesInline.lookup_cases {clauses clauses' : List (Keyword × Text)}
    (h : ClausesInline b clauses clauses') (k : Keyword) :
    clauses.lookup k = none ∧ clauses'.lookup k = none ∨
      (clauses.lookup k).isSome ∧ (clauses'.lookup k).isSome := by
  have hrel := rel_lookup k h
  generalize clauses.lookup k = found at hrel
  generalize clauses'.lookup k = found' at hrel
  cases hrel with
  | none => exact .inl ⟨rfl, rfl⟩
  | some _ => exact .inr ⟨rfl, rfl⟩

/-- Another clause on both sides. -/
theorem ClausesInline.store {p p' : Progress} (h : ClausesInline b p.clauses p'.clauses)
    (k : Keyword) {t t' : Text} (ht : TextInlines b t t') :
    ClausesInline b (p.store [(k, t)]).clauses (p'.store [(k, t')]).clauses :=
  List.rel_append h (.cons ⟨rfl, ht⟩ .nil)

namespace Progress
variable {p p' : Progress}

/-- The same tokens are read alike by both machines, by induction on their number. -/
theorem rel_conclude? (tokens : List Token) (hs : ∀ t ∈ tokens, t.kind ≠ .stop)
    (h : ClausesInline b p.clauses p'.clauses) :
    Option.Rel (ResultInlines b (p.reference, p.isLiteral) (p'.reference, p'.isLiteral))
      (p.conclude? tokens) (p'.conclude? tokens) := by
  induction hn : tokens.length using Nat.strongRecOn generalizing tokens p p' with
  | ind n ih =>
    subst hn
    cases tokens with
    | nil => exact .some ⟨rfl, rfl, rel_lookup .props h, rel_lookup .container h, rfl⟩
    | cons t rest =>
      obtain ⟨ht, hrest⟩ := List.forall_mem_cons.1 hs
      cases hk : t.keyword? with
      | none =>
        rw [p.conclude?_other ht hk, p'.conclude?_other ht hk, Option.map_eq_bind,
          Option.map_eq_bind]
        refine rel_bind (ih _ (by simp) rest hrest h rfl) fun r r' hr => ?_
        exact .some { hr with handedBack := congrArg (t :: ·) hr.handedBack }
      | some k =>
        obtain rfl := Token.eq_of_keyword? hk
        rcases h.lookup_cases k with ⟨hl, hl'⟩ | ⟨hl, hl'⟩
        · rcases openRun_or_expression [] rest openRun_nil with hopen | ⟨run, tail, hrun, hexp⟩
          · rw [p.conclude?_openRun hl hrest hopen, p'.conclude?_openRun hl' hrest hopen]
            exact .none
          · rw [List.nil_append] at hrun
            subst hrun
            obtain ⟨hr, ht⟩ := List.forall_mem_append.1 hrest
            rw [p.conclude?_clause hl hr hexp, p'.conclude?_clause hl' hr hexp]
            refine ih _ ?_ tail ht (h.store k (textInlines_refl _)) rfl
            simp only [List.length_cons, List.length_append]
            omega
        · rw [p.conclude?_repeated hl, p'.conclude?_repeated hl']
          exact .none

end Progress

/-! ## Words after the reference -/

/-- What the machine gives if it reads the words from between two clauses, translated texts in one
piece, and can finish. -/
def Progress.readWords? (p : Progress) (ws : List Text) : Option (TagArguments × List Token) :=
  (joinTranslations none ws).toOption.bind fun bits => p.conclude? (bits.map classify)

namespace Progress
variable (p : Progress) {run bits : List Text}

theorem readWords?_append (hjoin : joinTranslations none run = .ok bits) (ws : List Text) :
    p.readWords? (run ++ ws) = (joinTranslations none ws).toOption.bind fun more =>
      p.conclude? (bits.map classify ++ more.map classify) := by
  rw [readWords?, joinTranslations_append hjoin]
  cases joinTranslations none ws with
  | error f => rfl
  | ok more => simp [Except.toOption]

theorem readWords?_handedBack (hjoin : joinTranslations none run = .ok bits)
    (hbits : ∀ bit ∈ bits, (classify bit).keyword? = none) (ws : List Text) :
    p.readWords? (run ++ ws) =
      (p.readWords? ws).map fun r => (r.1, bits.map classify ++ r.2) := by
  have hforward : ∀ more : List Token, p.conclude? (bits.map classify ++ more) =
      (p.conclude? more).map fun r => (r.1, bits.map classify ++ r.2) := by
    intro more
    clear hjoin
    induction bits with
    | nil => simp
    | cons bit bits ih =>
      obtain ⟨hbit, hbits⟩ := List.forall_mem_cons.1 hbits
      rw [List.map_cons, List.cons_append, p.conclude?_other (classify_kind bit) hbit, ih hbits,
        Option.map_map]
      rfl
  rw [p.readWords?_append hjoin, readWords?]
  cases (joinTranslations none ws).toOption with
  | none => rfl
  | some more => exact hforward _

theorem joinTranslations_keyword (k : Keyword) (hjoin : joinTranslations none run = .ok bits) :
    joinTranslations none (k.text :: run) = .ok (k.text :: bits) := by
  have hk : joinTranslations none [k.text] = .ok [k.text] := by
    cases k <;> rfl
  rw [← List.singleton_append, joinTranslations_append hk, hjoin]
  rfl

theorem readWords?_clause {k : Keyword} (hk : p.clauses.lookup k = none)
    (hjoin : joinTranslations none run = .ok bits) (hrun : IsExpression (bits.map classify))
    (ws : List Text) :
    p.readWords? (k.text :: (run ++ ws)) = (p.store [(k, spaced bits)]).readWords? ws := by
  have hstop : ∀ t ∈ bits.map classify, t.kind ≠ .stop := fun t => kind_of_mem_classify
  rw [← List.cons_append, p.readWords?_append (joinTranslations_keyword k hjoin), readWords?,
    ← joined_classify]
  congr 1
  funext more
  rw [List.map_cons, classify_keyword, List.cons_append, p.conclude?_clause hk hstop hrun]

theorem readWords?_repeated {k : Keyword} (hk : (p.clauses.lookup k).isSome) (ws : List Text) :
    p.readWords? (k.text :: ws) = none := by
  have hjoin : joinTranslations none [k.text] = .ok [k.text] := joinTranslations_keyword k rfl
  rw [← List.singleton_append, p.readWords?_append hjoin]
  cases (joinTranslations none ws).toOption with
  | none => rfl
  | some more =>
    show p.conclude? (classify k.text :: more.map classify) = none
    rw [classify_keyword, p.conclude?_repeated hk]

end Progress

theorem WordsOf.textInlines {run run' : List Text} {d d' : Derivation} (hrun : WordsOf run d)
    (hrun' : WordsOf run' d') (hd : d.Inlines b d') :
    TextInlines b (spaced run) (spaced run') := by
  rw [TextInlines, hrun.toOption_compile, hrun'.toOption_compile]
  exact d.rel_value? hd

/-- Words with literals in the place of some variables are read like those with the variables. -/
theorem rel_words {ws ws' : List Text} (h : Replaced b ws ws') {p p' : Progress}
    (hp : ClausesInline b p.clauses p'.clauses) :
    Option.Rel (ResultInlines b (p.reference, p.isLiteral) (p'.reference, p'.isLiteral))
      (p.readWords? ws) (p'.readWords? ws') := by
  induction h generalizing p p' with
  | same ws =>
    refine rel_bind (rel_refl (r := Eq) (fun _ => rfl) _) fun bits bits' hbits => ?_
    subst hbits
    exact Progress.rel_conclude? _ (fun t => kind_of_mem_classify) hp
  | handedBack hjoin hbits _ ih =>
    rw [p.readWords?_handedBack hjoin hbits, p'.readWords?_handedBack hjoin hbits,
      Option.map_eq_bind, Option.map_eq_bind]
    refine rel_bind (ih hp) fun r r' hr => ?_
    exact .some { hr with handedBack := congrArg (_ ++ ·) hr.handedBack }
  | clause k hjoin hrun _ ih =>
    rcases hp.lookup_cases k with ⟨hk, hk'⟩ | ⟨hk, hk'⟩
    · rw [p.readWords?_clause hk hjoin hrun, p'.readWords?_clause hk' hjoin hrun]
      exact ih (hp.store k (textInlines_refl _))
    · rw [p.readWords?_repeated hk, p'.readWords?_repeated hk']
      exact .none
  | inlined k hrun hrun' hd _ ih =>
    rcases hp.lookup_cases k with ⟨hk, hk'⟩ | ⟨hk, hk'⟩
    · rw [p.readWords?_clause hk hrun.joinTranslations hrun.isExpression,
        p'.readWords?_clause hk' hrun'.joinTranslations hrun'.isExpression]
      exact ih (hp.store k (hrun.textInlines hrun' hd))
    · rw [p.readWords?_repeated hk, p'.readWords?_repeated hk']
      exact .none

/-! ## Whole tags -/

/-- What the machine knows when it has read a reference. -/
def Token.progress (t : Token) (name : Text) : Progress :=
  ⟨name, t.referenceText, decide (t.kind = .string), []⟩

section
variable {contents name reference : Text} {start ws : List Text}

theorem parse_words (hw : Worded (start ++ ws) contents)
    (hjoin : joinTranslations none start = .ok [name, reference]) :
    (parse contents).toOption = (joinTranslations none ws).toOption.bind fun more =>
      (parseTokens name (tokenize (reference :: more))).toOption := by
  rw [parse, splitContents, hw.bits, joinTranslations_append hjoin]
  cases joinTranslations none ws <;> rfl

/-- After its reference a tag is read word by word. -/
theorem parse_of_isReference (hw : Worded (start ++ ws) contents)
    (hjoin : joinTranslations none start = .ok [name, reference])
    (href : IsReference (classify reference)) :
    (parse contents).toOption =
      (((classify reference).progress name).readWords? ws).map fun r => ⟨name, r.1, r.2⟩ := by
  rw [parse_words hw hjoin, Progress.readWords?]
  cases joinTranslations none ws with
  | error f => rfl
  | ok more =>
    show (parseTokens name (tokenize (reference :: more))).toOption = Option.map _
      (((classify reference).progress name).conclude? (more.map classify))
    rw [parseTokens, feedAll_beforeStop, beforeStop_tokenize, List.map_cons,
      feedAll_consume (classify_kind reference) (feed_reference name href), Progress.conclude?,
      Token.progress]
    generalize feedAll _ (more.map classify) = read
    cases read with
    | error f => rfl
    | ok r =>
      show ((r.1.finish >>= fun a => pure (ParsedTag.mk name a r.2)) : Except Failure _).toOption =
        Option.map _ (Option.map _ r.1.finish.toOption)
      cases r.1.finish <;> rfl

theorem parse_of_not_isReference (hw : Worded (start ++ ws) contents)
    (hjoin : joinTranslations none start = .ok [name, reference])
    (href : ¬ IsReference (classify reference)) : (parse contents).toOption = none := by
  rw [parse_words hw hjoin]
  cases joinTranslations none ws with
  | error f => rfl
  | ok more =>
    have hstop := classify_kind reference
    cases hf : (Machine.start name).feed (classify reference) with
    | ok r => exact absurd (isReference_of_feed hstop hf) href
    | error f =>
      show (parseTokens name (tokenize (reference :: more))).toOption = none
      rw [parseTokens, feedAll_beforeStop, beforeStop_tokenize, List.map_cons,
        feedAll_error hstop hf]
      rfl

end

/-- The reference that a token is, and whether it is a string. -/
def Token.reference (t : Token) : Text × Bool := (t.referenceText, decide (t.kind = .string))

/-- Tags with these references, and literals in the place of some variables after them, are read
alike. -/
theorem rel_parse_of_isReference {contents contents' name reference reference' : Text}
    {start start' ws ws' : List Text} (hw : Worded (start ++ ws) contents)
    (hw' : Worded (start' ++ ws') contents')
    (hjoin : joinTranslations none start = .ok [name, reference])
    (hjoin' : joinTranslations none start' = .ok [name, reference'])
    (href : IsReference (classify reference)) (href' : IsReference (classify reference'))
    (hrefs : ReferenceInlines b (classify reference).reference (classify reference').reference)
    (h : Replaced b ws ws') :
    Option.Rel (TagInlines b) (parse contents).toOption (parse contents').toOption := by
  rw [parse_of_isReference hw hjoin href, parse_of_isReference hw' hjoin' href',
    Option.map_eq_bind, Option.map_eq_bind]
  refine rel_bind (rel_words h .nil) fun r r' hr => ?_
  have hreference := hr.reference
  have hreference' := hr.reference'
  refine .some ⟨rfl, ⟨?_, hr.props, hr.container⟩, hr.handedBack⟩
  rw [hreference, hreference']
  exact hrefs

/-- A tag that is read has the reference that its word is. -/
theorem reference_of_parse {contents name reference : Text} {start ws : List Text}
    {tag : ParsedTag} (hw : Worded (start ++ ws) contents)
    (hjoin : joinTranslations none start = .ok [name, reference])
    (href : IsReference (classify reference)) (h : parse contents = .ok tag) :
    (tag.arguments.reference, tag.arguments.isLiteral) = (classify reference).reference := by
  have hparse := parse_of_isReference hw hjoin href
  rw [Literal.toOption_eq_some_iff.2 h] at hparse
  obtain ⟨r, hr, rfl⟩ := Option.map_eq_some_iff.1 hparse.symm
  have hnil : ClausesInline [] ((classify reference).progress name).clauses
      ((classify reference).progress name).clauses := .nil
  have hsame := rel_words (.same ws) hnil
  rw [hr] at hsame
  cases hsame with
  | some hsame => exact hsame.reference

/-- A tag whose reference is a variable that is replaced by an empty string. -/
def ParsedTag.HasEmptyReference (b : Bindings) (tag : ParsedTag) : Prop :=
  IsVariable tag.arguments.reference ∧ tag.arguments.isLiteral = false ∧
    (tag.arguments.reference, .str []) ∈ b

theorem isReference_variable {x : Text} (h : WordsOf [x] (.atom x))
    (hkeyword : Keyword.ofText? x = none) :
    IsReference (classify x) ∧ (classify x).reference = (x, false) := by
  obtain ⟨-, hx⟩ := h.isLexeme (.atom x) (by simp [Derivation.lexemes])
  have hclass : classify x = ⟨.variable, x⟩ := by
    rw [classify, if_neg (by simp [isString_atom hx])]
  rw [hclass]
  exact ⟨.expression hkeyword (opens_atom hx), rfl⟩

/-- A string is a reference exactly if it is not empty. -/
theorem isReference_string {q t : Text} (h : WordsOf [q] (.string q))
    (ht : Text.Quoted.decode? q = some t) :
    (IsReference (classify q) ↔ t ≠ []) ∧ (classify q).reference = (t, true) := by
  have hclass : classify q = ⟨.string, q⟩ := by
    obtain ⟨c, body, hc, hbody, rfl⟩ := h.isLexeme (.string q) (by simp [Derivation.lexemes])
    rw [classify, if_pos (isString_string hc hbody)]
  rw [hclass]
  refine ⟨⟨?_, fun hne => .quoted ht hne⟩, by simp [Token.reference, Token.referenceText, ht]⟩
  intro href
  cases href with
  | quoted hv hne =>
    rw [ht] at hv
    cases hv
    exact hne

/-- Contents with literals in the place of some variables are read like those with the variables,
unless the reference is replaced by an empty string. -/
theorem rel_parse {contents contents' : Text} (hclosed : Closed false contents)
    (hclosed' : Closed false contents') (h : Contents b (bits contents) (bits contents')) :
    Option.Rel (TagInlines b) (parse contents).toOption (parse contents').toOption ∨
      (parse contents').toOption = none ∧
        ∀ tag, parse contents = .ok tag → tag.HasEmptyReference b := by
  obtain ⟨words, hw⟩ := worded_of_closed hclosed
  obtain ⟨words', hw'⟩ := worded_of_closed hclosed'
  rw [hw.bits, hw'.bits] at h
  cases h with
  | @kept start ws ws' name reference hjoin h =>
    left
    by_cases href : IsReference (classify reference)
    · exact rel_parse_of_isReference hw hw' hjoin hjoin href href (.inl rfl) h
    · rw [parse_of_not_isReference hw hjoin href, parse_of_not_isReference hw' hjoin href]
      exact .none
  | @reference start ws ws' name x q t hjoin hx hword hkeyword hq ht hb h =>
    rw [List.append_cons] at hw hw'
    have hjoinx : joinTranslations none (start ++ [x]) = .ok [name, x] := by
      rw [joinTranslations_append hjoin, hword.joinTranslations]
      rfl
    have hjoinq : joinTranslations none (start ++ [q]) = .ok [name, q] := by
      rw [joinTranslations_append hjoin, hq.joinTranslations]
      rfl
    obtain ⟨href, hrefx⟩ := isReference_variable hword hkeyword
    obtain ⟨hquoted, hrefq⟩ := isReference_string hq ht
    by_cases hne : t = []
    · right
      refine ⟨parse_of_not_isReference hw' hjoinq fun hrefq => hquoted.1 hrefq hne, ?_⟩
      intro tag htag
      obtain ⟨hreference, hliteral⟩ :=
        Prod.mk.inj ((reference_of_parse hw hjoinx href htag).trans hrefx)
      rw [ParsedTag.HasEmptyReference, hreference]
      exact ⟨hx, hliteral, hne ▸ hb⟩
    · left
      refine rel_parse_of_isReference hw hw' hjoinx hjoinq href (hquoted.2 hne) ?_ h
      rw [hrefx, hrefq]
      exact .inr ⟨hx, rfl, rfl, hne, hb⟩

end
end Hydration.Tag
