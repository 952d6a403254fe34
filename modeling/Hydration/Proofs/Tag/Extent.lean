import Hydration.Proofs.Literal.Depth
import Hydration.Proofs.Tag.Segments
import Hydration.Proofs.Tag.Words
import Mathlib
/-!
# The extent of inline literals

An inline literal is cut into bits at its blanks, joined again by the machine with single spaces as
long as brackets are open, and then cut into lexemes. All three agree on what belongs to it: its
words have the lexemes of the literal (`lexFrom_worded`), so its brackets are open up to the last
word and not after it.

* `Inline.isExpression`: the words of an accepted literal are one expression.
* `Inline.compile_spaced`: joined again, they are read as the literal was.
* `squeeze_inline`: the joined text is the literal with single spaces for its blanks.
* `parse_literal`: the machine consumes the bits of a literal and nothing else.
-/
namespace Hydration.Tag
open Text (StartsBlank isBlank)
open Text.Quoted (Closed IsBody isQuote)
open Literal (Lexeme FilterReader lexFrom readAll opens)

/-! ## Lexemes of words -/

/-- The lexemes of a word; all its strings are closed. -/
def lexemesOf (w : Text) : List Lexeme := (lexFrom w).toOption.getD []

theorem lexFrom_solid {w : Text} (hw : Solid w) : lexFrom w = .ok (lexemesOf w) := by
  obtain ⟨lexemes, h⟩ := (Literal.lexed_iff_closed w).2 (hw.closed.anyBreaks true)
  rw [lexemesOf, Literal.lexFrom_of_lexed h]
  rfl

theorem lexemesOf_ne_nil {w : Text} (hw : Solid w) (hne : w ≠ []) : lexemesOf w ≠ [] := by
  intro h
  obtain ⟨c, rest, rfl⟩ := List.exists_cons_of_ne_nil hne
  have hb := (Literal.lexed_of_lexFrom (lexFrom_solid hw)).blank_of_nil h c List.mem_cons_self
  rw [hw.head] at hb
  cases hb

/-- A text of words has the lexemes of its words. -/
theorem lexFrom_worded {ws : List Text} {t : Text} (h : Worded ws t) :
    lexFrom t = .ok (ws.flatMap lexemesOf) := by
  induction h with
  | nil => rw [lexFrom]; rfl
  | blank hc _ ih => rw [Literal.lexFrom_blank hc, ih]
  | word hw hne hr _ ih =>
    rw [Literal.lexFrom_append (lexFrom_solid hw) (Literal.endsAtom_of_startsBlank hr), ih]
    rfl

/-! ## Words of brackets and strings -/

section
variable {ws : List Text} (hsolid : ∀ w ∈ ws, Solid w ∧ w ≠ [])
include hsolid

theorem flatMap_lexemesOf_ne_nil (hne : ws ≠ []) : ws.flatMap lexemesOf ≠ [] := by
  obtain ⟨w, ws, rfl⟩ := List.exists_cons_of_ne_nil hne
  obtain ⟨hw, hne⟩ := hsolid w List.mem_cons_self
  intro h
  rw [List.flatMap_cons] at h
  exact lexemesOf_ne_nil hw hne (List.append_eq_nil_iff.1 h).1

theorem bracketDepth_spaced :
    bracketDepth (spaced ws) = Literal.weight (ws.flatMap lexemesOf) :=
  Literal.bracketDepth_of_lexed (Literal.lexed_of_lexFrom (lexFrom_worded (worded_spaced hsolid)))

/-- A word that starts a translated text would be an atom with a string after it. -/
theorem translationEnd?_word
    (h : ∀ before a t after, ws.flatMap lexemesOf ≠ before ++ .atom a :: .string t :: after) :
    ∀ w ∈ ws, translationEnd? w = none := by
  intro w hw
  unfold translationEnd?
  split
  · rename_i q rest
    split
    · rename_i hq
      exfalso
      have hends : Literal.EndsAtom (q :: rest) := by
        refine Literal.endsAtom_cons ?_ rest
        simp [Literal.isAtomChar, hq]
      have hlex := lexFrom_solid (hsolid _ hw).1
      have hcut := Literal.lexFrom_atom_append (a := ['_', '(']) (by simp)
        (List.all_eq_true.1 (by decide)) hends
      rw [List.cons_append, List.cons_append, List.nil_append, hlex] at hcut
      obtain ⟨more, hmore, hl⟩ := Literal.map_cons_eq_ok hcut.symm
      rw [lexFrom, if_pos hq] at hmore
      split at hmore
      · cases hmore
      · rename_i body _ _
        obtain ⟨tail, -, rfl⟩ := Literal.map_cons_eq_ok hmore
        obtain ⟨u, v, rfl⟩ := List.append_of_mem hw
        refine h (u.flatMap lexemesOf) ['_', '('] (q :: body ++ [q])
          (tail ++ v.flatMap lexemesOf) ?_
        rw [List.flatMap_append, List.flatMap_cons, hl, List.cons_append, List.cons_append]
    · rfl
  · rfl

end

/-! ## One expression -/

theorem classify_text (bit : Text) : (classify bit).text = bit := by
  unfold classify
  split <;> rfl

theorem classify_kind (bit : Text) : (classify bit).kind ≠ .stop := by
  unfold classify
  split <;> simp

theorem kind_of_mem_classify {ws : List Text} {u : Token} (hu : u ∈ ws.map classify) :
    u.kind ≠ .stop := by
  obtain ⟨bit, -, rfl⟩ := List.mem_map.1 hu
  exact classify_kind bit

theorem map_classify_text (ws : List Text) : (ws.map classify).map (·.text) = ws := by
  rw [List.map_map]
  refine (List.map_congr_left fun w _ => ?_).trans (List.map_id ws)
  exact classify_text w

theorem joined_classify (ws : List Text) : joined (ws.map classify) = spaced ws := by
  rw [joined, map_classify_text]

/-- The first word of a text that opens a literal opens it, too. -/
theorem Worded.opens {ws : List Text} {t : Text} (h : Worded ws t) (ht : opens t = true) :
    ∃ w more, ws = w :: more ∧ opens w = true := by
  cases h with
  | nil => cases ht
  | @blank c rest ws hc hrest =>
    simp only [Literal.opens, Bool.or_eq_true, beq_iff_eq] at ht
    rcases ht with rfl | rfl <;> cases hc
  | @word w rest ws hw hne hr hrest =>
    obtain ⟨c, w, rfl⟩ := List.exists_cons_of_ne_nil hne
    exact ⟨_, ws, rfl, ht⟩

theorem isBlank_of_opens {c : Char} {rest : Text} (h : opens (c :: rest) = true) :
    isBlank c = false := by
  simp only [Literal.opens, Bool.or_eq_true, beq_iff_eq] at h
  rcases h with rfl | rfl <;> decide

theorem opens_trim {t : Text} (h : opens t = true) : opens (Text.trim t) = true := by
  obtain ⟨lead, tail, ht, hlead, htail⟩ := Text.trim_split t
  obtain ⟨c, rest, rfl⟩ : ∃ c rest, t = c :: rest := by
    cases t with
    | nil => cases h
    | cons c rest => exact ⟨c, rest, rfl⟩
  have hc := isBlank_of_opens h
  cases lead with
  | cons d lead =>
    have hcd : c = d := (List.cons.inj ht).1
    rw [hcd, hlead d List.mem_cons_self] at hc
    cases hc
  | nil =>
    rw [List.nil_append] at ht
    cases htrim : Text.trim (c :: rest) with
    | nil =>
      rw [htrim, List.nil_append] at ht
      rw [htail c (by rw [← ht]; exact List.mem_cons_self)] at hc
      cases hc
    | cons d more =>
      rw [htrim, List.cons_append] at ht
      cases ht
      exact h

theorem lexFrom_of_trim {t : Text} {lexemes : List Lexeme}
    (h : lexFrom (Text.trim t) = .ok lexemes) : lexFrom t = .ok lexemes := by
  obtain ⟨lead, tail, ht, hlead, htail⟩ := Text.trim_split t
  have hends := Literal.endsAtom_of_startsBlank (Text.startsBlank_of_forall htail)
  have hnil : lexFrom tail = .ok [] := by
    rw [← List.append_nil tail, Literal.lexFrom_blanks htail, lexFrom]
  rw [ht, Literal.lexFrom_blanks hlead, Literal.lexFrom_append h hends, hnil]
  simp

/-- Words whose brackets are open from the first lexeme up to the last one are one expression. -/
theorem isExpression_of_weight {ws : List Text} (hsolid : ∀ w ∈ ws, Solid w ∧ w ≠ [])
    (hopens : ∃ w more, ws = w :: more ∧ Literal.opens w = true)
    (hclosed : Literal.weight (ws.flatMap lexemesOf) = 0)
    (hopen : ∀ a b, ws.flatMap lexemesOf = a ++ b → a ≠ [] → b ≠ [] → 0 < Literal.weight a) :
    IsExpression (ws.map classify) := by
  obtain ⟨w, more, rfl, hw⟩ := hopens
  simp only [List.map_cons, IsExpression, classify_text, hw, if_true]
  rw [← List.map_cons, joined_classify, bracketDepth_spaced hsolid]
  refine ⟨Int.le_of_eq hclosed, ?_⟩
  rintro read ⟨rest, hrest⟩ hne hall
  obtain ⟨a, b, hab, rfl, rfl⟩ := List.map_eq_append_iff.1 hrest.symm
  rw [hab] at hsolid hopen
  obtain ⟨hsa, hsb⟩ := List.forall_mem_append.1 hsolid
  have ha : a ≠ [] := fun h => hne (by rw [h, List.map_nil])
  have hb : b ≠ [] := by
    rintro rfl
    rw [hab, List.append_nil] at hall
    exact hall rfl
  rw [joined_classify, bracketDepth_spaced hsa]
  exact hopen _ _ List.flatMap_append (flatMap_lexemesOf_ne_nil hsa ha)
    (flatMap_lexemesOf_ne_nil hsb hb)

/-- The words of a literal that is accepted. -/
structure Inline (reader : Option FilterReader) (t : Text) (e : Expression) (ws : List Text) :
    Prop where
  worded : Worded ws t
  opens : opens t = true
  read : readAll reader (ws.flatMap lexemesOf) = .ok e

namespace Inline

variable {reader : Option FilterReader} {t : Text} {e : Expression} {ws : List Text}

theorem isExpression (h : Inline reader t e ws) : IsExpression (ws.map classify) := by
  refine isExpression_of_weight h.worded.solid (h.worded.opens h.opens)
    (Literal.weight_of_readAll reader h.read) fun a b hab ha hb => ?_
  have hread := h.read
  rw [hab] at hread
  exact Literal.weight_pos_of_readAll reader ha hb hread

theorem joinTranslations (h : Inline reader t e ws) : joinTranslations none ws = .ok ws := by
  refine joinTranslations_plain (translationEnd?_word h.worded.solid fun before a t after hab => ?_)
  have hread := h.read
  rw [hab] at hread
  exact Literal.not_atom_string reader hread

/-- Joined again, the words are read as the literal was. -/
theorem compile_spaced (h : Inline reader t e ws) :
    Expression.compile reader (spaced ws) = .ok e := by
  have hsolid := h.worded.solid
  have hopens : Literal.opens (spaced ws) = true := by
    obtain ⟨w, more, rfl, hw⟩ := h.worded.opens h.opens
    rw [← joined_classify, List.map_cons, opens_joined, classify_text, hw]
  have htrim := trim_spaced hsolid
  rw [Literal.compile_eq_read reader (by rw [htrim, hopens]), htrim, Literal.read_eq_ok_iff]
  exact ⟨_, (Literal.lex_eq_ok_iff _ _).2 (lexFrom_worded (worded_spaced hsolid)), h.read⟩

end Inline

/-- Without line feeds, the strings of an accepted literal can stand in a tag. -/
theorem closed_of_compile {reader : Option FilterReader} {t : Text} {e : Expression}
    (hopens : opens t = true) (hline : '\n' ∉ t) (h : Expression.compile reader t = .ok e) :
    Closed false t := by
  rw [Literal.compile_eq_read reader (opens_trim hopens), Literal.read_eq_ok_iff] at h
  obtain ⟨lexemes, hl, -⟩ := h
  have hlexed := Literal.lexed_of_lexFrom (lexFrom_of_trim ((Literal.lex_eq_ok_iff _ _).1 hl))
  exact hlexed.closed.unbroken hline

/-- The bits of a literal that is accepted and whose strings can stand in a tag. -/
theorem inline_bits {reader : Option FilterReader} {t : Text} {e : Expression}
    (hopens : opens t = true) (hclosed : Closed false t)
    (h : Expression.compile reader t = .ok e) : Inline reader t e (bits t) := by
  obtain ⟨ws, hw⟩ := worded_of_closed hclosed
  rw [hw.bits]
  refine ⟨hw, hopens, ?_⟩
  rw [Literal.compile_eq_read reader (opens_trim hopens), Literal.read_eq_ok_iff] at h
  obtain ⟨lexemes, hl, hread⟩ := h
  rw [Literal.lex_eq_ok_iff] at hl
  have hall := lexFrom_of_trim hl
  rw [lexFrom_worded hw] at hall
  cases hall
  exact hread

/-! ## Single spaces -/

/-- Every run of blanks outside strings written as one space, and none at the end. -/
def squeeze : Text → Text
  | [] => []
  | c :: rest =>
    if isQuote c then
      match _h : Text.Quoted.scan true c rest with
      | none => c :: squeeze rest
      | some (body, after) => c :: (body ++ c :: squeeze after)
    else if isBlank c then
      if rest.head?.all isBlank then squeeze rest else ' ' :: squeeze rest
    else c :: squeeze rest
termination_by t => t.length
decreasing_by
  · simp
  · have := Text.Quoted.scan_length _h
    simp
    omega
  · simp
  · simp
  · simp

theorem squeeze_solid {w : Text} (hw : Solid w) (rest : Text) :
    squeeze (w ++ rest) = w ++ squeeze rest := by
  induction hw with
  | nil => rfl
  | @string q body w hq hb _ ih =>
    rw [List.cons_append, List.append_assoc, List.cons_append, squeeze, if_pos hq]
    split
    · rename_i hs
      rw [hb.anyBreaks true] at hs
      cases hs
    · rename_i hs
      rw [hb.anyBreaks true] at hs
      cases hs
      rw [ih]
      simp
  | @char c w hc _ ih =>
    simp only [isPlain, Bool.and_eq_true, Bool.not_eq_true'] at hc
    rw [List.cons_append, squeeze, hc.1, hc.2, ih]
    rfl

theorem worded_nil {ws : List Text} (h : Worded ws []) : ws = [] := by
  rw [← h.bits, bits_nil]

/-- A text of words is squeezed to its words with single spaces, after a space if it starts with
blanks. -/
theorem squeeze_worded {ws : List Text} {t : Text} (h : Worded ws t) :
    squeeze t = if ws ≠ [] ∧ t.head?.any isBlank = true then ' ' :: spaced ws else spaced ws := by
  induction h with
  | nil =>
    rw [squeeze]
    rfl
  | @blank c rest ws hc hrest ih =>
    rw [squeeze, Text.Quoted.isQuote_of_isBlank hc, hc]
    simp only [Bool.false_eq_true, if_false, if_true, List.head?_cons, Option.any_some, hc,
      and_true]
    cases rest with
    | nil =>
      cases ws with
      | nil => simpa using ih
      | cons w ws => exact absurd (worded_nil hrest) (List.cons_ne_nil w ws)
    | cons d more =>
      simp only [List.head?_cons, Option.any_some, Option.all_some] at ih ⊢
      by_cases hd : isBlank d = true
      · simpa [hd] using ih
      · have hne : ws ≠ [] := by
          rintro rfl
          cases hrest with
          | blank hb _ => exact hd hb
        simp [hd, hne, ih]
  | @word w rest ws hw hne hr hrest ih =>
    obtain ⟨c, w, rfl⟩ := List.exists_cons_of_ne_nil hne
    have hc := hw.head
    rw [squeeze_solid hw, ih]
    simp only [List.cons_append, List.head?_cons, Option.any_some, hc, Bool.false_eq_true,
      and_false, if_false]
    cases ws with
    | nil => simp [spaced]
    | cons v ws =>
      rw [spaced_cons _ (List.cons_ne_nil v ws)]
      cases rest with
      | nil => exact absurd (worded_nil hrest) (List.cons_ne_nil v ws)
      | cons d more => simp [Text.startsBlank_cons.1 hr]

theorem squeeze_inline {reader : Option FilterReader} {t : Text} {e : Expression} {ws : List Text}
    (h : Inline reader t e ws) : squeeze t = spaced ws := by
  rw [squeeze_worded h.worded, if_neg]
  rintro ⟨-, hblank⟩
  have hopens := h.opens
  cases t with
  | nil => cases hblank
  | cons c rest =>
    rw [List.head?_cons, Option.any_some, isBlank_of_opens hopens] at hblank
    cases hblank

/-! ## A literal in a tag -/

theorem solid_keyword (k : Keyword) : Solid k.text := by
  cases k
  · exact .char (by decide) (.char (by decide) (.char (by decide) (.char (by decide) .nil)))
  · exact .char (by decide) (.char (by decide) .nil)

/-- Blanks, one at least. -/
def IsGap (gap : Text) : Prop := gap ≠ [] ∧ ∀ c ∈ gap, isBlank c = true

theorem IsGap.startsBlank {gap : Text} (h : IsGap gap) (rest : Text) :
    StartsBlank (gap ++ rest) := by
  obtain ⟨c, gap, rfl⟩ := List.exists_cons_of_ne_nil h.1
  exact Text.startsBlank_cons.2 (h.2 c List.mem_cons_self)

/-- After text whose strings are closed and a keyword, cutting arrives at what follows. -/
theorem cut_keyword {s gap gap' : Text} (hs : Closed false s) (hgap : IsGap gap) (k : Keyword)
    (hgap' : IsGap gap') (rest : Text) :
    Cut (s ++ (gap ++ (k.text ++ (gap' ++ rest)))) (bits s ++ [k.text]) rest := by
  have hne : k.text ≠ [] := by cases k <;> decide
  have hbefore := cut_of_closed hs (hgap.startsBlank (k.text ++ (gap' ++ rest)))
  have hkeyword := cut_solid (solid_keyword k) hne (hgap'.startsBlank rest)
  exact hbefore.trans ((cut_blanks hgap.2 _).trans (hkeyword.trans (cut_blanks hgap'.2 rest)))

theorem classify_keyword (k : Keyword) : classify k.text = ⟨.variable, k.text⟩ := by
  cases k <;> decide

theorem lookup_clauses {segments : List Segment} {k : Keyword}
    (h : k ∉ segments.filterMap Segment.keyword?) :
    (segments.filterMap Segment.clause?).lookup k = none := by
  induction segments with
  | nil => rfl
  | cons s segments ih =>
    cases s with
    | handedBack t => exact ih h
    | clause l run =>
      simp only [List.filterMap_cons, Segment.keyword?, List.mem_cons, not_or] at h
      simp only [List.filterMap_cons, Segment.clause?, List.lookup_cons, beq_eq_false_iff_ne.2 h.1]
      exact ih h.2

theorem beforeStop_tokenize (bits : List Text) :
    beforeStop (tokenize bits) = bits.map classify := by
  have hall : ∀ t ∈ bits.map classify, (fun t : Token => decide (t.kind ≠ .stop)) t = true :=
    fun t ht => decide_eq_true (kind_of_mem_classify ht)
  rw [beforeStop, tokenize, List.takeWhile_append_of_pos hall]
  simp [Token.stop]

theorem parse_of_split {contents name : Text} {rest : List Text} {l : Layout}
    (hsplit : splitContents contents = .ok (name :: rest)) (hl : l.Reads (rest.map classify)) :
    parse contents = .ok (l.parsed name) := by
  rw [parse, hsplit]
  exact parseTokens_of_reads (by rw [beforeStop_tokenize]; exact hl) name

/-- The layout of a tag with a literal in a clause: what stands before it, the clause with the bits
of the literal, and what stands after it. -/
def Layout.around (l : Layout) (k : Keyword) (run : List Token) (more : List Segment) : Layout :=
  ⟨l.reference, l.segments ++ .clause k run :: more⟩

theorem Layout.reads_around {l : Layout} {k : Keyword} {run before after : List Token}
    {more : List Segment} (hl : l.Reads before) (hrun : IsExpression run)
    (hmore : more.flatMap Segment.tokens = after) (hvalid : ∀ s ∈ more, s.Valid)
    (hkeys : (l.segments.filterMap Segment.keyword? ++
      k :: more.filterMap Segment.keyword?).Nodup) :
    (l.around k run more).Reads (before ++ ⟨.variable, k.text⟩ :: (run ++ after)) where
  tokens_eq := by
    rw [← hl.tokens_eq, ← hmore]
    simp [Layout.tokens, Layout.around, Segment.tokens]
  reference := hl.reference
  segments := by
    intro s hs
    rcases List.mem_append.1 hs with h | h
    · exact hl.segments s h
    · rcases List.mem_cons.1 h with rfl | h
      · exact hrun
      · exact hvalid s h
  keywords := by
    simpa [Layout.around, Segment.keyword?] using hkeys

section
variable {reader : Option FilterReader} {t before after name : Text} {first pre post : List Text}
  {k : Keyword} {l : Layout} {more : List Segment} {e : Expression}

/-- The bits of contents with a literal are those before it, its own and those after it. -/
theorem split_inline (hin : Inline reader t e (bits t))
    (hcut : Cut (before ++ (t ++ after)) first (t ++ after))
    (hjoin : joinTranslations none first = .ok (name :: (pre ++ [k.text])))
    (hblank : StartsBlank after) (hpost : splitContents after = .ok post) :
    splitContents (before ++ (t ++ after)) = .ok (name :: (pre ++ k.text :: (bits t ++ post))) := by
  rw [splitContents] at hpost ⊢
  rw [(hcut.trans (hin.worded.cut hblank)).bits, List.append_assoc, joinTranslations_append hjoin,
    joinTranslations_append hin.joinTranslations, hpost]
  simp

/-- A tag with a literal is laid out with the literal as one clause. -/
theorem reads_inline (hin : Inline reader t e (bits t)) (hl : l.Reads (pre.map classify))
    (hmore : more.flatMap Segment.tokens = post.map classify) (hvalid : ∀ s ∈ more, s.Valid)
    (hkeys : (l.segments.filterMap Segment.keyword? ++
      k :: more.filterMap Segment.keyword?).Nodup) :
    (l.around k ((bits t).map classify) more).Reads
      ((pre ++ k.text :: (bits t ++ post)).map classify) := by
  have := Layout.reads_around (k := k) hl hin.isExpression hmore hvalid hkeys
  simpa [classify_keyword] using this

/-- The machine is in the clause up to the last bit of the literal and between clauses after it. -/
theorem feedAll_inline (hin : Inline reader t e (bits t)) (hl : l.Reads (pre.map classify))
    (hk : k ∉ l.segments.filterMap Segment.keyword?) (name : Text) {read rest : List Text}
    (hbits : bits t = read ++ rest) :
    feedAll (Machine.start name) ((pre ++ k.text :: read).map classify) =
      .ok (if rest = [] then ((l.progress name).store [(k, squeeze t)]).between
          else (l.progress name).within k (read.map classify),
        l.segments.filterMap Segment.handedBack?) := by
  have hlookup : (l.progress name).clauses.lookup k = none := lookup_clauses hk
  have hstop : ∀ ws : List Text, ∀ u ∈ ws.map classify, u.kind ≠ .stop :=
    fun ws u => kind_of_mem_classify
  rw [List.map_append, List.map_cons,
    feedAll_append (hstop pre) (feedAll_layout (hstop pre) hl name), classify_keyword,
    feedAll_consume (by simp) ((l.progress name).feed_keyword hlookup)]
  by_cases hrest : rest = []
  · subst hrest
    rw [List.append_nil] at hbits
    subst hbits
    rw [feedAll_expression _ k (hstop _) hin.isExpression, joined_classify, squeeze_inline hin]
    simp [Except.map]
  · have hexpression := hin.isExpression
    rw [hbits, List.map_append] at hexpression
    rw [feedAll_openRun _ k (hstop _) (hexpression.openRun (by simpa using hrest))]
    simp [Except.map, hrest]

/-- **The extent of an inline literal.** Where the cutting of a tag's contents arrives at a literal
after a keyword, with complete clauses before, all bits of the literal and no others become the
clause of that keyword: the machine is in the clause up to the last bit and between clauses after
it. The clause is the literal with single spaces, which is read as the literal is. -/
theorem parse_literal (hopens : opens t = true) (hline : '\n' ∉ t)
    (hread : Expression.compile reader t = .ok e)
    (hcut : Cut (before ++ (t ++ after)) first (t ++ after))
    (hjoin : joinTranslations none first = .ok (name :: (pre ++ [k.text])))
    (hl : l.Reads (pre.map classify)) (hblank : StartsBlank after)
    (hpost : splitContents after = .ok post)
    (hmore : more.flatMap Segment.tokens = post.map classify) (hvalid : ∀ s ∈ more, s.Valid)
    (hkeys : (l.segments.filterMap Segment.keyword? ++
      k :: more.filterMap Segment.keyword?).Nodup) :
    let whole := l.around k ((bits t).map classify) more
    splitContents (before ++ (t ++ after)) = .ok (name :: (pre ++ k.text :: (bits t ++ post))) ∧
    parse (before ++ (t ++ after)) = .ok (whole.parsed name) ∧
    (whole.parsed name).forwarded =
      l.segments.filterMap Segment.handedBack? ++ more.filterMap Segment.handedBack? ∧
    whole.clauses.lookup k = some (squeeze t) ∧
    Expression.compile reader (squeeze t) = Expression.compile reader t ∧
    ∀ read rest, bits t = read ++ rest →
      feedAll (Machine.start name) ((pre ++ k.text :: read).map classify) =
        .ok (if rest = [] then ((l.progress name).store [(k, squeeze t)]).between
            else (l.progress name).within k (read.map classify),
          l.segments.filterMap Segment.handedBack?) := by
  have hin := inline_bits hopens (closed_of_compile hopens hline hread) hread
  have hsplit := split_inline hin hcut hjoin hblank hpost
  have hk : k ∉ l.segments.filterMap Segment.keyword? := by
    intro hmem
    exact (List.nodup_append.1 hkeys).2.2 k hmem k List.mem_cons_self rfl
  refine ⟨hsplit, parse_of_split hsplit (reads_inline hin hl hmore hvalid hkeys), ?_, ?_, ?_, ?_⟩
  · simp [Layout.parsed, Layout.around, List.filterMap_cons, Segment.handedBack?]
  · have hnone : l.clauses.lookup k = none := lookup_clauses hk
    simp only [Layout.clauses, Layout.around, List.filterMap_append] at hnone ⊢
    rw [List.lookup_append, hnone]
    simp [Segment.clause?, joined_classify, squeeze_inline hin]
  · rw [squeeze_inline hin, hin.compile_spaced, hread]
  · intro read rest hbits
    exact feedAll_inline hin hl hk name hbits

end

/-- Brackets in a string of several bits do not end the literal. -/
theorem parse_literal_bracket_in_string :
    parse "react 'a' with \x7bx: [null,  \"\x7d  \x7b\" ]\x7d in 'p'".toList =
      .ok ⟨"react".toList, ⟨"a".toList, some "\x7bx: [null, \"\x7d  \x7b\" ]\x7d".toList,
        some "'p'".toList, true⟩, []⟩ := by
  have hclosed : Closed false "react 'a'".toList :=
    (Text.Quoted.closed_of_all (t := "react ".toList) (by decide)).append
      (Text.Quoted.closed_encode false (q := '\'') (by decide) "a".toList)
  have hgap : IsGap " ".toList := ⟨by decide, List.all_eq_true.1 (by decide)⟩
  have hcut := cut_keyword hclosed hgap .props hgap
    ("\x7bx: [null,  \"\x7d  \x7b\" ]\x7d".toList ++ " in 'p'".toList)
  have h := @parse_literal none "\x7bx: [null,  \"\x7d  \x7b\" ]\x7d".toList
    "react 'a' with ".toList " in 'p'".toList "react".toList _ ["'a'".toList]
    ["in".toList, "'p'".toList] .props ⟨⟨.string, "'a'".toList⟩, []⟩
    [.clause .container [⟨.string, "'p'".toList⟩]]
    (.object [("x".toList, .array [.constant .none, .constant (.str "\x7d  \x7b".toList)])])
    (by decide) (by decide) (by cbv) hcut (by cbv)
    ⟨by decide, .quoted (v := "a".toList) (by decide) (by decide), by simp, by simp⟩
    (Text.startsBlank_cons.2 (by decide)) (by cbv) (by decide)
    (by simp [Segment.Valid, IsExpression, opens]) (by decide)
  exact h.2.1.trans (congrArg Except.ok (by cbv))

end Hydration.Tag
