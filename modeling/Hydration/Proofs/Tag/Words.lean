import Hydration.Tag.Words
import Hydration.Proofs.Text.Quoted
import Mathlib.Data.List.Basic
import Mathlib.Data.List.TakeWhile
/-!
# Words and bits

The cutting of contents goes from left to right and never looks back, so it is followed bit by bit
(`Cut`). A text whose strings are all closed is made of words with blanks between them (`Worded`),
and its words are its bits, also in front of other text: strings never straddle them.

* `takeBit_solid`: a word in front of a blank is one bit.
* `Cut.bits`: the bits up to some place, and from there on.
* `Worded.cut`: cutting a text takes off its words.
* `worded_of_closed`: a closed text is made of words.
* `joinTranslations_append`: translated texts are joined from left to right.
-/
namespace Hydration.Tag
open Text (StartsBlank isBlank)
open Text.Quoted (Closed IsBody isQuote)

theorem isBlank_of_isPlain {c : Char} (h : isPlain c = true) : isBlank c = false := by
  simp only [isPlain, Bool.and_eq_true, Bool.not_eq_true'] at h
  exact h.1

theorem stops_isPlain {t : Text} (h : StartsBlank t) : Text.Stops isPlain t :=
  h.stops fun _ => isBlank_of_isPlain

/-! ## Words -/

/-- A text without blanks outside strings. -/
inductive Solid : Text → Prop
  | nil : Solid []
  | string {q : Char} {body rest : Text} (hq : isQuote q = true) (hb : IsBody false q body)
    (h : Solid rest) : Solid (q :: (body ++ q :: rest))
  | char {c : Char} {rest : Text} (hc : isPlain c = true) (h : Solid rest) : Solid (c :: rest)

theorem Solid.closed {w : Text} (h : Solid w) : Closed false w := by
  induction h with
  | nil => exact .nil
  | string hq hb _ ih => exact .string hq hb ih
  | char hc _ ih =>
    simp only [isPlain, Bool.and_eq_true, Bool.not_eq_true'] at hc
    exact .char hc.2 ih

theorem Solid.head {c : Char} {w : Text} (h : Solid (c :: w)) : isBlank c = false := by
  cases h with
  | string hq _ _ => exact Text.Quoted.isBlank_of_isQuote hq
  | char hc _ => exact isBlank_of_isPlain hc

theorem Solid.last {w : Text} (h : Solid w) : ∀ c, w.getLast? = some c → isBlank c = false := by
  have step : ∀ {a rest : Text} {d : Char}, isBlank d = false →
      (∀ c, rest.getLast? = some c → isBlank c = false) →
      ∀ c, (a ++ d :: rest).getLast? = some c → isBlank c = false := by
    intro a rest d hd hrest c hc
    rw [List.getLast?_append_cons] at hc
    cases rest with
    | nil =>
      cases hc
      exact hd
    | cons x rest =>
      rw [List.getLast?_cons_cons] at hc
      exact hrest c hc
  induction h with
  | nil =>
    intro c hc
    cases hc
  | @string q body rest hq _ _ ih =>
    exact step (a := q :: body) (Text.Quoted.isBlank_of_isQuote hq) ih
  | char hc h ih =>
    have hb := (Solid.char hc h).head
    exact step (a := []) hb ih

/-- The strings of a word are taken up to its end. -/
theorem takeStrings_solid {w rest : Text} (hw : Solid w) (hr : StartsBlank rest) :
    takeStrings ((w ++ rest).dropWhile isPlain) = (w.dropWhile isPlain, rest) := by
  rw [Text.dropWhile_append_stops (stops_isPlain hr)]
  induction hw with
  | nil =>
    rw [List.dropWhile_nil, List.nil_append]
    cases rest with
    | nil => rw [takeStrings]
    | cons c rest =>
      rw [takeStrings, Text.Quoted.isQuote_of_isBlank (Text.startsBlank_cons.1 hr)]
      rfl
  | @string q body w hq hb hw ih =>
    have hplain : isPlain q = false := by simp [isPlain, hq]
    simp only [List.dropWhile_cons, hplain, Bool.false_eq_true, if_false, List.cons_append,
      List.append_assoc]
    rw [takeStrings, if_pos hq]
    split
    · rename_i hs
      rw [hb] at hs
      cases hs
    · rename_i hs
      rw [hb] at hs
      cases hs
      rw [Text.dropWhile_append_stops (stops_isPlain hr), ih,
        Text.takeWhile_append_stops (stops_isPlain hr)]
      simp only [List.cons_append, List.append_assoc, List.takeWhile_append_dropWhile]
  | char hc _ ih =>
    simpa [List.dropWhile_cons, hc] using ih

theorem takeBit_solid {w rest : Text} (hw : Solid w) (hr : StartsBlank rest) :
    takeBit (w ++ rest) = (w, rest) := by
  have hdrop := takeStrings_solid hw hr
  unfold takeBit
  split
  · rename_i left h
    -- without strings the word is a run of plain characters
    rw [hdrop] at h
    simp only [Prod.mk.injEq] at h
    have hall : ∀ c ∈ w, isPlain c = true := List.dropWhile_eq_nil_iff.1 h.1
    have hstops : Text.Stops (!isBlank ·) rest := hr.stops fun c hc => by simpa using hc
    have hword : ∀ c ∈ w, (!isBlank c) = true := by
      intro c hc
      simp [isBlank_of_isPlain (hall c hc)]
    rw [Text.takeWhile_run hstops hword, Text.dropWhile_run hstops hword]
  · rename_i strings left hne h
    rw [hdrop] at h
    simp only [Prod.mk.injEq] at h
    obtain ⟨rfl, rfl⟩ := h
    rw [Text.takeWhile_append_stops (stops_isPlain hr), List.takeWhile_append_dropWhile]

/-! ## Cutting up to a place -/

/-- Cutting the first text takes these bits off it and arrives at the second text. -/
inductive Cut : Text → List Text → Text → Prop
  | here (t : Text) : Cut t [] t
  | blank {c : Char} {rest t : Text} {ws : List Text} (hc : isBlank c = true) (h : Cut rest ws t) :
    Cut (c :: rest) ws t
  | bit {c : Char} {rest t : Text} {ws : List Text} (hc : isBlank c = false)
    (h : Cut (takeBit (c :: rest)).2 ws t) : Cut (c :: rest) ((takeBit (c :: rest)).1 :: ws) t

theorem bits_nil : bits [] = [] := by
  rw [bits]

theorem bits_blank {c : Char} (hc : isBlank c = true) (rest : Text) :
    bits (c :: rest) = bits rest := by
  rw [bits, dif_pos hc]

theorem bits_cons {c : Char} (hc : isBlank c = false) (rest : Text) :
    bits (c :: rest) = (takeBit (c :: rest)).1 :: bits (takeBit (c :: rest)).2 := by
  rw [bits, dif_neg (by simp [hc])]

theorem Cut.bits {s t : Text} {ws : List Text} (h : Cut s ws t) :
    Tag.bits s = ws ++ Tag.bits t := by
  induction h with
  | here => rfl
  | blank hc _ ih => rw [bits_blank hc, ih]
  | bit hc _ ih => rw [bits_cons hc, ih, List.cons_append]

theorem Cut.trans {a b c : Text} {u v : List Text} (h₁ : Cut a u b) (h₂ : Cut b v c) :
    Cut a (u ++ v) c := by
  induction h₁ with
  | here => exact h₂
  | blank hc _ ih => exact .blank hc (ih h₂)
  | bit hc _ ih => exact .bit hc (ih h₂)

theorem cut_solid {w rest : Text} (hw : Solid w) (hne : w ≠ []) (hr : StartsBlank rest) :
    Cut (w ++ rest) [w] rest := by
  obtain ⟨c, w, rfl⟩ := List.exists_cons_of_ne_nil hne
  have hbit := takeBit_solid hw hr
  have h : Cut (c :: (w ++ rest)) [(takeBit (c :: (w ++ rest))).1] rest := by
    refine .bit hw.head ?_
    rw [← List.cons_append, hbit]
    exact .here rest
  rw [← List.cons_append, hbit] at h
  exact h

/-! ## Texts made of words -/

/-- A text of words, with blanks between them and around. -/
inductive Worded : List Text → Text → Prop
  | nil : Worded [] []
  | blank {c : Char} {rest : Text} {ws : List Text} (hc : isBlank c = true) (h : Worded ws rest) :
    Worded ws (c :: rest)
  | word {w rest : Text} {ws : List Text} (hw : Solid w) (hne : w ≠ []) (hr : StartsBlank rest)
    (h : Worded ws rest) : Worded (w :: ws) (w ++ rest)

theorem Worded.cut {ws : List Text} {s t : Text} (h : Worded ws s) (ht : StartsBlank t) :
    Cut (s ++ t) ws t := by
  induction h with
  | nil => exact .here t
  | blank hc _ ih => exact .blank hc ih
  | word hw hne hr _ ih =>
    rw [List.append_assoc]
    exact (cut_solid hw hne (hr.append ht)).trans ih

theorem Worded.bits {ws : List Text} {s : Text} (h : Worded ws s) : Tag.bits s = ws := by
  have := (h.cut Text.startsBlank_nil).bits
  rwa [List.append_nil, bits_nil, List.append_nil] at this

theorem Worded.solid {ws : List Text} {s : Text} (h : Worded ws s) :
    ∀ w ∈ ws, Solid w ∧ w ≠ [] := by
  induction h with
  | nil => simp
  | blank _ _ ih => exact ih
  | word hw hne _ _ ih => exact List.forall_mem_cons.2 ⟨⟨hw, hne⟩, ih⟩

/-- A word in front of a text of words lengthens the first one, unless there is a blank. -/
theorem Worded.solid_append {w s : Text} {ws : List Text} (hw : Solid w)
    (hjoin : ∀ v, Solid v → Solid (w ++ v)) (hne : w ≠ []) (h : Worded ws s) :
    ∃ ws', Worded ws' (w ++ s) := by
  cases h with
  | nil => exact ⟨_, .word hw hne Text.startsBlank_nil .nil⟩
  | blank hc hrest =>
    exact ⟨_, .word hw hne (Text.startsBlank_cons.2 hc) (.blank hc hrest)⟩
  | word hv _ hr hrest =>
    rw [← List.append_assoc]
    exact ⟨_, .word (hjoin _ hv) (by simp [hne]) hr hrest⟩

theorem worded_of_closed {t : Text} (h : Closed false t) : ∃ ws, Worded ws t := by
  induction h with
  | nil => exact ⟨[], .nil⟩
  | @string q body rest hq hb _ ih =>
    obtain ⟨ws, h⟩ := ih
    have hjoin : ∀ v, Solid v → Solid ((q :: body ++ [q]) ++ v) := fun v hv => by
      simpa using Solid.string hq hb hv
    have := h.solid_append (by simpa using hjoin [] .nil) hjoin (by simp)
    simpa using this
  | @char c rest hc _ ih =>
    obtain ⟨ws, h⟩ := ih
    cases hb : isBlank c with
    | true => exact ⟨ws, .blank hb h⟩
    | false =>
      have hplain : isPlain c = true := by simp [isPlain, hc, hb]
      exact h.solid_append (.char hplain .nil) (fun v hv => .char hplain hv) (by simp : [c] ≠ [])

/-- Cutting closed text in front of a blank arrives at the blank. -/
theorem cut_of_closed {s t : Text} (hs : Closed false s) (ht : StartsBlank t) :
    Cut (s ++ t) (bits s) t := by
  obtain ⟨ws, h⟩ := worded_of_closed hs
  rw [h.bits]
  exact h.cut ht

theorem cut_blanks {gap : Text} (h : ∀ c ∈ gap, isBlank c = true) (t : Text) :
    Cut (gap ++ t) [] t := by
  induction gap with
  | nil => exact .here t
  | cons c rest ih =>
    exact .blank (h c List.mem_cons_self) (ih fun d hd => h d (List.mem_cons_of_mem _ hd))

/-! ## Words with single spaces -/

/-- Texts with single spaces between them. -/
abbrev spaced (ws : List Text) : Text := [' '].intercalate ws

theorem spaced_cons {ws : List Text} (w : Text) (h : ws ≠ []) :
    spaced (w :: ws) = w ++ ' ' :: spaced ws := by
  obtain ⟨v, ws, rfl⟩ := List.exists_cons_of_ne_nil h
  simp [spaced, List.intercalate_cons_cons]

theorem worded_spaced {ws : List Text} (h : ∀ w ∈ ws, Solid w ∧ w ≠ []) :
    Worded ws (spaced ws) := by
  induction ws with
  | nil => exact .nil
  | cons w ws ih =>
    obtain ⟨hw, hne⟩ := h w List.mem_cons_self
    have ih := ih fun v hv => h v (List.mem_cons_of_mem _ hv)
    cases ws with
    | nil => simpa [spaced] using Worded.word hw hne Text.startsBlank_nil .nil
    | cons v ws =>
      rw [spaced_cons w (List.cons_ne_nil v ws)]
      exact .word hw hne (Text.startsBlank_cons.2 (by decide)) (.blank (by decide) ih)

theorem spaced_last {ws : List Text} (h : ∀ w ∈ ws, Solid w ∧ w ≠ []) :
    ∀ c, (spaced ws).getLast? = some c → isBlank c = false := by
  induction ws with
  | nil =>
    intro c hc
    cases hc
  | cons w ws ih =>
    obtain ⟨hw, hne⟩ := h w List.mem_cons_self
    have ih := ih fun v hv => h v (List.mem_cons_of_mem _ hv)
    cases ws with
    | nil => simpa [spaced] using hw.last
    | cons v ws =>
      intro c hc
      have hv := (h v (by simp)).2
      have hmore : spaced (v :: ws) ≠ [] := by
        cases ws with
        | nil => simpa [spaced] using hv
        | cons u ws =>
          rw [spaced_cons v (List.cons_ne_nil u ws)]
          simp
      rw [spaced_cons w (List.cons_ne_nil v ws), List.getLast?_append_cons] at hc
      obtain ⟨d, more, hd⟩ := List.exists_cons_of_ne_nil hmore
      rw [hd, List.getLast?_cons_cons, ← hd] at hc
      exact ih c hc

theorem spaced_first {ws : List Text} (h : ∀ w ∈ ws, Solid w ∧ w ≠ []) :
    ∀ c, (spaced ws).head? = some c → isBlank c = false := by
  intro c hc
  cases ws with
  | nil => cases hc
  | cons w ws =>
    obtain ⟨hw, hne⟩ := h w List.mem_cons_self
    obtain ⟨d, w, rfl⟩ := List.exists_cons_of_ne_nil hne
    cases ws with
    | nil =>
      cases hc
      exact hw.head
    | cons v ws =>
      rw [spaced_cons _ (List.cons_ne_nil v ws)] at hc
      cases hc
      exact hw.head

theorem trim_spaced {ws : List Text} (h : ∀ w ∈ ws, Solid w ∧ w ≠ []) :
    Text.trim (spaced ws) = spaced ws :=
  Text.trim_eq_self (spaced_first h) (spaced_last h)

/-! ## Translated texts -/

theorem map_append_eq (a b : List Text) (r : Except Failure (List Text)) :
    (a ++ ·) <$> ((b ++ ·) <$> r) = ((a ++ b) ++ ·) <$> r := by
  cases r <;> simp

theorem joinTranslations_append {a b done : List Text} {pending : Option (Text × Text)}
    (h : joinTranslations pending a = .ok done) :
    joinTranslations pending (a ++ b) = (done ++ ·) <$> joinTranslations none b := by
  induction a generalizing pending done with
  | nil =>
    cases pending with
    | none => cases h; simp
    | some p => cases h
  | cons bit rest ih =>
    have taken : ∀ {w : Text}, (w :: ·) <$> joinTranslations none rest = .ok done →
        (w :: ·) <$> joinTranslations none (rest ++ b) =
          (done ++ ·) <$> joinTranslations none b := by
      intro w h
      cases hr : joinTranslations none rest with
      | error f => rw [hr] at h; cases h
      | ok more =>
        rw [hr] at h
        cases h
        rw [ih hr]
        exact map_append_eq [w] more _
    cases pending with
    | none =>
      simp only [joinTranslations, List.cons_append] at h ⊢
      split at h
      · exact taken h
      · split at h
        · rename_i he
          rw [if_pos he]
          exact taken h
        · rename_i he
          rw [if_neg he]
          exact ih h
    | some p =>
      obtain ⟨opened, ending⟩ := p
      simp only [joinTranslations, List.cons_append] at h ⊢
      split at h
      · rename_i he
        rw [if_pos he]
        exact taken h
      · rename_i he
        rw [if_neg he]
        exact ih h

theorem joinTranslations_plain {ws : List Text} (h : ∀ w ∈ ws, translationEnd? w = none) :
    joinTranslations none ws = .ok ws := by
  induction ws with
  | nil => rfl
  | cons w ws ih =>
    rw [joinTranslations, h w List.mem_cons_self]
    simp only
    rw [ih fun v hv => h v (List.mem_cons_of_mem _ hv)]
    rfl

end Hydration.Tag
