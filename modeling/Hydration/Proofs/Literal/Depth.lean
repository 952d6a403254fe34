import Hydration.Tag.Token
import Hydration.Proofs.Literal.Grammar
import Hydration.Proofs.Literal.Lexemes
/-!
# The depth of brackets

Brackets are counted on the text, outside strings, and the automaton counts them by its stack. Both
counts agree, so a literal is open for the counting of brackets exactly as long as the automaton has
something on its stack, and that is the case from the first lexeme up to the last one.

* `bracketDepth_of_lexed`: the depth of a text is the weight of its lexemes.
* `run_depth`: reading lexemes adds their weight to the depth of the automaton.
* `weight_pos_of_readAll`: every proper part at the start of an accepted literal is open.
* `not_atom_string`: no string follows an atom.
-/
namespace Hydration.Literal

/-- What a lexeme adds to the depth of brackets. -/
def Lexeme.weight : Lexeme → Int
  | .mark c => Tag.bracketWeight c
  | .string _ | .atom _ => 0

/-- Brackets opened less brackets closed. -/
def weight (lexemes : List Lexeme) : Int := lexemes.foldr (fun l depth => l.weight + depth) 0

@[simp] theorem weight_nil : weight [] = 0 := rfl

@[simp] theorem weight_cons (l : Lexeme) (rest : List Lexeme) :
    weight (l :: rest) = l.weight + weight rest := rfl

/-! ## The depth of a text -/

theorem bracketWeight_of_not_mark {c : Char} (h : isMark c = false) : Tag.bracketWeight c = 0 := by
  unfold Tag.bracketWeight
  split
  · rename_i hc
    rcases hc with rfl | rfl <;> cases h
  · split
    · rename_i hc
      rcases hc with rfl | rfl <;> cases h
    · rfl

theorem bracketDepth_nil : Tag.bracketDepth [] = 0 := by
  unfold Tag.bracketDepth Text.Quoted.outside
  rfl

theorem bracketDepth_string {q : Char} {body : Text} (hq : Text.Quoted.isQuote q = true)
    (hb : Text.Quoted.IsBody true q body) (rest : Text) :
    Tag.bracketDepth (q :: (body ++ q :: rest)) = Tag.bracketDepth rest := by
  unfold Tag.bracketDepth
  rw [Text.Quoted.outside, if_pos hq]
  split
  · rename_i hs
    rw [hb rest] at hs
    cases hs
    rfl
  · rename_i hs
    rw [hb rest] at hs
    cases hs

theorem bracketDepth_cons {c : Char} (hc : Text.Quoted.isQuote c = false) (rest : Text) :
    Tag.bracketDepth (c :: rest) = Tag.bracketWeight c + Tag.bracketDepth rest := by
  unfold Tag.bracketDepth
  rw [Text.Quoted.outside, if_neg (by simp [hc])]
  rfl

theorem bracketDepth_atom {a : Text} (ha : ∀ c ∈ a, isAtomChar c = true) (rest : Text) :
    Tag.bracketDepth (a ++ rest) = Tag.bracketDepth rest := by
  induction a with
  | nil => rfl
  | cons c a ih =>
    obtain ⟨hq, hm, -⟩ := isAtomChar_iff.1 (ha c List.mem_cons_self)
    rw [List.cons_append, bracketDepth_cons hq, bracketWeight_of_not_mark hm,
      ih fun d hd => ha d (List.mem_cons_of_mem _ hd)]
    omega

theorem bracketDepth_of_lexed {t : Text} {lexemes : List Lexeme} (h : Lexed t lexemes) :
    Tag.bracketDepth t = weight lexemes := by
  induction h with
  | nil => exact bracketDepth_nil
  | string hq hb _ ih =>
    rw [bracketDepth_string hq hb, ih, weight_cons, Lexeme.weight]
    omega
  | mark hc _ ih =>
    rw [bracketDepth_cons (isQuote_of_isMark hc), ih]
    rfl
  | blank hc _ ih =>
    rw [bracketDepth_cons (Text.Quoted.isQuote_of_isBlank hc),
      bracketWeight_of_not_mark (isMark_of_isBlank hc), ih]
    omega
  | atom _ ha _ _ ih =>
    rw [bracketDepth_atom ha, ih, weight_cons, Lexeme.weight]
    omega

/-! ## The depth of the automaton -/

/-- How many objects and arrays are open. -/
def State.depth : State → Int
  | .value outer => outer.length
  | .entry _ outer | .colon _ _ outer | .afterField _ outer | .item _ outer | .afterItem _ outer =>
    outer.length + 1
  | .done _ => 0

/-- Once a lexeme was read, nothing is open only if the literal is complete. -/
def State.Settled (s : State) : Prop := (∃ e, s = .done e) ∨ 0 < s.depth

theorem depth_start : (State.value []).depth = 0 := rfl

theorem deliver_depth (e : Expression) (outer : List Frame) :
    (deliver e outer).depth = outer.length := by
  cases outer with
  | nil => rfl
  | cons f outer => cases f <;> simp [deliver, State.depth]

theorem deliver_settled (e : Expression) (outer : List Frame) : (deliver e outer).Settled := by
  cases outer with
  | nil => exact Or.inl ⟨e, rfl⟩
  | cons f outer =>
    right
    rw [deliver_depth, List.length_cons]
    omega

section
variable (reader : Option FilterReader)

theorem readValue_depth {outer : List Frame} {l : Lexeme} {s : State}
    (h : readValue reader outer l = .ok s) :
    s.depth = outer.length + l.weight ∧ s.Settled := by
  unfold readValue at h
  split at h
  · cases h
    exact ⟨rfl, Or.inr (by simp only [State.depth]; omega)⟩
  · cases h
    exact ⟨rfl, Or.inr (by simp only [State.depth]; omega)⟩
  · cases h
  · cases h
    exact ⟨by simp [deliver_depth, Lexeme.weight], deliver_settled _ _⟩
  · split at h
    · cases h
      exact ⟨by simp [deliver_depth, Lexeme.weight], deliver_settled _ _⟩
    · cases h

theorem readKey_depth {before : List (Text × Expression)} {outer : List Frame} {key : Text}
    {s : State} (h : readKey before outer key = .ok s) :
    s.depth = outer.length + 1 ∧ s.Settled := by
  unfold readKey at h
  split at h
  · cases h
  · cases h
    exact ⟨rfl, Or.inr (by simp only [State.depth]; omega)⟩

theorem closing_depth (e : Expression) (outer : List Frame) {c : Char}
    (hc : c = '}' ∨ c = ']') :
    (deliver e outer).depth = outer.length + 1 + (Lexeme.mark c).weight := by
  rw [deliver_depth]
  have hw : (Lexeme.mark c).weight = -1 := by
    rcases hc with rfl | rfl <;> rfl
  omega

theorem step_depth {s s' : State} {l : Lexeme} (h : step reader s l = .ok s') :
    s'.depth = s.depth + l.weight ∧ s'.Settled := by
  have inside : ∀ outer : List Frame, (0 : Int) < outer.length + 1 := fun outer => by omega
  cases s with
  | value outer => exact readValue_depth reader h
  | entry before outer =>
    simp only [step] at h
    split at h
    · cases h
      exact ⟨closing_depth _ _ (Or.inl rfl), deliver_settled _ _⟩
    · cases h
    · simpa [State.depth, Lexeme.weight] using readKey_depth h
    · simpa [State.depth, Lexeme.weight] using readKey_depth h
  | colon before key outer =>
    simp only [step] at h
    split at h
    · rename_i hl
      cases h
      exact ⟨by simp [hl, State.depth, Lexeme.weight, Tag.bracketWeight], Or.inr (inside _)⟩
    · cases h
  | afterField before outer =>
    simp only [step] at h
    split at h
    · rename_i hl
      cases h
      rw [hl]
      exact ⟨closing_depth _ _ (Or.inl rfl), deliver_settled _ _⟩
    · split at h
      · rename_i hl
        cases h
        exact ⟨by simp [hl, State.depth, Lexeme.weight, Tag.bracketWeight], Or.inr (inside _)⟩
      · cases h
  | item before outer =>
    simp only [step] at h
    split at h
    · rename_i hl
      cases h
      rw [hl]
      exact ⟨closing_depth _ _ (Or.inr rfl), deliver_settled _ _⟩
    · simpa [State.depth] using readValue_depth reader h
  | afterItem before outer =>
    simp only [step] at h
    split at h
    · rename_i hl
      cases h
      rw [hl]
      exact ⟨closing_depth _ _ (Or.inr rfl), deliver_settled _ _⟩
    · split at h
      · rename_i hl
        cases h
        exact ⟨by simp [hl, State.depth, Lexeme.weight, Tag.bracketWeight], Or.inr (inside _)⟩
      · cases h
  | done e => cases h

theorem run_depth {s s' : State} {lexemes : List Lexeme} (h : run reader s lexemes = .ok s') :
    s'.depth = s.depth + weight lexemes := by
  induction lexemes generalizing s with
  | nil =>
    cases h
    simp
  | cons l rest ih =>
    simp only [run] at h
    split at h
    · rename_i s₁ hs
      rw [ih h, (step_depth reader hs).1, weight_cons]
      omega
    · cases h

theorem run_settled {s s' : State} {lexemes : List Lexeme} (hne : lexemes ≠ [])
    (h : run reader s lexemes = .ok s') : s'.Settled := by
  obtain ⟨init, last, rfl⟩ : ∃ init last, lexemes = init ++ [last] :=
    ⟨_, _, (List.dropLast_concat_getLast hne).symm⟩
  rw [run_append] at h
  cases hi : run reader s init with
  | error r => rw [hi] at h; cases h
  | ok s₁ =>
    rw [hi] at h
    simp only [Except.bind, run] at h
    split at h
    · rename_i s₂ hs
      cases h
      exact (step_depth reader hs).2
    · cases h

/-- The state between the two parts of an accepted literal, from which the second part is read. -/
theorem state_of_readAll {a b : List Lexeme} {e : Expression}
    (h : readAll reader (a ++ b) = .ok e) :
    ∃ s, run reader (.value []) a = .ok s ∧ run reader s b = .ok (.done e) := by
  unfold readAll at h
  rw [run_append] at h
  cases ha : run reader (.value []) a with
  | error r => rw [ha] at h; cases h
  | ok s =>
    rw [ha] at h
    simp only [Except.bind] at h
    cases hb : run reader s b with
    | error r => rw [hb] at h; cases h
    | ok s' =>
      rw [hb] at h
      cases s' with
      | done e' =>
        cases h
        exact ⟨s, rfl, hb⟩
      | _ => cases h

theorem weight_of_readAll {lexemes : List Lexeme} {e : Expression}
    (h : readAll reader lexemes = .ok e) : weight lexemes = 0 := by
  obtain ⟨s, hs, hrun⟩ := state_of_readAll reader (a := lexemes) (b := []) (by simpa using h)
  cases hrun
  have hdepth := run_depth reader hs
  rw [depth_start] at hdepth
  have hdone : (State.done e).depth = 0 := rfl
  omega

theorem weight_pos_of_readAll {a b : List Lexeme} {e : Expression} (ha : a ≠ []) (hb : b ≠ [])
    (h : readAll reader (a ++ b) = .ok e) : 0 < weight a := by
  obtain ⟨s, hs, hrun⟩ := state_of_readAll reader h
  have hdepth := run_depth reader hs
  rw [depth_start] at hdepth
  rcases run_settled reader ha hs with ⟨e', rfl⟩ | hpos
  · obtain ⟨l, b, rfl⟩ := List.exists_cons_of_ne_nil hb
    cases hrun
  · omega

/-! ## Neighbours -/

theorem step_after_atom {s s' : State} {a t : Text} (h : step reader s (.atom a) = .ok s') :
    ∃ r, step reader s' (.string t) = .error r := by
  have delivered : ∀ e outer, ∃ r, step reader (deliver e outer) (.string t) = .error r := by
    intro e outer
    cases outer with
    | nil => exact ⟨_, rfl⟩
    | cons f outer => cases f <;> exact ⟨_, rfl⟩
  have value : ∀ outer, readValue reader outer (.atom a) = .ok s' →
      ∃ r, step reader s' (.string t) = .error r := by
    intro outer h
    simp only [readValue] at h
    split at h
    · cases h
      exact delivered _ _
    · cases h
  cases s with
  | value outer => exact value outer h
  | item before outer => exact value (.element before :: outer) h
  | entry before outer =>
    simp only [step, readKey] at h
    split at h
    · cases h
    · cases h
      exact ⟨_, rfl⟩
  | _ => cases h

theorem not_atom_string {before after : List Lexeme} {a t : Text} {e : Expression} :
    readAll reader (before ++ .atom a :: .string t :: after) ≠ .ok e := by
  intro h
  obtain ⟨s, -, hrun⟩ := state_of_readAll reader h
  simp only [run] at hrun
  split at hrun
  · rename_i s₁ hs
    obtain ⟨r, hr⟩ := step_after_atom reader (t := t) hs
    rw [hr] at hrun
    cases hrun
  · cases hrun

end
end Hydration.Literal
