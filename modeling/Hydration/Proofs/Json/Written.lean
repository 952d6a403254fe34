import Hydration.Json.Reader
import Hydration.Proofs.Number.Numeral
import Hydration.Proofs.Text.Blank
/-!
# Reading written documents

The compact text of a document is cut into the lexemes of the document, and the automaton reads these
back to the document, so writing loses nothing. Floating-point numbers are left out here: their text
is another matter.

* `readString_body`: a string is read as it was written, whatever follows it.
* `lex_write`: a written document is cut into its lexemes.
* `run_lexemes`: which take the automaton from one value to the next.
* `read?_write`: a document is read as it was written.
-/
namespace Hydration.Json
open Text (Stops)

/-! ## Strings -/

theorem readString_quote (rest : Text) : readString ('"' :: rest) = some ([], rest) := rfl

/-- A character that does not end the string and starts no escape. -/
theorem readString_cons {c : Char} (hq : c ≠ '"') (hb : c ≠ '\\') (rest : Text) :
    readString (c :: rest) =
      if c.toNat < 32 then none else (readString rest).map fun (t, after) => (c :: t, after) := by
  rw [readString.eq_6 c rest hq (fun _ _ _ _ _ _ _ _ _ h => absurd h hb)
    (fun _ _ _ _ _ h => absurd h hb) (fun _ _ h => absurd h hb)]
  simp only [hb, or_false]

/-- A character that is not escaped is read as itself. -/
theorem readString_plain {c : Char} (hq : c ≠ '"') (hb : c ≠ '\\') (hc : ¬ c.toNat < 32)
    (rest : Text) :
    readString (c :: rest) = (readString rest).map fun (t, after) => (c :: t, after) := by
  rw [readString_cons hq hb, if_neg hc]

/-- A control character has to be escaped. -/
theorem readString_control {c : Char} (hq : c ≠ '"') (hb : c ≠ '\\') (hc : c.toNat < 32)
    (rest : Text) : readString (c :: rest) = none := by
  rw [readString_cons hq hb, if_pos hc]

/-- An escaped character is read as what it stands for, unless it is the mark for a number. -/
theorem readString_escape {c e : Char} (hu : c ≠ 'u') (he : escape? c = some e) (rest : Text) :
    readString ('\\' :: c :: rest) = (readString rest).map fun (t, after) => (e :: t, after) := by
  rw [readString.eq_5 c rest (fun _ _ _ _ _ _ _ _ _ h => absurd h hu)
    (fun _ _ _ _ _ h => absurd h hu), he]

/-- Four hexadecimal digits are read as the character that they stand for, whatever follows, unless
it is a surrogate. -/
theorem readString_hex {a b c d : Char} (hlow : ∀ n, hex4? a b c d = some n → n < 0xD800)
    (rest : Text) :
    readString ('\\' :: 'u' :: a :: b :: c :: d :: rest) =
      (hex4? a b c d).bind fun n =>
        (readString rest).map fun (t, after) => (Char.ofNat n :: t, after) := by
  by_cases hnext : ∃ e f g h more, rest = '\\' :: 'u' :: e :: f :: g :: h :: more
  · obtain ⟨e, f, g, h, more, rfl⟩ := hnext
    rw [readString.eq_3]
    cases hn : hex4? a b c d with
    | none => rfl
    | some n =>
      have hvalid : n.isValidChar := Or.inl (hlow n hn)
      have hsurrogate : ¬ (0xD800 ≤ n ∧ n < 0xDC00) := by
        have := hlow n hn
        omega
      cases hm : hex4? e f g h with
      | some m => simp only [hsurrogate, if_false, hvalid, if_true, Option.bind_some]
      | none =>
        have hnone := readString_hex (fun m h => by rw [hm] at h; cases h) more
        rw [Option.bind_some, hnone, hm]
        rfl
  · rw [readString.eq_4 a b c d rest fun e f g h more heq => hnext ⟨e, f, g, h, more, heq⟩]
    cases hn : hex4? a b c d with
    | none => rfl
    | some n =>
      have hvalid : n.isValidChar := Or.inl (hlow n hn)
      simp only [hvalid, if_true, Option.bind_some]
termination_by rest.length

/-- A number below the surrogates is read as a character by itself. -/
theorem readString_number {a b c d : Char} {n : Nat} (hn : hex4? a b c d = some n)
    (hlow : n < 0xD800) (rest : Text) :
    readString ('\\' :: 'u' :: a :: b :: c :: d :: rest) =
      (readString rest).map fun (t, after) => (Char.ofNat n :: t, after) := by
  have hlow' : ∀ m, hex4? a b c d = some m → m < 0xD800 := fun m h => by
    rw [hn] at h
    exact Option.some.inj h ▸ hlow
  rw [readString_hex hlow', hn, Option.bind_some]

/-- A control character is written as four hexadecimal digits that stand for it. -/
theorem ofHex_control : ∀ n : Fin 32,
    Text.ofHex 4 n = ['0', '0', Nat.digitChar (n / 16), Nat.digitChar (n % 16)] ∧
      hex4? '0' '0' (Nat.digitChar (n / 16)) (Nat.digitChar (n % 16)) = some n.val := by
  decide

/-- The letters that stand for a character after a backslash. -/
theorem mem_of_escape? {e c : Char} (h : escape? e = some c) :
    e ∈ ['"', '\\', '/', 'b', 'f', 'n', 'r', 't'] := by
  by_contra hne
  simp only [List.mem_cons, List.not_mem_nil, or_false, not_or] at hne
  simp [escape?, hne] at h

/-- The ways to write a character of a string. -/
inductive Spelling (c : Char) : Prop
  | plain (hq : c ≠ '"') (hb : c ≠ '\\') (hc : ¬ c.toNat < 32) (h : writeChar c = [c])
  | letter (e : Char) (he : escape? e = some c) (h : writeChar c = ['\\', e])
  | number (hc : c.toNat < 32) (h : writeChar c = "\\u" ++ Text.ofHex 4 c.toNat)

theorem spelling (c : Char) : Spelling c := by
  by_cases hletter : c ∈ ['"', '\\', '\n', '\r', '\t', '\x0c', '\x08']
  · simp only [List.mem_cons, List.not_mem_nil, or_false] at hletter
    rcases hletter with rfl | rfl | rfl | rfl | rfl | rfl | rfl
    · exact .letter '"' rfl rfl
    · exact .letter '\\' rfl rfl
    · exact .letter 'n' rfl rfl
    · exact .letter 'r' rfl rfl
    · exact .letter 't' rfl rfl
    · exact .letter 'f' rfl rfl
    · exact .letter 'b' rfl rfl
  · simp only [List.mem_cons, List.not_mem_nil, or_false, not_or] at hletter
    by_cases hc : c.toNat < 32
    · exact .number hc (by simp [writeChar, hletter, hc])
    · exact .plain hletter.1 hletter.2.1 hc (by simp [writeChar, hletter, hc])

/-- A character is read as it was written. -/
theorem readString_writeChar (c : Char) (rest : Text) :
    readString (writeChar c ++ rest) = (readString rest).map fun (t, after) => (c :: t, after) := by
  cases spelling c with
  | plain hq hb hc h =>
    rw [h]
    exact readString_plain hq hb hc rest
  | letter e he h =>
    have hu : e ≠ 'u' := by
      rintro rfl
      exact absurd (mem_of_escape? he) (by decide)
    rw [h]
    exact readString_escape hu he rest
  | number hc h =>
    obtain ⟨htext, hvalue⟩ := ofHex_control ⟨c.toNat, hc⟩
    simp only at htext hvalue
    rw [h, htext]
    refine (readString_number hvalue (by omega) rest).trans ?_
    rw [Char.ofNat_toNat]

theorem readString_body (t rest : Text) :
    readString (t.flatMap writeChar ++ '"' :: rest) = some (t, rest) := by
  induction t with
  | nil => rw [List.flatMap_nil, List.nil_append, readString_quote]
  | cons c t ih => rw [List.flatMap_cons, List.append_assoc, readString_writeChar, ih]; rfl

/-! ## Lexemes -/

theorem lex_mark {c : Char} (hc : isMark c = true) (rest : Text) :
    lex (c :: rest) = (.mark c :: ·) <$> lex rest := by
  have hs : isSpace c = false := by
    simp only [isMark, Bool.or_eq_true, beq_iff_eq] at hc
    rcases hc with ((((rfl | rfl) | rfl) | rfl) | rfl) | rfl <;> rfl
  rw [lex, hs, hc]
  rfl

theorem lex_writeString (t rest : Text) :
    lex (writeString t ++ rest) = (.string t :: ·) <$> lex rest := by
  have htext : writeString t ++ rest = '"' :: (t.flatMap writeChar ++ '"' :: rest) := by
    simp [writeString]
  have hs : isSpace '"' = false := by decide
  have hm : isMark '"' = false := by decide
  rw [htext, lex, hs, hm]
  simp only [Bool.false_eq_true, if_false, if_true]
  split
  · next u after hread =>
    rw [readString_body] at hread
    cases hread
    rfl
  · next hread =>
    rw [readString_body] at hread
    cases hread

theorem lex_word {w rest : Text} (hne : w ≠ []) (hw : ∀ c ∈ w, isWordChar c = true)
    (hr : Stops isWordChar rest) : lex (w ++ rest) = (.word w :: ·) <$> lex rest := by
  obtain ⟨c, w, rfl⟩ := List.exists_cons_of_ne_nil hne
  have hall : ∀ d ∈ w, isWordChar d = true := fun d hd => hw d (List.mem_cons_of_mem _ hd)
  have hc := hw c List.mem_cons_self
  simp only [isWordChar, Bool.not_eq_true', Bool.or_eq_false_iff, beq_eq_false_iff_ne] at hc
  obtain ⟨⟨hs, hm⟩, hq⟩ := hc
  rw [List.cons_append, lex, hs, hm, Text.takeWhile_run hr hall, Text.dropWhile_run hr hall]
  simp [hq]

mutual

/-- No number of the document is a floating-point number. -/
def Exact : Json → Prop
  | .float _ => False
  | .array items => ExactItems items
  | .object fields => ExactFields fields
  | _ => True

def ExactItems : List Json → Prop
  | [] => True
  | v :: rest => Exact v ∧ ExactItems rest

def ExactFields : List (Text × Json) → Prop
  | [] => True
  | (_, v) :: rest => Exact v ∧ ExactFields rest

end

mutual

/-- The lexemes of a document. -/
def lexemes : Json → List Lexeme
  | .null => [.word "null"]
  | .bool b => [.word (if b then "true" else "false")]
  | .int i => [.word (writeInt i)]
  | .float x => [.word (writeFloat x)]
  | .string t => [.string t]
  | .array items => .mark '[' :: itemLexemes items
  | .object fields => .mark '{' :: fieldLexemes fields

def itemLexemes : List Json → List Lexeme
  | [] => [.mark ']']
  | v :: rest => lexemes v ++ moreItemLexemes rest

def moreItemLexemes : List Json → List Lexeme
  | [] => [.mark ']']
  | v :: rest => .mark ',' :: (lexemes v ++ moreItemLexemes rest)

def fieldLexemes : List (Text × Json) → List Lexeme
  | [] => [.mark '}']
  | (k, v) :: rest => .string k :: .mark ':' :: (lexemes v ++ moreFieldLexemes rest)

def moreFieldLexemes : List (Text × Json) → List Lexeme
  | [] => [.mark '}']
  | (k, v) :: rest => .mark ',' :: .string k :: .mark ':' :: (lexemes v ++ moreFieldLexemes rest)

end

/-- A mark ends a word in front of it. -/
theorem stops_mark {c : Char} (hc : isMark c = true) (rest : Text) :
    Stops isWordChar (c :: rest) :=
  Text.stops_cons (by simp [isWordChar, hc]) rest

theorem stops_writeMoreItems (more : List Json) (rest : Text) :
    Stops isWordChar (writeMoreItems more ++ rest) := by
  cases more <;> exact stops_mark (by decide) _

theorem stops_writeMoreFields (more : List (Text × Json)) (rest : Text) :
    Stops isWordChar (writeMoreFields more ++ rest) := by
  cases more <;> exact stops_mark (by decide) _

theorem isWordChar_of_isDigit {c : Char} (h : c.isDigit = true) : isWordChar c = true := by
  have hne : ∀ d : Char, d.isDigit = false → (c == d) = false := by
    intro d hd
    refine beq_false_of_ne ?_
    rintro rfl
    rw [h] at hd
    cases hd
  simp [isWordChar, isSpace, isMark, hne ' ' rfl, hne '\t' rfl, hne '\n' rfl, hne '\r' rfl,
    hne '\x7b' rfl, hne '\x7d' rfl, hne '[' rfl, hne ']' rfl, hne ':' rfl, hne ',' rfl, hne '"' rfl]

theorem not_mem_writeInt (i : Int) {c : Char} (hm : c ≠ '-') (hd : c.isDigit = false) :
    c ∉ writeInt i := by
  intro hmem
  rcases Number.mem_ofInt (i := i) hmem with rfl | hdigit
  · exact hm rfl
  · rw [hdigit] at hd
    cases hd

theorem isWordChar_writeInt (i : Int) : ∀ c ∈ writeInt i, isWordChar c = true := by
  intro c hc
  rcases Number.mem_ofInt (i := i) hc with rfl | hd
  · decide
  · exact isWordChar_of_isDigit hd

mutual

theorem lex_write : ∀ (v : Json), Exact v → ∀ rest, Stops isWordChar rest →
    lex (v.write ++ rest) = (v.lexemes ++ ·) <$> lex rest
  | .null, _, rest, hr => lex_word (by decide) (List.all_eq_true.1 rfl) hr
  | .bool b, _, rest, hr => by
    cases b <;> exact lex_word (by decide) (List.all_eq_true.1 rfl) hr
  | .int i, _, rest, hr => lex_word (Number.ofInt_ne_nil i) (isWordChar_writeInt i) hr
  | .float _, h, _, _ => h.elim
  | .string t, _, rest, _ => lex_writeString t rest
  | .array items, h, rest, _ => by
    rw [write, List.cons_append, lex_mark (by decide), lex_writeItems items h rest]
    cases lex rest <;> rfl
  | .object fields, h, rest, _ => by
    rw [write, List.cons_append, lex_mark (by decide), lex_writeFields fields h rest]
    cases lex rest <;> rfl

theorem lex_writeItems : ∀ (items : List Json), ExactItems items → ∀ rest,
    lex (writeItems items ++ rest) = (itemLexemes items ++ ·) <$> lex rest
  | [], _, rest => lex_mark (by decide) rest
  | v :: more, h, rest => by
    rw [writeItems, List.append_assoc, lex_write v h.1 _ (stops_writeMoreItems more rest),
      lex_writeMoreItems more h.2 rest]
    cases lex rest <;> simp [itemLexemes]

theorem lex_writeMoreItems : ∀ (items : List Json), ExactItems items → ∀ rest,
    lex (writeMoreItems items ++ rest) = (moreItemLexemes items ++ ·) <$> lex rest
  | [], _, rest => lex_mark (by decide) rest
  | v :: more, h, rest => by
    simp only [writeMoreItems, List.cons_append, List.append_assoc]
    rw [lex_mark (by decide), lex_write v h.1 _ (stops_writeMoreItems more rest), lex_writeMoreItems more h.2 rest]
    cases lex rest <;> simp [moreItemLexemes]

theorem lex_writeFields : ∀ (fields : List (Text × Json)), ExactFields fields → ∀ rest,
    lex (writeFields fields ++ rest) = (fieldLexemes fields ++ ·) <$> lex rest
  | [], _, rest => lex_mark (by decide) rest
  | (k, v) :: more, h, rest => by
    simp only [writeFields, List.cons_append, List.append_assoc]
    rw [lex_writeString, lex_mark (by decide), lex_write v h.1 _ (stops_writeMoreFields more rest),
      lex_writeMoreFields more h.2 rest]
    cases lex rest <;> simp [fieldLexemes]

theorem lex_writeMoreFields : ∀ (fields : List (Text × Json)), ExactFields fields → ∀ rest,
    lex (writeMoreFields fields ++ rest) = (moreFieldLexemes fields ++ ·) <$> lex rest
  | [], _, rest => lex_mark (by decide) rest
  | (k, v) :: more, h, rest => by
    simp only [writeMoreFields, List.cons_append, List.append_assoc]
    rw [lex_mark (by decide), lex_writeString, lex_mark (by decide),
      lex_write v h.1 _ (stops_writeMoreFields more rest), lex_writeMoreFields more h.2 rest]
    cases lex rest <;> simp [moreFieldLexemes]

end

/-! ## Integers -/

/-- The first digit of a number is zero only for zero itself. -/
theorem head?_ofNat {n : Nat} (h : 0 < n) : (Text.ofNat n).head? ≠ some '0' := by
  induction n using Nat.strongRecOn with
  | ind n ih =>
    unfold Text.ofNat at ih ⊢
    rw [Nat.toDigits_eq_if (by decide)]
    split
    · next hlow =>
      have : ∀ m : Fin 10, 0 < m.val → Nat.digitChar m ≠ '0' := by decide
      simpa using this ⟨n, hlow⟩ h
    · next hhigh =>
      have hrest := ih (n / 10) (by omega) (by omega)
      obtain ⟨c, more, hfirst⟩ := List.exists_cons_of_ne_nil (Nat.toDigits_ne_nil (n := n / 10))
      rw [hfirst] at hrest ⊢
      exact hrest

theorem asciiDigits?_ofNat (n : Nat) : asciiDigits? (Text.ofNat n) = some (Number.digitsOf n) := by
  have hne : (Text.ofNat n).isEmpty = false := by simp [Number.ofNat_ne_nil]
  have hall : (Text.ofNat n).all Char.isDigit = true := List.all_eq_true.2 Number.isDigit_ofNat
  simp [asciiDigits?, hne, hall, Number.digitsOf]

theorem wholeDigits?_ofNat (n : Nat) : wholeDigits? (Text.ofNat n) = some (Number.digitsOf n) := by
  have hzero : (Number.digitsOf n).length = 1 ∨ (Number.digitsOf n).head? ≠ some 0 := by
    rcases Nat.eq_zero_or_pos n with rfl | hn
    · exact .inl rfl
    · refine .inr fun h => head?_ofNat hn ?_
      rw [Number.digitsOf, List.head?_map, Option.map_eq_some_iff] at h
      obtain ⟨c, hc, hvalue⟩ := h
      have hdigit := Number.toNat_of_isDigit (Number.isDigit_ofNat c (List.mem_of_mem_head? hc))
      have h48 : c.toNat = '0'.toNat := by
        have : '0'.toNat = 48 := rfl
        omega
      rw [hc, Char.toNat_inj.1 h48]
  simp [wholeDigits?, asciiDigits?_ofNat, hzero]

theorem cutAt_of_not_mem {sep : Char} {t : Text} (h : sep ∉ t) : Text.cutAt sep t = (t, none) := by
  have hall : ∀ c ∈ t, decide (c ≠ sep) = true := by
    intro c hc
    refine decide_eq_true ?_
    rintro rfl
    exact h hc
  rw [Text.cutAt, List.dropWhile_eq_nil_iff.2 hall]

/-- The digits of a number have none of the letters that mark a part of a number. -/
theorem not_mem_ofNat (n : Nat) {c : Char} (hc : c.isDigit = false) : c ∉ Text.ofNat n := by
  intro hmem
  rw [Number.isDigit_ofNat c hmem] at hc
  cases hc

theorem map_exponentMark_ofNat (n : Nat) :
    (Text.ofNat n).map (fun c => if c = 'E' then 'e' else c) = Text.ofNat n := by
  have hmark : 'E' ∉ Text.ofNat n := not_mem_ofNat n rfl
  calc (Text.ofNat n).map (fun c => if c = 'E' then 'e' else c)
      = (Text.ofNat n).map id := List.map_congr_left fun c hc => by
        refine if_neg ?_
        rintro rfl
        exact hmark hc
    _ = Text.ofNat n := List.map_id _

/-- An integer has no point and no exponent. -/
theorem number?_writeInt (i : Int) : number? (writeInt i) = some (.int i) := by
  have hexponent := cutAt_of_not_mem (not_mem_ofNat i.natAbs (c := 'e') rfl)
  have hpoint := cutAt_of_not_mem (not_mem_ofNat i.natAbs (c := '.') rfl)
  have hvalue := Number.value_ofInt i
  unfold writeInt number?
  by_cases hi : i < 0
  · rw [if_pos hi]
    simp only [map_exponentMark_ofNat, hexponent, hpoint, wholeDigits?_ofNat]
    rw [decide_eq_true hi] at hvalue
    exact congrArg (some ∘ Json.int) hvalue
  · rw [if_neg hi]
    split
    · next negative body hsign =>
      split at hsign
      · next heq =>
        have := not_mem_ofNat i.natAbs (c := '-') rfl
        rw [heq] at this
        simp at this
      · cases hsign
        simp only [map_exponentMark_ofNat, hexponent, hpoint, wholeDigits?_ofNat]
        rw [decide_eq_false hi] at hvalue
        exact congrArg (some ∘ Json.int) hvalue

theorem ofWord?_writeInt (wide : Bool) (i : Int) : ofWord? wide (writeInt i) = some (.int i) := by
  -- a word for a constant has a letter, an integer has none
  have hne : ∀ word : Text, (∃ c ∈ word, c ≠ '-' ∧ c.isDigit = false) → writeInt i ≠ word := by
    rintro word ⟨c, hc, hm, hd⟩ rfl
    exact not_mem_writeInt i hm hd hc
  unfold ofWord?
  rw [if_neg (hne _ ⟨'n', by decide⟩), if_neg (hne _ ⟨'t', by decide⟩),
    if_neg (hne _ ⟨'f', by decide⟩), if_neg fun h => hne _ ⟨'N', by decide⟩ h.2,
    if_neg fun h => hne _ ⟨'I', by decide⟩ h.2, if_neg fun h => hne _ ⟨'I', by decide⟩ h.2,
    number?_writeInt]

/-! ## The automaton -/

section
variable {wide : Bool}

theorem run_cons {s t : State} {l : Lexeme} (h : step wide s l = some t) (more : List Lexeme) :
    run wide s (l :: more) = run wide t more := by
  rw [run, h]
  rfl

/-- The first item of an array is read as any value. -/
theorem run_firstItem {v : Json} (fs : List Frame) (more : List Lexeme) :
    run wide (.firstItem fs) (v.lexemes ++ more) =
      run wide (.value (.item [] :: fs)) (v.lexemes ++ more) := by
  cases v <;> rfl

mutual

theorem run_lexemes : ∀ (v : Json), Exact v → ∀ (fs : List Frame) (more : List Lexeme),
    run wide (.value fs) (v.lexemes ++ more) = run wide (deliver v fs) more
  | .null, _, _, more => run_cons rfl more
  | .bool b, _, _, more => by
    cases b <;> exact run_cons rfl more
  | .int i, _, fs, more => by
    refine run_cons ?_ more
    rw [step, readValue, ofWord?_writeInt]
    rfl
  | .float _, h, _, _ => h.elim
  | .string _, _, _, more => run_cons rfl more
  | .array items, h, fs, more => by
    rw [lexemes, List.cons_append, run_cons rfl]
    exact run_itemLexemes items h fs more
  | .object fields, h, fs, more => by
    rw [lexemes, List.cons_append, run_cons rfl]
    exact run_fieldLexemes fields h fs more

theorem run_itemLexemes : ∀ (items : List Json), ExactItems items →
    ∀ (fs : List Frame) (more : List Lexeme),
      run wide (.firstItem fs) (itemLexemes items ++ more) = run wide (deliver (.array items) fs) more
  | [], _, _, more => run_cons rfl more
  | v :: rest, h, fs, more => by
    rw [itemLexemes, List.append_assoc, run_firstItem, run_lexemes v h.1, deliver,
      run_moreItemLexemes rest h.2 [v] fs more]
    rfl

theorem run_moreItemLexemes : ∀ (items : List Json), ExactItems items →
    ∀ (before : List Json) (fs : List Frame) (more : List Lexeme),
      run wide (.afterItem before fs) (moreItemLexemes items ++ more) =
        run wide (deliver (.array (before.reverse ++ items)) fs) more
  | [], _, before, _, more => by
    rw [List.append_nil]
    exact run_cons rfl more
  | v :: rest, h, before, fs, more => by
    rw [moreItemLexemes, List.cons_append, List.append_assoc, run_cons rfl, run_lexemes v h.1,
      deliver, run_moreItemLexemes rest h.2 (v :: before) fs more]
    simp

theorem run_fieldLexemes : ∀ (fields : List (Text × Json)), ExactFields fields →
    ∀ (fs : List Frame) (more : List Lexeme),
      run wide (.firstKey fs) (fieldLexemes fields ++ more) =
        run wide (deliver (.object fields) fs) more
  | [], _, _, more => run_cons rfl more
  | (k, v) :: rest, h, fs, more => by
    rw [fieldLexemes, List.cons_append, List.cons_append, List.append_assoc, run_cons rfl,
      run_cons rfl, run_lexemes v h.1, deliver, run_moreFieldLexemes rest h.2 [(k, v)] fs more]
    rfl

theorem run_moreFieldLexemes : ∀ (fields : List (Text × Json)), ExactFields fields →
    ∀ (before : List (Text × Json)) (fs : List Frame) (more : List Lexeme),
      run wide (.afterField before fs) (moreFieldLexemes fields ++ more) =
        run wide (deliver (.object (before.reverse ++ fields)) fs) more
  | [], _, before, _, more => by
    rw [List.append_nil]
    exact run_cons rfl more
  | (k, v) :: rest, h, before, fs, more => by
    rw [moreFieldLexemes, List.cons_append, List.cons_append, List.cons_append, List.append_assoc,
      run_cons rfl, run_cons rfl, run_cons rfl, run_lexemes v h.1, deliver,
      run_moreFieldLexemes rest h.2 ((k, v) :: before) fs more]
    simp

end

/-- A document without floating-point numbers is read as it was written. -/
theorem read?_write {v : Json} (h : v.Exact) : read? wide v.write = some v := by
  have hlex := lex_write v h [] (by intro c rest heq; cases heq)
  rw [List.append_nil, lex] at hlex
  have hrun : run wide (.value []) (v.lexemes ++ []) = run wide (deliver v []) [] :=
    run_lexemes v h [] []
  rw [List.append_nil] at hrun
  simp [read?, hlex, hrun, deliver, run]

end

end Hydration.Json
