import Hydration.Failure
/-!
# UTF-8

The bytes of a text, and the text of bytes. Reading is strict: an overlong form, a surrogate, a
number above U+10FFFF or a cut sequence is refused.

* `decode?_eq_some_iff`: bytes are read as a text exactly if they are the bytes of this text.
-/
namespace Hydration.Text.Utf8

/-- The bytes of one character. -/
def encodeChar (c : Char) : List UInt8 :=
  let n := c.toNat
  if n < 0x80 then [n.toUInt8]
  else if n < 0x800 then [(0xC0 + n / 64).toUInt8, (0x80 + n % 64).toUInt8]
  else if n < 0x10000 then
    [(0xE0 + n / 4096).toUInt8, (0x80 + n / 64 % 64).toUInt8, (0x80 + n % 64).toUInt8]
  else
    [(0xF0 + n / 262144).toUInt8, (0x80 + n / 4096 % 64).toUInt8, (0x80 + n / 64 % 64).toUInt8,
      (0x80 + n % 64).toUInt8]

/-- The bytes of a text. -/
def encode (t : Text) : List UInt8 := t.flatMap encodeChar

/-- The six bits of a continuation byte. -/
def continuation? (b : UInt8) : Option Nat :=
  if 0x80 ≤ b.toNat ∧ b.toNat < 0xC0 then some (b.toNat - 0x80) else none

/-- The character with the given number, if it is in the range of its encoded length. -/
def char? (least n : Nat) : Option Char :=
  if least ≤ n ∧ n.isValidChar then some (Char.ofNat n) else none

/-- The text of the bytes, unless they are no UTF-8. -/
def decode? : List UInt8 → Option Text
  | [] => some []
  | a :: rest =>
    let n := a.toNat
    if n < 0x80 then (Char.ofNat n :: ·) <$> decode? rest
    else if n < 0xC0 then none
    else if n < 0xE0 then
      match rest with
      | b :: rest => do
        let x ← continuation? b
        let c ← char? 0x80 ((n - 0xC0) * 64 + x)
        (c :: ·) <$> decode? rest
      | _ => none
    else if n < 0xF0 then
      match rest with
      | b :: b' :: rest => do
        let x ← continuation? b
        let y ← continuation? b'
        let c ← char? 0x800 (((n - 0xE0) * 64 + x) * 64 + y)
        (c :: ·) <$> decode? rest
      | _ => none
    else if n < 0xF8 then
      match rest with
      | b :: b' :: b'' :: rest => do
        let x ← continuation? b
        let y ← continuation? b'
        let z ← continuation? b''
        let c ← char? 0x10000 ((((n - 0xF0) * 64 + x) * 64 + y) * 64 + z)
        (c :: ·) <$> decode? rest
      | _ => none
    else none

/-! ## Reading what was written -/

theorem toNat_toUInt8 {n : Nat} (h : n < 256) : n.toUInt8.toNat = n := by
  rw [Nat.toUInt8, UInt8.toNat_ofNat', Nat.mod_eq_of_lt h]

theorem continuation?_toUInt8 {n : Nat} (h : n < 64) :
    continuation? (0x80 + n).toUInt8 = some n := by
  rw [continuation?, toNat_toUInt8 (by omega), if_pos (by omega), Nat.add_sub_cancel_left]

theorem char?_toNat {c : Char} {least : Nat} (h : least ≤ c.toNat) :
    char? least c.toNat = some c := by
  rw [char?, if_pos ⟨h, c.valid⟩, Char.ofNat_toNat]

/-- A character is read from its bytes, whatever comes after them. -/
theorem decode?_encodeChar_append (c : Char) (rest : List UInt8) :
    decode? (encodeChar c ++ rest) = (c :: ·) <$> decode? rest := by
  have hc : c.toNat < 0x110000 := by
    rcases c.valid with h | ⟨-, h⟩
    · exact Nat.lt_trans h (by decide)
    · exact h
  unfold encodeChar
  dsimp only
  split
  · next h =>
    rw [List.singleton_append, decode?.eq_def]
    dsimp only
    rw [toNat_toUInt8 (by omega), if_pos h, Char.ofNat_toNat]
  · next h1 =>
    split
    · next h =>
      have hnumber : (0xC0 + c.toNat / 64 - 0xC0) * 64 + c.toNat % 64 = c.toNat := by omega
      simp only [List.cons_append, List.nil_append]
      rw [decode?, toNat_toUInt8 (by omega), if_neg (by omega), if_neg (by omega),
        if_pos (by omega)]
      simp only [continuation?_toUInt8 (Nat.mod_lt _ (by decide : 0 < 64)), Option.bind_eq_bind,
        Option.bind_some, hnumber, char?_toNat (Nat.le_of_not_lt h1)]
    · next h2 =>
      split
      · next h =>
        have hnumber : ((0xE0 + c.toNat / 4096 - 0xE0) * 64 + c.toNat / 64 % 64) * 64 +
            c.toNat % 64 = c.toNat := by omega
        simp only [List.cons_append, List.nil_append]
        rw [decode?, toNat_toUInt8 (by omega), if_neg (by omega), if_neg (by omega),
          if_neg (by omega), if_pos (by omega)]
        simp only [continuation?_toUInt8 (Nat.mod_lt _ (by decide : 0 < 64)), Option.bind_eq_bind,
          Option.bind_some, hnumber, char?_toNat (Nat.le_of_not_lt h2)]
      · next h3 =>
        have hnumber : (((0xF0 + c.toNat / 262144 - 0xF0) * 64 + c.toNat / 4096 % 64) * 64 +
            c.toNat / 64 % 64) * 64 + c.toNat % 64 = c.toNat := by omega
        simp only [List.cons_append, List.nil_append]
        rw [decode?, toNat_toUInt8 (by omega), if_neg (by omega), if_neg (by omega),
          if_neg (by omega), if_neg (by omega), if_pos (by omega)]
        simp only [continuation?_toUInt8 (Nat.mod_lt _ (by decide : 0 < 64)), Option.bind_eq_bind,
          Option.bind_some, hnumber, char?_toNat (Nat.le_of_not_lt h3)]

theorem decode?_encode (t : Text) : decode? (encode t) = some t := by
  induction t with
  | nil => rfl
  | cons c rest ih =>
    rw [encode, List.flatMap_cons, decode?_encodeChar_append]
    exact congrArg ((c :: ·) <$> ·) ih

/-! ## Writing what was read -/

theorem toNat_ofNat {n : Nat} (h : n.isValidChar) : (Char.ofNat n).toNat = n := by
  rw [Char.ofNat, dif_pos h]
  rfl

theorem toNat_of_continuation? {b : UInt8} {n : Nat} (h : continuation? b = some n) :
    b.toNat = 0x80 + n ∧ n < 64 := by
  rw [continuation?, Option.ite_none_right_eq_some] at h
  obtain ⟨hb, hn⟩ := h
  rw [← Option.some.inj hn]
  omega

theorem toNat_of_char? {least n : Nat} {c : Char} (h : char? least n = some c) :
    c.toNat = n ∧ least ≤ n := by
  rw [char?, Option.ite_none_right_eq_some] at h
  obtain ⟨⟨hleast, hn⟩, hc⟩ := h
  rw [← Option.some.inj hc]
  exact ⟨toNat_ofNat hn, hleast⟩

theorem toUInt8_eq {b : UInt8} {n : Nat} (h : n = b.toNat) : n.toUInt8 = b := by
  rw [h]
  exact UInt8.ofNat_toNat

/-- Bytes that are read as a text are the bytes of this text. -/
theorem encode_of_decode? {bytes : List UInt8} {t : Text} (h : decode? bytes = some t) :
    encode t = bytes := by
  fun_induction decode? bytes generalizing t
  case case1 =>
    cases h
    rfl
  case case2 a rest n hn ih =>
    obtain ⟨t, ht, rfl⟩ := Option.map_eq_some_iff.1 h
    have hc : (Char.ofNat n).toNat = n := toNat_ofNat (.inl (by omega))
    rw [encode, List.flatMap_cons, encodeChar, hc, if_pos hn, toUInt8_eq rfl]
    exact congrArg (a :: ·) (ih ht)
  case case4 a n h1 h2 h3 b rest ih =>
    obtain ⟨x, hx, h⟩ := Option.bind_eq_some_iff.1 h
    obtain ⟨c, hc, h⟩ := Option.bind_eq_some_iff.1 h
    obtain ⟨t, ht, rfl⟩ := Option.map_eq_some_iff.1 h
    obtain ⟨hb, hx⟩ := toNat_of_continuation? hx
    obtain ⟨hc, hleast⟩ := toNat_of_char? hc
    rw [encode, List.flatMap_cons, encodeChar, if_neg (by omega), if_pos (by omega),
      toUInt8_eq (b := a) (by omega), toUInt8_eq (b := b) (by omega)]
    exact congrArg (a :: b :: ·) (ih ht)
  case case6 a n h1 h2 h3 h4 b b' rest ih =>
    obtain ⟨x, hx, h⟩ := Option.bind_eq_some_iff.1 h
    obtain ⟨y, hy, h⟩ := Option.bind_eq_some_iff.1 h
    obtain ⟨c, hc, h⟩ := Option.bind_eq_some_iff.1 h
    obtain ⟨t, ht, rfl⟩ := Option.map_eq_some_iff.1 h
    obtain ⟨hb, hx⟩ := toNat_of_continuation? hx
    obtain ⟨hb', hy⟩ := toNat_of_continuation? hy
    obtain ⟨hc, hleast⟩ := toNat_of_char? hc
    rw [encode, List.flatMap_cons, encodeChar, if_neg (by omega), if_neg (by omega),
      if_pos (by omega), toUInt8_eq (b := a) (by omega), toUInt8_eq (b := b) (by omega),
      toUInt8_eq (b := b') (by omega)]
    exact congrArg (a :: b :: b' :: ·) (ih ht)
  case case8 a n h1 h2 h3 h4 h5 b b' b'' rest ih =>
    obtain ⟨x, hx, h⟩ := Option.bind_eq_some_iff.1 h
    obtain ⟨y, hy, h⟩ := Option.bind_eq_some_iff.1 h
    obtain ⟨z, hz, h⟩ := Option.bind_eq_some_iff.1 h
    obtain ⟨c, hc, h⟩ := Option.bind_eq_some_iff.1 h
    obtain ⟨t, ht, rfl⟩ := Option.map_eq_some_iff.1 h
    obtain ⟨hb, hx⟩ := toNat_of_continuation? hx
    obtain ⟨hb', hy⟩ := toNat_of_continuation? hy
    obtain ⟨hb'', hz⟩ := toNat_of_continuation? hz
    obtain ⟨hc, hleast⟩ := toNat_of_char? hc
    rw [encode, List.flatMap_cons, encodeChar, if_neg (by omega), if_neg (by omega),
      if_neg (by omega), toUInt8_eq (b := a) (by omega), toUInt8_eq (b := b) (by omega),
      toUInt8_eq (b := b') (by omega), toUInt8_eq (b := b'') (by omega)]
    exact congrArg (a :: b :: b' :: b'' :: ·) (ih ht)
  all_goals cases h

theorem decode?_eq_some_iff {bytes : List UInt8} {t : Text} :
    decode? bytes = some t ↔ encode t = bytes :=
  ⟨encode_of_decode?, fun h => h ▸ decode?_encode t⟩

/-! ## Faults -/

/-- Whether a byte continues a character. -/
def isContinuation (b : UInt8) : Bool := (continuation? b).isSome

/-- How many bytes a character takes that starts with the given byte, if one can. -/
def width? (a : UInt8) : Option Nat :=
  let n := a.toNat
  if n < 0x80 then some 1
  else if n < 0xC2 then none
  else if n < 0xE0 then some 2
  else if n < 0xF0 then some 3
  else if n < 0xF5 then some 4
  else none

/-- Whether the second byte of a character may follow the first one: it continues it, and the
character is in the range of its length and no surrogate. -/
def isSecond (a b : UInt8) : Bool :=
  isContinuation b &&
    !((a == 0xE0 && b < 0xA0) || (a == 0xED && 0xA0 ≤ b) || (a == 0xF0 && b < 0x90) ||
      (a == 0xF4 && 0x90 ≤ b))

/-- How many of the bytes that follow the first one go on with its character, at most the given
number. -/
def followers (a : UInt8) (most : Nat) (rest : List UInt8) : Nat :=
  match rest.take most with
  | [] => 0
  | b :: more => if isSecond a b then 1 + (more.takeWhile isContinuation).length else 0

/-- The first fault in bytes of which the first one has the given position. -/
def faultFrom? (start : Nat) (bytes : List UInt8) : Option Utf8Fault :=
  match bytes with
  | [] => none
  | a :: rest =>
    match width? a with
    | none => some ⟨.start, start, 1, a⟩
    | some width =>
      let found := followers a (width - 1) rest
      if found + 1 = width then faultFrom? (start + width) (rest.drop found)
      else if found = rest.length then some ⟨.ending, start, found + 1, a⟩
      else some ⟨.continuation, start, found + 1, a⟩
termination_by bytes.length
decreasing_by
  simp only [List.length_cons, List.length_drop]
  omega

/-- The first fault in bytes. -/
def fault? (bytes : List UInt8) : Option Utf8Fault := faultFrom? 0 bytes

end Hydration.Text.Utf8
