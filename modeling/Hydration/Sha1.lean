import Hydration.Text.Utf8
/-!
# SHA-1

The digest of FIPS 180-4 over a list of bytes. It tells component files apart in the names of their
modules, nothing more.

* `pad_length`: a padded message is a whole number of blocks.
-/
namespace Hydration.Sha1

/-- The five words of the state. -/
structure Digest where
  a : UInt32
  b : UInt32
  c : UInt32
  d : UInt32
  e : UInt32
  deriving DecidableEq, Repr

/-- The state before the first block. -/
def Digest.start : Digest := ⟨0x67452301, 0xEFCDAB89, 0x98BADCFE, 0x10325476, 0xC3D2E1F0⟩

/-- A word turned to the left. -/
def rotate (n x : UInt32) : UInt32 := (x <<< n) ||| (x >>> (32 - n))

/-- A number as eight bytes, the highest first. -/
def bytes8 (n : Nat) : List UInt8 := (List.range 8).map fun i => (n >>> (8 * (7 - i))).toUInt8

/-- The zero bytes between the closing bit and the length. -/
def zeroCount (length : Nat) : Nat := (119 - length % 64) % 64

/-- The message with a one bit, zeros and its length in bits. -/
def pad (message : List UInt8) : List UInt8 :=
  message ++ 0x80 :: List.replicate (zeroCount message.length) 0 ++ bytes8 (8 * message.length)

theorem pad_length (message : List UInt8) : (pad message).length % 64 = 0 := by
  simp [pad, zeroCount, bytes8]
  omega

/-- The words of a run of bytes, the highest byte first. -/
def words : List UInt8 → List UInt32
  | a :: b :: c :: d :: rest =>
    (a.toUInt32 <<< 24 ||| b.toUInt32 <<< 16 ||| c.toUInt32 <<< 8 ||| d.toUInt32) :: words rest
  | _ => []

/-- Adds words to a schedule that is kept with its last word first. -/
def extend : Nat → List UInt32 → List UInt32
  | 0, schedule => schedule
  | n + 1, schedule =>
    let at' (i : Nat) : UInt32 := schedule.getD i 0
    extend n (rotate 1 (at' 2 ^^^ at' 7 ^^^ at' 13 ^^^ at' 15) :: schedule)

/-- One round with the word of the schedule. -/
def round (s : Digest) (t : Nat) (w : UInt32) : Digest :=
  let (f, k) : UInt32 × UInt32 :=
    if t < 20 then ((s.b &&& s.c) ||| ((~~~s.b) &&& s.d), 0x5A827999)
    else if t < 40 then (s.b ^^^ s.c ^^^ s.d, 0x6ED9EBA1)
    else if t < 60 then ((s.b &&& s.c) ||| (s.b &&& s.d) ||| (s.c &&& s.d), 0x8F1BBCDC)
    else (s.b ^^^ s.c ^^^ s.d, 0xCA62C1D6)
  ⟨rotate 5 s.a + f + s.e + k + w, s.a, rotate 30 s.b, s.c, s.d⟩

/-- Takes one block of sixteen words into the state. -/
def compress (s : Digest) (block : List UInt32) : Digest :=
  let schedule := (extend 64 block.reverse).reverse
  let r := schedule.zipIdx.foldl (fun s (w, t) => round s t w) s
  ⟨s.a + r.a, s.b + r.b, s.c + r.c, s.d + r.d, s.e + r.e⟩

/-- Takes the given number of blocks into the state. -/
def compressAll : Nat → Digest → List UInt32 → Digest
  | 0, s, _ => s
  | n + 1, s, ws => compressAll n (compress s (ws.take 16)) (ws.drop 16)

/-- The digest of a message. -/
def digest (message : List UInt8) : Digest :=
  let padded := pad message
  compressAll (padded.length / 64) Digest.start (words padded)

/-- The digest in hexadecimal. -/
def hexDigest (message : List UInt8) : Text :=
  let s := digest message
  [s.a, s.b, s.c, s.d, s.e].flatMap fun w => Text.ofHex 8 w.toNat

end Hydration.Sha1
