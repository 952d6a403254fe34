import Hydration.Member.Basic
/-!
# Members of unique identifiers

The 128 bits of an identifier as a number, as digits and as bytes, and the fields that they are made
of: three of the time, two of the clock, and the node. Every field is a run of hexadecimal digits.

* `digits_length_le`: an identifier has no more digits than characters.
-/
namespace Hydration.Member

namespace Identifier

/-- The hexadecimal digits of an identifier. -/
def digits (t : Text) : List Nat := t.filterMap Text.hexValue?

theorem digits_length_le (t : Text) : (digits t).length ≤ t.length := List.length_filterMap_le _ _

/-- The number that hexadecimal digits stand for. -/
def number (digits : List Nat) : Nat := digits.foldl (fun n d => 16 * n + d) 0

/-- Some of the digits, from a place on. -/
def slice (t : Text) (start count : Nat) : List Nat := ((digits t).drop start).take count

/-- The number in some of the digits. -/
def field (t : Text) (start count : Nat) : Nat := number (slice t start count)

/-- The six fields. -/
def fields (t : Text) : List Nat :=
  [field t 0 8, field t 8 4, field t 12 4, field t 16 2, field t 18 2, field t 20 12]

/-- The bytes, where the first three fields may be read from their ends. -/
def bytes (backwards : Bool) (t : Text) : List UInt8 :=
  let part (start count : Nat) : List UInt8 :=
    (List.range count).map fun i => (field t ((start + i) * 2) 2).toUInt8
  let time (start count : Nat) : List UInt8 :=
    if backwards then (part start count).reverse else part start count
  time 0 4 ++ time 4 2 ++ time 6 2 ++ part 8 8

/-- The count of the clock: its two fields without the bits that tell the layout. -/
def clockSequence (t : Text) : Nat := field t 16 2 % 64 * 256 + field t 18 2

/-- The time: its fields from the last to the first, without the digit that tells the version. -/
def time (t : Text) : Nat := number (slice t 13 3 ++ slice t 8 4 ++ slice t 0 8)

/-- Whether the layout is the one that has versions. -/
def hasVersion (t : Text) : Bool := let d := field t 16 1; 8 ≤ d && d < 12

/-- What the layout is said to be. -/
def variant (t : Text) : Text :=
  if hasVersion t then "specified in RFC 4122"
  else
    let d := field t 16 1
    if d < 8 then "reserved for NCS compatibility"
    else if d < 14 then "reserved for Microsoft compatibility"
    else "reserved for future definition"

/-- The object that says that nothing is known about how an identifier was made. -/
def unknownSafety : Value :=
  .object ⟨"SafeUUID", "SafeUUID.unknown", "<SafeUUID.unknown: None>"⟩
    [("name", .str "unknown"), ("value", .none)]

end Identifier

open Identifier in
/-- The members of an identifier. -/
def identifierTable : List (Text × (Text → Value)) :=
  [("bytes", fun t => .bytes (bytes false t)),
    ("bytes_le", fun t => .bytes (bytes true t)),
    ("clock_seq", fun t => .int (clockSequence t)),
    ("clock_seq_hi_variant", fun t => .int (field t 16 2)),
    ("clock_seq_low", fun t => .int (field t 18 2)),
    ("fields", fun t => .tuple ((fields t).map fun n => .int (Int.ofNat n))),
    ("hex", fun t => .str ((digits t).flatMap (Text.ofHex 1))),
    ("int", fun t => .int (number (digits t))),
    ("is_safe", fun _ => unknownSafety),
    ("node", fun t => .int (field t 20 12)),
    ("time", fun t => .int (time t)),
    ("time_hi_version", fun t => .int (field t 12 4)),
    ("time_low", fun t => .int (field t 0 8)),
    ("time_mid", fun t => .int (field t 8 4)),
    ("urn", fun t => .str ("urn:uuid:" ++ t)),
    ("variant", fun t => .str (variant t)),
    ("version", fun t => if hasVersion t then .int (field t 12 1) else .none)]

/-- What an identifier has under a name. -/
def ofIdentifier? (name t : Text) : Option Member :=
  (identifierTable.lookup name).map fun member => .found (member t)

end Hydration.Member
