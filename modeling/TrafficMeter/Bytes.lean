/-!
# Bytes and little-endian words

Byte strings, and the words that are stored in them least significant byte first: `Bytes.ofUInt32` and
`Bytes.ofUInt64` write a word, `Bytes.uint32At` and `Bytes.uint64At` read one at an offset.
-/

namespace TrafficMeter

/-- A byte string, of any length. -/
abbrev Bytes := List UInt8

namespace Bytes

/-- `ofNat width n` is the `width` low bytes of `n`, least significant first. -/
def ofNat : Nat → Nat → Bytes
  | 0, _ => []
  | width + 1, n => UInt8.ofNat n :: ofNat width (n / 256)

/-- The number that a byte string stands for, least significant byte first. `toNat (ofNat width n)` is `n` modulo
`256 ^ width`. -/
def toNat : Bytes → Nat
  | [] => 0
  | byte :: rest => byte.toNat + 256 * toNat rest

/-- The `length` bytes of `bytes` from `start` on, or fewer if `bytes` ends before that. -/
def slice (bytes : Bytes) (start length : Nat) : Bytes :=
  (bytes.drop start).take length

/-- `word` as four bytes, least significant first. -/
def ofUInt32 (word : UInt32) : Bytes :=
  ofNat 4 word.toNat

/-- `word` as eight bytes, least significant first. -/
def ofUInt64 (word : UInt64) : Bytes :=
  ofNat 8 word.toNat

/-- The 32-bit word in the four bytes of `bytes` from `start` on. -/
def uint32At (bytes : Bytes) (start : Nat) : UInt32 :=
  UInt32.ofNat (bytes.slice start 4).toNat

/-- The 64-bit word in the eight bytes of `bytes` from `start` on. -/
def uint64At (bytes : Bytes) (start : Nat) : UInt64 :=
  UInt64.ofNat (bytes.slice start 8).toNat

/-- `length` zero bytes. -/
def zeros (length : Nat) : Bytes :=
  List.replicate length 0

@[simp]
theorem length_ofNat (width n : Nat) : (ofNat width n).length = width := by
  induction width generalizing n with
  | zero => rfl
  | succ width ih => simp [ofNat, ih]

end Bytes

end TrafficMeter
