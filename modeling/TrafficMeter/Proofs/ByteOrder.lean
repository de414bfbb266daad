import Mathlib.Data.String.Basic
import Mathlib.Tactic.SplitIfs
import TrafficMeter.Bytes

/-!
# Texts in the order of their bytes

Names are kept in the order of their characters. This is the order of their bytes as well: in UTF-8 a
character is written as a lead byte and up to three bytes of six bits each, most significant first, and
characters with more bytes have larger lead bytes. So of two characters the larger one has the larger bytes at
the first place where they differ (`Utf8.encode_append_lt`), and no text can be put before another by what
follows that place (`Utf8.bytes_lt_iff`).
-/

namespace TrafficMeter.Utf8

/-- The bytes of `text` in UTF-8. -/
def bytes (text : String) : Bytes :=
  text.toUTF8.data.toList

/-- The number of bytes that follow the lead byte of the character with this `code`. -/
def trailing (code : Nat) : Nat :=
  if code ≤ 0x7f then 0
  else if code ≤ 0x7ff then 1
  else if code ≤ 0xffff then 2
  else 3

/-- The lead byte of the character with this `code`, as a number: a mark for the bytes that follow, and the bits
that do not fit into them. -/
def lead (code : Nat) : Nat :=
  code / 64 ^ trailing code +
    match trailing code with
    | 0 => 0
    | 1 => 0xc0
    | 2 => 0xe0
    | _ => 0xf0

/-- `trail count code` are the bytes after the lead byte, one for each of the `count` lowest groups of six bits.
-/
def trail : Nat → Nat → Bytes
  | 0, _ => []
  | count + 1, code => trail count (code / 64) ++ [UInt8.ofNat (code % 64 + 128)]

/-- The bytes of `text` are those of its characters. -/
theorem bytes_eq (text : String) : bytes text = text.toList.flatMap String.utf8EncodeChar := by
  rw [bytes, String.toUTF8_eq_toByteArray, ← String.utf8Encode_toList]
  simp [List.utf8Encode]

theorem code_lt (c : Char) : c.val.toNat < 0x110000 := by
  rcases c.valid with hlt | ⟨-, hlt⟩
  · omega
  · exact hlt

/-- A character is written as its `lead` byte with the `trail` that follows. -/
theorem encode_eq (c : Char) :
    String.utf8EncodeChar c =
      UInt8.ofNat (lead c.val.toNat) :: trail (trailing c.val.toNat) c.val.toNat := by
  have hlt := code_lt c
  unfold String.utf8EncodeChar lead trailing
  generalize c.val.toNat = code at *
  dsimp only
  split_ifs
  · simp [trail]
  · rw [Nat.mod_eq_of_lt (show code / 64 < 32 by omega)]
    simp [trail]
  · rw [Nat.mod_eq_of_lt (show code / 4096 < 16 by omega)]
    simp [trail]
  · rw [Nat.mod_eq_of_lt (show code / 262144 < 8 by omega)]
    simp [trail, Nat.div_div_eq_div_mul]

/-- If two codes `code < other` agree in the bits above the last `count` groups, then the bytes of `other` for
these groups come later. -/
theorem trail_append_lt (count : Nat) {code other : Nat} (hlt : code < other)
    (hsame : code / 64 ^ count = other / 64 ^ count) (rest rest' : Bytes) :
    trail count code ++ rest < trail count other ++ rest' := by
  induction count generalizing code other rest rest' with
  | zero =>
    rw [Nat.pow_zero, Nat.div_one, Nat.div_one] at hsame
    exact absurd hsame hlt.ne
  | succ count ih =>
    simp only [trail, List.append_assoc, List.cons_append, List.nil_append]
    -- Either the groups before the last one decide, or these are equal and the last one does.
    rcases Nat.lt_or_ge (code / 64) (other / 64) with hlt' | hge
    · refine ih hlt' ?_ _ _
      rwa [Nat.div_div_eq_div_mul, Nat.div_div_eq_div_mul, ← Nat.pow_succ']
    · have heq : code / 64 = other / 64 := by omega
      rw [heq]
      refine List.append_left_lt ?_
      rw [List.cons_lt_cons_iff, UInt8.lt_iff_toNat_lt, UInt8.toNat_ofNat', UInt8.toNat_ofNat']
      exact .inl (by omega)

/-- If `code < other`, then `other` has the larger lead byte, or both have as many bytes and the same bits in the
lead byte. -/
theorem lead_lt_or {code other : Nat} (hlt : code < other) :
    lead code < lead other ∨
      trailing code = trailing other ∧ code / 64 ^ trailing code = other / 64 ^ trailing code := by
  unfold lead trailing
  split_ifs <;> simp <;> omega

theorem lead_lt {code : Nat} (h : code < 0x110000) : lead code < 256 := by
  unfold lead trailing
  split_ifs <;> simp <;> omega

/-- The bytes of the larger of two characters come later, whatever `rest` and `rest'` follow. -/
theorem encode_append_lt {c d : Char} (h : c < d) (rest rest' : Bytes) :
    String.utf8EncodeChar c ++ rest < String.utf8EncodeChar d ++ rest' := by
  have hcode : c.val.toNat < d.val.toNat := UInt32.lt_iff_toNat_lt.mp (Char.lt_def.mp h)
  -- Lead bytes are small enough to be compared as numbers.
  rw [encode_eq, encode_eq, List.cons_append, List.cons_append, List.cons_lt_cons_iff, UInt8.lt_iff_toNat_lt,
    UInt8.toNat_ofNat_of_lt' (lead_lt (code_lt c)), UInt8.toNat_ofNat_of_lt' (lead_lt (code_lt d))]
  rcases lead_lt_or hcode with hlt | ⟨htrailing, hquot⟩
  · exact .inl hlt
  · refine .inr ⟨?_, ?_⟩
    · rw [lead, lead, ← htrailing, hquot]
    · rw [← htrailing]
      exact trail_append_lt _ hcode hquot rest rest'

/-- `encode_append_lt` for lists of characters: the first ones that differ decide. -/
theorem flatMap_encode_lt {cs ds : List Char} (h : cs < ds) :
    cs.flatMap String.utf8EncodeChar < ds.flatMap String.utf8EncodeChar := by
  induction cs generalizing ds with
  | nil =>
    cases ds with
    | nil => exact absurd h (List.lt_irrefl _)
    | cons d ds =>
      -- Every character has a lead byte, so that a longer text has more bytes.
      simp [encode_eq]
  | cons c cs ih =>
    cases ds with
    | nil => exact absurd h (List.not_lt_nil _)
    | cons d ds =>
      rw [List.flatMap_cons, List.flatMap_cons]
      rcases List.cons_lt_cons_iff.mp h with hlt | ⟨rfl, hlt⟩
      · exact encode_append_lt hlt _ _
      · exact List.append_left_lt (ih hlt)

/-- Texts are ordered by their characters as they are by their bytes. -/
theorem bytes_lt_iff {s t : String} : bytes s < bytes t ↔ s < t := by
  have bytes_lt {s t : String} (h : s < t) : bytes s < bytes t := by
    rw [bytes_eq, bytes_eq]
    exact flatMap_encode_lt (String.lt_iff_toList_lt.mp h)
  refine ⟨fun h => ?_, bytes_lt⟩
  rcases lt_trichotomy s t with hlt | rfl | hgt
  · exact hlt
  · exact absurd h (List.lt_irrefl _)
  · exact absurd h (List.lt_asymm (bytes_lt hgt))

end TrafficMeter.Utf8
