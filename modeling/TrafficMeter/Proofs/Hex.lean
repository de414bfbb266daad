import TrafficMeter.Hex
import TrafficMeter.Proofs.Outcome
import Mathlib.Tactic.IntervalCases

/-!
# Hexadecimal text is read back

Every byte string is read back from its text (`parse_format`). The text holds upper-case digits and single
spaces only, so neither the mark `hex` nor the trimming of blanks touches a digit.
-/

namespace TrafficMeter

namespace Text

/-- Cutting off leading blanks leaves the other characters of `text`. -/
theorem filter_trimStart (text : List Char) :
    (trimStart text).filter (fun c => !isBlank c) = text.filter fun c => !isBlank c := by
  induction text with
  | nil => rfl
  | cons c rest ih =>
    rw [trimStart, List.dropWhile_cons]
    split
    next hblank => simpa [trimStart, hblank] using ih
    next => rfl

/-- Cutting off outer blanks leaves the other characters of `text`. -/
theorem filter_trim (text : List Char) :
    (trim text).filter (fun c => !isBlank c) = text.filter fun c => !isBlank c := by
  rw [trim, trimEnd, List.filter_reverse, ← trimStart, filter_trimStart, ← List.filter_reverse,
    List.reverse_reverse, filter_trimStart]

/-- Every character of `trim text` is one of `text`. -/
theorem mem_of_mem_trim {text : List Char} {c : Char} (h : c ∈ trim text) : c ∈ text := by
  have hend := (List.dropWhile_suffix isBlank).subset (List.mem_reverse.mp h)
  exact (List.dropWhile_suffix isBlank).subset (List.mem_reverse.mp hend)

end Text

namespace Hex

/-- A text without the letter `h` has no mark, and only its blanks are left out. -/
theorem compact_of_not_mem {text : List Char} (h : 'h' ∉ text) :
    compact text = text.filter fun c => !Text.isBlank c := by
  rw [compact]
  split
  next rest htrim =>
    -- A mark would begin with a letter that the text does not have.
    have hmem : 'h' ∈ Text.trim text := by simp [htrim]
    exact absurd (Text.mem_of_mem_trim hmem) h
  next => exact Text.filter_trim text

/-- A digit is one byte of text, is read back, and is neither blank nor the letter `h`. -/
theorem digit_spec {n : Nat} (h : n < 16) :
    (∃ byte, String.utf8EncodeChar (digit n) = [byte] ∧ digitOf? byte = some n) ∧
      Text.isBlank (digit n) = false ∧ digit n ≠ 'h' := by
  interval_cases n <;> exact ⟨⟨_, rfl, rfl⟩, rfl, by decide⟩

/-- The halves of a `byte` are digits. -/
theorem toNat_halves (byte : UInt8) : byte.toNat / 16 < 16 ∧ byte.toNat % 16 < 16 := by
  have hbyte : byte.toNat < 256 := byte.toNat_lt
  omega

/-- The two digits of a `byte` stay when blanks are left out. -/
theorem filter_pair (byte : UInt8) : (pair byte).filter (fun c => !Text.isBlank c) = pair byte := by
  obtain ⟨hhigh, hlow⟩ := toNat_halves byte
  simp [pair, (digit_spec hhigh).2.1, (digit_spec hlow).2.1]

/-- Without its spaces, the text of `bytes` is the digits of each of them. -/
theorem filter_formatChars (bytes : Bytes) :
    (formatChars bytes).filter (fun c => !Text.isBlank c) = bytes.flatMap pair := by
  fun_induction formatChars bytes with
  | case1 => rfl
  | case2 byte => simp [filter_pair]
  | case3 byte rest _ ih =>
    have hspace : Text.isBlank ' ' = true := rfl
    simp [filter_pair, ih, hspace]

/-- The letter `h` is no digit. -/
theorem not_mem_formatChars (bytes : Bytes) : 'h' ∉ formatChars bytes := by
  have hpair (byte : UInt8) : 'h' ∉ pair byte := by
    obtain ⟨hhigh, hlow⟩ := toNat_halves byte
    simp [pair, (digit_spec hhigh).2.2.symm, (digit_spec hlow).2.2.symm]
  fun_induction formatChars bytes with
  | case1 => simp
  | case2 byte => exact hpair byte
  | case3 byte rest _ ih => simp [hpair byte, ih]

/-- The digits of `bytes` are two bytes of text for each byte, and are read back. -/
theorem readPairs_flatMap_pair (position : Nat) (bytes : Bytes) :
    ((bytes.flatMap pair).flatMap String.utf8EncodeChar).length = 2 * bytes.length ∧
      readPairs position ((bytes.flatMap pair).flatMap String.utf8EncodeChar) = .ok bytes := by
  induction bytes generalizing position with
  | nil => exact ⟨rfl, rfl⟩
  | cons byte rest ih =>
    obtain ⟨hhigh, hlow⟩ := toNat_halves byte
    obtain ⟨⟨high, hhighText, hhighDigit⟩, -⟩ := digit_spec hhigh
    obtain ⟨⟨low, hlowText, hlowDigit⟩, -⟩ := digit_spec hlow
    obtain ⟨hlength, hread⟩ := ih (position + 2)
    -- Digits are single bytes in UTF-8, so each byte is two bytes of text.
    have htext : ((byte :: rest).flatMap pair).flatMap String.utf8EncodeChar =
        high :: low :: (rest.flatMap pair).flatMap String.utf8EncodeChar := by
      simp [pair, hhighText, hlowText]
    have hbyte : UInt8.ofNat (byte.toNat / 16 * 16 + byte.toNat % 16) = byte := by
      rw [Nat.div_add_mod', UInt8.ofNat_toNat]
    rw [htext]
    constructor
    · simp only [List.length_cons, hlength]
      omega
    · simp [readPairs, hhighDigit, hlowDigit, hread, hbyte]

/-- All `bytes` are read back from their text. -/
theorem parse_format (bytes : Bytes) : parse (format bytes) = .ok bytes := by
  obtain ⟨hlength, hread⟩ := readPairs_flatMap_pair 0 bytes
  rw [parse, format, String.toList_ofList, compact_of_not_mem (not_mem_formatChars bytes), filter_formatChars,
    readBytes, if_pos (by omega), hread]

/-- Different byte strings have different texts. -/
theorem format_injective : Function.Injective format := by
  intro bytes bytes' h
  have hparse := parse_format bytes
  rw [h, parse_format] at hparse
  exact (Except.ok.inj hparse).symm

end Hex

end TrafficMeter
