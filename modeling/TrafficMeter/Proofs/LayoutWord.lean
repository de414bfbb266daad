import TrafficMeter.Proofs.Raw

/-!
# Sizes as words

`Layout.actionLength`, `Layout.meterOffset` and `Layout.valueLength` are numbers without a bound. A machine computes
them with words of 64 bits, which wrap around, and rounds the length of the action reference by a mask. If
`layout.valueLength < UInt64.size`, nothing wraps around and the words are the numbers (`Layout.toNat_actionWord`,
`Layout.toNat_meterWord`, `Layout.toNat_valueWord`). Of a layout that is larger than this nothing is said.
-/

namespace TrafficMeter

namespace Layout

variable (layout : Layout)

/-- `4 + layout.actionDataLength`, rounded up to a multiple of eight by a mask. -/
def actionWord : UInt64 :=
  (4 + layout.actionDataLength + 7) &&& ~~~7

/-- `layout.counterLength` as a word, which is 0, 8 or 16. -/
def counterWord : UInt64 :=
  UInt64.ofNat layout.counterLength

/-- Where the meter in `slot` starts. -/
def meterWord (slot : UInt64) : UInt64 :=
  layout.actionWord + layout.counterWord + slot * 88

/-- The length of a value, which is where the meter in slot `layout.meters` would start. -/
def valueWord : UInt64 :=
  layout.meterWord layout.meters

/-- Clearing the last three bits of a `word` rounds it down to a multiple of eight. -/
theorem toNat_and_mask (word : UInt64) : (word &&& ~~~7).toNat = word.toNat / 8 * 8 := by
  have hmask : (~~~7 : UInt64).toNat = (Nat.pow 2 61 - 1) <<< 3 := by decide
  have hshift : word.toNat / 8 * 8 = (word.toNat >>> 3) <<< 3 := by
    rw [Nat.shiftRight_eq_div_pow, Nat.shiftLeft_eq]
  rw [UInt64.toNat_and, hmask, hshift]
  apply Nat.eq_of_testBit_eq
  intro bit
  rw [Nat.testBit_and, Nat.testBit_shiftLeft, Nat.testBit_shiftLeft, Nat.testBit_shiftRight]
  by_cases hlow : 3 ≤ bit
  · have hones : (Nat.pow 2 61 - 1).testBit (bit - 3) = decide (bit - 3 < 61) := Nat.testBit_two_pow_sub_one 61 _
    by_cases hhigh : bit < 64
    · simp [hones, hlow, show bit - 3 < 61 by omega]
    · -- A word has no bits from the sixty-fourth on.
      have hword : word.toNat.testBit bit = false :=
        Nat.testBit_lt_two_pow (Nat.lt_of_lt_of_le word.toNat_lt (Nat.pow_le_pow_right (by decide) (by omega)))
      simp [hword, hlow]
  · simp [hlow]

/-- If the length of a value fits into a word, then the action reference has the length that is computed with
words. -/
theorem toNat_actionWord (h : layout.valueLength < UInt64.size) :
    layout.actionWord.toNat = layout.actionLength := by
  have hroom : layout.actionLength < UInt64.size := Nat.lt_of_le_of_lt layout.actionLength_le_valueLength h
  rw [actionLength, alignEight, actionIdLength] at hroom ⊢
  rw [actionWord, toNat_and_mask, UInt64.toNat_add, UInt64.toNat_add]
  have h4 : (4 : UInt64).toNat = 4 := rfl
  have h7 : (7 : UInt64).toNat = 7 := rfl
  rw [UInt64.size] at hroom
  rw [h4, h7]
  omega

theorem toNat_counterWord : layout.counterWord.toNat = layout.counterLength := by
  cases hkind : layout.counter with
  | none => simp [counterWord, counterLength, hkind]
  | some kind => cases kind <;> simp [counterWord, counterLength, hkind, CounterKind.byteLength]

theorem toNat_meterWord (h : layout.valueLength < UInt64.size) {slot : UInt64} (hslot : slot ≤ layout.meters) :
    (layout.meterWord slot).toNat = layout.meterOffset slot.toNat := by
  have hle : slot.toNat ≤ layout.meters.toNat := UInt64.le_iff_toNat_le.mp hslot
  have h88 : (88 : UInt64).toNat = 88 := rfl
  rw [meterWord, UInt64.toNat_add, UInt64.toNat_add, UInt64.toNat_mul, layout.toNat_actionWord h,
    toNat_counterWord, h88]
  rw [valueLength, meterOffset, Record.byteLength, UInt64.size] at h
  rw [meterOffset, Record.byteLength]
  omega

theorem toNat_valueWord (h : layout.valueLength < UInt64.size) : layout.valueWord.toNat = layout.valueLength :=
  layout.toNat_meterWord h (UInt64.le_refl _)

end Layout

namespace Entry

/-- The raw meter in `slot` of `value`, where `layout.meterWord` says that it is. -/
def wordMeter (layout : Layout) (value : Bytes) (slot : Nat) : Bytes :=
  value.slice (layout.meterWord (.ofNat slot)).toNat Record.byteLength

theorem wordMeter_eq_rawMeter {layout : Layout} (h : layout.valueLength < UInt64.size) (value : Bytes) {slot : Nat}
    (hslot : slot < layout.meters.toNat) : wordMeter layout value slot = rawMeter layout value slot := by
  have htoNat : (UInt64.ofNat slot).toNat = slot :=
    UInt64.toNat_ofNat_of_lt' (hslot.trans layout.meters.toNat_lt)
  have hle : UInt64.ofNat slot ≤ layout.meters := by
    rw [UInt64.le_iff_toNat_le, htoNat]
    exact hslot.le
  rw [wordMeter, layout.toNat_meterWord h hle, htoNat]
  rfl

end Entry

end TrafficMeter
