import Mathlib.Data.List.Induction
import Mathlib.Data.Set.List
import TrafficMeter.Proofs.ByteOrder
import TrafficMeter.Proofs.Hex
import TrafficMeter.Proofs.Trimming

/-!
# The grammar of hexadecimal text

Which texts stand for bytes, and why the others do not. The grammar is given without the reader: the digits by
their two tables (`Hex.IsDigit`), pairs of digits by the bytes that they stand for (`Hex.Denotes`), and a text by
the parts that it consists of (`Hex.Parts`). Reading follows the grammar (`Hex.parse_eq_ok_iff`), although it
looks at the bytes of what is left of a text and not at its characters: a character that is not ASCII begins with
a byte that is no digit.

Since only the values of the digits count, a text may be spelled in many ways (`Hex.Respells`). One of them is
canonical, and it is the one that is written.

## Main results

* `Hex.parse_eq_ok_iff`: what is read is what the grammar says;
* `Hex.readPairs_eq_error_iff`: what is refused is refused for its first byte that is no digit;
* `Hex.text_grammar_exact`: the whole grammar, with the canonical text and other spellings.
-/

namespace TrafficMeter.Hex

/-- `c` is the digit of `value`, in lower or in upper case. -/
def IsDigit (c : Char) (value : Nat) : Prop :=
  "0123456789abcdef".toList[value]? = some c ∨ "0123456789ABCDEF".toList[value]? = some c

instance (c : Char) (value : Nat) : Decidable (IsDigit c value) := inferInstanceAs (Decidable (_ ∨ _))

namespace IsDigit

variable {c : Char} {value : Nat}

theorem lt (h : IsDigit c value) : value < 16 := by
  rcases h with h | h <;> exact (List.getElem?_eq_some_iff.mp h).1

/-- Reading a digit `c` gives its `value`. -/
theorem digit?_eq (h : IsDigit c value) : Text.digit? 16 c = some value := by
  have hlt := h.lt
  rcases h with h | h <;> interval_cases value <;> cases h <;> rfl

end IsDigit

/-- What is read as a digit lies in one of three runs of characters. -/
theorem runs_of_digit? {c : Char} {value : Nat} (h : Text.digit? 16 c = some value) :
    (48 ≤ c.toNat ∧ c.toNat ≤ 57 ∧ c.toNat - 48 = value) ∨
      (97 ≤ c.toNat ∧ c.toNat ≤ 102 ∧ c.toNat - 97 + 10 = value) ∨
      (65 ≤ c.toNat ∧ c.toNat ≤ 70 ∧ c.toNat - 65 + 10 = value) := by
  simp only [Text.digit?, Option.filter_eq_some_iff] at h
  obtain ⟨h, -⟩ := h
  split_ifs at h with hdigit hlower hupper
  · simp only [Char.isDigit, Bool.and_eq_true, decide_eq_true_eq] at hdigit
    exact .inl ⟨hdigit.1, hdigit.2, Option.some.inj h⟩
  · exact .inr (.inl ⟨hlower.1, hlower.2, Option.some.inj h⟩)
  · exact .inr (.inr ⟨hupper.1, hupper.2, Option.some.inj h⟩)

namespace IsDigit

variable {c : Char} {value : Nat}

/-- Digits are ASCII characters. -/
theorem toNat_lt (h : IsDigit c value) : c.toNat < 128 := by
  have hruns := runs_of_digit? h.digit?_eq
  omega

theorem not_blank (h : IsDigit c value) : Text.isBlank c = false := by
  have hruns := runs_of_digit? h.digit?_eq
  simp only [Text.isBlank, Bool.or_eq_false_iff, Bool.and_eq_false_iff, decide_eq_false_iff_not,
    beq_eq_false_iff_ne]
  omega

end IsDigit

/-- `Text.digit? 16` reads digits only, and as their values. -/
theorem digit?_eq_some_iff {c : Char} {value : Nat} : Text.digit? 16 c = some value ↔ IsDigit c value := by
  refine ⟨fun h => ?_, IsDigit.digit?_eq⟩
  have hruns := runs_of_digit? h
  rw [← Char.ofNat_toNat c]
  generalize c.toNat = code at hruns
  rcases hruns with ⟨hlow, hhigh, rfl⟩ | ⟨hlow, hhigh, rfl⟩ | ⟨hlow, hhigh, rfl⟩ <;>
    interval_cases code <;> decide

/-- Digits, two for each byte and the high one first, and the bytes that they stand for. -/
inductive Denotes : List Char → Bytes → Prop where
  /-- No digits stand for no bytes. -/
  | nil : Denotes [] []
  /-- Two digits stand for one byte. -/
  | cons {high low : Char} {h l : Nat} {byte : UInt8} {rest : List Char} {bytes : Bytes}
      (hhigh : IsDigit high h) (hlow : IsDigit low l) (hbyte : byte.toNat = 16 * h + l)
      (hrest : Denotes rest bytes) : Denotes (high :: low :: rest) (byte :: bytes)

/-- The character with the number of `byte`. -/
def character (byte : UInt8) : Char :=
  Char.ofNat byte.toNat

theorem toNat_character (byte : UInt8) : (character byte).toNat = byte.toNat := by
  have hvalid : byte.toNat.isValidChar := .inl (Nat.lt_trans byte.toNat_lt (by decide))
  rw [character, Char.ofNat, dif_pos hvalid]
  rfl

/-- The `byte` of text is a digit. -/
def IsDigitByte (byte : UInt8) : Prop :=
  ∃ value, IsDigit (character byte) value

theorem digitOf?_eq_some_iff {byte : UInt8} {value : Nat} :
    digitOf? byte = some value ↔ IsDigit (character byte) value :=
  digit?_eq_some_iff

theorem digitOf?_eq_none_iff {byte : UInt8} : digitOf? byte = none ↔ ¬ IsDigitByte byte := by
  simp only [IsDigitByte, ← digitOf?_eq_some_iff, Option.eq_none_iff_forall_ne_some, not_exists, ne_eq]

/-- `byte` is the first one of `text` that is no digit, and stands at `position`. -/
structure FirstFault (text : Bytes) (position : Nat) (byte : UInt8) : Prop where
  /-- The byte stands at the position. -/
  getElem?_eq : text[position]? = some byte
  /-- The byte is no digit. -/
  not_digit : ¬ IsDigitByte byte
  /-- There are only digits before it. -/
  digits_before : ∀ earlier ∈ text.take position, IsDigitByte earlier

@[simp]
theorem not_firstFault_nil (position : Nat) (byte : UInt8) : ¬ FirstFault [] position byte := fun h => by
  simpa using h.getElem?_eq

@[simp]
theorem firstFault_cons_zero {first byte : UInt8} {rest : Bytes} :
    FirstFault (first :: rest) 0 byte ↔ byte = first ∧ ¬ IsDigitByte first := by
  constructor
  · rintro ⟨hbyte, hdigit, -⟩
    cases hbyte
    exact ⟨rfl, hdigit⟩
  · rintro ⟨rfl, hdigit⟩
    exact ⟨rfl, hdigit, by simp⟩

@[simp]
theorem firstFault_cons_succ {first byte : UInt8} {rest : Bytes} {position : Nat} :
    FirstFault (first :: rest) (position + 1) byte ↔ IsDigitByte first ∧ FirstFault rest position byte := by
  constructor
  · rintro ⟨hbyte, hdigit, hbefore⟩
    obtain ⟨hfirst, hbefore⟩ := List.forall_mem_cons.mp hbefore
    exact ⟨hfirst, hbyte, hdigit, hbefore⟩
  · rintro ⟨hfirst, hbyte, hdigit, hbefore⟩
    exact ⟨hbyte, hdigit, List.forall_mem_cons.mpr ⟨hfirst, hbefore⟩⟩

/-- `readPairs` reads pairs of digits as the `bytes` that they stand for. -/
theorem readPairs_eq_ok_iff {position : Nat} {text bytes : Bytes} :
    readPairs position text = .ok bytes ↔ Denotes (text.map character) bytes := by
  fun_induction readPairs position text generalizing bytes with
  | case1 position =>
    constructor
    · intro h
      cases h
      exact .nil
    · rintro ⟨⟩
      rfl
  | case2 position byte =>
    constructor
    · intro h
      cases h
    · rintro ⟨⟩
  | case3 position high low rest hhigh =>
    constructor
    · intro h
      cases h
    · rintro (_ | ⟨hdigit, -, -, -⟩)
      exact absurd ⟨_, hdigit⟩ (digitOf?_eq_none_iff.mp hhigh)
  | case4 position high low rest h hlow hhigh =>
    constructor
    · intro h
      cases h
    · rintro (_ | ⟨-, hdigit, -, -⟩)
      exact absurd ⟨_, hdigit⟩ (digitOf?_eq_none_iff.mp hlow)
  | case5 position high low rest h l hlow hhigh ih =>
    rw [digitOf?_eq_some_iff] at hhigh hlow
    have hbyte : (UInt8.ofNat (h * 16 + l)).toNat = 16 * h + l := by
      have hlt := hhigh.lt
      have hlt' := hlow.lt
      rw [UInt8.toNat_ofNat_of_lt' (by rw [UInt8.size]; omega), Nat.mul_comm]
    rw [bind_eq_ok_iff]
    constructor
    · rintro ⟨rest', hrest, hbytes⟩
      cases hbytes
      exact .cons hhigh hlow hbyte (ih.mp hrest)
    · rintro (_ | ⟨hhigh', hlow', hbyte', hrest⟩)
      -- A digit has one value only, so the byte is the one that was read.
      cases hhigh.digit?_eq.symm.trans hhigh'.digit?_eq
      cases hlow.digit?_eq.symm.trans hlow'.digit?_eq
      rw [← hbyte, UInt8.toNat_inj] at hbyte'
      exact ⟨_, ih.mpr hrest, by rw [hbyte']; rfl⟩

/-- `readPairs` refuses a `text` of pairs for its first byte that is no digit. -/
theorem readPairs_eq_error_iff {position : Nat} {text : Bytes} (h : text.length % 2 = 0) {error : Error} :
    readPairs position text = .error error ↔
      ∃ offset byte, FirstFault text offset byte ∧ error = .invalidCharacter byte (position + offset) := by
  fun_induction readPairs position text with
  | case1 position => simp
  | case2 position byte => simp at h
  | case3 position high low rest hhigh =>
    have hfault := digitOf?_eq_none_iff.mp hhigh
    constructor
    · intro herror
      cases herror
      exact ⟨0, high, by simpa using hfault, rfl⟩
    · rintro ⟨_ | offset, byte, hfirst, rfl⟩
      · rw [firstFault_cons_zero] at hfirst
        rw [hfirst.1]
        rfl
      · exact absurd (firstFault_cons_succ.mp hfirst).1 hfault
  | case4 position high low rest value hlow hhigh =>
    have hdigit : IsDigitByte high := ⟨value, digitOf?_eq_some_iff.mp hhigh⟩
    have hfault := digitOf?_eq_none_iff.mp hlow
    constructor
    · intro herror
      cases herror
      exact ⟨1, low, by simp [hdigit, hfault], rfl⟩
    · rintro ⟨_ | _ | offset, byte, hfirst, rfl⟩
      · exact absurd hdigit (firstFault_cons_zero.mp hfirst).2
      · obtain ⟨-, hfirst⟩ := firstFault_cons_succ.mp hfirst
        rw [(firstFault_cons_zero.mp hfirst).1]
      · simp [hfault] at hfirst
  | case5 position high low rest value value' hlow hhigh ih =>
    have hdigit : IsDigitByte high := ⟨value, digitOf?_eq_some_iff.mp hhigh⟩
    have hdigit' : IsDigitByte low := ⟨value', digitOf?_eq_some_iff.mp hlow⟩
    have hrest := ih (by simp only [List.length_cons] at h; omega)
    -- Two digits are not at fault, so the fault of the whole is that of the rest.
    calc _ ↔ readPairs (position + 2) rest = .error error := by
          cases readPairs (position + 2) rest <;> simp
      _ ↔ ∃ offset byte, FirstFault rest offset byte ∧
            error = .invalidCharacter byte (position + 2 + offset) := hrest
      _ ↔ _ := by
        constructor
        · rintro ⟨offset, byte, hfirst, rfl⟩
          exact ⟨offset + 2, byte, by simp [hdigit, hdigit', hfirst], congrArg _ (by omega)⟩
        · rintro ⟨_ | _ | offset, byte, hfirst, rfl⟩
          · simp [hdigit] at hfirst
          · simp [hdigit'] at hfirst
          · simp only [firstFault_cons_succ] at hfirst
            exact ⟨offset, byte, hfirst.2.2, congrArg _ (by omega)⟩

/-- An ASCII character `c` is one byte of text, that of its number. -/
theorem map_character_encode {c : Char} (h : c.toNat < 128) :
    (String.utf8EncodeChar c).map character = [c] := by
  have htrailing : Utf8.trailing c.val.toNat = 0 := if_pos (Nat.le_of_lt_succ h)
  have hlead : Utf8.lead c.val.toNat = c.toNat := by
    rw [Utf8.lead, htrailing, Nat.pow_zero, Nat.div_one]
    rfl
  have hbyte : (UInt8.ofNat c.toNat).toNat = c.toNat :=
    UInt8.toNat_ofNat_of_lt' (Nat.lt_trans h (by decide))
  rw [Utf8.encode_eq, htrailing, hlead, Utf8.trail, List.map_singleton, character, hbyte, Char.ofNat_toNat]

/-- Any other character `c` has a byte in UTF-8 that is no digit. -/
theorem exists_mem_encode_not_digit {c : Char} (h : 128 ≤ c.toNat) :
    ∃ byte ∈ String.utf8EncodeChar c, ¬ IsDigitByte byte := by
  have hlead : 128 ≤ Utf8.lead c.val.toNat := by
    have hcode : ¬ c.val.toNat ≤ 0x7f := Nat.not_le.mpr h
    unfold Utf8.lead Utf8.trailing
    split_ifs <;> simp
  have hlt := Utf8.lead_lt (Utf8.code_lt c)
  rw [Utf8.encode_eq]
  refine ⟨_, List.mem_cons_self, ?_⟩
  rintro ⟨value, hdigit⟩
  have hascii := hdigit.toNat_lt
  rw [toNat_character, UInt8.toNat_ofNat_of_lt' hlt] at hascii
  omega

/-- The bytes of a `text` are its characters, if these are ASCII. -/
theorem map_character_flatMap_encode {text : List Char} (h : ∀ c ∈ text, c.toNat < 128) :
    (text.flatMap String.utf8EncodeChar).map character = text := by
  rw [List.map_flatMap, List.flatMap_congr fun c hc => map_character_encode (h c hc), List.flatMap_singleton']

/-- A `text` that stands for `bytes` consists of digits. -/
theorem Denotes.isDigit {text : List Char} {bytes : Bytes} (h : Denotes text bytes) :
    ∀ c ∈ text, ∃ value, IsDigit c value := by
  induction h with
  | nil => simp
  | cons hhigh hlow _ _ ih => simpa using ⟨⟨_, hhigh⟩, ⟨_, hlow⟩, ih⟩

/-- The bytes of a `text` stand for what its characters stand for. -/
theorem denotes_flatMap_encode_iff {text : List Char} {bytes : Bytes} :
    Denotes ((text.flatMap String.utf8EncodeChar).map character) bytes ↔ Denotes text bytes := by
  constructor
  · intro h
    have hascii : ∀ c ∈ text, c.toNat < 128 := by
      intro c hc
      by_contra hlarge
      obtain ⟨byte, hbyte, hdigit⟩ := exists_mem_encode_not_digit (Nat.not_lt.mp hlarge)
      exact hdigit (h.isDigit _ (List.mem_map_of_mem (List.mem_flatMap_of_mem hc hbyte)))
    rwa [map_character_flatMap_encode hascii] at h
  · intro h
    have hascii : ∀ c ∈ text, c.toNat < 128 := fun c hc => (h.isDigit c hc).elim fun _ hdigit => hdigit.toNat_lt
    rwa [map_character_flatMap_encode hascii]

/-- A `text` stands for bytes exactly if it is an even number of digits. -/
theorem exists_denotes_iff {text : List Char} :
    (∃ bytes, Denotes text bytes) ↔ text.length % 2 = 0 ∧ ∀ c ∈ text, ∃ value, IsDigit c value := by
  constructor
  · rintro ⟨bytes, h⟩
    refine ⟨?_, h.isDigit⟩
    induction h with
    | nil => rfl
    | cons _ _ _ _ ih =>
      simp only [List.length_cons]
      omega
  · rintro ⟨heven, hdigits⟩
    -- Digits are read in pairs, so the induction takes two characters at a time.
    induction text using List.twoStepInduction with
    | nil => exact ⟨[], .nil⟩
    | singleton c => simp at heven
    | cons_cons high low rest ih _ =>
      simp only [List.forall_mem_cons] at hdigits
      obtain ⟨⟨h, hhigh⟩, ⟨l, hlow⟩, hrest⟩ := hdigits
      obtain ⟨bytes, hbytes⟩ := ih (by simp only [List.length_cons] at heven; omega) hrest
      have hlt := hhigh.lt
      have hlt' := hlow.lt
      exact ⟨UInt8.ofNat (16 * h + l) :: bytes,
        .cons hhigh hlow (UInt8.toNat_ofNat_of_lt' (by rw [UInt8.size]; omega)) hbytes⟩

/-- `text` consists of the blanks `lead`, the `mark`, the `body` behind it and the blanks `trail`. -/
structure Parts (text lead mark body trail : List Char) : Prop where
  /-- The mark and what follows it are the trimmed text. -/
  trims : Text.Trims text lead (mark ++ body) trail
  /-- There is no mark only if the trimmed text does not begin with one. -/
  mark_eq : mark = "hex".toList ∨ mark = [] ∧ ¬ "hex".toList <+: body

/-- What is `left` of `text` when it is trimmed, the mark is removed and all blanks are left out. -/
def Leaves (text left : List Char) : Prop :=
  ∃ lead mark body trail, Parts text lead mark body trail ∧ left = body.filter fun c => !Text.isBlank c

/-- `compact` removes what does not belong to the `body`, and the blanks in it. -/
theorem Parts.compact_eq {text lead mark body trail : List Char} (h : Parts text lead mark body trail) :
    compact text = body.filter fun c => !Text.isBlank c := by
  rw [compact, h.trims.trim_eq]
  rcases h.mark_eq with rfl | ⟨rfl, hmark⟩
  · rfl
  · rw [List.nil_append]
    split
    next rest => exact absurd ⟨rest, rfl⟩ hmark
    next => rfl

/-- Every `text` has such parts. -/
theorem exists_parts (text : List Char) : ∃ lead mark body trail, Parts text lead mark body trail := by
  obtain ⟨lead, trail, htrims⟩ := Text.exists_trims text
  by_cases hmark : "hex".toList <+: Text.trim text
  · obtain ⟨body, hbody⟩ := hmark
    exact ⟨lead, "hex".toList, body, trail, hbody ▸ htrims, .inl rfl⟩
  · exact ⟨lead, [], Text.trim text, trail, htrims, .inr ⟨rfl, hmark⟩⟩

/-- What is left of a `text` is what `compact` gives. -/
theorem leaves_iff {text left : List Char} : Leaves text left ↔ left = compact text := by
  constructor
  · rintro ⟨lead, mark, body, trail, hparts, rfl⟩
    exact hparts.compact_eq.symm
  · rintro rfl
    obtain ⟨lead, mark, body, trail, hparts⟩ := exists_parts text
    exact ⟨lead, mark, body, trail, hparts, hparts.compact_eq⟩

theorem parse_eq (text : String) :
    parse text = readBytes (Utf8.bytes (String.ofList (compact text.toList))) := by
  rw [Utf8.bytes_eq, String.toList_ofList, parse]

/-- A `text` is read as the `bytes` that what is left of it stands for. -/
theorem parse_eq_ok_iff {text : String} {bytes : Bytes} :
    parse text = .ok bytes ↔ Denotes (compact text.toList) bytes := by
  rw [parse, readBytes]
  split
  next => rw [readPairs_eq_ok_iff, denotes_flatMap_encode_iff]
  next hodd =>
    -- What stands for bytes is as long in bytes as in characters, which is an even number.
    refine iff_of_false (by simp) fun h => hodd ?_
    obtain ⟨heven, -⟩ := exists_denotes_iff.mp ⟨bytes, denotes_flatMap_encode_iff.mpr h⟩
    rwa [List.length_map] at heven

theorem parse_eq_oddLength_iff {text : String} :
    parse text = .error .oddLength ↔
      (Utf8.bytes (String.ofList (compact text.toList))).length % 2 = 1 := by
  rw [parse_eq, readBytes]
  split
  next heven => simp [readPairs_eq_error_iff heven, heven]
  next hodd => simpa using hodd

theorem parse_eq_invalidCharacter_iff {text : String} {byte : UInt8} {position : Nat} :
    parse text = .error (.invalidCharacter byte position) ↔
      (Utf8.bytes (String.ofList (compact text.toList))).length % 2 = 0 ∧
        FirstFault (Utf8.bytes (String.ofList (compact text.toList))) position byte := by
  rw [parse_eq, readBytes]
  split
  next heven => simp [readPairs_eq_error_iff heven, heven]
  next hodd => simp [hodd]

/-- The digits in upper case. -/
def upperDigits : List Char :=
  "0123456789ABCDEF".toList

/-- `text` has two digits in upper case for each byte, and single spaces between bytes. -/
def IsCanonical (text : String) : Prop :=
  ∃ pairs : List (List Char),
    (∀ two ∈ pairs, ∃ high ∈ upperDigits, ∃ low ∈ upperDigits, two = [high, low]) ∧
      text.toList = [' '].intercalate pairs

theorem mem_upperDigits_iff {c : Char} : c ∈ upperDigits ↔ ∃ value < 16, digit value = c := by
  constructor
  · intro h
    obtain ⟨value, hvalue, hc⟩ := List.mem_iff_getElem.mp h
    have hlt : value < 16 := hvalue
    refine ⟨value, hlt, hc ▸ ?_⟩
    interval_cases value <;> rfl
  · rintro ⟨value, hvalue, rfl⟩
    interval_cases value <;> decide

/-- The digits of a byte are any `two` digits in upper case. -/
theorem mem_range_pair_iff {two : List Char} :
    two ∈ Set.range pair ↔ ∃ high ∈ upperDigits, ∃ low ∈ upperDigits, two = [high, low] := by
  constructor
  · rintro ⟨byte, rfl⟩
    obtain ⟨hhigh, hlow⟩ := toNat_halves byte
    exact ⟨_, mem_upperDigits_iff.mpr ⟨_, hhigh, rfl⟩, _, mem_upperDigits_iff.mpr ⟨_, hlow, rfl⟩, rfl⟩
  · rintro ⟨high, hhigh, low, hlow, rfl⟩
    obtain ⟨h, hh, rfl⟩ := mem_upperDigits_iff.mp hhigh
    obtain ⟨l, hl, rfl⟩ := mem_upperDigits_iff.mp hlow
    have hbyte : (UInt8.ofNat (16 * h + l)).toNat = 16 * h + l :=
      UInt8.toNat_ofNat_of_lt' (by rw [UInt8.size]; omega)
    refine ⟨UInt8.ofNat (16 * h + l), ?_⟩
    rw [pair, hbyte, Nat.mul_add_div (by decide), Nat.div_eq_of_lt hl, Nat.add_zero, Nat.mul_add_mod,
      Nat.mod_eq_of_lt hl]

theorem formatChars_eq (bytes : Bytes) : formatChars bytes = [' '].intercalate (bytes.map pair) := by
  fun_induction formatChars bytes with
  | case1 => rfl
  | case2 byte => simp [List.intercalate]
  | case3 byte rest hrest ih =>
    obtain ⟨next, rest, rfl⟩ := List.exists_cons_of_ne_nil hrest
    rw [ih]
    simp [List.intercalate]

/-- The canonical texts are those that `format` writes. -/
theorem isCanonical_iff {text : String} : IsCanonical text ↔ ∃ bytes, text = format bytes := by
  have hformat (bytes : Bytes) : text = format bytes ↔ text.toList = [' '].intercalate (bytes.map pair) := by
    rw [← formatChars_eq, format, ← String.toList_inj, String.toList_ofList]
  simp only [IsCanonical, ← mem_range_pair_iff, hformat]
  constructor
  · rintro ⟨pairs, hpairs, htext⟩
    obtain ⟨bytes, rfl⟩ : pairs ∈ Set.range (List.map pair) := by rwa [Set.range_list_map]
    exact ⟨bytes, htext⟩
  · rintro ⟨bytes, htext⟩
    refine ⟨bytes.map pair, fun two htwo => ?_, htext⟩
    obtain ⟨byte, -, rfl⟩ := List.mem_map.mp htwo
    exact ⟨byte, rfl⟩

/-- All `bytes` have exactly one canonical text, which is `format bytes`. -/
theorem isCanonical_and_parse_iff {text : String} {bytes : Bytes} :
    IsCanonical text ∧ parse text = .ok bytes ↔ text = format bytes := by
  constructor
  · rintro ⟨hcanonical, hparse⟩
    obtain ⟨bytes', rfl⟩ := isCanonical_iff.mp hcanonical
    rw [parse_format] at hparse
    rw [Except.ok.inj hparse]
  · rintro rfl
    exact ⟨isCanonical_iff.mpr ⟨bytes, rfl⟩, parse_format bytes⟩

/-- The second text is the first one with blanks inserted and digits in another case. -/
inductive Respells : List Char → List Char → Prop where
  /-- There is nothing left. -/
  | nil : Respells [] []
  /-- A character stays as it is. -/
  | same (c : Char) {body body' : List Char} (h : Respells body body') : Respells (c :: body) (c :: body')
  /-- A digit is written in any case. -/
  | digit {c d : Char} {value : Nat} (hc : IsDigit c value) (hd : IsDigit d value) {body body' : List Char}
      (h : Respells body body') : Respells (c :: body) (d :: body')
  /-- A blank is inserted. -/
  | blank {c : Char} (hc : Text.isBlank c) {body body' : List Char} (h : Respells body body') :
      Respells body (c :: body')

/-- If the digits of `text` and `other` have the same values, then both stand for the same `bytes`. -/
theorem Denotes.congr {text other : List Char} {bytes : Bytes}
    (hother : other.map (Text.digit? 16) = text.map (Text.digit? 16)) (h : Denotes text bytes) :
    Denotes other bytes := by
  induction h generalizing other with
  | nil =>
    cases List.map_eq_nil_iff.mp hother
    exact .nil
  | cons hhigh hlow hbyte _ ih =>
    obtain ⟨high', other, rfl, hhigh', hother⟩ := List.map_eq_cons_iff.mp hother
    obtain ⟨low', other, rfl, hlow', hother⟩ := List.map_eq_cons_iff.mp hother
    rw [hhigh.digit?_eq] at hhigh'
    rw [hlow.digit?_eq] at hlow'
    exact .cons (digit?_eq_some_iff.mp hhigh') (digit?_eq_some_iff.mp hlow') hbyte (ih hother)

/-- Another spelling `body'` has digits of the same values. -/
theorem Respells.map_digit?_eq {body body' : List Char} (h : Respells body body') :
    (body'.filter fun c => !Text.isBlank c).map (Text.digit? 16) =
      (body.filter fun c => !Text.isBlank c).map (Text.digit? 16) := by
  induction h with
  | nil => rfl
  | same c _ ih => by_cases hc : Text.isBlank c <;> simp [hc, ih]
  | digit hc hd _ ih => simp [hc.not_blank, hd.not_blank, hc.digit?_eq, hd.digit?_eq, ih]
  | blank hc _ ih => simp [hc, ih]

/-- Of `blanks` nothing is left. -/
theorem filter_blanks {blanks : List Char} (h : ∀ c ∈ blanks, Text.isBlank c) :
    blanks.filter (fun c => !Text.isBlank c) = [] :=
  List.filter_eq_nil_iff.mpr fun c hc => by simp [h c hc]

/-- Behind a mark only the blanks of `rest` are left out. -/
theorem compact_marked {lead : List Char} (hlead : ∀ c ∈ lead, Text.isBlank c) (rest : List Char) :
    compact (lead ++ "hex".toList ++ rest) = rest.filter fun c => !Text.isBlank c := by
  obtain ⟨trail, hrest, htrail, hlast⟩ := Text.exists_trimEnd rest
  have hparts : Parts (lead ++ "hex".toList ++ rest) lead "hex".toList (Text.trimEnd rest) trail := by
    refine ⟨⟨?_, hlead, htrail, ?_, ?_⟩, .inl rfl⟩
    · rw [List.append_assoc lead, List.append_assoc lead, List.append_assoc "hex".toList, ← hrest]
    · rintro c ⟨⟩
      decide
    · -- The mark ends with no blank either, if nothing follows it.
      intro c hc
      rw [List.getLast?_append] at hc
      cases hcore : (Text.trimEnd rest).getLast? with
      | none =>
        rw [hcore] at hc
        cases hc
        decide
      | some d =>
        rw [hcore] at hc
        cases hc
        exact hlast c hcore
  rw [hparts.compact_eq]
  conv_rhs => rw [hrest, List.filter_append, filter_blanks htrail, List.append_nil]

/-- Another spelling `body'` adds only blanks and digits. -/
theorem Respells.mem {body body' : List Char} (h : Respells body body') {c : Char} (hc : c ∈ body') :
    c ∈ body ∨ Text.isBlank c ∨ ∃ value, IsDigit c value := by
  induction h with
  | nil => exact .inl hc
  | same d _ ih =>
    rcases List.mem_cons.mp hc with rfl | hc
    · exact .inl List.mem_cons_self
    · exact (ih hc).imp_left (List.mem_cons_of_mem d)
  | digit _ hd _ ih =>
    rcases List.mem_cons.mp hc with rfl | hc
    · exact .inr (.inr ⟨_, hd⟩)
    · exact (ih hc).imp_left (List.mem_cons_of_mem _)
  | blank hd _ ih =>
    rcases List.mem_cons.mp hc with rfl | hc
    · exact .inr (.inl hd)
    · exact ih hc

theorem not_isDigit_h (value : Nat) : ¬ IsDigit 'h' value := fun h => by
  cases h.digit?_eq

/-- If `text` can be read, it is read the same with other blanks and with digits in another case. -/
theorem Parts.parse_respelled {text : String} {lead lead' mark body body' trail : List Char} {bytes : Bytes}
    (hparts : Parts text.toList lead mark body trail) (hlead' : ∀ c ∈ lead', Text.isBlank c)
    (hspells : Respells (body ++ trail) body') (hparse : parse text = .ok bytes) :
    parse (String.ofList (lead' ++ mark ++ body')) = .ok bytes := by
  have hleft : Denotes (body.filter fun c => !Text.isBlank c) bytes := by
    rwa [← hparts.compact_eq, ← parse_eq_ok_iff]
  have hcompact : compact (lead' ++ mark ++ body') = body'.filter fun c => !Text.isBlank c := by
    rcases hparts.mark_eq with rfl | ⟨rfl, -⟩
    · exact compact_marked hlead' body'
    · -- Blanks and digits hold no letter that a mark could begin with.
      have hbody : 'h' ∉ body := fun hmem =>
        (hleft.isDigit 'h' (List.mem_filter.mpr ⟨hmem, rfl⟩)).elim not_isDigit_h
      have hbody' : 'h' ∉ body' := fun hmem => by
        rcases hspells.mem hmem with hmem | hblank | ⟨value, hdigit⟩
        · rcases List.mem_append.mp hmem with hmem | hmem
          · exact hbody hmem
          · cases hparts.trims.trail_blank 'h' hmem
        · cases hblank
        · exact not_isDigit_h value hdigit
      have hlead : 'h' ∉ lead' := fun hmem => by cases hlead' 'h' hmem
      rw [List.append_nil, compact_of_not_mem (by simp [hlead, hbody']), List.filter_append,
        filter_blanks hlead', List.nil_append]
  rw [parse_eq_ok_iff, String.toList_ofList, hcompact]
  refine hleft.congr ?_
  rw [hspells.map_digit?_eq, List.filter_append, filter_blanks hparts.trims.trail_blank, List.append_nil]

/-- The grammar of texts is exact:

- every byte string is read back from its text;
- a text can be read exactly if what is left of it, without outer blanks, one mark and inner blanks, is an even
  number of digits of either case, and it is then read as the bytes that they stand for;
- it is refused for its length if what is left has an odd number of bytes, and for the first byte that is no
  digit otherwise;
- a byte string has one canonical text, the one that is written, and a text that can be read is read the same
  with other blanks and with digits in another case. -/
theorem text_grammar_exact :
    (∀ bytes : Bytes, parse (format bytes) = .ok bytes) ∧
    (∀ text : String, ∃ left, (∀ left', Leaves text.toList left' ↔ left' = left) ∧
      ((∃ bytes, parse text = .ok bytes) ↔ left.length % 2 = 0 ∧ ∀ c ∈ left, ∃ value, IsDigit c value) ∧
      (∀ bytes, parse text = .ok bytes ↔ Denotes left bytes) ∧
      (parse text = .error .oddLength ↔ (Utf8.bytes (String.ofList left)).length % 2 = 1) ∧
      ∀ byte position, parse text = .error (.invalidCharacter byte position) ↔
        (Utf8.bytes (String.ofList left)).length % 2 = 0 ∧
          FirstFault (Utf8.bytes (String.ofList left)) position byte) ∧
    (∀ (text : String) (bytes : Bytes), parse text = .ok bytes →
      ∀ other, IsCanonical other ∧ parse other = .ok bytes ↔ other = format bytes) ∧
    (∀ (text : String) (lead lead' mark body body' trail : List Char) (bytes : Bytes),
      Parts text.toList lead mark body trail → (∀ c ∈ lead', Text.isBlank c) → Respells (body ++ trail) body' →
        parse text = .ok bytes → parse (String.ofList (lead' ++ mark ++ body')) = .ok bytes) := by
  refine ⟨parse_format, fun text => ?_, fun text bytes _ other => isCanonical_and_parse_iff, ?_⟩
  · refine ⟨compact text.toList, fun left' => leaves_iff, ?_, fun bytes => parse_eq_ok_iff,
      parse_eq_oddLength_iff, fun byte position => parse_eq_invalidCharacter_iff⟩
    simp only [parse_eq_ok_iff, exists_denotes_iff]
  · intro text lead lead' mark body body' trail bytes hparts hlead' hspells hparse
    exact hparts.parse_respelled hlead' hspells hparse

/-- Two bytes are read behind a mark, and again with a tabulator before it, a space and an ideographic space
behind it and all letters in the other case. Their canonical text is the written one. -/
theorem text_grammar_exact_respelled :
    parse "hex0aFf" = .ok [10, 255] ∧ parse "\thex 0A\u3000fF" = .ok [10, 255] ∧
      ∀ other, IsCanonical other ∧ parse other = .ok [10, 255] ↔ other = "0A FF" := by
  obtain ⟨-, -, hcanonical, hrespelled⟩ := text_grammar_exact
  have hparse : parse "hex0aFf" = .ok [10, 255] := by decide +kernel
  have hparts : Parts "hex0aFf".toList [] "hex".toList "0aFf".toList [] := by
    refine ⟨⟨rfl, by simp, by simp, ?_, ?_⟩, .inl rfl⟩
    · rintro c ⟨⟩
      decide
    · rintro c ⟨⟩
      decide
  have hspells : Respells ("0aFf".toList ++ []) " 0A\u3000fF".toList :=
    .blank rfl <| .same '0' <| .digit (show IsDigit 'a' 10 by decide) (by decide) <| .blank rfl <|
      .digit (show IsDigit 'F' 15 by decide) (by decide) <|
        .digit (show IsDigit 'f' 15 by decide) (by decide) .nil
  have hagain := hrespelled "hex0aFf" [] ['\t'] "hex".toList "0aFf".toList _ [] [10, 255] hparts
    (List.forall_mem_singleton.mpr rfl) hspells hparse
  exact ⟨hparse, hagain, hcanonical _ _ hparse⟩

end TrafficMeter.Hex
