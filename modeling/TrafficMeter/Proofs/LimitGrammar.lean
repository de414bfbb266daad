import Mathlib.Tactic.SplitIfs
import TrafficMeter.Profile
import TrafficMeter.Proofs.Outcome
import TrafficMeter.Proofs.Trimming

/-!
# The grammar of limits

Which texts stand for a limit. A number is a text by the digits in it (`Text.IsNumber`), and its value is that of
the digits however many there are, so that the range is a condition on the value and not on the text. Reading
stops as soon as the value so far is out of range. This is right because further digits do not make it smaller
(`Text.readDigits_eq_ok_iff`).

A limit that is written has two numbers without blanks or signs, and a profile has two limits with one space
between them, so that both can be read back.

## Main definitions

* `Text.IsNumber`, `Text.IsPaddedNumber`: texts that are numbers, without and with blanks around them;
* `Limit.Cut`: the parts of a text around its first colon.

## Main results

* `Limit.parse_eq_ok_iff`: a limit is read from the two parts of its text;
* `Limit.text_form_exact`: which texts are limits, and for what the others are refused.
-/

namespace TrafficMeter

namespace Text

/-- `text` is one optional plus sign and at least one decimal digit, and `value` is the value of the digits. -/
def IsNumber (text : List Char) (value : Nat) : Prop :=
  ∃ sign digits, text = sign ++ digits ∧ (sign = [] ∨ sign = ['+']) ∧ digits ≠ [] ∧
    (∀ c ∈ digits, c.isDigit) ∧ Nat.ofDigitChars 10 digits 0 = value

/-- `text` is a number with blanks around it, and `value` is its value. -/
def IsPaddedNumber (text : List Char) (value : Nat) : Prop :=
  ∃ lead core trail, Trims text lead core trail ∧ IsNumber core value

theorem toNat_of_isDigit {c : Char} (h : c.isDigit) : 48 ≤ c.toNat ∧ c.toNat ≤ 57 := by
  simp only [Char.isDigit, Bool.and_eq_true, decide_eq_true_eq] at h
  exact h

/-- In base ten the digits are those of ASCII. -/
theorem digit?_ten (c : Char) : digit? 10 c = if c.isDigit then some (c.toNat - '0'.toNat) else none := by
  simp only [digit?]
  split_ifs with hdigit hlower hupper
  · have hrange := toNat_of_isDigit hdigit
    exact Option.filter_some_pos (decide_eq_true (show c.toNat - 48 < 10 by omega))
  · exact Option.filter_some_neg (by simp)
  · exact Option.filter_some_neg (by simp)
  · rfl

/-- More `digits` do not make a number smaller. -/
theorem le_ofDigitChars (digits : List Char) (value : Nat) : value ≤ Nat.ofDigitChars 10 digits value := by
  induction digits generalizing value with
  | nil => exact Nat.le_refl value
  | cons c rest ih =>
    rw [Nat.ofDigitChars_cons]
    exact Nat.le_trans (by omega) (ih _)

/-- A number `value` is continued by `digits` as long as it stays below `limit`. -/
theorem readDigits_eq_ok_iff {limit value result : Nat} {digits : List Char} (h : value < limit) :
    readDigits 10 limit value digits = .ok result ↔
      (∀ c ∈ digits, c.isDigit) ∧ Nat.ofDigitChars 10 digits value = result ∧ result < limit := by
  induction digits generalizing value with
  | nil =>
    simp only [readDigits, Except.ok.injEq, Nat.ofDigitChars_nil]
    constructor
    · rintro rfl
      exact ⟨by simp, rfl, h⟩
    · rintro ⟨-, rfl, -⟩
      rfl
  | cons c rest ih =>
    rw [readDigits, digit?_ten, List.forall_mem_cons, Nat.ofDigitChars_cons, Nat.mul_comm 10 value]
    by_cases hdigit : c.isDigit
    · rw [if_pos hdigit]
      dsimp only
      split_ifs with hrange
      · rw [ih hrange]
        simp [hdigit]
      · -- The value is out of range already, and the digits that follow leave it there.
        refine iff_of_false (by simp) ?_
        rintro ⟨-, rfl, hlt⟩
        exact hrange (Nat.lt_of_le_of_lt (le_ofDigitChars _ _) hlt)
    · rw [if_neg hdigit]
      simp [hdigit]

/-- After a plus sign there are only `digits`. -/
theorem isNumber_plus_iff {digits : List Char} {value : Nat} :
    IsNumber ('+' :: digits) value ↔
      digits ≠ [] ∧ (∀ c ∈ digits, c.isDigit) ∧ Nat.ofDigitChars 10 digits 0 = value := by
  constructor
  · rintro ⟨sign, digits', htext, rfl | rfl, hnil, hdigits, hvalue⟩
    · -- A plus sign is no digit itself.
      rw [List.nil_append] at htext
      cases hdigits '+' (htext ▸ List.mem_cons_self)
    · cases htext
      exact ⟨hnil, hdigits, hvalue⟩
  · intro h
    exact ⟨['+'], digits, rfl, .inr rfl, h⟩

/-- Without a plus sign there are only digits in `text`. -/
theorem isNumber_iff_of_head? {text : List Char} {value : Nat} (h : text.head? ≠ some '+') :
    IsNumber text value ↔
      text ≠ [] ∧ (∀ c ∈ text, c.isDigit) ∧ Nat.ofDigitChars 10 text 0 = value := by
  constructor
  · rintro ⟨sign, digits, rfl, rfl | rfl, hdigits⟩
    · exact hdigits
    · exact absurd rfl h
  · intro htext
    exact ⟨[], text, rfl, .inl rfl, htext⟩

/-- `readNumber` reads exactly the numbers below `limit`. -/
theorem readNumber_eq_ok_iff {limit value : Nat} {text : List Char} (h : 0 < limit) :
    readNumber limit text = .ok value ↔ IsNumber text value ∧ value < limit := by
  unfold readNumber
  split
  next =>
    rw [isNumber_iff_of_head? (by simp)]
    simp
  next => simp [isNumber_plus_iff]
  next digits hnil =>
    rw [readDigits_eq_ok_iff h, isNumber_plus_iff]
    simp [show digits ≠ [] from hnil, and_assoc]
  next hnil _ hplus =>
    have hhead : text.head? ≠ some '+' := fun hhead => by
      obtain ⟨rest, rfl⟩ := List.head?_eq_some_iff.mp hhead
      exact hplus rest rfl
    rw [readDigits_eq_ok_iff h, isNumber_iff_of_head? hhead]
    simp [show text ≠ [] from hnil, and_assoc]

/-- What is left of a padded number is the number. -/
theorem isPaddedNumber_iff {text : List Char} {value : Nat} :
    IsPaddedNumber text value ↔ IsNumber (trim text) value := by
  constructor
  · rintro ⟨lead, core, trail, htrims, hnumber⟩
    rwa [htrims.trim_eq]
  · intro hnumber
    obtain ⟨lead, trail, htrims⟩ := exists_trims text
    exact ⟨lead, trim text, trail, htrims, hnumber⟩

end Text

namespace Limit

/-- `before` and `after` are the parts of `text` around its first colon. -/
def Cut (text before after : List Char) : Prop :=
  text = before ++ ':' :: after ∧ ':' ∉ before

/-- `text` is a padded number of 64 bits. -/
def IsPart (text : List Char) : Prop :=
  ∃ value < UInt64.size, Text.IsPaddedNumber text value

/-- `splitColon?` cuts a `text` at its first colon. -/
theorem splitColon?_eq_some_iff {text before after : List Char} :
    splitColon? text = some (before, after) ↔ Cut text before after := by
  fun_induction splitColon? text generalizing before with
  | case1 => simp [Cut]
  | case2 rest =>
    -- The text starts with the colon, so nothing stands before it.
    constructor
    · intro h
      cases h
      exact ⟨rfl, by simp⟩
    · rintro ⟨htext, hcolon⟩
      cases before with
      | nil =>
        cases htext
        rfl
      | cons c before =>
        cases htext
        simp at hcolon
  | case3 c rest hc ih =>
    -- The first character is no colon, so it belongs to the part before one.
    simp only [Option.map_eq_some_iff, Prod.exists, Prod.mk.injEq]
    constructor
    · rintro ⟨before, after, hrest, rfl, rfl⟩
      obtain ⟨rfl, hcolon⟩ := ih.mp hrest
      exact ⟨rfl, by simpa [hcolon] using fun h => hc h.symm⟩
    · rintro ⟨htext, hcolon⟩
      cases before with
      | nil =>
        cases htext
        exact absurd rfl hc
      | cons d before =>
        cases htext
        exact ⟨before, after, ih.mpr ⟨rfl, fun h => hcolon (List.mem_cons_of_mem _ h)⟩, rfl, rfl⟩

theorem splitColon?_eq_none_iff {text : List Char} : splitColon? text = none ↔ ':' ∉ text := by
  fun_induction splitColon? text with
  | case1 => simp
  | case2 rest => simp
  | case3 c rest hc ih =>
    rw [Option.map_eq_none_iff, ih, List.mem_cons, not_or]
    exact ⟨fun hrest => ⟨fun h => hc h.symm, hrest⟩, And.right⟩

/-- A part of a limit is read as the number that it is. -/
theorem readPart_eq_ok_iff {text : List Char} {word : UInt64} :
    readPart text = .ok word ↔ Text.IsPaddedNumber text word.toNat := by
  simp only [readPart, map_eq_ok_iff, Text.isPaddedNumber_iff,
    Text.readNumber_eq_ok_iff (show 0 < UInt64.size by decide)]
  constructor
  · rintro ⟨value, ⟨hnumber, hlt⟩, rfl⟩
    rwa [UInt64.toNat_ofNat_of_lt' hlt]
  · intro hnumber
    exact ⟨word.toNat, ⟨hnumber, word.toNat_lt⟩, UInt64.ofNat_toNat⟩

/-- A part of a limit can be read exactly if it is a padded number of 64 bits. -/
theorem exists_readPart_iff {text : List Char} : (∃ word, readPart text = .ok word) ↔ IsPart text := by
  simp only [readPart_eq_ok_iff]
  constructor
  · rintro ⟨word, hnumber⟩
    exact ⟨word.toNat, word.toNat_lt, hnumber⟩
  · rintro ⟨value, hlt, hnumber⟩
    exact ⟨UInt64.ofNat value, by rwa [UInt64.toNat_ofNat_of_lt' hlt]⟩

theorem exists_readPart_error {text : List Char} (h : ¬ IsPart text) :
    ∃ error, readPart text = .error error := by
  rw [← exists_readPart_iff] at h
  cases hread : readPart text with
  | ok word => exact absurd ⟨word, hread⟩ h
  | error error => exact ⟨error, rfl⟩

section Parse

variable {text : String} {before after : List Char}

/-- A `text` with a colon is read as the rate `before` it and the burst `after` it, in this order. -/
theorem Cut.parse_eq (h : Cut text.toList before after) :
    parse text = do
      let rate ← (readPart before).mapError (.badRate (String.ofList before))
      let burst ← (readPart after).mapError (.badBurst (String.ofList after))
      return { rate, burst } := by
  rw [parse, splitColon?_eq_some_iff.mpr h]

/-- A `text` without a colon is refused. -/
theorem parse_eq_noColon (h : ':' ∉ text.toList) : parse text = .error (.noColon text) := by
  rw [parse, splitColon?_eq_none_iff.mpr h]

/-- A bad rate is reported, whatever the burst. -/
theorem Cut.parse_eq_badRate (h : Cut text.toList before after) (hrate : ¬ IsPart before) :
    ∃ error, readPart before = .error error ∧ parse text = .error (.badRate (String.ofList before) error) := by
  obtain ⟨error, herror⟩ := exists_readPart_error hrate
  refine ⟨error, herror, ?_⟩
  rw [h.parse_eq, herror]
  rfl

/-- A bad burst is reported if the rate is good. -/
theorem Cut.parse_eq_badBurst (h : Cut text.toList before after) (hrate : IsPart before)
    (hburst : ¬ IsPart after) :
    ∃ error, readPart after = .error error ∧ parse text = .error (.badBurst (String.ofList after) error) := by
  obtain ⟨rate, hrate⟩ := exists_readPart_iff.mpr hrate
  obtain ⟨error, herror⟩ := exists_readPart_error hburst
  refine ⟨error, herror, ?_⟩
  rw [h.parse_eq, hrate, herror]
  rfl

/-- A `limit` is read from the two parts of its text. -/
theorem parse_eq_ok_iff {limit : Limit} :
    parse text = .ok limit ↔
      ∃ before after, Cut text.toList before after ∧
        Text.IsPaddedNumber before limit.rate.toNat ∧ Text.IsPaddedNumber after limit.burst.toNat := by
  simp only [← readPart_eq_ok_iff]
  constructor
  · intro h
    cases hsplit : splitColon? text.toList with
    | none =>
      rw [parse_eq_noColon (splitColon?_eq_none_iff.mp hsplit)] at h
      cases h
    | some parts =>
      obtain ⟨before, after⟩ := parts
      have hcut := splitColon?_eq_some_iff.mp hsplit
      refine ⟨before, after, hcut, ?_⟩
      -- An error of either part would have been the result.
      rw [hcut.parse_eq] at h
      cases hrate : readPart before with
      | error error => simp [hrate, Except.mapError] at h
      | ok rate =>
        cases hburst : readPart after with
        | error error => simp [hrate, hburst, Except.mapError] at h
        | ok burst =>
          simp only [hrate, hburst, Except.mapError, ok_bind, pure_eq_ok, Except.ok.injEq] at h
          subst h
          exact ⟨rfl, rfl⟩
  · rintro ⟨before, after, hcut, hrate, hburst⟩
    rw [hcut.parse_eq, hrate, hburst]
    rfl

/-- A `text` is a limit exactly if it has a colon with a number of 64 bits on either side. -/
theorem exists_parse_iff :
    (∃ limit, parse text = .ok limit) ↔
      ∃ before after, Cut text.toList before after ∧ IsPart before ∧ IsPart after := by
  simp only [parse_eq_ok_iff, ← exists_readPart_iff, ← readPart_eq_ok_iff]
  constructor
  · rintro ⟨limit, before, after, hcut, hrate, hburst⟩
    exact ⟨before, after, hcut, ⟨_, hrate⟩, ⟨_, hburst⟩⟩
  · rintro ⟨before, after, hcut, ⟨rate, hrate⟩, ⟨burst, hburst⟩⟩
    exact ⟨⟨rate, burst⟩, before, after, hcut, hrate, hburst⟩

end Parse

end Limit

namespace Text

theorem not_blank_of_isDigit {c : Char} (h : c.isDigit) : ¬ isBlank c := by
  have hrange := toNat_of_isDigit h
  simp only [isBlank, Bool.or_eq_true, Bool.and_eq_true, decide_eq_true_eq, beq_iff_eq]
  omega

/-- A character `c` that is no digit does not occur in a number that is written. -/
theorem not_mem_toDigits {c : Char} (h : c.isDigit = false) (n : Nat) : c ∉ Nat.toDigits 10 n := by
  intro hc
  rw [Nat.isDigit_of_mem_toDigits (by decide) (by decide) hc] at h
  cases h

/-- `digits` with blanks around them and possibly a `sign` before them are a padded number. -/
theorem isPaddedNumber_append {lead sign digits trail : List Char} (hlead : ∀ c ∈ lead, isBlank c)
    (htrail : ∀ c ∈ trail, isBlank c) (hsign : sign = [] ∨ sign = ['+']) (hnil : digits ≠ [])
    (hdigits : ∀ c ∈ digits, c.isDigit) :
    IsPaddedNumber (lead ++ (sign ++ digits) ++ trail) (Nat.ofDigitChars 10 digits 0) := by
  have hcore : ∀ c ∈ sign ++ digits, ¬ isBlank c := by
    intro c hc
    rcases List.mem_append.mp hc with hc | hc
    · rcases hsign with rfl | rfl
      · cases hc
      · cases List.mem_singleton.mp hc
        decide
    · exact not_blank_of_isDigit (hdigits c hc)
  refine ⟨lead, sign ++ digits, trail, ⟨rfl, hlead, htrail, ?_, ?_⟩,
    sign, digits, rfl, hsign, hnil, hdigits, rfl⟩
  · exact fun c hc => hcore c (List.mem_of_mem_head? hc)
  · exact fun c hc => hcore c (List.mem_of_mem_getLast? hc)

/-- A number `n` that is written is one without blanks or a sign. -/
theorem isPaddedNumber_toDigits (n : Nat) : IsPaddedNumber (Nat.toDigits 10 n) n := by
  have hnumber : IsPaddedNumber ([] ++ ([] ++ Nat.toDigits 10 n) ++ [])
      (Nat.ofDigitChars 10 (Nat.toDigits 10 n) 0) :=
    isPaddedNumber_append (by simp) (by simp) (.inl rfl) Nat.toDigits_ne_nil fun c hc =>
      Nat.isDigit_of_mem_toDigits (by decide) (by decide) hc
  simpa using hnumber

end Text

namespace Limit

theorem toList_format (limit : Limit) :
    limit.format.toList = Nat.toDigits 10 limit.rate.toNat ++ ':' :: Nat.toDigits 10 limit.burst.toNat := by
  have hword (word : UInt64) : (toString word).toList = Nat.toDigits 10 word.toNat := Nat.toList_repr
  rw [format, String.toList_append, String.toList_append, hword, hword, List.append_assoc]
  rfl

/-- A `limit` is read back from its text. -/
theorem parse_format (limit : Limit) : parse limit.format = .ok limit :=
  parse_eq_ok_iff.mpr ⟨_, _, ⟨limit.toList_format, Text.not_mem_toDigits rfl _⟩,
    Text.isPaddedNumber_toDigits _, Text.isPaddedNumber_toDigits _⟩

theorem not_mem_toList_format (limit : Limit) : ' ' ∉ limit.format.toList := by
  rw [toList_format, List.mem_append, List.mem_cons, not_or, not_or]
  exact ⟨Text.not_mem_toDigits rfl _, by decide, Text.not_mem_toDigits rfl _⟩

end Limit

/-- At its space the text of a `profile` falls into those of its limits. -/
theorem Profile.splitOn_format (profile : Profile) :
    profile.format.toList.splitOn ' ' = [profile.peak.format.toList, profile.committed.format.toList] := by
  have hformat : profile.format.toList =
      [' '].intercalate [profile.peak.format.toList, profile.committed.format.toList] := by
    rw [format, String.toList_append, String.toList_append, List.append_assoc]
    simp [List.intercalate, toString]
  rw [hformat, List.splitOn_intercalate]
  · simp [Limit.not_mem_toList_format]
  · simp

namespace Limit

/-- The text form of limits is exact:

- a text is a limit exactly if it has a colon and the parts around the first one are numbers of 64 bits, with
  blanks around them and a plus sign before them or not, and it is then read as their values;
- otherwise it is refused for the colon that is missing, for the rate if that is bad, whatever the burst, and for
  the burst in the end;
- the text of a profile is two limits around its space, and these are read back. -/
theorem text_form_exact :
    (∀ text : String,
      ((∃ limit, parse text = .ok limit) ↔
        ∃ before after, Cut text.toList before after ∧ IsPart before ∧ IsPart after) ∧
      (∀ limit, parse text = .ok limit ↔
        ∃ before after, Cut text.toList before after ∧
          Text.IsPaddedNumber before limit.rate.toNat ∧ Text.IsPaddedNumber after limit.burst.toNat) ∧
      (':' ∉ text.toList → parse text = .error (.noColon text)) ∧
      ∀ before after, Cut text.toList before after →
        (¬ IsPart before →
          ∃ error, readPart before = .error error ∧
            parse text = .error (.badRate (String.ofList before) error)) ∧
        (IsPart before → ¬ IsPart after →
          ∃ error, readPart after = .error error ∧
            parse text = .error (.badBurst (String.ofList after) error))) ∧
    (∀ profile : Profile, ∃ peak committed, profile.format.toList.splitOn ' ' = [peak, committed] ∧
      parse (String.ofList peak) = .ok profile.peak ∧
      parse (String.ofList committed) = .ok profile.committed) := by
  refine ⟨fun text => ⟨exists_parse_iff, fun limit => parse_eq_ok_iff, parse_eq_noColon, ?_⟩, fun profile => ?_⟩
  · intro before after hcut
    exact ⟨hcut.parse_eq_badRate, hcut.parse_eq_badBurst⟩
  · refine ⟨_, _, profile.splitOn_format, ?_, ?_⟩
    · rw [String.ofList_toList, parse_format]
    · rw [String.ofList_toList, parse_format]

/-- A rate with a sign and leading zeros and a burst are read with blanks around them. A burst that does not fit
into 64 bits is refused, but is not reported if the rate is bad as well. -/
theorem text_form_exact_padded :
    parse " +007:\t250 " = .ok ⟨7, 250⟩ ∧
    (∃ error, parse "7:18446744073709551616" = .error (.badBurst "18446744073709551616" error)) ∧
    ∃ error, parse "-7:18446744073709551616" = .error (.badRate "-7" error) := by
  have hbad (text : List Char) (error : Text.NumberError) (h : readPart text = .error error) :
      ¬ IsPart text := by
    rw [← exists_readPart_iff, h]
    simp
  have hlarge := hbad "18446744073709551616".toList .tooLarge (by decide +kernel)
  have hnegative := hbad "-7".toList .invalidDigit (by decide +kernel)
  have hrate : IsPart "7".toList := ⟨7, by decide, Text.isPaddedNumber_toDigits 7⟩
  obtain ⟨-, hread, -, -⟩ := text_form_exact.1 " +007:\t250 "
  obtain ⟨-, -, -, hburst⟩ := text_form_exact.1 "7:18446744073709551616"
  obtain ⟨-, -, -, hboth⟩ := text_form_exact.1 "-7:18446744073709551616"
  refine ⟨(hread _).mpr ⟨" +007".toList, "\t250 ".toList, ⟨rfl, by decide⟩, ?_, ?_⟩, ?_, ?_⟩
  · show Text.IsPaddedNumber ([' '] ++ (['+'] ++ ['0', '0', '7']) ++ []) 7
    exact Text.isPaddedNumber_append (List.forall_mem_singleton.mpr rfl) (by simp) (.inr rfl) (by simp)
      (List.all_eq_true.mp rfl)
  · show Text.IsPaddedNumber (['\t'] ++ ([] ++ ['2', '5', '0']) ++ [' ']) 250
    exact Text.isPaddedNumber_append (List.forall_mem_singleton.mpr rfl) (List.forall_mem_singleton.mpr rfl)
      (.inl rfl) (by simp) (List.all_eq_true.mp rfl)
  · obtain ⟨error, -, herror⟩ := (hburst "7".toList _ ⟨rfl, by decide⟩).2 hrate hlarge
    exact ⟨error, herror⟩
  · obtain ⟨error, -, herror⟩ := (hboth "-7".toList _ ⟨rfl, by decide⟩).1 hnegative
    exact ⟨error, herror⟩

end Limit

end TrafficMeter
