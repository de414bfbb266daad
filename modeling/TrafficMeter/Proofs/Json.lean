import TrafficMeter.Json.Parser
import TrafficMeter.Json.Printer
import Mathlib.Tactic.Common

/-!
# Written JSON is read back

A value that is made of words, numbers, texts, arrays and objects is read back from either of its written forms
(`parse?_render`). The way goes over tokens. `Json.tokens` lists those of a value, the scanner finds them in the
written form whatever the layout, and the machine that builds values from tokens gives the value again.
-/

namespace TrafficMeter.Json

mutual

/-- The value is written as what it is: it has no numeral that is kept as a text and no string literal that
stands for nothing. -/
def Plain : Json → Prop
  | .decimal _ => False
  | .string text => text.isSome
  | .array items => PlainItems items
  | .object members => PlainMembers members
  | _ => True

/-- All items are `Plain`. -/
def PlainItems : List Json → Prop
  | [] => True
  | item :: items => Plain item ∧ PlainItems items

/-- All members are `Plain`, and so are their keys. -/
def PlainMembers : List (Literal × Json) → Prop
  | [] => True
  | (key, value) :: members => key.isSome ∧ Plain value ∧ PlainMembers members

end

mutual

/-- The tokens of a value. -/
def tokens : Json → List Token
  | .array items => .beginArray :: itemTokens items ++ [.endArray]
  | .object members => .beginObject :: memberTokens members ++ [.endObject]
  | .string text => [.string text]
  | value => [.scalar value]

/-- The tokens of the items of an array, with commas between them. -/
def itemTokens : List Json → List Token
  | [] => []
  | [item] => tokens item
  | item :: items => tokens item ++ .comma :: itemTokens items

/-- The tokens of the members of an object, with commas between them. -/
def memberTokens : List (Literal × Json) → List Token
  | [] => []
  | [(key, value)] => .string key :: .colon :: tokens value
  | (key, value) :: members => .string key :: .colon :: tokens value ++ .comma :: memberTokens members

end

namespace Scan

/-- The tokens of `text` after those that `scan` has read. -/
def run (scan : Scan) (text : List Char) : Option (List Token) := do
  let last ← text.foldlM step scan
  last.finish

theorem run_cons (scan : Scan) (c : Char) (rest : List Char) :
    scan.run (c :: rest) = (scan.step c).bind fun next => next.run rest := by
  simp [run, Option.bind_assoc]

/-- A character `c` takes the scanner one `step` on. -/
theorem run_cons_of_step {scan next : Scan} {c : Char} (h : scan.step c = some next) (rest : List Char) :
    scan.run (c :: rest) = next.run rest := by
  rw [run_cons, h, Option.bind_some]

/-- Blanks between tokens are passed over. -/
theorem run_lineBreak (tokens : List Token) (style : Style) (depth : Nat) (rest : List Char) :
    run { tokens } (style.lineBreak depth ++ rest) = run { tokens } rest := by
  cases style with
  | compact => rfl
  | pretty =>
    rw [Style.lineBreak, List.cons_append, run_cons_of_step rfl]
    induction 2 * depth with
    | zero => rfl
    | succ count ih => rwa [List.replicate_succ, List.cons_append, run_cons_of_step rfl]

end Scan

/-- No word or numeral goes on in `text`. -/
def EndsWord (text : List Char) : Prop :=
  ∀ c ∈ text.head?, isWordChar c = false

/-- In every `style`, a line break before a character `c` that belongs to no word ends a word. -/
theorem endsWord_lineBreak (style : Style) (depth : Nat) {c : Char} (h : isWordChar c = false)
    (rest : List Char) : EndsWord (style.lineBreak depth ++ c :: rest) := by
  cases style with
  | compact => simpa [EndsWord, Style.lineBreak] using h
  | pretty => simp [EndsWord, Style.lineBreak, isWordChar]

/-- A comma ends a word. -/
theorem endsWord_comma (rest : List Char) : EndsWord (',' :: rest) := by
  simp [EndsWord, isWordChar]

namespace Scan

/-- The characters of a `word` are collected. -/
theorem run_word (tokens : List Token) (read word rest : List Char) (hword : ∀ c ∈ word, isWordChar c) :
    run { mode := .word read, tokens } (word ++ rest) =
      run { mode := .word (word.reverse ++ read), tokens } rest := by
  induction word generalizing read with
  | nil => rfl
  | cons c word ih =>
    obtain ⟨hc, hword⟩ := List.forall_mem_cons.mp hword
    have hstep : step { mode := .word read, tokens } c = some { mode := .word (c :: read), tokens } := by
      simp [step, hc]
    rw [List.cons_append, run_cons_of_step hstep, ih _ hword]
    simp

/-- Where a word ends, its `token` is found. -/
theorem run_of_endsWord {tokens : List Token} {read rest : List Char} {token : Token}
    (htoken : wordToken? read.reverse = some token) (hrest : EndsWord rest) :
    run { mode := .word read, tokens } rest = run { tokens := token :: tokens } rest := by
  cases rest with
  | nil => simp [run, finish, htoken]
  | cons c rest =>
    have hc : isWordChar c = false := hrest c rfl
    rw [run_cons, run_cons]
    simp [step, hc, htoken]

/-- A `word` that is followed by something else is one `token`. -/
theorem run_scalar {tokens : List Token} (word : List Char) {rest : List Char} {token : Token}
    (hne : word ≠ []) (hword : ∀ c ∈ word, isWordChar c) (htoken : wordToken? word = some token)
    (hrest : EndsWord rest) :
    run { tokens } (word ++ rest) = run { tokens := token :: tokens } rest := by
  obtain ⟨c, word, rfl⟩ := List.exists_cons_of_ne_nil hne
  obtain ⟨hc, htail⟩ := List.forall_mem_cons.mp hword
  -- No word starts with a blank or a quote, which would be taken for something else.
  have hstart : step { tokens } c = some { mode := .word [c], tokens } := by
    have hspace : isSpace c = false := by
      by_contra hspace
      simp only [isSpace, Bool.not_eq_false, Bool.or_eq_true, beq_iff_eq] at hspace
      rcases hspace with ((rfl | rfl) | rfl) | rfl <;> exact absurd hc (by decide)
    have hquote : c ≠ '"' := by
      rintro rfl
      exact absurd hc (by decide)
    simp [step, start, hspace, hquote, hc]
  rw [List.cons_append, run_cons_of_step hstart, run_word _ _ _ _ htail]
  exact run_of_endsWord (by simpa using htoken) hrest

end Scan

/-- A `piece` of a string literal stands for `c`, whatever follows it. -/
def Piece.Spells (piece : Piece) (c : Char) : Prop :=
  ∀ rest, Piece.text? (piece :: rest) = (Piece.text? rest).map (c :: ·)

/-- A character `c` that is not escaped stands for itself. -/
theorem Piece.spells_char (c : Char) : (Piece.char c).Spells c := fun _ => by rw [text?]

/-- The number of a control character `c` stands for `c`, since it is not half of a pair. -/
theorem Piece.spells_unit {c : Char} (h : c.toNat < 0x20) : (Piece.unit c.toNat).Spells c := by
  have hlow : c.toNat < 0xd800 ∨ 0xdfff < c.toNat := .inl (by omega)
  intro rest
  match rest with
  | [] => simp [text?, hlow]
  | .char d :: rest =>
    simp only [text?, if_pos hlow, Option.map_map, Char.ofNat_toNat]
    rfl
  | .unit n :: rest => rw [text?, if_pos hlow, Char.ofNat_toNat]

namespace Scan

/-- The hexadecimal digits of the printer are those of the scanner. -/
theorem digit?_digitChar : ∀ digit < 16, Text.digit? 16 (Nat.digitChar digit) = some digit := by
  decide

/-- A `digit` of an escape by number, which is not the last one, is collected. -/
theorem step_digit {tokens : List Token} {read : List Piece} {value count digit : Nat} {c : Char}
    (hdigit : Text.digit? 16 c = some digit) (hcount : count ≠ 3) :
    step { mode := .unicode read value count, tokens } c =
      some { mode := .unicode read (value * 16 + digit) (count + 1), tokens } := by
  simp [step, hdigit, hcount]

/-- The last `digit` of an escape by number completes it. -/
theorem step_lastDigit {tokens : List Token} {read : List Piece} {value digit : Nat} {c : Char}
    (hdigit : Text.digit? 16 c = some digit) :
    step { mode := .unicode read value 3, tokens } c =
      some { mode := .string (.unit (value * 16 + digit) :: read), tokens } := by
  simp [step, hdigit]

/-- An escaped character `c` is read as a piece that stands for it. -/
theorem exists_run_escapeChar (c : Char) :
    ∃ piece : Piece, piece.Spells c ∧ ∀ tokens read rest,
      run { mode := .string read, tokens } (escapeChar c ++ rest) =
        run { mode := .string (piece :: read), tokens } rest := by
  unfold escapeChar
  split
  case h_8 hquote hslash _ _ _ _ _ =>
    replace hquote : c ≠ '"' := hquote
    replace hslash : c ≠ '\\' := hslash
    by_cases hlow : c.toNat < 0x20
    · -- A control character without a letter of its own is written by its number, in four digits.
      refine ⟨.unit c.toNat, Piece.spells_unit hlow, fun tokens read rest => ?_⟩
      have hzero : Text.digit? 16 '0' = some 0 := by decide
      have hhigh := digit?_digitChar (c.toNat / 16) (by omega)
      have hlast := digit?_digitChar (c.toNat % 16) (by omega)
      have hvalue : ((((0 * 16 + 0) * 16 + 0) * 16 + c.toNat / 16) * 16 + c.toNat % 16) = c.toNat := by omega
      simp only [if_pos hlow, List.cons_append, List.nil_append]
      rw [run_cons_of_step rfl, run_cons_of_step rfl, run_cons_of_step (step_digit hzero (by decide)),
        run_cons_of_step (step_digit hzero (by decide)), run_cons_of_step (step_digit hhigh (by decide)),
        run_cons_of_step (step_lastDigit hlast), hvalue]
    · refine ⟨.char c, Piece.spells_char c, fun tokens read rest => ?_⟩
      rw [if_neg hlow]
      exact run_cons_of_step (by simp [step, hquote, hslash, hlow]) rest
  all_goals
    exact ⟨.char _, Piece.spells_char _, fun tokens read rest => rfl⟩

/-- The characters of `text` are read as pieces that stand for it. -/
theorem exists_run_escape (text : List Char) :
    ∃ pieces : List Piece, Piece.text? pieces = some text ∧ ∀ tokens read rest,
      run { mode := .string read, tokens } (text.flatMap escapeChar ++ rest) =
        run { mode := .string (pieces.reverse ++ read), tokens } rest := by
  induction text with
  | nil => exact ⟨[], by rw [Piece.text?], fun _ _ _ => rfl⟩
  | cons c text ih =>
    obtain ⟨piece, hspells, hpiece⟩ := exists_run_escapeChar c
    obtain ⟨pieces, htext, hpieces⟩ := ih
    refine ⟨piece :: pieces, by rw [hspells, htext, Option.map_some], fun tokens read rest => ?_⟩
    rw [List.flatMap_cons, List.append_assoc, hpiece, hpieces, List.reverse_cons, List.append_assoc,
      List.singleton_append]

/-- A string literal is one token. -/
theorem run_literal {text : Literal} (h : text.isSome) (tokens : List Token) (rest : List Char) :
    run { tokens } (renderLiteral text ++ rest) = run { tokens := .string text :: tokens } rest := by
  obtain ⟨text, rfl⟩ := Option.isSome_iff_exists.mp h
  obtain ⟨pieces, htext, hpieces⟩ := exists_run_escape text.toList
  have hend : step { mode := .string (pieces.reverse ++ []), tokens } '"' =
      some { tokens := .string (some text) :: tokens } := by
    simp [step, htext]
  rw [renderLiteral, Option.getD_some, List.cons_append, List.cons_append, List.append_assoc,
    run_cons_of_step rfl, hpieces, List.singleton_append, run_cons_of_step hend]

end Scan

/-- A positive `value` is written without a leading zero. -/
theorem exists_decimal_eq_cons {value : Nat} (h : 0 < value) :
    ∃ c rest, Text.decimal value = c :: rest ∧ c ≠ '0' := by
  induction value using Nat.strongRecOn with
  | ind value ih =>
    by_cases hsmall : value < 10
    · exact ⟨_, [], Nat.toDigits_of_lt_base hsmall, by simp; omega⟩
    · -- The first digit is that of the number without its last digit.
      obtain ⟨c, rest, hdigits, hc⟩ := ih (value / 10) (by omega) (by omega)
      refine ⟨c, rest ++ [Nat.digitChar (value % 10)], ?_, hc⟩
      rw [Text.decimal, Nat.toDigits_of_base_le (by decide) (by omega), ← Text.decimal, hdigits,
        List.cons_append]

/-- The decimal digits of `value` are an integer. -/
theorem isInteger_decimal (value : Nat) : Numeral.isInteger (Text.decimal value) := by
  rcases Nat.eq_zero_or_pos value with rfl | hpos
  · rfl
  · obtain ⟨c, rest, hdigits, hc⟩ := exists_decimal_eq_cons hpos
    rw [hdigits]
    unfold Numeral.isInteger
    split <;> simp_all

/-- The decimal digits of `value` stand for it. -/
theorem wordToken?_decimal (value : Nat) :
    wordToken? (Text.decimal value) = some (.scalar (.natural value)) := by
  have hdigits : ∀ c ∈ Text.decimal value, c.isDigit := fun c hc =>
    Nat.isDigit_of_mem_toDigits (by decide) (by decide) hc
  -- A numeral has digits only, so it is none of the three words that are tried first.
  have hword {word : List Char} (c : Char) (hc : c ∈ word) (hdigit : c.isDigit = false) :
      Text.decimal value ≠ word := by
    rintro rfl
    simp [hdigits c hc] at hdigit
  have hvalue : Nat.ofDigitChars 10 (Text.decimal value) 0 = value := Nat.ofDigitChars_ten_toDigits
  rw [wordToken?, if_neg (hword 'n' (by decide) rfl), if_neg (hword 't' (by decide) rfl),
    if_neg (hword 'f' (by decide) rfl), Numeral.value?, isInteger_decimal, List.all_eq_true.mpr hdigits,
    hvalue]
  rfl

/-- A number `value` is one token. -/
theorem Scan.run_decimal (found : List Token) (value : Nat) {rest : List Char} (hrest : EndsWord rest) :
    run { tokens := found } (Text.decimal value ++ rest) =
      run { tokens := .scalar (.natural value) :: found } rest := by
  refine run_scalar _ (fun hnil => ?_) (fun c hc => ?_) (wordToken?_decimal value) hrest
  · have hinteger := isInteger_decimal value
    rw [hnil] at hinteger
    cases hinteger
  · have hdigit : c.isDigit := Nat.isDigit_of_mem_toDigits (by decide) (by decide) hc
    simp [isWordChar, Char.isAlphanum, hdigit]

/-- A colon and what may follow it in this `style` is one token. -/
theorem Scan.run_colon (found : List Token) (style : Style) (rest : List Char) :
    run { tokens := found } (style.colon ++ rest) = run { tokens := .colon :: found } rest := by
  cases style with
  | compact => exact run_cons_of_step rfl rest
  | pretty => exact (run_cons_of_step rfl _).trans (run_cons_of_step rfl rest)

mutual

/-- The scanner finds the tokens of a written value, after those `found` before. -/
theorem run_renderAt (style : Style) (depth : Nat) (found : List Token) {rest : List Char}
    (hrest : EndsWord rest) : ∀ {value : Json}, Plain value →
      Scan.run { tokens := found } (renderAt style depth value ++ rest) =
        Scan.run { tokens := value.tokens.reverse ++ found } rest
  | .null, _ => Scan.run_scalar "null".toList (by decide) (List.all_eq_true.mp rfl) rfl hrest
  | .bool true, _ => Scan.run_scalar "true".toList (by decide) (List.all_eq_true.mp rfl) rfl hrest
  | .bool false, _ => Scan.run_scalar "false".toList (by decide) (List.all_eq_true.mp rfl) rfl hrest
  | .natural value, _ => Scan.run_decimal found value hrest
  | .string text, h => Scan.run_literal h found rest
  | .array [], _ => rfl
  | .array (item :: items), h => by
    -- The last item is ended by what closes the array, as those before it are by commas.
    have hend : EndsWord (style.lineBreak depth ++ ']' :: rest) := endsWord_lineBreak style depth rfl rest
    simp only [renderAt, List.cons_append, List.append_assoc, List.nil_append]
    rw [Scan.run_cons_of_step rfl, run_renderItems style (depth + 1) _ hend h, Scan.run_lineBreak,
      Scan.run_cons_of_step rfl]
    simp [tokens]
  | .object [], _ => rfl
  | .object (member :: members), h => by
    have hend : EndsWord (style.lineBreak depth ++ '\x7d' :: rest) := endsWord_lineBreak style depth rfl rest
    simp only [renderAt, List.cons_append, List.append_assoc, List.nil_append]
    rw [Scan.run_cons_of_step rfl, run_renderMembers style (depth + 1) _ hend h, Scan.run_lineBreak,
      Scan.run_cons_of_step rfl]
    simp [tokens]

/-- The scanner finds the tokens of written items, after those `found` before. -/
theorem run_renderItems (style : Style) (depth : Nat) (found : List Token) {rest : List Char}
    (hrest : EndsWord rest) : ∀ {items : List Json}, PlainItems items →
      Scan.run { tokens := found } (renderItems style depth items ++ rest) =
        Scan.run { tokens := (itemTokens items).reverse ++ found } rest
  | [], _ => rfl
  | [item], h => by
    rw [renderItems, List.append_assoc, Scan.run_lineBreak, run_renderAt style depth _ hrest h.1, itemTokens]
  | item :: next :: items, h => by
    have hcomma : EndsWord (',' :: (renderItems style depth (next :: items) ++ rest)) := endsWord_comma _
    rw [renderItems, List.append_assoc, List.append_assoc, Scan.run_lineBreak, List.cons_append,
      run_renderAt style depth _ hcomma h.1, Scan.run_cons_of_step rfl, run_renderItems style depth _ hrest h.2]
    · simp [itemTokens]
    · simp

/-- The scanner finds the tokens of written members, after those `found` before. -/
theorem run_renderMembers (style : Style) (depth : Nat) (found : List Token) {rest : List Char}
    (hrest : EndsWord rest) : ∀ {members : List (Literal × Json)}, PlainMembers members →
      Scan.run { tokens := found } (renderMembers style depth members ++ rest) =
        Scan.run { tokens := (memberTokens members).reverse ++ found } rest
  | [], _ => rfl
  | [(key, value)], h => by
    simp only [renderMembers, List.append_assoc]
    rw [Scan.run_lineBreak, Scan.run_literal h.1, Scan.run_colon, run_renderAt style depth _ hrest h.2.1]
    simp [memberTokens]
  | (key, value) :: next :: members, h => by
    have hcomma : EndsWord (',' :: (renderMembers style depth (next :: members) ++ rest)) := endsWord_comma _
    simp only [renderMembers, List.append_assoc, List.cons_append]
    rw [Scan.run_lineBreak, Scan.run_literal h.1, Scan.run_colon, run_renderAt style depth _ hcomma h.2.1,
      Scan.run_cons_of_step rfl, run_renderMembers style depth _ hrest h.2.2]
    simp [memberTokens]

end

namespace Build

/-- The value that `build` is completed to by `tokens`. -/
def run (build : Build) (tokens : List Token) : Option Json := do
  let last ← tokens.foldlM step build
  last.finish

theorem run_cons (build : Build) (token : Token) (rest : List Token) :
    build.run (token :: rest) = (build.step token).bind fun next => next.run rest := by
  simp [run, Option.bind_assoc]

end Build

/-- `expect` lets a value come next. -/
def Expect.IsValue (expect : Expect) : Prop :=
  expect = .value ∨ expect = .valueOrEnd

/-- `expect` lets a key come next. -/
def Expect.IsKey (expect : Expect) : Prop :=
  expect = .key ∨ expect = .keyOrEnd

namespace Build

variable {stack : List Frame} {expect : Expect}

/-- Where a value may come next, a `token` that does not end an array starts a value. -/
theorem run_beginValue (hexpect : expect.IsValue) {token : Token} (htoken : token ≠ .endArray)
    (rest : List Token) :
    run { stack, expect } (token :: rest) = (beginValue stack token).bind fun next => next.run rest := by
  rw [run_cons]
  rcases hexpect with rfl | rfl
  · rfl
  · cases token with
    | endArray => exact absurd rfl htoken
    | _ => rfl

/-- Where a key may come next, a string literal is a `key`, and its colon leads to the value. -/
theorem run_key (hexpect : expect.IsKey) (members : List (Literal × Json)) (key : Literal)
    (rest : List Token) :
    run { stack := .object members :: stack, expect } (.string key :: .colon :: rest) =
      run { stack := .member members key :: stack, expect := .value } rest := by
  rcases hexpect with rfl | rfl
  · rfl
  · rfl

/-- A complete `value` is added to what is open on the `stack`, and the machine goes on there with the `rest`. -/
def complete (stack : List Frame) (value : Json) (rest : List Token) : Option Json :=
  (push stack value).bind fun next => next.run rest

end Build

mutual

/-- The tokens of a value complete it. -/
theorem run_tokens (stack : List Frame) {expect : Expect} (hexpect : expect.IsValue) (rest : List Token) :
    ∀ {value : Json}, Plain value →
      Build.run { stack, expect } (value.tokens ++ rest) = Build.complete stack value rest
  | .null, _ => Build.run_beginValue hexpect (by simp) rest
  | .bool _, _ => Build.run_beginValue hexpect (by simp) rest
  | .natural _, _ => Build.run_beginValue hexpect (by simp) rest
  | .string _, _ => Build.run_beginValue hexpect (by simp) rest
  | .array [], _ => by
    simp only [tokens, itemTokens, List.cons_append, List.nil_append]
    rw [Build.run_beginValue hexpect (by simp), Build.beginValue, Option.bind_some, Build.run_cons]
    rfl
  | .array (item :: items), h => by
    simp only [tokens, List.cons_append, List.append_assoc, List.nil_append]
    rw [Build.run_beginValue hexpect (by simp), Build.beginValue, Option.bind_some,
      run_itemTokens stack (.inr rfl) [] _ (by simp) h, Build.run_cons]
    simp [Build.step, Build.endArray, Build.complete]
  | .object [], _ => by
    simp only [tokens, memberTokens, List.cons_append, List.nil_append]
    rw [Build.run_beginValue hexpect (by simp), Build.beginValue, Option.bind_some, Build.run_cons]
    rfl
  | .object (member :: members), h => by
    simp only [tokens, List.cons_append, List.append_assoc, List.nil_append]
    rw [Build.run_beginValue hexpect (by simp), Build.beginValue, Option.bind_some,
      run_memberTokens stack (.inr rfl) [] _ (by simp) h, Build.run_cons]
    simp [Build.step, Build.endObject, Build.complete]

/-- The tokens of items add them to an open array, behind those `before`. -/
theorem run_itemTokens (stack : List Frame) {expect : Expect} (hexpect : expect.IsValue) (before : List Json)
    (rest : List Token) : ∀ {items : List Json}, items ≠ [] → PlainItems items →
      Build.run { stack := .array before :: stack, expect } (itemTokens items ++ rest) =
        Build.run { stack := .array (items.reverse ++ before) :: stack, expect := .separator } rest
  | [], hne, _ => absurd rfl hne
  | [item], _, h => run_tokens (.array before :: stack) hexpect rest h.1
  | item :: next :: items, _, h => by
    have hitem := run_tokens (.array before :: stack) hexpect
      (.comma :: (itemTokens (next :: items) ++ rest)) h.1
    -- After the comma a value must come, where at the beginning the array might have ended.
    have hrest := run_itemTokens stack (.inl rfl) (item :: before) rest (by simp) h.2
    simp only [itemTokens, List.append_assoc, List.cons_append]
    rw [hitem, List.reverse_cons, List.append_assoc, List.singleton_append, ← hrest]
    rfl

/-- The tokens of members add them to an open object, behind those `before`. -/
theorem run_memberTokens (stack : List Frame) {expect : Expect} (hexpect : expect.IsKey)
    (before : List (Literal × Json)) (rest : List Token) :
    ∀ {members : List (Literal × Json)}, members ≠ [] → PlainMembers members →
      Build.run { stack := .object before :: stack, expect } (memberTokens members ++ rest) =
        Build.run { stack := .object (members.reverse ++ before) :: stack, expect := .separator } rest
  | [], hne, _ => absurd rfl hne
  | [(key, value)], _, h =>
    (Build.run_key hexpect before key _).trans (run_tokens (.member before key :: stack) (.inl rfl) rest h.2.1)
  | (key, value) :: next :: members, _, h => by
    have hvalue := run_tokens (.member before key :: stack) (.inl rfl)
      (.comma :: (memberTokens (next :: members) ++ rest)) h.2.1
    have hrest := run_memberTokens stack (.inl rfl) ((key, value) :: before) rest (by simp) h.2.2
    simp only [memberTokens, List.append_assoc, List.cons_append]
    rw [Build.run_key hexpect, hvalue, List.reverse_cons, List.append_assoc, List.singleton_append, ← hrest]
    rfl

end

/-- Every `Plain` value is read back from its text, in either `style`. -/
theorem parse?_render (style : Style) {value : Json} (h : value.Plain) :
    parse? (value.render style) = some value := by
  have htokens : Scan.run {} (renderAt style 0 value) = some value.tokens := by
    have hend : EndsWord [] := by simp [EndsWord]
    have hrun := run_renderAt style 0 [] hend h
    rw [List.append_nil, List.append_nil] at hrun
    rw [hrun]
    simp [Scan.run, Scan.finish]
  have hvalue : Build.run {} value.tokens = some value := by
    have hrun := run_tokens [] (.inl rfl) [] h
    rwa [List.append_nil] at hrun
  rw [parse?, render, String.toList_ofList]
  exact Option.bind_eq_some_iff.mpr ⟨_, htokens, hvalue⟩

end TrafficMeter.Json
