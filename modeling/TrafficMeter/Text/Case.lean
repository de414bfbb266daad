/-!
# Upper case

Keywords are compared after upper-casing (`Text.spells`). The keywords are ASCII words, so only the characters
whose upper case is made of ASCII letters matter. They are the lower-case ASCII letters and the few Latin letters
and ligatures that Unicode folds onto them.
-/

namespace TrafficMeter.Text

/-- The upper case of `c`, where that is a sequence of ASCII letters. Every other character stands for itself and
is no part of an ASCII keyword. -/
def upperChar (c : Char) : List Char :=
  if c.isLower then [c.toUpper]
  else match c.toNat with
    | 0x00df => ['S', 'S']
    | 0x0131 => ['I']
    | 0x017f => ['S']
    | 0xfb00 => ['F', 'F']
    | 0xfb01 => ['F', 'I']
    | 0xfb02 => ['F', 'L']
    | 0xfb03 => ['F', 'F', 'I']
    | 0xfb04 => ['F', 'F', 'L']
    | 0xfb05 => ['S', 'T']
    | 0xfb06 => ['S', 'T']
    | _ => [c]

/-- The upper case of `text`, exact wherever it can equal an ASCII keyword. -/
def upper (text : List Char) : List Char :=
  text.flatMap upperChar

/-- `text` reads as `word` when letter case is disregarded. -/
def spells (word text : String) : Bool :=
  upper text.toList == word.toList

end TrafficMeter.Text
