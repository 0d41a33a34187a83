import TerseMarkup.Html.CharacterNames
import TerseMarkup.Text.Numeral

/-! Character references.

A reference is an ampersand with a name or a number behind it. What is no reference stays as it is
written. In an attribute's value a name without its semicolon is no reference if a letter, a digit
or an equals sign follows, so that addresses keep their parameters. -/
namespace TerseMarkup.Html.CharacterReference

/-- What the numbers from 128 to 159 mean: the characters that an old Windows code page has there,
zero for those it leaves out. -/
def latinControls : List Nat :=
  [0x20AC, 0, 0x201A, 0x0192, 0x201E, 0x2026, 0x2020, 0x2021,
    0x02C6, 0x2030, 0x0160, 0x2039, 0x0152, 0, 0x017D, 0,
    0, 0x2018, 0x2019, 0x201C, 0x201D, 0x2022, 0x2013, 0x2014,
    0x02DC, 0x2122, 0x0161, 0x203A, 0x0153, 0, 0x017E, 0x0178]

/-- The character that a reference by this number means. -/
def numbered (n : Nat) : Char :=
  match latinControls[n - 0x80]? with
  | some other => Text.charOfNumber (if 0x80 ≤ n ∧ other ≠ 0 then other else n)
  | none => Text.charOfNumber n

/-- What a reference means and how long it is behind its ampersand. -/
structure Reading where
  meaning : Text
  length : Nat
  /-- Whether the semicolon at the end is there. -/
  closed : Bool := true

/-- A number behind `start` characters, if it has digits. -/
def readNumber? (base start : Nat) (isDigit : Char → Bool) (s : Text) : Option Reading :=
  let digits := s.takeWhile isDigit
  if digits.isEmpty then none
  else
    let closed := (s.drop digits.length).head? == some ';'
    some
      { meaning := [numbered (Text.number base digits)],
        length := start + digits.length + (if closed then 1 else 0), closed }

def readName? (inAttribute : Bool) (s : Text) : Option Reading := do
  let (name, meaning) ← CharacterNames.at? s
  let name := name.toList
  let closed := name.getLast? == some ';'
  let next := (s.drop name.length).head?
  if inAttribute && !closed && next.any (fun c => c == '=' || c.isAlphanum) then none
  else some { meaning := meaning.map Char.ofNat, length := name.length, closed }

/-- The reference behind an ampersand. -/
def read? (inAttribute : Bool) : Text → Option Reading
  | '#' :: 'x' :: r => readNumber? 16 2 Text.isHexDigit r
  | '#' :: 'X' :: r => readNumber? 16 2 Text.isHexDigit r
  | '#' :: r => readNumber? 10 1 Char.isDigit r
  | s => readName? inAttribute s

/-- Exchanges references for their meanings; the first `skip` characters have been read. -/
def decodeFrom (inAttribute : Bool) : (skip : Nat) → Text → Text
  | _, [] => []
  | skip + 1, _ :: r => decodeFrom inAttribute skip r
  | 0, c :: r =>
    if c = '&' then
      match read? inAttribute r with
      | some reading => reading.meaning ++ decodeFrom inAttribute reading.length r
      | none => '&' :: decodeFrom inAttribute 0 r
    else c :: decodeFrom inAttribute 0 r

def decode (inAttribute : Bool) (s : Text) : Text := decodeFrom inAttribute 0 s

/-- Whether a text starts with a reference that lacks its semicolon. -/
def startsUnclosed (s : Text) : Bool :=
  match s with
  | '&' :: r => (read? false r).any (!·.closed)
  | _ => false

end TerseMarkup.Html.CharacterReference
