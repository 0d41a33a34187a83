import TerseMarkup.Css.Lexeme.Name

/-! Names and strings written out for a stylesheet.

A name is written so that it reads back as one identifier, a string so that it reads back between
double quotes. Control characters go out as hexadecimal escapes, each ended by a space; any other
character that would not be taken literally goes out behind a backslash. -/
namespace TerseMarkup.Css
open Text (replacement)

/-- A backslash, the code point in small hexadecimal digits, and the space that ends them. -/
def hexEscape (c : Char) : Text := '\\' :: (Nat.toDigits 16 c.toNat ++ [' '])

/-- The control characters that are written by number. -/
def isControl (c : Char) : Bool :=
  (0x01 ≤ c.toNat && c.toNat ≤ 0x1F) || c.toNat == 0x7F

/-- One character of a name behind its start. -/
def writeNameChar (c : Char) : Text :=
  if c = '\x00' then [replacement]
  else if isNameChar c then [c]
  else if isControl c then hexEscape c
  else ['\\', c]

def writeName (name : Text) : Text := name.flatMap writeNameChar

/-- A digit that would start an identifier is written by number. -/
def writeStart : Text → Text
  | [] => []
  | c :: r => if c.isDigit then hexEscape c ++ writeName r else writeName (c :: r)

/-- The name as an identifier. -/
def writeIdent : Text → Text
  | '-' :: '-' :: r => '-' :: '-' :: writeName r
  | ['-'] => ['\\', '-']
  | '-' :: r => '-' :: writeStart r
  | name => writeStart name

def writeStringChar (c : Char) : Text :=
  if c = '"' ∨ c = '\\' then ['\\', c]
  else if c = '\x00' then [replacement]
  else if isControl c then hexEscape c
  else [c]

/-- The value between double quotes. -/
def writeString (value : Text) : Text := '"' :: (value.flatMap writeStringChar ++ ['"'])

end TerseMarkup.Css
