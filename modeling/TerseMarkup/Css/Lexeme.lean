import TerseMarkup.Css.Token
import TerseMarkup.Css.Lexeme.Url

/-! Stylesheet text as lexemes.

A lexeme is a token together with the characters that spell it. `scan` cuts a text into lexemes and
loses nothing: the spellings, one after the other, are the text. -/
namespace TerseMarkup.Css

structure Lexeme where
  token : Token
  text : Text
deriving DecidableEq, Repr

namespace Lexeme

def startsWithDigit (s : Text) : Bool := s.head?.any Char.isDigit

/-- Whether digits, or a point and digits, start here. -/
def startsUnsigned : Text → Bool
  | '.' :: r => startsWithDigit r
  | s => startsWithDigit s

def startsNumber : Text → Bool
  | '+' :: r => startsUnsigned r
  | '-' :: r => startsUnsigned r
  | s => startsUnsigned s

def digitsLength (s : Text) : Nat := (s.takeWhile Char.isDigit).length

def signLength : Text → Nat
  | '+' :: _ => 1
  | '-' :: _ => 1
  | _ => 0

/-- The point and the digits behind it, if there are any. -/
def fractionLength : Text → Nat
  | '.' :: r => if startsWithDigit r then digitsLength r + 1 else 0
  | _ => 0

/-- The exponent, if `e` is followed by digits or by a sign and digits. -/
def exponentLength : Text → Nat
  | c :: r =>
    if c = 'e' ∨ c = 'E' then
      let sign := signLength r
      if startsWithDigit (r.drop sign) then digitsLength (r.drop sign) + sign + 1 else 0
    else 0
  | [] => 0

/-- A number with what makes it a percentage or a dimension. -/
def readNumber (s : Text) : Token × Nat :=
  let n := signLength s
  let n := n + digitsLength (s.drop n)
  let n := n + fractionLength (s.drop n)
  let n := n + exponentLength (s.drop n)
  let rest := s.drop n
  if rest.head? = some '%' then (.percentage, n + 1)
  else if startsIdent rest then (.dimension, n + (name rest).2)
  else (.number, n)

/-- An identifier, or with a parenthesis directly behind it a function or a URL. -/
def readIdentLike (s : Text) : Token × Nat :=
  let (value, n) := name s
  match s.drop n with
  | '(' :: rest =>
    if value.sameIgnoringCase "url".toList then
      match url? rest with
      | some (good, k) => (if good then .url else .badUrl, n + 1 + k)
      | none => (.function value, n + 1)
    else (.function value, n + 1)
  | _ => (.ident value, n)

def readString (quote : Char) (r : Text) : Token × Nat :=
  match stringFrom quote 0 r with
  | (some value, n) => (.string value, n + 1)
  | (none, n) => (.badString, n + 1)

def readHash (r : Text) : Token × Nat :=
  if startsIdent r then
    let (value, n) := name r
    (.idHash value, n + 1)
  else if startsWithDigit r || r.head? = some '-' then (.hash, (name r).2 + 1)
  else (.delim '#', 1)

def readAt (r : Text) : Token × Nat :=
  if startsIdent r then
    let (value, n) := name r
    (.atKeyword value, n + 1)
  else (.delim '@', 1)

/-- The length of a comment behind its `/*`; one that is never closed takes the rest. -/
def commentLength (r : Text) : Nat :=
  match Text.cut? "*/".toList r with
  | some (body, _) => body.length + 2
  | none => r.length

/-- One of the operators of attribute selectors, or the character alone. -/
def readMatch (c : Char) (r : Text) : Token × Nat :=
  if r.head? = some '=' then (.matches c, 2) else (.delim c, 1)

/-- The token at the start of `c :: r` and its length. -/
def read (c : Char) (r : Text) : Token × Nat :=
  let s := c :: r
  if Text.isSpace c then (.whitespace, (s.takeWhile Text.isSpace).length)
  else if c = '"' ∨ c = '\'' then readString c r
  else if c = '#' then readHash r
  else if c = '@' then readAt r
  else if c = '(' then (.opening .paren, 1)
  else if c = ')' then (.closing .paren, 1)
  else if c = '[' then (.opening .square, 1)
  else if c = ']' then (.closing .square, 1)
  else if c = '{' then (.opening .curly, 1)
  else if c = '}' then (.closing .curly, 1)
  else if c = ':' then (.colon, 1)
  else if c = ';' then (.semicolon, 1)
  else if c = ',' then (.comma, 1)
  else if c ∈ ['~', '|', '^', '$', '*'] then readMatch c r
  else if c = '/' ∧ r.head? = some '*' then (.comment, commentLength r.tail + 2)
  else if ("<!--".toList.isPrefixOf s) then (.commentOpen, 4)
  else if startsNumber s then readNumber s
  else if ("-->".toList.isPrefixOf s) then (.commentClose, 3)
  else if startsIdent s then readIdentLike s
  else (.delim c, 1)

/-- The lexemes of a text whose first `skip` characters have been read. -/
def scanFrom : (skip : Nat) → Text → List Lexeme
  | _, [] => []
  | skip + 1, _ :: r => scanFrom skip r
  | 0, c :: r =>
    let (token, n) := read c r
    ⟨token, (c :: r).take n⟩ :: scanFrom (n - 1) r

def scan (s : Text) : List Lexeme := scanFrom 0 s

end Lexeme
end TerseMarkup.Css
