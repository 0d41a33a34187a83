import TerseMarkup.Text

/-! Stylesheet tokens.

A token keeps a value only where a selector or a rule asks for it: the names of identifiers and
at-keywords, ids and the contents of strings, all with their escapes undone. -/
namespace TerseMarkup.Css

inductive Bracket
  | paren
  | square
  | curly
deriving DecidableEq, Repr

inductive Token
  | ident (name : Text)
  /-- A name with the parenthesis that it opens. -/
  | function (name : Text)
  | atKeyword (name : Text)
  /-- A hash whose text is an identifier. -/
  | idHash (name : Text)
  | hash
  | string (value : Text)
  | badString
  | url
  | badUrl
  | number
  | percentage
  | dimension
  | whitespace
  | comment
  | colon
  | semicolon
  | comma
  /-- One of `~=`, `|=`, `^=`, `$=` and `*=`, by its first character. -/
  | matches (operator : Char)
  /-- The opening `<!--`. -/
  | commentOpen
  /-- The closing `-->`. -/
  | commentClose
  | opening (b : Bracket)
  | closing (b : Bracket)
  | delim (c : Char)
deriving DecidableEq, Repr

namespace Token

/-- The bracket that the token opens. -/
def opens? : Token → Option Bracket
  | function _ => some .paren
  | opening b => some b
  | _ => none

end Token
end TerseMarkup.Css
