import TerseMarkup.Html.Token
import TerseMarkup.Text.Blank
import TerseMarkup.Text.Numeral

/-! Doctypes.

A doctype has a name and may have a public and a system identifier between quotes. Whatever else it
holds marks it as damaged, and is dropped up to the `>`; so does the end of the text. -/
namespace TerseMarkup.Html.Doctype

def skipSpace (s : Text) : Text := s.dropWhile Text.isSpace

/-- What follows the `>` that ends a doctype. -/
def skip (s : Text) : Text := (s.dropWhile (· ≠ '>')).drop 1

/-- Ends a doctype with something in it that does not belong there. -/
def spoiled (d : Doctype) (s : Text) : Doctype × Text := ({ d with damaged := true }, skip s)

/-- An identifier up to its closing quote. A `>` or the end of the text may come first; then the
flag is off and the rest starts with it. -/
def identifier (quote : Char) (s : Text) : Text × Bool × Text :=
  let (spelled, rest) := s.span fun c => c ≠ quote && c ≠ '>'
  let value := Text.withoutNull spelled
  match rest with
  | c :: r => if c = quote then (value, true, r) else (value, false, rest)
  | [] => (value, false, [])

/-- Reads on behind the system identifier. -/
def readEnd (d : Doctype) (s : Text) : Doctype × Text :=
  match skipSpace s with
  | [] => ({ d with damaged := true }, [])
  | rest => (d, skip rest)

/-- Reads the system identifier between quotes. -/
def readSystem (d : Doctype) (quote : Char) (s : Text) : Doctype × Text :=
  let (identifier, closed, rest) := identifier quote s
  let d := { d with systemId := some identifier }
  if closed then readEnd d rest else spoiled d rest

/-- Reads on behind the public identifier, where a system identifier may follow. -/
def readBetween (d : Doctype) (s : Text) : Doctype × Text :=
  match skipSpace s with
  | '>' :: r => (d, r)
  | '"' :: r => readSystem d '"' r
  | '\'' :: r => readSystem d '\'' r
  | rest => spoiled d rest

def readPublic (d : Doctype) (quote : Char) (s : Text) : Doctype × Text :=
  let (identifier, closed, rest) := identifier quote s
  let d := { d with publicId := some identifier }
  if closed then readBetween d rest else spoiled d rest

/-- Reads on behind the name, where a keyword says which identifier comes first. -/
def readIdentifiers (d : Doctype) (s : Text) : Doctype × Text :=
  let s := skipSpace s
  match s with
  | '>' :: r => (d, r)
  | _ =>
    match Text.afterIgnoringCase? "public".toList s with
    | some rest =>
      match skipSpace rest with
      | '"' :: r => readPublic d '"' r
      | '\'' :: r => readPublic d '\'' r
      | rest => spoiled d rest
    | none =>
      match Text.afterIgnoringCase? "system".toList s with
      | some rest =>
        match skipSpace rest with
        | '"' :: r => readSystem d '"' r
        | '\'' :: r => readSystem d '\'' r
        | rest => spoiled d rest
      | none => spoiled d s

/-- The doctype from behind its keyword. -/
def read (s : Text) : Doctype × Text :=
  match skipSpace s with
  | [] => ({ damaged := true }, [])
  | '>' :: r => ({ damaged := true }, r)
  | s =>
    let (spelled, rest) := s.span fun c => !(Text.isSpace c || c == '>')
    readIdentifiers { name := some (Text.lower spelled).withoutNull } rest

end TerseMarkup.Html.Doctype
