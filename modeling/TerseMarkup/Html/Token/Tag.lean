import TerseMarkup.Html.Token
import TerseMarkup.Html.CharacterReference
import TerseMarkup.Text.Blank

/-! Tags.

Names of tags and attributes are read in small letters. Of two attributes of one name the first
counts. A tag that the end of the text cuts off is dropped altogether. -/
namespace TerseMarkup.Html.Tag

/-- A name as it counts: in small letters and without NUL. -/
def nameOf (spelled : Text) : String := String.ofList spelled.lower.withoutNull

/-- Ends a tag's name, and an unquoted value but for the slash. -/
def endsName (c : Char) : Bool := Text.isSpace c || c == '/' || c == '>'

def addAttribute (found : List Attribute) (spelled value : Text) : List Attribute :=
  let name : AttributeName := { name := nameOf spelled }
  if found.any (·.name == name) then found else found ++ [⟨name, value⟩]

/-- The meaning of an attribute's value as it is spelled. -/
def valueOf (spelled : Text) : Text := (CharacterReference.decode true spelled).withoutNull

/-- The value behind an equals sign; `none` where the text ends before the value does. -/
def readValue? (s : Text) : Option (Text × Text) :=
  match s.dropWhile Text.isSpace with
  | [] => none
  | '"' :: r => quoted '"' r
  | '\'' :: r => quoted '\'' r
  | s =>
    let (spelled, rest) := s.span fun c => !(Text.isSpace c || c == '>')
    some (valueOf spelled, rest)
where
  quoted (quote : Char) (r : Text) : Option (Text × Text) :=
    match r.span (· ≠ quote) with
    | (_, []) => none
    | (spelled, _ :: rest) => some (valueOf spelled, rest)

/-- The attributes of a tag, whether it closes itself, and what follows it. Every step takes a
character, so the length of the text bounds the steps. -/
def attributesFrom : (fuel : Nat) → List Attribute → Text → Option (List Attribute × Bool × Text)
  | 0, _, _ => none
  | fuel + 1, found, s =>
    match s.dropWhile Text.isSpace with
    | [] => none
    | '>' :: r => some (found, false, r)
    | '/' :: '>' :: r => some (found, true, r)
    | '/' :: r => attributesFrom fuel found r
    | c :: r =>
      let (more, rest) := r.span fun c => !(endsName c || c == '=')
      match rest.dropWhile Text.isSpace with
      | '=' :: rest => do
        let (value, rest) ← readValue? rest
        attributesFrom fuel (addAttribute found (c :: more) value) rest
      | rest => attributesFrom fuel (addAttribute found (c :: more) []) rest

def attributes? (s : Text) : Option (List Attribute × Bool × Text) :=
  attributesFrom (s.length + 1) [] s

/-- The tag whose name starts here, and what follows it. -/
def read? (s : Text) : Option (Tag × Text) := do
  let (spelled, rest) := s.span (!endsName ·)
  let (attributes, selfClosing, rest) ← attributes? rest
  some ({ name := nameOf spelled, attributes, selfClosing }, rest)

end TerseMarkup.Html.Tag
