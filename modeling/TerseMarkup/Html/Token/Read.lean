import TerseMarkup.Html.Token.Comment
import TerseMarkup.Html.Token.Doctype
import TerseMarkup.Html.Token.RawText
import TerseMarkup.Html.Token.Tag

/-! Reading tokens.

`Token.read` takes the tokens at the start of a text that is not empty, usually one. How it reads
depends on the element that the text stands in (`Content`); the end tag of that element goes back to
ordinary markup. -/
namespace TerseMarkup.Html.Token

/-- The tokens read, the rest of the text, and how to go on. -/
structure Reading where
  tokens : List Token
  rest : Text
  content : Content := .data

/-- Text with its references decoded, behind the mistake that it may start with. -/
def ofEscaped (spelled : Text) : List Token :=
  (if CharacterReference.startsUnclosed spelled then [mistake] else []) ++
    [text (CharacterReference.decode false spelled).withoutNull]

/-- Text taken as it is, but for NUL characters, which stay tokens of their own. -/
def ofLiteral (s : Text) : List Token :=
  (s.splitBy fun a b => a ≠ '\x00' && b ≠ '\x00').map fun run =>
    if run.head? = some '\x00' then null else text run

/-- What follows `<!`. A section of plain characters counts only inside SVG and MathML. -/
def readDeclaration (sections : Bool) (s : Text) : Reading :=
  match Text.after? "--".toList s with
  | some r =>
    let (contents, rest) := Comment.read r
    ⟨[comment contents], rest, .data⟩
  | none =>
    match Text.afterIgnoringCase? "doctype".toList s with
    | some r =>
      let (d, rest) := Doctype.read r
      ⟨[doctype d], rest, .data⟩
    | none =>
      match if sections then Text.after? "[CDATA[".toList s else none with
      | some r =>
        match Text.cut? "]]>".toList r with
        | some (contents, rest) => ⟨ofLiteral contents, rest, .data⟩
        | none => ⟨ofLiteral r, [], .data⟩
      | none =>
        let (contents, rest) := Comment.readOther s
        ⟨[comment contents], rest, .data⟩

/-- What follows `</`. -/
def readEnd : Text → Reading
  | [] => ⟨[text ['<', '/']], [], .data⟩
  | '>' :: r => ⟨[mistake], r, .data⟩
  | c :: r =>
    if c.isAlpha then
      match Tag.read? (c :: r) with
      | some (tag, rest) => ⟨[finish tag.name], rest, .data⟩
      | none => ⟨[], [], .data⟩
    else
      let (contents, rest) := Comment.readOther (c :: r)
      ⟨[comment contents], rest, .data⟩

/-- What follows `<`. -/
def readMarkup (sections : Bool) : Text → Reading
  | '!' :: r => readDeclaration sections r
  | '/' :: r => readEnd r
  | '?' :: r =>
    let (contents, rest) := Comment.readOther ('?' :: r)
    ⟨[comment contents], rest, .data⟩
  | s =>
    if s.head?.any Char.isAlpha then
      match Tag.read? s with
      | some (tag, rest) => ⟨[start tag], rest, .data⟩
      | none => ⟨[], [], .data⟩
    else ⟨[text ['<']], s, .data⟩

def readData (sections : Bool) : Text → Reading
  | '<' :: r => readMarkup sections r
  | '\x00' :: r => ⟨[null], r, .data⟩
  | s =>
    let (run, rest) := s.span fun c => c ≠ '<' && c ≠ '\x00'
    ⟨ofEscaped run, rest, .data⟩

/-- The end tag of `name`, which starts here. -/
def readRawEnd (s : Text) : Reading :=
  match Tag.read? (s.drop 2) with
  | some (tag, rest) => ⟨[finish tag.name], rest, .data⟩
  | none => ⟨[], [], .data⟩

/-- The character that may mark the byte order at the start of a text. -/
def byteOrderMark : Char := '\uFEFF'

def dropByteOrderMark : Text → Text
  | c :: r => if c = byteOrderMark then r else c :: r
  | [] => []

/-- Raw text of the given length, or the end tag where there is none. -/
def readRaw (content : Content) (length : Nat) (tokens : Text → List Token) (s : Text) : Reading :=
  if length = 0 then readRawEnd s else ⟨tokens (s.take length), s.drop length, content⟩

/-- Reads behind a script start anew: a byte order mark there is dropped. -/
def readScript (s : Text) : Reading :=
  let length := RawText.scriptLength 0 .plain s
  let reading := readRaw .script length (fun t => [text t.withoutNull]) s
  if length = 0 then { reading with rest := dropByteOrderMark reading.rest } else reading

/-- Reads the tokens at the start of `s`. `sections` says whether the text stands inside SVG or
MathML. -/
def read (content : Content) (sections : Bool) (s : Text) : Reading :=
  match content with
  | .data => readData sections s
  | .escapable name => readRaw content (RawText.length name.toList s) ofEscaped s
  | .raw name =>
    readRaw content (RawText.length name.toList s) (fun t => [text t.withoutNull]) s
  | .script => readScript s
  | .plain => ⟨[text s.withoutNull], [], .plain⟩

end TerseMarkup.Html.Token
