import TerseMarkup.Text.Numeral

/-! Comments.

Behind `<!--` a comment runs to the first `-->` or `--!>`. Where the text ends first, the part of an
ending that is there is dropped. Other markup that starts with `<!` or `<?` is read as a comment up
to the first `>`. -/
namespace TerseMarkup.Html.Comment

/-- The contents up to the ending, and what follows it. -/
def body : Text → Text × Text
  | [] => ([], [])
  | ['-'] => ([], [])
  | ['-', '-'] => ([], [])
  | ['-', '-', '!'] => ([], [])
  | '-' :: '-' :: '>' :: r => ([], r)
  | '-' :: '-' :: '!' :: '>' :: r => ([], r)
  | c :: r =>
    let (contents, rest) := body r
    (c :: contents, rest)

/-- A comment from behind its `<!--`; it may end at once. -/
def read : Text → Text × Text
  | '>' :: r => ([], r)
  | '-' :: '>' :: r => ([], r)
  | s =>
    let (contents, rest) := body s
    (contents.withoutNull, rest)

/-- Markup that is no comment and is read as one. -/
def readOther (s : Text) : Text × Text :=
  let (contents, rest) := s.span (· ≠ '>')
  (Text.withoutNull contents, rest.drop 1)

end TerseMarkup.Html.Comment
