import TerseMarkup.DocumentError
import TerseMarkup.Html.Construction
import TerseMarkup.Html.Fragment
import TerseMarkup.Html.Node.Tidy
import TerseMarkup.Html.Token.Read

/-! Reading documents and fragments.

`construct` feeds the tokens of a text to construction, each read as construction wants the text
behind the last one to be read. `parse` tidies what comes out of it and takes a fragment out of the
template that it has been read in. -/
namespace TerseMarkup.Html.Document

/-- Every line break is a line feed. -/
def unifyNewlines : Text → Text
  | [] => []
  | '\r' :: '\n' :: r => '\n' :: unifyNewlines r
  | c :: r => (if c = '\r' then '\n' else c) :: unifyNewlines r

/-- Reads a text into a tree. Every reading takes a character, so the length of the text bounds
their number. -/
def constructFrom : (fuel : Nat) → Builder → Text → Builder
  | 0, b, _ => b
  | _, b, [] => b
  | fuel + 1, b, s =>
    let reading := Token.read b.content b.takesSections s
    constructFrom fuel (reading.tokens.foldl Builder.accept { b with content := reading.content })
      reading.rest

def construct (s : Text) : Builder :=
  let s := Token.dropByteOrderMark (unifyNewlines s)
  (constructFrom s.length {} s).accept .eof

/-- The tree of a text, if construction has found a place for everything. -/
def tree (s : Text) : Except DocumentError Node :=
  let b := construct s
  if b.failed then throw .parse else return b.root.tidy

/-- The children of the template that a fragment has been read in, as a document. -/
def unwrap (root : Node) : Except DocumentError Node :=
  match root.firstTemplate? with
  | some cs => return .document 0 cs
  | none => throw .parse

/-- The tree of a document or of a fragment. -/
def parse (s : Text) : Except DocumentError Node :=
  if Fragment.isFragment s then do unwrap (← tree (Fragment.wrap s)) else tree s

end TerseMarkup.Html.Document
