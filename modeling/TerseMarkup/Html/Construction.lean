import TerseMarkup.Html.Construction.Ending
import TerseMarkup.Html.Construction.Foreign
import TerseMarkup.Html.Construction.OldLayout
import TerseMarkup.Html.Construction.Select
import TerseMarkup.Html.Construction.Template

/-! Construction of a tree from tokens.

`accept` takes one token. The rule of the mode may change the mode and ask for the token to be looked
at again, which goes on until a rule is done with it: each time either an element has been closed or
the document has come one step further. -/
namespace TerseMarkup.Html.Builder

/-- Behind the end tag of an element whose text is no markup, construction goes on as before. -/
def inText (b : Builder) (t : Token) : Outcome :=
  let back := { b.pop with mode := b.returnMode }
  match t with
  | .text s => .done (b.putText s)
  | .finish _ => .done back
  | .eof => .again back t
  | _ => .done b

/-- The rule of the mode. -/
def inMode (b : Builder) (t : Token) : Outcome :=
  match b.mode with
  | .initial => b.initial t
  | .beforeHtml => b.beforeHtml t
  | .beforeHead => b.beforeHead t
  | .inHead => b.inHead t
  | .afterHead => b.afterHead t
  | .inBody => b.inBody t
  | .inText => b.inText t
  | .inTable => b.inTable t
  | .inTableText => b.inTableText t
  | .inCaption => b.inCaption t
  | .inColumnGroup => b.inColumnGroup t
  | .inTableBody => b.inTableBody t
  | .inRow => b.inRow t
  | .inCell => b.inCell t
  | .inSelect => b.inSelect t
  | .inSelectInTable => b.inSelectInTable t
  | .inTemplate => b.inTemplate t
  | .afterBody => b.afterBody t
  | .inFrameset => b.inFrameset t
  | .afterFrameset => b.afterFrameset t
  | .afterAfterBody => b.afterAfterBody t
  | .afterAfterFrameset => b.afterAfterFrameset t

/-- What is to be done with a token. -/
def step (b : Builder) (t : Token) : Outcome :=
  if b.isForeign t then b.inForeign inMode t else b.inMode t

/-- Looks at a token until a rule is done with it, at most `fuel` times. -/
def settle : (fuel : Nat) → Builder → Token → Builder
  | 0, b, _ => b
  | fuel + 1, b, t =>
    match b.step t with
    | .done b => b
    | .again b t => settle fuel b t

/-- Takes a token that is neither a doctype nor a mistake. Between two looks at which no element is
closed the mode moves on, and there are only so many modes. -/
def take (b : Builder) (t : Token) : Builder := b.settle (24 * (b.stack.length + 2)) t

/-- The doctype counts only at the very start. -/
def acceptDoctype (b : Builder) (d : Doctype) : Builder :=
  if b.mode = .initial then
    let node := Node.doctype (d.name.getD []) (d.publicId.getD []) (d.systemId.getD [])
    { b with
      root := b.root.mapChildren 0 (· ++ [node]), oldLayout := d.isOld, mode := .beforeHtml }
  else b

/-- The text without a line feed at its start. -/
def withoutNewline : Text → Text
  | '\n' :: r => r
  | s => s

/-- Takes text in runs of spaces and of other characters. -/
def acceptText (b : Builder) (s : Text) : Builder :=
  (s.splitBy fun c d => Text.isSpace c == Text.isSpace d).foldl (fun b run => b.take (.text run)) b

/-- Takes the next token. -/
def accept (b : Builder) (t : Token) : Builder :=
  let dropped := b.dropNewline
  let b := { b with dropNewline := false }
  match t with
  | .mistake => b
  | .doctype d => b.acceptDoctype d
  | .text s => b.acceptText (if dropped then withoutNewline s else s)
  | t => b.take t

/-- Whether sections of plain characters may come next. -/
def takesSections (b : Builder) : Bool := b.stack.head?.any (·.name.space != .html)

end TerseMarkup.Html.Builder
