import TerseMarkup.Html.Document
import TerseMarkup.Html.Markup
import TerseMarkup.Html.Renaming

/-! Shortening the names of a document.

Styles come before elements: a name that only a selector's pattern mentions has to be in the table
before the names that it matches come up. -/
namespace TerseMarkup.Shortener

/-- Exchanges the names in the style elements of a tree. -/
def shortenStyles (s : Shortener) (root : Html.Node) : StateM Table Html.Node :=
  root.renameStyles s.assign

/-- Exchanges the names in the attributes of a tree. -/
def shortenElements (s : Shortener) (root : Html.Node) : StateM Table Html.Node :=
  root.renameElements s.assign

def shortenTree (s : Shortener) (root : Html.Node) : StateM Table Html.Node := do
  s.shortenElements (← s.shortenStyles root)

/-- The document with its names exchanged, and the table of the exchange. -/
def shorten (s : Shortener) (html : Text) : Except DocumentError (Text × Table) := do
  let root ← Html.Document.parse html
  let (root, table) := (s.shortenTree root).run .empty
  return (← root.serialize, table)

end TerseMarkup.Shortener
