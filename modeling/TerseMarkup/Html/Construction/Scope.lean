import TerseMarkup.Html.Construction.Builder

/-! Open elements: scopes and closing.

A scope ends at certain elements: what is open beyond them is out of reach of an end tag. Some
elements end where their parent ends, with no end tag of their own (`impliedEnds`). -/
namespace TerseMarkup.Html

namespace ElementName

/-- MathML elements that hold text as HTML does. -/
def isMathText (n : ElementName) : Bool :=
  n.space == .mathml && ["mi", "mo", "mn", "ms", "mtext"].contains n.name

/-- SVG elements that hold HTML. -/
def isSvgHost (n : ElementName) : Bool :=
  n.space == .svg && ["foreignObject", "desc", "title"].contains n.name

/-- Elements with rules of their own, past which no end tag of an ordinary element reaches. -/
def isSpecial (n : ElementName) : Bool :=
  n.isHtml ["address", "applet", "area", "article", "aside", "base", "basefont", "bgsound",
    "blockquote", "body", "br", "button", "caption", "center", "col", "colgroup", "dd", "details",
    "dir", "div", "dl", "dt", "embed", "fieldset", "figcaption", "figure", "footer", "form", "frame",
    "frameset", "h1", "h2", "h3", "h4", "h5", "h6", "head", "header", "hgroup", "hr", "html",
    "iframe", "img", "input", "isindex", "li", "link", "listing", "main", "marquee", "menu", "meta",
    "nav", "noembed", "noframes", "noscript", "object", "ol", "p", "param", "plaintext", "pre",
    "script", "section", "select", "source", "style", "summary", "table", "tbody", "td", "template",
    "textarea", "tfoot", "th", "thead", "title", "tr", "track", "ul", "wbr", "xmp"]

/-- The ends of the usual scope. -/
def endsScope (n : ElementName) : Bool :=
  n.isHtml ["applet", "caption", "html", "table", "td", "th", "marquee", "object", "template"] ||
    n.isMathText || n.isSvgHost

/-- The ends of the scope in which paragraphs are looked for. -/
def endsButtonScope (n : ElementName) : Bool := n.endsScope || n.isHtml ["button"]

/-- The ends of the scope in which list items are looked for. -/
def endsListScope (n : ElementName) : Bool := n.endsScope || n.isHtml ["ol", "ul"]

/-- The ends of the scope in which parts of tables are looked for. -/
def endsTableScope (n : ElementName) : Bool := n.isHtml ["html", "table", "template"]

/-- All but the items of a selection end the scope in which it is looked for. -/
def endsSelectScope (n : ElementName) : Bool := !n.isHtml ["optgroup", "option"]

end ElementName

/-- Elements that end where their parent ends. -/
def impliedEnds : List String :=
  ["dd", "dt", "li", "optgroup", "option", "p", "rb", "rp", "rt", "rtc"]

/-- Elements that end where a template ends. -/
def allImpliedEnds : List String :=
  impliedEnds ++ ["caption", "colgroup", "tbody", "td", "tfoot", "th", "thead", "tr"]

def headings : List String := ["h1", "h2", "h3", "h4", "h5", "h6"]

/-- Whether an element that `p` holds of comes before the first one that ends the scope. -/
def reaches (ends : ElementName → Bool) (p : Handle → Bool) : List Handle → Bool
  | [] => false
  | h :: rest => p h || (!ends h.name && reaches ends p rest)

namespace Builder

/-- Whether an HTML element of one of these names is open within a scope. -/
def inScope (b : Builder) (ends : ElementName → Bool) (names : List String) : Bool :=
  reaches ends (·.name.isHtml names) b.stack

/-- Closes elements until one of these names has been closed. -/
def popThrough (b : Builder) (names : List String) : Builder :=
  { b with stack := (b.stack.dropWhile (!·.name.isHtml names)).drop 1 }

/-- Closes elements until one of these names is the last one open. -/
def popTo (b : Builder) (names : List String) : Builder :=
  { b with stack := b.stack.dropWhile (!·.name.isHtml names) }

/-- Closes the elements that end here by themselves. -/
def popImplied (b : Builder) (names : List String) : Builder :=
  { b with stack := b.stack.dropWhile (·.name.isHtml names) }

/-- Closes the elements that end here by themselves, but none of this name. -/
def popImpliedBut (b : Builder) (name : String) : Builder :=
  b.popImplied (impliedEnds.filter (· != name))

/-- Closes the open paragraph. -/
def closeParagraph (b : Builder) : Builder := (b.popImpliedBut "p").popThrough ["p"]

/-- Closes the paragraph that is in reach, if there is one. -/
def endParagraph (b : Builder) : Builder :=
  if b.inScope ElementName.endsButtonScope ["p"] then b.closeParagraph else b

def addMarker (b : Builder) : Builder := { b with formatting := .marker :: b.formatting }

/-- Drops the formatting elements up to the latest marker, and the marker. -/
def clearToMarker (b : Builder) : Builder :=
  { b with formatting := (b.formatting.dropWhile (· != .marker)).drop 1 }

/-- The mode that an open select element asks for, given what is open before it. -/
def selectMode : List Handle → Mode
  | [] => .inSelect
  | h :: rest =>
    if h.name.isHtml ["template"] then .inSelect
    else if h.name.isHtml ["table"] then .inSelectInTable
    else selectMode rest

/-- The mode that the open elements ask for. -/
def modeFor (b : Builder) : List Handle → Mode
  | [] => .inBody
  | h :: rest =>
    let outermost := rest.isEmpty
    if h.name.space != .html then b.modeFor rest
    else
      match h.name.name with
      | "select" => selectMode rest
      | "td" | "th" => if outermost then b.modeFor rest else .inCell
      | "tr" => .inRow
      | "tbody" | "thead" | "tfoot" => .inTableBody
      | "caption" => .inCaption
      | "colgroup" => .inColumnGroup
      | "table" => .inTable
      | "template" => b.templateModes.head?.getD .inBody
      | "head" => if outermost then b.modeFor rest else .inHead
      | "body" => .inBody
      | "frameset" => .inFrameset
      | "html" => if b.head.isSome then .afterHead else .beforeHead
      | _ => b.modeFor rest

/-- Goes to the mode that the open elements ask for. -/
def resetMode (b : Builder) : Builder := { b with mode := b.modeFor b.stack }

end Builder
end TerseMarkup.Html
