import TerseMarkup.Html.Construction.Body
import TerseMarkup.Text.Numeral

/-! Rules inside SVG and MathML.

There elements keep the namespace that they stand in, and most rules of HTML are off. They are in
force again inside elements that hold text or HTML, and for tags that show that the author meant to
be back in HTML: those close the foreign elements first. -/
namespace TerseMarkup.Html.Builder

/-- Whether a token is looked at by the rules for SVG and MathML. -/
def isForeign (b : Builder) (t : Token) : Bool :=
  match b.stack with
  | [] => false
  | h :: _ =>
    match t with
    | .eof => false
    | .text _ | .null => h.name.space != .html && !h.name.isMathText && !h.name.isSvgHost
    | .start tag =>
      h.name.space != .html && !h.name.isSvgHost &&
        !(h.name.isMathText && tag.name != "mglyph" && tag.name != "malignmark") &&
        !(h.name == ⟨.mathml, "annotation-xml"⟩ && tag.name == "svg")
    | _ => h.name.space != .html

/-- Start tags that cannot stand inside SVG and MathML. -/
def htmlOnly : List String :=
  ["b", "big", "blockquote", "body", "br", "center", "code", "dd", "div", "dl", "dt", "em", "embed",
    "h1", "h2", "h3", "h4", "h5", "h6", "head", "hr", "i", "img", "li", "listing", "menu", "meta",
    "nobr", "ol", "p", "pre", "ruby", "s", "small", "span", "strong", "strike", "sub", "sup",
    "table", "tt", "u", "ul", "var"]

/-- Whether a start tag shows that what follows is HTML. A font does only by its looks. -/
def isHtmlOnly (t : Tag) : Bool :=
  htmlOnly.contains t.name ||
    (t.name == "font" &&
      t.attributes.any fun a => ["color", "face", "size"].contains a.name.name)

/-- Closes elements until HTML may stand there. -/
def backToHtml (b : Builder) : Builder :=
  { b with
    stack := b.stack.dropWhile fun h =>
      !(h.name.space == .html || h.name.isMathText || h.name.isSvgHost) }

/-- How far out the end tag of a foreign element reaches. -/
inductive Reach
  /-- An element of that name, with what was opened before it. -/
  | element (below : List Handle)
  /-- An HTML element comes first. -/
  | html
  | nothing

/-- Looks for the element that an end tag closes. The outermost element is never closed so, and
beyond the innermost element HTML has its own rules. -/
def reachOf (name : String) (innermost : Bool) : List Handle → Reach
  | [] => .nothing
  | [_] => .nothing
  | h :: rest =>
    if !innermost && h.name.space == .html then .html
    else if smallLetters h.name.name == smallLetters name then .element rest
    else reachOf name false rest

/-- The rule inside SVG and MathML. `rules` are the rules of the mode. -/
def inForeign (rules : Builder → Token → Outcome) (b : Builder) (t : Token) : Outcome :=
  match t with
  | .null => .done (b.putText [Text.replacement])
  | .text s => .done ((if isSpaces s then b else { b with framesetOk := false }).putText s)
  | .comment c => .done (b.putComment c)
  | .start tag =>
    if isHtmlOnly tag then rules b.backToHtml t
    else
      match b.stack with
      | h :: _ => .done (b.foreignStart h.name.space (tag.inNamespace h.name.space))
      | [] => .done b
  | .finish name =>
    if name = "br" ∨ name = "p" then rules b.backToHtml t
    else
      match reachOf name true b.stack with
      | .element below => .done { b with stack := below }
      | .html => rules b t
      | .nothing => .done b
  | _ => .done b

end TerseMarkup.Html.Builder
