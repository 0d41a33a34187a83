import TerseMarkup.Html.Construction.Formatting
import TerseMarkup.Html.Construction.Head
import TerseMarkup.Html.ForeignNames

/-! Rules in the body.

The rule for a start tag hangs on a class that its name belongs to (`Opening`). Most elements go
where they stand; blocks end the paragraph before them, formatting elements are remembered so that
they can be opened again, and a few elements hold text that is no markup. -/
namespace TerseMarkup.Html

/-- What a start tag in the body is. -/
inductive Opening
  | html
  | head
  | body
  | frameset
  | block
  | heading
  | verbatim
  | form
  | listItem
  | plaintext
  | button
  | link
  | formatting
  | unbroken
  | embedded
  | table
  | void
  | parameter
  | rule
  | image
  | textarea
  | sample
  | inlineFrame
  | unshown
  | select
  | option
  | rubyBase
  | rubyText
  | foreign (space : Namespace)
  | misplaced
  | other
deriving DecidableEq, Repr

namespace Opening

/-- Blocks, which end with an end tag of their own. -/
def blocks : List String :=
  ["address", "article", "aside", "blockquote", "center", "details", "dialog", "dir", "div", "dl",
    "fieldset", "figcaption", "figure", "footer", "header", "hgroup", "main", "menu", "nav", "ol",
    "search", "section", "summary", "ul"]

def formattingNames : List String :=
  ["b", "big", "code", "em", "font", "i", "s", "small", "strike", "strong", "tt", "u"]

/-- Elements that shut off the formatting elements before them. -/
def embeddedNames : List String := ["applet", "marquee", "object"]

/-- The class of a start tag by its name. -/
def ofName (name : String) : Opening :=
  if name = "html" then html
  else if Builder.headContent.contains name then head
  else if name = "body" then body
  else if name = "frameset" then frameset
  else if blocks.contains name ∨ name = "p" then block
  else if headings.contains name then heading
  else if name = "pre" ∨ name = "listing" then verbatim
  else if name = "form" then form
  else if name = "li" ∨ name = "dd" ∨ name = "dt" then listItem
  else if name = "plaintext" then plaintext
  else if name = "button" then button
  else if name = "a" then link
  else if formattingNames.contains name then formatting
  else if name = "nobr" then unbroken
  else if embeddedNames.contains name then embedded
  else if name = "table" then table
  else if ["area", "br", "embed", "img", "keygen", "wbr", "input"].contains name then void
  else if ["param", "source", "track"].contains name then parameter
  else if name = "hr" then rule
  else if name = "image" then image
  else if name = "textarea" then textarea
  else if name = "xmp" then sample
  else if name = "iframe" then inlineFrame
  else if name = "noembed" ∨ name = "noscript" then unshown
  else if name = "select" then select
  else if name = "optgroup" ∨ name = "option" then option
  else if name = "rb" ∨ name = "rtc" then rubyBase
  else if name = "rp" ∨ name = "rt" then rubyText
  else if name = "math" then foreign .mathml
  else if name = "svg" then foreign .svg
  else if ["caption", "col", "colgroup", "frame", "head", "tbody", "td", "tfoot", "th", "thead",
    "tr"].contains name then misplaced
  else other

end Opening

namespace Builder

/-- An input that the page does not show. -/
def isHiddenInput (t : Tag) : Bool :=
  (Attribute.value? t.attributes "type").any (·.sameIgnoringCase "hidden".toList)

/-- The body, if it is open. -/
def body? (b : Builder) : Option Handle :=
  match b.stack.reverse with
  | _ :: h :: _ => if h.name.isHtml ["body"] then some h else none
  | _ => none

def bodyText (b : Builder) (s : Text) : Builder :=
  let b := b.reopenFormatting
  (if isSpaces s then b else { b with framesetOk := false }).putText s

/-- Opens an element where the formatting elements that were closed too early are open again. -/
def pushInline (b : Builder) (t : Tag) : Builder := b.reopenFormatting.push t

/-- Puts an element without content into the text. -/
def putInline (b : Builder) (t : Tag) : Builder := b.reopenFormatting.putEmpty t

/-- One more start tag of the body adds the attributes that are new. -/
def bodyTagStart (b : Builder) (t : Tag) : Builder :=
  match b.body? with
  | some h =>
    if b.isOpen "template" then b else { b with framesetOk := false }.addAttributes h t.attributes
  | none => b

/-- A frameset takes the place of the body, if nothing in the body speaks against it. -/
def framesetStart (b : Builder) (t : Tag) : Builder :=
  match b.body? with
  | some h =>
    if b.framesetOk then
      let b := { b with root := b.root.remove h.id, stack := b.stack.drop (b.stack.length - 1) }
      { b.push t with mode := .inFrameset }
    else b
  | none => b

def formStart (b : Builder) (t : Tag) : Builder :=
  let inTemplate := b.isOpen "template"
  if b.form.isSome && !inTemplate then b
  else
    let (h, b) := b.endParagraph.pushElement .html t
    if inTemplate then b else { b with form := some h }

/-- The item that a list item ends: the latest one of its kind that no other element hides. -/
def openItem? (names : List String) : List Handle → Option String
  | [] => none
  | h :: rest =>
    if h.name.isHtml names then some h.name.name
    else if h.name.isSpecial && !h.name.isHtml ["address", "div", "p"] then none
    else openItem? names rest

def listItemStart (b : Builder) (t : Tag) : Builder :=
  let names := if t.name = "li" then ["li"] else ["dd", "dt"]
  let b := { b with framesetOk := false }
  let b :=
    match openItem? names b.stack with
    | some name => (b.popImpliedBut name).popThrough [name]
    | none => b
  b.endParagraph.push t

def buttonStart (b : Builder) (t : Tag) : Builder :=
  let b :=
    if b.inScope ElementName.endsScope ["button"] then
      (b.popImplied impliedEnds).popThrough ["button"]
    else b
  { b.pushInline t with framesetOk := false }

def unbrokenStart (b : Builder) (t : Tag) : Builder :=
  let b := b.reopenFormatting
  let b :=
    if b.inScope ElementName.endsScope ["nobr"] then (b.endFormatting "nobr").reopenFormatting else b
  b.pushFormatting t

def selectStart (b : Builder) (t : Tag) : Builder :=
  let inTable := [Mode.inTable, .inCaption, .inTableBody, .inRow, .inCell].contains b.mode
  { b.pushInline t with
    framesetOk := false, mode := if inTable then .inSelectInTable else .inSelect }

def rubyStart (b : Builder) (t : Tag) (implied : List String) : Builder :=
  (if b.inScope ElementName.endsScope ["ruby"] then b.popImplied implied else b).push t

/-- Opens an element of SVG or MathML, or puts it in if its tag closes itself. Formatting elements
that were closed too early stay closed. -/
def foreignStart (b : Builder) (space : Namespace) (t : Tag) : Builder :=
  if t.selfClosing then (b.putElement space t).2 else (b.pushElement space t).2

def bodyStart (b : Builder) (t : Tag) : Builder :=
  match Opening.ofName t.name with
  | .html => b.htmlStart t
  | .head => b.headStart t
  | .body => b.bodyTagStart t
  | .frameset => b.framesetStart t
  | .block => b.endParagraph.push t
  | .heading =>
    let b := b.endParagraph
    (if b.currentIs headings then b.pop else b).push t
  | .verbatim => { b.endParagraph.push t with dropNewline := true, framesetOk := false }
  | .form => b.formStart t
  | .listItem => b.listItemStart t
  | .plaintext => { b.endParagraph.push t with content := .plain }
  | .button => b.buttonStart t
  | .link => b.endOpenLink.reopenFormatting.pushFormatting t
  | .formatting => b.reopenFormatting.pushFormatting t
  | .unbroken => b.unbrokenStart t
  | .embedded => { (b.pushInline t).addMarker with framesetOk := false }
  | .table =>
    let b := if b.oldLayout then b else b.endParagraph
    { b.push t with framesetOk := false, mode := .inTable }
  | .void =>
    let b := b.putInline t
    if t.name = "input" ∧ isHiddenInput t then b else { b with framesetOk := false }
  | .parameter => b.putEmpty t
  | .rule => { b.endParagraph.putEmpty t with framesetOk := false }
  | .image => { b.putInline { t with name := "img" } with framesetOk := false }
  | .textarea =>
    { b with dropNewline := true, framesetOk := false }.pushRaw t (.escapable t.name)
  | .sample =>
    { b.endParagraph.reopenFormatting with framesetOk := false }.pushRaw t (.raw t.name)
  | .inlineFrame => { b with framesetOk := false }.pushRaw t (.raw t.name)
  | .unshown => b.pushRaw t (.raw t.name)
  | .select => b.selectStart t
  | .option => (if b.currentIs ["option"] then b.pop else b).pushInline t
  | .rubyBase => b.rubyStart t impliedEnds
  | .rubyText => b.rubyStart t (impliedEnds.filter (· != "rtc"))
  | .foreign space => b.foreignStart space (t.withAttributesIn space)
  | .misplaced => b
  | .other => b.pushInline t

/-- The end tag of a form ends the form that was opened last, wherever its element stands. -/
def formEnd (b : Builder) : Builder :=
  if b.isOpen "template" then
    if b.inScope ElementName.endsScope ["form"] then
      (b.popImplied impliedEnds).popThrough ["form"]
    else b
  else
    match b.form with
    | none => b
    | some h =>
      let b := { b with form := none }
      if reaches ElementName.endsScope (·.id == h.id) b.stack then
        (b.popImplied impliedEnds).close h
      else b

/-- The end tag of an element that closes what is left open inside it. -/
def endBlock (b : Builder) (name : String) : Builder :=
  if b.inScope ElementName.endsScope [name] then (b.popImplied impliedEnds).popThrough [name] else b

def endItem (b : Builder) (name : String) : Builder :=
  let ends := if name = "li" then ElementName.endsListScope else ElementName.endsScope
  if b.inScope ends [name] then (b.popImpliedBut name).popThrough [name] else b

def bodyEnd (b : Builder) (name : String) : Outcome :=
  if name = "template" then .done b.endTemplate
  else if name = "body" then
    .done (if b.inScope ElementName.endsScope ["body"] then { b with mode := .afterBody } else b)
  else if name = "html" then
    if b.inScope ElementName.endsScope ["body"] then
      .again { b with mode := .afterBody } (.finish name)
    else .done b
  else if Opening.blocks.contains name ∨ ["button", "listing", "pre"].contains name then
    .done (b.endBlock name)
  else if name = "form" then .done b.formEnd
  else if name = "p" then
    let b := if b.inScope ElementName.endsButtonScope ["p"] then b else b.pushNamed "p"
    .done b.closeParagraph
  else if ["li", "dd", "dt"].contains name then .done (b.endItem name)
  else if headings.contains name then
    .done (if b.inScope ElementName.endsScope headings then
      (b.popImplied impliedEnds).popThrough headings else b)
  else if name = "a" ∨ name = "nobr" ∨ Opening.formattingNames.contains name then
    .done (b.endFormatting name)
  else if Opening.embeddedNames.contains name then
    .done (if b.inScope ElementName.endsScope [name] then (b.endBlock name).clearToMarker else b)
  else if name = "br" then .done (b.bodyStart { name })
  else .done (b.endOther name)

def inBody (b : Builder) : Token → Outcome
  | .text s => .done (b.bodyText s)
  | .comment c => .done (b.putComment c)
  | .start t => .done (b.bodyStart t)
  | .finish name => b.bodyEnd name
  | .eof => if b.templateModes.isEmpty then .done b else b.endOpenTemplate
  | _ => .done b

/-- Puts a token that does not belong in a table before the table. -/
def inBodyBeforeTable (b : Builder) (t : Token) : Outcome :=
  ({ b with fostering := true }.inBody t).map ({ · with fostering := false })

end Builder
end TerseMarkup.Html
