import TerseMarkup.Html.Construction.Scope

/-! Rules up to the body.

Before its body a document has the outermost element and a head. Either may be left out of the
markup; the first token that cannot come before or in it puts it there. The rules for the content of
the head are in force in the body as well (`headStart`, `endTemplate`). -/
namespace TerseMarkup.Html.Builder

/-- End tags that stand for the element they would end. -/
def bodyEnders : List String := ["body", "html", "br"]

/-- Start tags that belong in the head wherever they come. -/
def headContent : List String :=
  ["base", "basefont", "bgsound", "link", "meta", "noframes", "script", "style", "template", "title"]

/-- One more start tag of the outermost element adds the attributes that are new. -/
def htmlStart (b : Builder) (t : Tag) : Builder :=
  if b.isOpen "template" then b
  else
    match b.stack.getLast? with
    | some h => b.addAttributes h t.attributes
    | none => b

def templateStart (b : Builder) (t : Tag) : Builder :=
  let b := (b.push t).addMarker
  { b with framesetOk := false, mode := .inTemplate, templateModes := .inTemplate :: b.templateModes }

/-- The start tag of an element that may stand in the head. -/
def headStart (b : Builder) (t : Tag) : Builder :=
  match t.name with
  | "title" => b.pushRaw t (.escapable t.name)
  | "script" => b.pushRaw t .script
  | "noframes" | "style" | "noscript" => b.pushRaw t (.raw t.name)
  | "template" => b.templateStart t
  | _ => b.putEmpty t

def endTemplate (b : Builder) : Builder :=
  if b.isOpen "template" then
    let b := ((b.popImplied allImpliedEnds).popThrough ["template"]).clearToMarker
    { b with templateModes := b.templateModes.drop 1 }.resetMode
  else b

/-- The end of the text inside a template closes the template. -/
def endOpenTemplate (b : Builder) : Outcome :=
  if b.isOpen "template" then
    let b := (b.popThrough ["template"]).clearToMarker
    .again { b with templateModes := b.templateModes.drop 1 }.resetMode .eof
  else .done b

def initial (b : Builder) : Token → Outcome
  | .comment c => .done (b.putCommentBehind c)
  | t =>
    let go := Outcome.again { b with oldLayout := true, mode := .beforeHtml } t
    match t with
    | .text s => if isSpaces s then .done b else go
    | _ => go

def beforeHtml (b : Builder) : Token → Outcome
  | .comment c => .done (b.putCommentBehind c)
  | t =>
    let go := Outcome.again { b.pushRoot [] with mode := .beforeHead } t
    match t with
    | .text s => if isSpaces s then .done b else go
    | .start tag =>
      if tag.name = "html" then .done { b.pushRoot tag.attributes with mode := .beforeHead } else go
    | .finish name => if name = "head" ∨ bodyEnders.contains name then go else .done b
    | _ => go

/-- Opens the head. -/
def pushHead (b : Builder) (t : Tag) : Builder :=
  let (h, b) := b.pushElement .html t
  { b with head := some h, mode := .inHead }

def beforeHead (b : Builder) : Token → Outcome
  | .comment c => .done (b.putComment c)
  | t =>
    let go := Outcome.again (b.pushHead { name := "head" }) t
    match t with
    | .text s => if isSpaces s then .done b else go
    | .start tag =>
      if tag.name = "html" then .done (b.htmlStart tag)
      else if tag.name = "head" then .done (b.pushHead tag)
      else go
    | .finish name => if name = "head" ∨ bodyEnders.contains name then go else .done b
    | _ => go

def inHead (b : Builder) : Token → Outcome
  | .comment c => .done (b.putComment c)
  | t =>
    let behind := { b.pop with mode := .afterHead }
    match t with
    | .text s => if isSpaces s then .done (b.putText s) else .again behind t
    | .start tag =>
      if tag.name = "html" then .done (b.htmlStart tag)
      else if headContent.contains tag.name ∨ tag.name = "noscript" then .done (b.headStart tag)
      else if tag.name = "head" then .done b
      else .again behind t
    | .finish name =>
      if name = "head" then .done behind
      else if bodyEnders.contains name then .again behind t
      else if name = "template" then .done b.endTemplate
      else .done b
    | _ => .again behind t

/-- Opens the body. -/
def pushBody (b : Builder) (t : Tag) : Builder := { b.push t with mode := .inBody }

/-- Puts an element into the head after the head has been closed. -/
def lateHeadStart (b : Builder) (t : Tag) : Builder :=
  match b.head with
  | some h => ({ b with stack := h :: b.stack }.headStart t).close h
  | none => b.headStart t

def afterHead (b : Builder) : Token → Outcome
  | .comment c => .done (b.putComment c)
  | t =>
    let go := Outcome.again (b.pushBody { name := "body" }) t
    match t with
    | .text s => if isSpaces s then .done (b.putText s) else go
    | .start tag =>
      if tag.name = "html" then .done (b.htmlStart tag)
      else if tag.name = "body" then .done { b.pushBody tag with framesetOk := false }
      else if tag.name = "frameset" then .done { b.push tag with mode := .inFrameset }
      else if headContent.contains tag.name then .done (b.lateHeadStart tag)
      else if tag.name = "head" then .done b
      else go
    | .finish name =>
      if name = "template" then .done b.endTemplate
      else if bodyEnders.contains name then go
      else .done b
    | _ => go

end TerseMarkup.Html.Builder
