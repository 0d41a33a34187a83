import TerseMarkup.Html.Construction.Body

/-! Rules in tables.

A table has rows in sections, a caption and columns. A tag for a part that cannot stand where it
comes closes what is open and opens what is missing, and is then looked at again. Text inside a table
waits until the next other token: spaces stay in the table, anything else goes before it. -/
namespace TerseMarkup.Html.Builder

/-- What a cell can be: data or a heading. -/
def cells : List String := ["td", "th"]

/-- The sections of a table. -/
def sections : List String := ["tbody", "tfoot", "thead"]

/-- Parts of a table that stand outside its sections. -/
def outerParts : List String := ["caption", "col", "colgroup"]

/-- The parts of tables that can be open where a table's own rules are in force. -/
def tableContext : List String := ["table", "template", "html"]
def sectionContext : List String := ["tbody", "tfoot", "thead", "template", "html"]
def rowContext : List String := ["tr", "template", "html"]

def inTableScope (b : Builder) (names : List String) : Bool :=
  b.inScope ElementName.endsTableScope names

/-- Opens a part of a table inside the one that `context` names, and goes on in `mode`. -/
def pushPart (b : Builder) (context : List String) (t : Tag) (mode : Mode) : Builder :=
  { (b.popTo context).push t with mode }

/-- Leaves the part that `context` names. -/
def leavePart (b : Builder) (context : List String) (mode : Mode) : Builder :=
  { (b.popTo context).pop with mode }

def tableStart (b : Builder) (t : Tag) : Outcome :=
  let name := t.name
  if name = "caption" then
    .done (({ b.popTo tableContext with mode := .inCaption }.addMarker).push t)
  else if name = "colgroup" then .done (b.pushPart tableContext t .inColumnGroup)
  else if name = "col" then
    .again (b.pushPart tableContext { name := "colgroup" } .inColumnGroup) (.start t)
  else if sections.contains name then .done (b.pushPart tableContext t .inTableBody)
  else if cells.contains name ∨ name = "tr" then
    .again (b.pushPart tableContext { name := "tbody" } .inTableBody) (.start t)
  else if name = "table" then
    if b.inTableScope ["table"] then .again (b.popThrough ["table"]).resetMode (.start t)
    else .done b
  else if ["style", "script", "template"].contains name then .done (b.headStart t)
  else if name = "input" ∧ isHiddenInput t then .done (b.putEmpty t)
  else if name = "form" then
    if b.isOpen "template" ∨ b.form.isSome then .done b
    else
      let (h, b) := b.putElement .html t
      .done { b with form := some h }
  else b.inBodyBeforeTable (.start t)

def tableEnd (b : Builder) (name : String) : Outcome :=
  if name = "table" then
    .done (if b.inTableScope ["table"] then (b.popThrough ["table"]).resetMode else b)
  else if ["body", "html", "tr"].contains name ∨ (outerParts ++ sections ++ cells).contains name then
    .done b
  else if name = "template" then .done b.endTemplate
  else b.inBodyBeforeTable (.finish name)

def inTable (b : Builder) (t : Token) : Outcome :=
  match t with
  | .text _ | .null =>
    if b.currentIs tableParts then .again { b with returnMode := b.mode, mode := .inTableText } t
    else b.inBodyBeforeTable t
  | .comment c => .done (b.putComment c)
  | .start tag => b.tableStart tag
  | .finish name => b.tableEnd name
  | .eof => b.inBody .eof
  | _ => b.inBodyBeforeTable t

/-- Puts text where it belongs that does not belong in the table. -/
def fosterText (b : Builder) (s : Text) : Builder :=
  { { b with fostering := true }.bodyText s with fostering := false }

def inTableText (b : Builder) : Token → Outcome
  | .null => .done b
  | .text s => .done { b with tableText := s :: b.tableText }
  | t =>
    let pending := b.tableText.reverse
    let b := { b with tableText := [], mode := b.returnMode }
    .again (if pending.all isSpaces then pending.foldl putText b else pending.foldl fosterText b) t

/-- Closes the caption. -/
def endCaption (b : Builder) : Builder :=
  { ((b.popImplied impliedEnds).popThrough ["caption"]).clearToMarker with mode := .inTable }

def inCaption (b : Builder) (t : Token) : Outcome :=
  let other := b.inBody t
  match t with
  | .start tag =>
    if (outerParts ++ sections ++ cells ++ ["tr"]).contains tag.name then
      if b.inTableScope ["caption"] then .again b.endCaption t else .done b
    else other
  | .finish name =>
    if name = "caption" then .done (if b.inTableScope ["caption"] then b.endCaption else b)
    else if name = "table" then
      if b.inTableScope ["caption"] then .again b.endCaption t else .done b
    else if (["body", "html", "tr"] ++ outerParts ++ sections ++ cells).contains name then .done b
    else other
  | _ => other

def inColumnGroup (b : Builder) (t : Token) : Outcome :=
  let leave := b.currentIs ["colgroup"]
  let other := if leave then Outcome.again { b.pop with mode := .inTable } t else .done b
  match t with
  | .text s => if isSpaces s then .done (b.putText s) else other
  | .comment c => .done (b.putComment c)
  | .start tag =>
    if tag.name = "html" then .done (b.htmlStart tag)
    else if tag.name = "col" then .done (b.putEmpty tag)
    else if tag.name = "template" then .done (b.headStart tag)
    else other
  | .finish name =>
    if name = "colgroup" then .done (if leave then { b.pop with mode := .inTable } else b)
    else if name = "col" then .done b
    else if name = "template" then .done b.endTemplate
    else other
  | .eof => b.inBody .eof
  | _ => other

def inTableBody (b : Builder) (t : Token) : Outcome :=
  let other := b.inTable t
  -- A heading section alone is not looked for here.
  let leave :=
    if b.inTableScope ["table", "tbody", "tfoot"] then
      Outcome.again (b.leavePart sectionContext .inTable) t
    else .done b
  match t with
  | .start tag =>
    if tag.name = "tr" then .done (b.pushPart sectionContext tag .inRow)
    else if cells.contains tag.name then
      .again (b.pushPart sectionContext { name := "tr" } .inRow) t
    else if (outerParts ++ sections).contains tag.name then leave
    else other
  | .finish name =>
    if sections.contains name then
      .done (if b.inTableScope [name] then b.leavePart sectionContext .inTable else b)
    else if name = "table" then leave
    else if (["body", "html", "tr"] ++ outerParts ++ cells).contains name then .done b
    else other
  | _ => other

def inRow (b : Builder) (t : Token) : Outcome :=
  let other := b.inTable t
  let inReach := b.inTableScope ["tr"]
  let left := b.leavePart rowContext .inTableBody
  let leave := if inReach then Outcome.again left t else .done b
  match t with
  | .start tag =>
    if cells.contains tag.name then .done (b.pushPart rowContext tag .inCell).addMarker
    else if (outerParts ++ sections ++ ["tr"]).contains tag.name then leave
    else other
  | .finish name =>
    if name = "tr" then .done (if inReach then left else b)
    else if name = "table" then leave
    else if sections.contains name then
      if b.inTableScope [name] then leave else .done b
    else if (["body", "html"] ++ outerParts ++ cells).contains name then .done b
    else other
  | _ => other

/-- Closes the cell, which may be of either sort. -/
def endCell (b : Builder) (names : List String) : Builder :=
  { ((b.popImplied impliedEnds).popThrough names).clearToMarker with mode := .inRow }

def inCell (b : Builder) (t : Token) : Outcome :=
  let other := b.inBody t
  match t with
  | .start tag =>
    if (outerParts ++ sections ++ cells ++ ["tr"]).contains tag.name then
      if b.inTableScope cells then .again (b.endCell cells) t else .done b
    else other
  | .finish name =>
    if cells.contains name then
      .done (if b.inTableScope [name] then b.endCell [name] else b)
    else if (["body", "html"] ++ outerParts).contains name then .done b
    else if (["table", "tr"] ++ sections).contains name then
      if b.inTableScope [name] then .again (b.endCell cells) t else .done b
    else other
  | _ => other

end TerseMarkup.Html.Builder
