import TerseMarkup.Html.Construction.Table

/-! Rules in selections.

A selection holds options and groups of options; other tags are dropped. A tag for a part of a table
ends a selection that stands in a table. -/
namespace TerseMarkup.Html.Builder

/-- Closes the element opened last if it is one of these. -/
def popIf (b : Builder) (names : List String) : Builder :=
  if b.currentIs names then b.pop else b

def selectionInReach (b : Builder) : Bool := b.inScope ElementName.endsSelectScope ["select"]

def leaveSelection (b : Builder) : Builder := (b.popThrough ["select"]).resetMode

/-- Closes the group of options, with an option that stands open directly in it. -/
def endGroup (b : Builder) : Builder :=
  match b.stack with
  | h :: below :: _ =>
    (if h.name.isHtml ["option"] && below.name.isHtml ["optgroup"] then b.pop else b).popIf
      ["optgroup"]
  | _ => b.popIf ["optgroup"]

def inSelect (b : Builder) (t : Token) : Outcome :=
  match t with
  | .text s => .done (b.putText s)
  | .comment c => .done (b.putComment c)
  | .start tag =>
    if tag.name = "html" then .done (b.htmlStart tag)
    else if tag.name = "option" then .done ((b.popIf ["option"]).push tag)
    else if tag.name = "optgroup" then .done (((b.popIf ["option"]).popIf ["optgroup"]).push tag)
    else if tag.name = "hr" then .done (((b.popIf ["option"]).popIf ["optgroup"]).putEmpty tag)
    else if tag.name = "select" then .done (if b.selectionInReach then b.leaveSelection else b)
    else if ["input", "keygen", "textarea"].contains tag.name then
      if b.selectionInReach then .again b.leaveSelection t else .done b
    else if ["script", "template"].contains tag.name then .done (b.headStart tag)
    else .done b
  | .finish name =>
    if name = "optgroup" then .done b.endGroup
    else if name = "option" then .done (b.popIf ["option"])
    else if name = "select" then .done (if b.selectionInReach then b.leaveSelection else b)
    else if name = "template" then .done b.endTemplate
    else .done b
  | .eof => b.inBody .eof
  | _ => .done b

/-- The parts of a table that end a selection in it. -/
def selectionEnders : List String := ["caption", "table", "tr"] ++ sections ++ cells

def inSelectInTable (b : Builder) (t : Token) : Outcome :=
  match t with
  | .start tag =>
    if selectionEnders.contains tag.name then .again b.leaveSelection t else b.inSelect t
  | .finish name =>
    if selectionEnders.contains name then
      if b.inTableScope [name] then .again b.leaveSelection t else .done b
    else b.inSelect t
  | _ => b.inSelect t

end TerseMarkup.Html.Builder
