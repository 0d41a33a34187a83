import TerseMarkup.Html.Node

/-! Tidying a constructed tree.

Construction leaves the contents of a template in a document inside it, and may leave children in an
element that has no content. `tidy` puts the contents in the template itself and drops those
children. It goes by the name of the template alone: one of another namespace has no document inside
and ends up empty. -/
namespace TerseMarkup.Html.Node

mutual

def tidy : Node → Node
  | document id cs => document id (tidyAll cs)
  | element id name attributes cs =>
    if name.isVoid then element id name attributes []
    else if name.name = "template" then element id name attributes (tidyTemplate cs)
    else element id name attributes (tidyAll cs)
  | n => n

def tidyAll : List Node → List Node
  | [] => []
  | n :: rest => n.tidy :: tidyAll rest

/-- The children of the document that comes last among a template's children. -/
def tidyTemplate : List Node → List Node
  | [] => []
  | [document _ cs] => tidyAll cs
  | _ :: rest => tidyTemplate rest

end

mutual

/-- The children of the first template below this node. -/
def firstTemplate? : Node → Option (List Node)
  | document _ cs => firstTemplateAmong? cs
  | element _ _ _ cs => firstTemplateAmong? cs
  | _ => none

def firstTemplateAmong? : List Node → Option (List Node)
  | [] => none
  | n :: rest =>
    if n.isNamed "template" then some n.children
    else n.firstTemplate?.or (firstTemplateAmong? rest)

end

end TerseMarkup.Html.Node
