import TerseMarkup.Html.Markup.Escape
import TerseMarkup.Html.Node

/-! Tags, comments and doctypes written as markup. -/
namespace TerseMarkup.Html.Markup

/-- What stands before an attribute's name; attributes of some namespaces cannot be written. -/
def attributeLead? (name : AttributeName) : Option Text :=
  match name.space with
  | none => some [' ']
  | some .xml => some " xml:".toList
  | some .xmlns => some (if name.name = "xmlns" then [' '] else " xmlns:".toList)
  | some .xlink => some " xlink:".toList
  | some _ => none

/-- An attribute. On an HTML element an empty value is left out. -/
def writeAttribute? (element : ElementName) (a : Attribute) : Option Text := do
  let lead ← attributeLead? a.name
  let value := if a.value.isEmpty && element.space == .html then [] else '=' :: writeValue a.value
  some (lead ++ a.name.name.toList ++ value)

def writeAttributes? (element : ElementName) : List Attribute → Option Text
  | [] => some []
  | a :: rest => do
    let first ← writeAttribute? element a
    let others ← writeAttributes? element rest
    some (first ++ others)

/-- A start tag, which may close the element as well. -/
def writeStart? (name : ElementName) (attributes : List Attribute) (closes : Bool) :
    Option Text := do
  let attributes ← writeAttributes? name attributes
  some ('<' :: (name.name.toList ++ attributes ++ if closes then ['/', '>'] else ['>']))

def writeEnd (name : ElementName) : Text := '<' :: '/' :: (name.name.toList ++ ['>'])

def writeComment (contents : Text) : Text := "<!--".toList ++ contents ++ "-->".toList

/-- An identifier of a doctype. -/
def writeIdentifier (identifier : Text) : Text := " \"".toList ++ identifier ++ ['"']

def writeDoctype (name publicId systemId : Text) : Text :=
  let identifiers :=
    if !publicId.isEmpty then
      " PUBLIC".toList ++ writeIdentifier publicId ++
        if systemId.isEmpty then [] else writeIdentifier systemId
    else if !systemId.isEmpty then " SYSTEM".toList ++ writeIdentifier systemId
    else []
  "<!DOCTYPE ".toList ++ name ++ identifiers ++ ['>']

end TerseMarkup.Html.Markup
