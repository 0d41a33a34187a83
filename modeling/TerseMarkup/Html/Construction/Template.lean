import TerseMarkup.Html.Construction.Table

/-! Rules directly inside templates.

A template may hold anything that may stand anywhere. The first tag in it shows what it holds, and
so which rules are in force from there on. -/
namespace TerseMarkup.Html.Builder

/-- The mode for what a start tag shows the innermost template to hold. -/
def templateMode (name : String) : Mode :=
  if (["caption", "colgroup"] ++ sections).contains name then .inTable
  else if name = "col" then .inColumnGroup
  else if name = "tr" then .inTableBody
  else if cells.contains name then .inRow
  else .inBody

def inTemplate (b : Builder) (t : Token) : Outcome :=
  match t with
  | .text _ | .comment _ => b.inBody t
  | .start tag =>
    if headContent.contains tag.name then .done (b.headStart tag)
    else
      let mode := templateMode tag.name
      .again { b with mode, templateModes := mode :: b.templateModes.drop 1 } t
  | .finish name => .done (if name = "template" then b.endTemplate else b)
  | .eof => b.endOpenTemplate
  | _ => .done b

end TerseMarkup.Html.Builder
