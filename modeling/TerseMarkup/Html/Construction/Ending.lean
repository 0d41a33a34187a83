import TerseMarkup.Html.Construction.Body

/-! Rules behind the body, and for framesets.

Behind the end tags of the body and of the outermost element only comments have a place of their
own; anything else goes back into the body. A frameset takes the place of a body and holds frames,
and nothing else but spaces. -/
namespace TerseMarkup.Html.Builder

def afterBody (b : Builder) (t : Token) : Outcome :=
  let back := Outcome.again { b with mode := .inBody } t
  match t with
  | .text s => if isSpaces s then .done (b.bodyText s) else back
  | .comment c => .done (b.putCommentInRoot c)
  | .start tag => if tag.name = "html" then .done (b.htmlStart tag) else back
  | .finish name => if name = "html" then .done { b with mode := .afterAfterBody } else back
  | .eof => .done b
  | _ => back

def afterAfterBody (b : Builder) (t : Token) : Outcome :=
  let back := Outcome.again { b with mode := .inBody } t
  match t with
  | .text s => if isSpaces s then .done (b.bodyText s) else back
  | .comment c => .done (b.putCommentBehind c)
  | .start tag => if tag.name = "html" then .done (b.htmlStart tag) else back
  | .eof => .done b
  | _ => back

def inFrameset (b : Builder) (t : Token) : Outcome :=
  match t with
  | .text s => .done (if isSpaces s then b.putText s else b)
  | .comment c => .done (b.putComment c)
  | .start tag =>
    if tag.name = "html" then .done (b.htmlStart tag)
    else if tag.name = "frameset" then .done (b.push tag)
    else if tag.name = "frame" then .done (b.putEmpty tag)
    else if tag.name = "noframes" then .done (b.headStart tag)
    else .done b
  | .finish name =>
    if name = "frameset" ∧ b.stack.length ≠ 1 then
      let b := b.pop
      .done (if b.currentIs ["frameset"] then b else { b with mode := .afterFrameset })
    else .done b
  | _ => .done b

def afterFrameset (b : Builder) (t : Token) : Outcome :=
  match t with
  | .text s => .done (if isSpaces s then b.putText s else b)
  | .comment c => .done (b.putComment c)
  | .start tag =>
    if tag.name = "html" then .done (b.htmlStart tag)
    else if tag.name = "noframes" then .done (b.headStart tag)
    else .done b
  | .finish name => .done (if name = "html" then { b with mode := .afterAfterFrameset } else b)
  | _ => .done b

def afterAfterFrameset (b : Builder) (t : Token) : Outcome :=
  match t with
  | .text s => .done (if isSpaces s then b.bodyText s else b)
  | .comment c => .done (b.putCommentBehind c)
  | .start tag =>
    if tag.name = "html" then .done (b.htmlStart tag)
    else if tag.name = "noframes" then .done (b.headStart tag)
    else .done b
  | _ => .done b

end TerseMarkup.Html.Builder
