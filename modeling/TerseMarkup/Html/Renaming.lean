import TerseMarkup.Html.Node
import TerseMarkup.Css.Stylesheet

/-! The names in a tree.

Names stand in the selectors of style elements and in the attributes `class`, `id` and `for`. Both
kinds of places are gone through in the order of the document; a state is carried from name to name.
Nothing else in the tree changes. -/
namespace TerseMarkup.Html

variable {σ : Type}

/-- Class names with single spaces between them; an empty one takes no space before the next. -/
def joinClasses (classes : List Text) : Text :=
  classes.foldl (fun joined c => if joined.isEmpty then c else joined ++ ' ' :: c) []

/-- The classes of an attribute's value, each exchanged if there is a code for it. -/
def renameClasses (f : Renaming σ) (value : Text) : StateM σ Text := do
  return joinClasses
    (← (Text.words value).mapM fun word => do return (← f .className word).getD word)

namespace Attribute

/-- Exchanges the classes of the attribute `class`. Where nothing is left, it stays as it is. -/
def renameClass (f : Renaming σ) (as : List Attribute) : StateM σ (List Attribute) := do
  match value? as "class" with
  | some value =>
    let new ← renameClasses f value
    return if new.isEmpty then as else setValue as "class" new
  | none => return as

/-- Exchanges the id that an attribute holds, taken whole. -/
def renameId (f : Renaming σ) (name : String) (as : List Attribute) : StateM σ (List Attribute) := do
  match value? as name with
  | some value =>
    if value.isEmpty then return as
    else
      match ← f .id value with
      | some new => return setValue as name new
      | none => return as
  | none => return as

/-- Exchanges the names in the attributes of one element. -/
def rename (f : Renaming σ) (as : List Attribute) : StateM σ (List Attribute) := do
  renameId f "for" (← renameId f "id" (← renameClass f as))

end Attribute

namespace Node

mutual

/-- Exchanges the names in the attributes of every element. -/
def renameElements (f : Renaming σ) : Node → StateM σ Node
  | document id cs => do return document id (← renameElementsAll f cs)
  | element id name attributes cs => do
    let attributes ← Attribute.rename f attributes
    return element id name attributes (← renameElementsAll f cs)
  | doctype name publicId systemId => return doctype name publicId systemId
  | text t => return text t
  | comment c => return comment c
  | placeholder => return placeholder

def renameElementsAll (f : Renaming σ) : List Node → StateM σ (List Node)
  | [] => return []
  | n :: rest => do
    let n ← n.renameElements f
    return n :: (← renameElementsAll f rest)

end

/-- The only child of a style element with this text. -/
def styleContents (css : Text) : List Node := if css.isEmpty then [] else [text css]

mutual

/-- Exchanges the names in every style element's selectors. A style element whose text changes keeps
no other children. -/
def renameStyles (f : Renaming σ) : Node → StateM σ Node
  | document id cs => do return document id (← renameStylesAll f cs)
  | element id name attributes cs => do
    if name.isStyle then
      let old := textOf cs
      let new := (← (Css.Stylesheet.parse old).rename f).text
      if new = old then return element id name attributes (← renameStylesAll f cs)
      else return element id name attributes (styleContents new)
    else return element id name attributes (← renameStylesAll f cs)
  | doctype name publicId systemId => return doctype name publicId systemId
  | text t => return text t
  | comment c => return comment c
  | placeholder => return placeholder

def renameStylesAll (f : Renaming σ) : List Node → StateM σ (List Node)
  | [] => return []
  | n :: rest => do
    let n ← n.renameStyles f
    return n :: (← renameStylesAll f rest)

end

end Node
end TerseMarkup.Html
