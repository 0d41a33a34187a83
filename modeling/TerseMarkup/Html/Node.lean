import TerseMarkup.Html.Name

/-! Documents as trees.

Elements and documents have an identity, because construction goes back to them: it fills them,
moves them and puts things before them. Text, comments and doctypes are only ever added.

While a tree is under construction, the contents of an HTML `template` element stand in a document
of their own, the element's only child. -/
namespace TerseMarkup.Html

abbrev NodeId := Nat

inductive Node
  | document (id : NodeId) (children : List Node)
  | doctype (name publicId systemId : Text)
  | element (id : NodeId) (name : ElementName) (attributes : List Attribute) (children : List Node)
  | text (contents : Text)
  | comment (contents : Text)
  /-- A node of a kind that no document holds; it is written as nothing. -/
  | placeholder

namespace Node

def id? : Node → Option NodeId
  | document id _ => some id
  | element id _ _ _ => some id
  | _ => none

def children : Node → List Node
  | document _ cs => cs
  | element _ _ _ cs => cs
  | _ => []

def isElement : Node → Bool
  | element .. => true
  | _ => false

def isComment : Node → Bool
  | comment _ => true
  | _ => false

def isDocument : Node → Bool
  | document .. => true
  | _ => false

/-- An element of this name in any namespace. -/
def isNamed (name : String) : Node → Bool
  | element _ n _ _ => n.name == name
  | _ => false

/-- The text directly inside a list of children, joined. -/
def textOf (cs : List Node) : Text :=
  cs.flatMap fun
    | text t => t
    | _ => []

end Node

namespace Attribute

/-- The value of the attribute of this name in no namespace. -/
def value? (as : List Attribute) (name : String) : Option Text :=
  (as.find? (·.name == { name })).map Attribute.value

/-- Exchanges the value of an attribute in no namespace that is there already. -/
def setValue (as : List Attribute) (name : String) (value : Text) : List Attribute :=
  as.map fun a => if a.name == { name } then { a with value } else a

/-- Adds the attributes whose names are not there yet. -/
def addMissing (as new : List Attribute) : List Attribute :=
  new.foldl (fun as a => if as.any (·.name == a.name) then as else as ++ [a]) as

end Attribute
end TerseMarkup.Html
