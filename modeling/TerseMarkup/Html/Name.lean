import TerseMarkup.Text

/-! Names of elements and attributes, and what a name decides.

An element's name has a namespace. Most rules look at HTML elements alone, so a class of elements is
a list of names together with the HTML namespace (`ElementName.isHtml`). -/
namespace TerseMarkup.Html

inductive Namespace
  | html
  | svg
  | mathml
  | xml
  | xmlns
  | xlink
deriving DecidableEq, Repr

structure ElementName where
  space : Namespace
  name : String
deriving DecidableEq, Repr

/-- An attribute's name; most are in no namespace. -/
structure AttributeName where
  space : Option Namespace := none
  name : String
deriving DecidableEq, Repr

structure Attribute where
  name : AttributeName
  value : Text
deriving DecidableEq, Repr

namespace ElementName

/-- An HTML element of one of these names. -/
def isHtml (n : ElementName) (names : List String) : Bool :=
  n.space == .html && names.contains n.name

/-- HTML elements that never have content and are written without an end tag. -/
def isVoid (n : ElementName) : Bool :=
  n.isHtml ["area", "base", "basefont", "bgsound", "br", "col", "embed", "frame", "hr", "img",
    "input", "keygen", "link", "meta", "param", "source", "track", "wbr"]

/-- HTML elements whose text is taken as it is, and so is written as it is. -/
def hasRawText (n : ElementName) : Bool :=
  n.isHtml ["iframe", "noembed", "noframes", "noscript", "plaintext", "script", "style", "xmp"]

/-- Both HTML and SVG have style elements. -/
def isStyle (n : ElementName) : Bool :=
  (n.space == .html || n.space == .svg) && n.name == "style"

/-- SVG and MathML elements that are written as one tag when they have no children. The outermost
`svg` and `math` are not among them. -/
def mayClose (n : ElementName) : Bool :=
  match n.space with
  | .svg => n.name != "svg"
  | .mathml => n.name != "math"
  | _ => false

end ElementName
end TerseMarkup.Html
