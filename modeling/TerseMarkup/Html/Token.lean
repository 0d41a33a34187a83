import TerseMarkup.Html.Name

/-! Markup tokens.

A tag's attributes are in no namespace; the place where the element ends up decides whether some of
them move into one. -/
namespace TerseMarkup.Html

structure Tag where
  name : String
  attributes : List Attribute := []
  selfClosing : Bool := false
deriving DecidableEq, Repr

structure Doctype where
  name : Option Text := none
  publicId : Option Text := none
  systemId : Option Text := none
  /-- The doctype is damaged, so the document is laid out as an old one. -/
  damaged : Bool := false
deriving DecidableEq, Repr

inductive Token
  | doctype (d : Doctype)
  | start (t : Tag)
  | finish (name : String)
  | comment (contents : Text)
  | text (contents : Text)
  | null
  /-- A mistake in the text that leaves nothing behind. It counts only where the very next token
  does. -/
  | mistake
  | eof
deriving DecidableEq, Repr

/-- How the text behind a start tag is read. -/
inductive Content
  | data
  /-- Text up to the end tag of this name, with character references. -/
  | escapable (name : String)
  /-- Text up to the end tag of this name, taken as it is. -/
  | raw (name : String)
  | script
  | plain
deriving DecidableEq, Repr

end TerseMarkup.Html
