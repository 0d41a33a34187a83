import TerseMarkup.Html.Node.Edit
import TerseMarkup.Html.Token
import TerseMarkup.Text.Blank

/-! The state of tree construction, and how pieces get into the tree.

Construction keeps the elements that are open, the last one opened first, and the formatting
elements that will be opened again if the markup closes them too early. A piece goes into the
element opened last. Where that is a part of a table in which the piece does not belong
(`fostering`), it goes before the table instead. -/
namespace TerseMarkup.Html

/-- Where in a document construction is. -/
inductive Mode
  | initial
  | beforeHtml
  | beforeHead
  | inHead
  | afterHead
  | inBody
  | inText
  | inTable
  | inTableText
  | inCaption
  | inColumnGroup
  | inTableBody
  | inRow
  | inCell
  | inSelect
  | inSelectInTable
  | inTemplate
  | afterBody
  | inFrameset
  | afterFrameset
  | afterAfterBody
  | afterAfterFrameset
deriving DecidableEq, Repr

/-- An element of the tree, by its identity. -/
structure Handle where
  id : NodeId
  name : ElementName
  /-- The node that takes what is put into the element: the stand-in document of an HTML `template`,
  the element itself otherwise. -/
  inside : NodeId
deriving DecidableEq, Repr

/-- An entry of the list of formatting elements. A marker shuts off what comes before it. -/
inductive Formatting
  | marker
  | element (h : Handle) (tag : Tag)
deriving DecidableEq, Repr

structure Builder where
  root : Node := .document 0 []
  nextId : NodeId := 1
  mode : Mode := .initial
  /-- The open elements, the last one opened first. -/
  stack : List Handle := []
  /-- The formatting elements, the latest first. -/
  formatting : List Formatting := []
  /-- The mode to go back to behind text. -/
  returnMode : Mode := .initial
  /-- The modes of the open templates, the innermost first. -/
  templateModes : List Mode := []
  /-- Text directly inside a table, the latest first, until it is known where it belongs. -/
  tableText : List Text := []
  head : Option Handle := none
  form : Option Handle := none
  /-- Whether a frameset may still take the place of the body. -/
  framesetOk : Bool := true
  /-- Whether a line feed at the start of the very next text is dropped. -/
  dropNewline : Bool := false
  fostering : Bool := false
  /-- Whether the document is laid out as an old one. -/
  oldLayout : Bool := false
  /-- How the text behind the last start tag is read. -/
  content : Content := .data
  /-- Whether an edit did not find its place. -/
  failed : Bool := false

/-- What a rule says of a token. -/
inductive Outcome
  | done (b : Builder)
  /-- The token is looked at once more, in the mode that the builder is in now. -/
  | again (b : Builder) (t : Token)

/-- Changes the state that an outcome leads to. -/
def Outcome.map (f : Builder → Builder) : Outcome → Outcome
  | done b => done (f b)
  | again b t => again (f b) t

/-- Text of spaces only. -/
def isSpaces (t : Text) : Bool := t.all Text.isSpace

namespace Builder

/-- Whether the element opened last is an HTML element of one of these names. -/
def currentIs (b : Builder) (names : List String) : Bool :=
  b.stack.head?.any (·.name.isHtml names)

/-- Whether an HTML element of this name is open. -/
def isOpen (b : Builder) (name : String) : Bool := b.stack.any (·.name.isHtml [name])

/-- A place for a piece: the end of a node, or before a table if that is in the tree, else the end
of the element opened before the table. -/
inductive Place
  | inside (id : NodeId)
  | beforeTable (table previous : NodeId)

/-- Where fostered pieces go, given the open elements. -/
def fosterPlace : List Handle → Place
  | [] => .inside 0
  | [h] => .inside h.inside
  | h :: below :: rest =>
    if h.name.isHtml ["template"] then .inside h.inside
    else if h.name.isHtml ["table"] then .beforeTable h.id below.id
    else fosterPlace (below :: rest)

/-- Parts of a table that take no text and no elements but other parts. -/
def tableParts : List String := ["table", "tbody", "tfoot", "thead", "tr"]

/-- The place of a piece that is meant for `target`. -/
def placeFor (b : Builder) (target : Handle) : Place :=
  if b.fostering && target.name.isHtml tableParts then fosterPlace b.stack
  else .inside target.inside

/-- Puts a piece before a node of the tree. -/
def putBefore (b : Builder) (sibling : NodeId) (p : Piece) : Builder :=
  match b.root.insertBefore? sibling p with
  | some root => { b with root }
  | none => { b with failed := true }

def putAt (b : Builder) (p : Piece) : Place → Builder
  | .inside id => { b with root := b.root.append id p }
  | .beforeTable table previous =>
    if (b.root.locate? table).isSome then b.putBefore table p
    else { b with root := b.root.append previous p }

/-- Puts a piece where the element opened last wants it. -/
def put (b : Builder) (p : Piece) : Builder :=
  match b.stack with
  | h :: _ => b.putAt p (b.placeFor h)
  | [] => b.putAt p (.inside 0)

def putText (b : Builder) (t : Text) : Builder := b.put (.text t)

def putComment (b : Builder) (c : Text) : Builder := b.put (.node (.comment c))

/-- Puts a comment at the end of the document. -/
def putCommentBehind (b : Builder) (c : Text) : Builder :=
  b.putAt (.node (.comment c)) (.inside 0)

/-- Puts a comment at the end of the outermost element. -/
def putCommentInRoot (b : Builder) (c : Text) : Builder :=
  match b.stack.getLast? with
  | some h => b.putAt (.node (.comment c)) (.inside h.id)
  | none => b

/-- A new element. The contents of an HTML `template` get a document to stand in. -/
def create (b : Builder) (name : ElementName) (attributes : List Attribute) :
    Handle × Node × Builder :=
  let id := b.nextId
  if name.isHtml ["template"] then
    (⟨id, name, id + 1⟩, .element id name attributes [.document (id + 1) []],
      { b with nextId := id + 2 })
  else (⟨id, name, id⟩, .element id name attributes [], { b with nextId := id + 1 })

/-- Puts a new element into the tree and leaves it closed. -/
def putElement (b : Builder) (space : Namespace) (t : Tag) : Handle × Builder :=
  let (h, node, b) := b.create ⟨space, t.name⟩ t.attributes
  (h, b.put (.node node))

/-- Puts a new element into the tree and opens it. -/
def pushElement (b : Builder) (space : Namespace) (t : Tag) : Handle × Builder :=
  let (h, b) := b.putElement space t
  (h, { b with stack := h :: b.stack })

/-- Opens a new HTML element. -/
def push (b : Builder) (t : Tag) : Builder := (b.pushElement .html t).2

/-- Opens a new HTML element that the markup leaves out. -/
def pushNamed (b : Builder) (name : String) : Builder := b.push { name }

/-- Puts in a new HTML element that has no content. -/
def putEmpty (b : Builder) (t : Tag) : Builder := (b.putElement .html t).2

/-- Opens an element whose text is no markup. -/
def pushRaw (b : Builder) (t : Tag) (content : Content) : Builder :=
  { b.push t with returnMode := b.mode, mode := .inText, content }

/-- Opens the outermost element. -/
def pushRoot (b : Builder) (attributes : List Attribute) : Builder :=
  let (h, node, b) := b.create ⟨.html, "html"⟩ attributes
  { b.putAt (.node node) (.inside 0) with stack := h :: b.stack }

def pop (b : Builder) : Builder := { b with stack := b.stack.drop 1 }

/-- Closes one open element wherever it stands. -/
def close (b : Builder) (h : Handle) : Builder :=
  { b with stack := b.stack.filter (·.id != h.id) }

/-- Adds attributes to an element that is in the tree. -/
def addAttributes (b : Builder) (h : Handle) (new : List Attribute) : Builder :=
  { b with root := b.root.mapAttributes h.id (Attribute.addMissing · new) }

end Builder
end TerseMarkup.Html
