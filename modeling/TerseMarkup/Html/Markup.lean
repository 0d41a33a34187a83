import TerseMarkup.DocumentError
import TerseMarkup.Html.Markup.Tag

/-! Writing a tree as markup.

The tree is gone through with a list of tasks: a node to be written or an element to be closed. What
an element asks of its content is kept for every element that is being written (`Surroundings`): text
may have to be written raw, and content may have to be left out. -/
namespace TerseMarkup.Html

/-- What the element around it asks of content. -/
structure Surroundings where
  /-- Text is written as it is. -/
  raw : Bool := false
  /-- Nothing is written. -/
  silent : Bool := false
deriving DecidableEq, Repr

/-- The markup written so far, the last part first, and the elements being written, the innermost
first. -/
structure Writer where
  parts : List Text := []
  around : List Surroundings := [{}]

namespace Writer

def write (w : Writer) (part : Text) : Writer := { w with parts := part :: w.parts }

def markup (w : Writer) : Text := w.parts.reverse.flatten

/-- Begins an element. One inside an element without content is left out. -/
def start? (w : Writer) (name : ElementName) (attributes : List Attribute) (hasChildren : Bool) :
    Option Writer := do
  let outer ← w.around.head?
  if outer.silent then
    some { w with around := ⟨name.hasRawText, true⟩ :: w.around }
  else
    let closes := name.mayClose && !hasChildren
    let tag ← Markup.writeStart? name attributes closes
    some { w.write tag with around := ⟨name.hasRawText, closes || name.isVoid⟩ :: w.around }

/-- Ends an element; one without content has no end tag. -/
def finish? (w : Writer) (name : ElementName) : Option Writer :=
  match w.around with
  | [] => none
  | inner :: around =>
    let w := { w with around }
    some (if inner.silent then w else w.write (Markup.writeEnd name))

def text? (w : Writer) (t : Text) : Option Writer := do
  let outer ← w.around.head?
  some (if outer.silent then w else w.write (if outer.raw then t else Markup.writeText t))

def comment (w : Writer) (c : Text) : Writer :=
  if w.around.head?.any Surroundings.silent then w else w.write (Markup.writeComment c)

end Writer

namespace Node

/-- What is left to do: a node to be written, or an element to be closed. -/
inductive Task
  | open (n : Node)
  | close (name : ElementName)

mutual

/-- The number of tasks that writing this node comes to. -/
def tasks : Node → Nat
  | document _ _ => 1
  | element _ _ _ cs => tasksOf cs + 2
  | _ => 1

def tasksOf : List Node → Nat
  | [] => 0
  | n :: rest => n.tasks + tasksOf rest

end

/-- Does at most `fuel` tasks, the first one first. -/
def writeTasks : (fuel : Nat) → List Task → Writer → Option Writer
  | 0, _, w => some w
  | _, [], w => some w
  | fuel + 1, .open n :: rest, w =>
    match n with
    | element _ name attributes cs => do
      let w ← w.start? name attributes !cs.isEmpty
      writeTasks fuel (cs.map .open ++ .close name :: rest) w
    | text t => do writeTasks fuel rest (← w.text? t)
    | comment c => writeTasks fuel rest (w.comment c)
    | doctype name publicId systemId =>
      writeTasks fuel rest (w.write (Markup.writeDoctype name publicId systemId))
    | document _ _ => writeTasks fuel rest w
    | placeholder => writeTasks fuel rest w
  | fuel + 1, .close name :: rest, w => do writeTasks fuel rest (← w.finish? name)

/-- The markup of everything below the root. -/
def markup? (root : Node) : Option Text := do
  let w ← writeTasks (tasksOf root.children) (root.children.map .open) {}
  some w.markup

/-- The markup of a tree; it cannot be written if an attribute's namespace has no prefix. -/
def serialize (root : Node) : Except DocumentError Text :=
  match root.markup? with
  | some markup => return markup
  | none => throw .serialize

end Node
end TerseMarkup.Html
