import TerseMarkup.Html.Node

/-! Editing a tree in one place.

`locate?` finds a node's parent and its position there; `mapChildren` changes the children of one
node. Every edit is made of these two, so it changes one list of children and no other. -/
namespace TerseMarkup.Html

/-- What can be put into a tree. -/
inductive Piece
  | text (contents : Text)
  | node (n : Node)

/-- Puts a piece before the child at `i`. Text joins a text directly before it. Of the nodes, only
elements and comments are taken. -/
def Piece.insertAt (i : Nat) (p : Piece) (cs : List Node) : List Node :=
  let (before, behind) := cs.splitAt i
  match p with
  | .text t =>
    match before.getLast? with
    | some (.text s) => before.dropLast ++ .text (s ++ t) :: behind
    | _ => before ++ .text t :: behind
  | .node n => if n.isElement || n.isComment then before ++ n :: behind else cs

namespace Node

def position? (target : NodeId) (cs : List Node) : Option Nat :=
  cs.findIdx? (·.id? == some target)

mutual

/-- The parent of `target` and its position there, if it stands below this node. -/
def locate? (target : NodeId) : Node → Option (NodeId × Nat)
  | document id cs => ((position? target cs).map (id, ·)).or (locateAmong? target cs)
  | element id _ _ cs => ((position? target cs).map (id, ·)).or (locateAmong? target cs)
  | _ => none

def locateAmong? (target : NodeId) : List Node → Option (NodeId × Nat)
  | [] => none
  | n :: rest => (n.locate? target).or (locateAmong? target rest)

end

mutual

/-- The node with the identity `target`, if it is this node or stands below it. -/
def find? (target : NodeId) : Node → Option Node
  | document id cs => if id = target then some (document id cs) else findAmong? target cs
  | element id n as cs => if id = target then some (element id n as cs) else findAmong? target cs
  | _ => none

def findAmong? (target : NodeId) : List Node → Option Node
  | [] => none
  | n :: rest => (n.find? target).or (findAmong? target rest)

end

mutual

/-- Changes the children of `target`. -/
def mapChildren (target : NodeId) (f : List Node → List Node) : Node → Node
  | document id cs => document id (if id = target then f cs else mapChildrenAll target f cs)
  | element id n as cs => element id n as (if id = target then f cs else mapChildrenAll target f cs)
  | n => n

def mapChildrenAll (target : NodeId) (f : List Node → List Node) : List Node → List Node
  | [] => []
  | n :: rest => n.mapChildren target f :: mapChildrenAll target f rest

end

mutual

/-- Changes the attributes of `target`. -/
def mapAttributes (target : NodeId) (f : List Attribute → List Attribute) : Node → Node
  | document id cs => document id (mapAttributesAll target f cs)
  | element id n as cs =>
    element id n (if id = target then f as else as) (mapAttributesAll target f cs)
  | n => n

def mapAttributesAll (target : NodeId) (f : List Attribute → List Attribute) :
    List Node → List Node
  | [] => []
  | n :: rest => n.mapAttributes target f :: mapAttributesAll target f rest

end

/-- Puts a piece behind the last child of `parent`. -/
def append (root : Node) (parent : NodeId) (p : Piece) : Node :=
  root.mapChildren parent fun cs => p.insertAt cs.length cs

/-- Puts a piece before `sibling`, or fails if that has no parent. -/
def insertBefore? (root : Node) (sibling : NodeId) (p : Piece) : Option Node :=
  (root.locate? sibling).map fun (parent, i) => root.mapChildren parent (p.insertAt i)

/-- Takes `target` out of its parent, if it has one. -/
def remove (root : Node) (target : NodeId) : Node :=
  match root.locate? target with
  | some (parent, i) => root.mapChildren parent (·.eraseIdx i)
  | none => root

end Node
end TerseMarkup.Html
