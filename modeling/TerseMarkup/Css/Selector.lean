import TerseMarkup.Css.Component
import TerseMarkup.Css.Escape
import TerseMarkup.Shortener

/-! Selectors and the names in them.

A selector is read just far enough to find its class names, ids and attribute values. Everything
else is carried along as it is spelled, so a selector that nobody renames prints as it was written.

Curly brackets do not belong in a selector. One that stands there prints, and the text behind it up
to the end of its block is put before the next part (`pending`); the last such text is dropped. -/
namespace TerseMarkup.Css

/-- A class name or an id, as it is spelled and as it reads. -/
structure Name where
  /-- The spelling, with the sigil. -/
  source : Text
  value : Text
  code : Option Text := none
deriving DecidableEq, Repr

/-- The value that an attribute selector compares with. -/
structure AttributeValue where
  source : Text
  value : Text
  quoted : Bool
  code : Option Text := none
deriving DecidableEq, Repr

/-- An attribute selector, cut around its value if it has one. -/
structure AttributeTest where
  name : Option Text := none
  head : Text := []
  value : Option AttributeValue := none
  tail : Text := []
deriving DecidableEq, Repr

inductive Part
  | tag (source : Text)
  | className (n : Name)
  | id (n : Name)
  | attributeTest (a : AttributeTest)
  /-- A function or a parenthesis, whose inside is a selector again. -/
  | function (opener : Text) (inside : List Part)
  /-- Combinators, spaces, commas, comments, the names of pseudo-classes, and whatever does not
  belong in a selector. -/
  | other (source : Text)

/-- A selector, or several between commas. -/
abbrev Selector := List Part

namespace Name

def text (n : Name) (sigil : Char) : Text :=
  match n.code with
  | some code => sigil :: writeIdent code
  | none => n.source

end Name

namespace AttributeValue

def text (v : AttributeValue) : Text :=
  match v.code with
  | some code => if v.quoted then writeString code else writeIdent code
  | none => v.source

end AttributeValue

namespace AttributeTest

def text (a : AttributeTest) : Text :=
  '[' :: (a.head ++ (a.value.map AttributeValue.text).getD [] ++ a.tail ++ [']'])

/-- The kind of names that the attribute holds, if there is a value to compare it with. -/
def kind? (a : AttributeTest) : Option Kind :=
  if a.value.isSome then a.name.bind Kind.ofAttribute? else none

def code? (a : AttributeTest) : Option Text := a.value.bind AttributeValue.code

/-- Reads on behind a value that has been found: the rest is the tail. -/
def withTail (a : AttributeTest) (rest : List Component) : AttributeTest :=
  { a with tail := Component.textOf rest }

/-- Whether the component is an operator between an attribute's name and its value. -/
def isOperator : Token → Bool
  | .delim '=' => true
  | .matches _ => true
  | _ => false

/-- Reads the inside of square brackets. `a` holds the head so far; `operator` says whether an
operator has been passed; `pending` is the inside of a block that the next component goes with. -/
def readFrom (a : AttributeTest) (operator : Bool) (pending : Text) :
    List Component → AttributeTest
  | [] => { a with head := a.head ++ pending }
  | .block opener bracket inside closer :: rest =>
    readFrom { a with head := a.head ++ pending ++ opener.text } operator
      (Component.block opener bracket inside closer).textInside rest
  | .plain l :: rest =>
    let skip := fun (a : AttributeTest) =>
      { a with head := a.head ++ pending ++ l.text }
    let found := fun (value : Text) (quoted : Bool) =>
      { a with value := some { source := pending ++ l.text, value, quoted } }
    match l.token with
    | .ident v =>
      if operator then (found v false).withTail rest
      else readFrom (skip { a with name := some v }) operator [] rest
    | .string v =>
      if operator then (found v true).withTail rest else readFrom (skip a) operator [] rest
    | token => readFrom (skip a) (operator || isOperator token) [] rest

def read (inside : List Component) : AttributeTest := readFrom {} false [] inside

end AttributeTest

namespace Part

mutual

def text : Part → Text
  | tag s => s
  | other s => s
  | className n => n.text '.'
  | id n => n.text '#'
  | attributeTest a => a.text
  | function opener inside => opener ++ textOf inside ++ [')']

def textOf : List Part → Text
  | [] => []
  | p :: rest => p.text ++ textOf rest

end

/-- Reads parts. `pseudo` says whether a colon stands directly before, `pending` is the inside of a
curly block that goes with the next part. -/
def readFrom (pseudo : Bool) (pending : Text) : List Component → List Part
  | [] => []
  | .block opener .curly inside closer :: rest =>
    other (pending ++ opener.text) ::
      readFrom false (Component.block opener .curly inside closer).textInside rest
  | .block _ .square inside _ :: rest =>
    attributeTest (AttributeTest.read inside) :: readFrom false [] rest
  | .block opener .paren inside _ :: rest =>
    function (pending ++ opener.text) (readFrom false [] inside) :: readFrom false [] rest
  | .plain ⟨.delim '.', dot⟩ :: .plain ⟨.ident value, source⟩ :: rest =>
    className { source := pending ++ dot ++ source, value } :: readFrom false [] rest
  | .plain l :: rest =>
    let source := pending ++ l.text
    let part :=
      match l.token with
      | .ident _ => if pseudo then other source else tag source
      | .idHash value => id { source, value }
      | _ => other source
    part :: readFrom (l.token == .colon) [] rest

mutual

/-- Asks for the code of every name, from left to right. A name without one keeps its spelling. -/
def rename {σ : Type} (f : Renaming σ) : Part → StateM σ Part
  | className n => do return className { n with code := ← f .className n.value }
  | id n => do return id { n with code := ← f .id n.value }
  | attributeTest a =>
    match a.kind?, a.value with
    | some k, some v => do
      let code ← f k v.value
      return attributeTest { a with value := some { v with code } }
    | _, _ => return attributeTest a
  | function opener inside => do return function opener (← renameAll f inside)
  | tag s => return tag s
  | other s => return other s

def renameAll {σ : Type} (f : Renaming σ) : List Part → StateM σ (List Part)
  | [] => return []
  | p :: rest => do
    let p ← p.rename f
    return p :: (← renameAll f rest)

end

end Part

namespace Selector

def parse (s : Text) : Selector := Part.readFrom false [] (Component.read s)

def text (s : Selector) : Text := Part.textOf s

def rename {σ : Type} (f : Renaming σ) (s : Selector) : StateM σ Selector := Part.renameAll f s

end Selector

end TerseMarkup.Css
