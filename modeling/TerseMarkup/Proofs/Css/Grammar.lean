import TerseMarkup.Css.Token
import TerseMarkup.Proofs.Renaming

/-! The grammar of selectors.

The grammar is one of tokens: a selector list is a tree, and `tokens` says what the tree is written
with. Comments leave no tokens, so they stand wherever a token may end. `names` lists the class
names, the ids and the values of attribute selectors on `class`, `id` and `for`, from left to
right. -/
namespace TerseMarkup.Css.Grammar

/-- A number of tokens of white space, which comments may part. -/
abbrev Gap := Nat

def Gap.tokens (g : Gap) : List Token := List.replicate g .whitespace

/-- The namespace of a name: left out, none (`|a`), any (`*|a`), or one with a name. -/
inductive Space
  | omitted
  | none
  | any
  | named (prefixName : Text)

def Space.tokens : Space → List Token
  | omitted => []
  | none => [.delim '|']
  | any => [.delim '*', .delim '|']
  | named n => [.ident n, .delim '|']

/-! ### Attribute selectors -/

/-- An equals sign, alone or behind another character. The two of them are one token, or two tokens
if a comment stands between. -/
inductive Operator
  | equals
  | joined (c : Char)
  | parted (c : Char)

def Operator.tokens : Operator → List Token
  | equals => [.delim '=']
  | joined c => [.matches c]
  | parted c => [.delim c, .delim '=']

/-- What an attribute is compared with. -/
inductive Value
  | ident (v : Text)
  | string (v : Text)

namespace Value

def text : Value → Text
  | ident v => v
  | string v => v

def token : Value → Token
  | ident v => .ident v
  | string v => .string v

end Value

/-- The comparison with a value, and the flag that says whether case counts. -/
structure Comparison where
  operator : Operator
  before : Gap
  value : Value
  behind : Gap
  flag : Option (Text × Gap)

def Comparison.tokens (c : Comparison) : List Token :=
  c.operator.tokens ++ c.before.tokens ++ c.value.token :: (c.behind.tokens ++
    (c.flag.map fun (flag, g) => Token.ident flag :: g.tokens).getD [])

/-- What stands between square brackets. -/
structure Attribute where
  lead : Gap
  space : Space
  name : Text
  behind : Gap
  comparison : Option Comparison

namespace Attribute

def tokens (a : Attribute) : List Token :=
  a.lead.tokens ++ a.space.tokens ++ .ident a.name :: (a.behind.tokens ++
    (a.comparison.map Comparison.tokens).getD [])

/-- A value of an attribute that holds names. The namespace does not count. -/
def names (a : Attribute) : List Mention :=
  match Kind.ofAttribute? a.name, a.comparison with
  | some k, some c => [(k, c.value.text)]
  | _, _ => []

end Attribute

/-! ### Selectors -/

structure TypeSelector where
  space : Space
  /-- The universal selector has no name. -/
  name : Option Text

def TypeSelector.tokens (t : TypeSelector) : List Token :=
  t.space.tokens ++ [(t.name.map Token.ident).getD (.delim '*')]

/-- An+B notation: a word, a dimension or a number, which may have a plus before it and a number
behind it. The sign of that number may be a token of its own. -/
structure Nth where
  plus : Bool
  step : Token
  step_eq : (∃ v, step = .ident v) ∨ step = .dimension ∨ step = .number
  offset : Option (Gap × Option (Bool × Gap))

def Nth.tokens (n : Nth) : List Token :=
  (if n.plus then [.delim '+'] else []) ++ n.step ::
    (n.offset.map fun (g, sign) => g.tokens ++
      (sign.map fun (minus, g) => Token.delim (if minus then '-' else '+') :: g.tokens).getD [] ++
      [.number]).getD []

/-- What relates a compound selector to the one before it. -/
inductive Combinator
  | descendant (more : Gap)
  | child (before behind : Gap)
  | next (before behind : Gap)
  | later (before behind : Gap)
  | column (before behind : Gap)

def Combinator.tokens : Combinator → List Token
  | descendant more => Gap.tokens (more + 1)
  | child g g' => g.tokens ++ .delim '>' :: g'.tokens
  | next g g' => g.tokens ++ .delim '+' :: g'.tokens
  | later g g' => g.tokens ++ .delim '~' :: g'.tokens
  | column g g' => g.tokens ++ .delim '|' :: .delim '|' :: g'.tokens

/-- What stands between two compound selectors of a list. -/
inductive Joint
  | combinator (c : Combinator)
  | comma (before behind : Gap)

def Joint.tokens : Joint → List Token
  | combinator c => c.tokens
  | comma g g' => g.tokens ++ .comma :: g'.tokens

/-- The colons of a pseudo-class, or of a pseudo-element. -/
def colons (double : Bool) : List Token := if double then [.colon, .colon] else [.colon]

mutual

inductive Simple
  | className (name : Text)
  | id (name : Text)
  | attribute (a : Attribute)
  | pseudo (double : Bool) (name : Text)
  | function (double : Bool) (name : Text) (arguments : Arguments)

inductive Arguments
  | nth (lead : Gap) (n : Nth) (trail : Gap)
  /-- An+B of a selector list. -/
  | nthOf (lead : Gap) (n : Nth) (gap : Gap) (of : Text) (behind : Gap) (list : Selectors)
      (trail : Gap)
  /-- A selector list, which may start with a combinator. -/
  | selectors (lead : Gap) (relation : Option Combinator) (list : Selectors) (trail : Gap)

/-- A type selector and simple selectors behind it. -/
inductive Compound
  | type (t : Option TypeSelector)
  | behind (c : Compound) (s : Simple)

/-- Compound selectors between combinators, and between commas where the next one of the list
starts. -/
inductive Selectors
  | last (c : Compound)
  | join (c : Compound) (j : Joint) (rest : Selectors)

end

mutual

def Simple.tokens : Simple → List Token
  | .className n => [.delim '.', .ident n]
  | .id n => [.idHash n]
  | .attribute a => .opening .square :: (a.tokens ++ [.closing .square])
  | .pseudo double n => colons double ++ [.ident n]
  | .function double n arguments =>
    colons double ++ .function n :: (arguments.tokens ++ [.closing .paren])

def Arguments.tokens : Arguments → List Token
  | .nth lead n trail => lead.tokens ++ n.tokens ++ trail.tokens
  | .nthOf lead n gap of behind list trail =>
    lead.tokens ++ n.tokens ++ gap.tokens ++ .ident of :: (behind.tokens ++ list.tokens) ++
      trail.tokens
  | .selectors lead relation list trail =>
    lead.tokens ++ (relation.map Combinator.tokens).getD [] ++ list.tokens ++ trail.tokens

def Compound.tokens : Compound → List Token
  | .type t => (t.map TypeSelector.tokens).getD []
  | .behind c s => c.tokens ++ s.tokens

def Selectors.tokens : Selectors → List Token
  | .last c => c.tokens
  | .join c j rest => c.tokens ++ j.tokens ++ rest.tokens

end

mutual

/-- The names in a selector that may be renamed, in the order of the text. -/
def Simple.names : Simple → List Mention
  | .className n => [(.className, n)]
  | .id n => [(.id, n)]
  | .attribute a => a.names
  | .pseudo _ _ => []
  | .function _ _ arguments => arguments.names

def Arguments.names : Arguments → List Mention
  | .nth _ _ _ => []
  | .nthOf _ _ _ _ _ list _ => list.names
  | .selectors _ _ list _ => list.names

def Compound.names : Compound → List Mention
  | .type _ => []
  | .behind c s => c.names ++ s.names

def Selectors.names : Selectors → List Mention
  | .last c => c.names
  | .join c _ rest => c.names ++ rest.names

end

end TerseMarkup.Css.Grammar
