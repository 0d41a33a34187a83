import TerseMarkup.Css.Selector

/-! Stylesheets as rules.

A stylesheet is cut into rules just far enough to find the selectors of its style rules, those in
`@media` and `@supports` groups included. Preludes, declarations and all other rules stay as they
are spelled. No text is refused: a block that is never closed is closed when the rules are written,
and what fits no rule is kept as raw text. -/
namespace TerseMarkup.Css

inductive Rule
  | style (selector : Selector) (body : Text)
  /-- A conditional group: the at-keyword with its condition, and the rules inside. -/
  | group (prelude : Text) (rules : List Rule)
  /-- Any other at-rule with a block. -/
  | block (prelude body : Text)
  /-- Spaces, comments, at-rules without a block, and what is left at the end. -/
  | raw (source : Text)

abbrev Stylesheet := List Rule

namespace Rule

mutual

def text : Rule → Text
  | style selector body => selector.text ++ '{' :: (body ++ ['}'])
  | group prelude rules => prelude ++ '{' :: (textOf rules ++ ['}'])
  | block prelude body => prelude ++ '{' :: (body ++ ['}'])
  | raw source => source

def textOf : List Rule → Text
  | [] => []
  | r :: rest => r.text ++ textOf rest

end

/-- Whether the block of an at-rule of this name holds rules. -/
def isGroup (name : Text) : Bool :=
  name.sameIgnoringCase "media".toList || name.sameIgnoringCase "supports".toList

/-- What has been read of a rule: nothing, an at-rule of some name, or a style rule's selector. -/
inductive Begun
  | none
  | atRule (name prelude : Text)
  | style (prelude : Text)

/-- Tokens that stand between rules. -/
def isSeparator : Token → Bool
  | .whitespace | .comment | .commentOpen | .commentClose | .semicolon => true
  | _ => false

/-- Reads rules from components, given what has been read of the first. -/
def readFrom : Begun → List Component → List Rule
  | .none, [] => []
  | .atRule _ prelude, [] => [raw prelude]
  | .style prelude, [] => [raw prelude]
  | .none, .block _ .curly inside _ :: rest =>
    style (Selector.parse []) (Component.textOf inside) :: readFrom .none rest
  | .atRule name prelude, .block _ .curly inside _ :: rest =>
    (if isGroup name then group prelude (readFrom .none inside)
      else block prelude (Component.textOf inside)) :: readFrom .none rest
  | .style prelude, .block _ .curly inside _ :: rest =>
    style (Selector.parse prelude) (Component.textOf inside) :: readFrom .none rest
  | .none, .plain l :: rest =>
    if isSeparator l.token then raw l.text :: readFrom .none rest
    else
      match l.token with
      | .atKeyword name => readFrom (.atRule name l.text) rest
      | _ => readFrom (.style l.text) rest
  | .atRule name prelude, .plain l :: rest =>
    if l.token = .semicolon then raw (prelude ++ l.text) :: readFrom .none rest
    else readFrom (.atRule name (prelude ++ l.text)) rest
  | .style prelude, .plain l :: rest => readFrom (.style (prelude ++ l.text)) rest
  | .none, .block o b inside c :: rest =>
    readFrom (.style (Component.block o b inside c).text) rest
  | .atRule name prelude, .block o b inside c :: rest =>
    readFrom (.atRule name (prelude ++ (Component.block o b inside c).text)) rest
  | .style prelude, .block o b inside c :: rest =>
    readFrom (.style (prelude ++ (Component.block o b inside c).text)) rest

mutual

/-- Asks for the codes of the names in every selector, in the order of the text. -/
def rename {σ : Type} (f : Renaming σ) : Rule → StateM σ Rule
  | style selector body => do return style (← selector.rename f) body
  | group prelude rules => do return group prelude (← renameAll f rules)
  | block prelude body => return block prelude body
  | raw source => return raw source

def renameAll {σ : Type} (f : Renaming σ) : List Rule → StateM σ (List Rule)
  | [] => return []
  | r :: rest => do
    let r ← r.rename f
    return r :: (← renameAll f rest)

end

end Rule

namespace Stylesheet

def parse (s : Text) : Stylesheet := Rule.readFrom .none (Component.read s)

def text (s : Stylesheet) : Text := Rule.textOf s

def rename {σ : Type} (f : Renaming σ) (s : Stylesheet) : StateM σ Stylesheet :=
  Rule.renameAll f s

end Stylesheet

end TerseMarkup.Css
