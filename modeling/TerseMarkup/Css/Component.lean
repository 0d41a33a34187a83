import TerseMarkup.Css.Lexeme.Spelling

/-! Stylesheet text with its brackets matched.

A component is a lexeme or a block: what opens it, the components inside, and what closes it unless
the text ends first. Only the bracket that belongs to the innermost open block closes it; any other
closing bracket is a plain lexeme. A function opens a block of parentheses. No character gets lost
on the way (`textOf_read`). -/
namespace TerseMarkup.Css

inductive Component
  | plain (l : Lexeme)
  | block (opener : Lexeme) (bracket : Bracket) (inside : List Component) (closer : Option Lexeme)

namespace Component

mutual

/-- The characters that spell a component. -/
def text : Component → Text
  | plain l => l.text
  | block opener _ inside closer => opener.text ++ textOf inside ++ (closer.map Lexeme.text).getD []

def textOf : List Component → Text
  | [] => []
  | c :: rest => c.text ++ textOf rest

end

/-- The characters of a block behind its opening bracket. -/
def textInside : Component → Text
  | plain _ => []
  | block _ _ inside closer => textOf inside ++ (closer.map Lexeme.text).getD []

/-- A block still open, with the components before it on its own level, the last one first. -/
structure OpenBlock where
  opener : Lexeme
  bracket : Bracket
  before : List Component

/-- The level outside a block after the block has ended. -/
def OpenBlock.end (o : OpenBlock) (inside : List Component) (closer : Option Lexeme) :
    List Component :=
  .block o.opener o.bracket inside.reverse closer :: o.before

/-- The end of the text ends every open block. -/
def endAll : List OpenBlock → List Component → List Component
  | [], level => level.reverse
  | o :: outer, level => endAll outer (o.end level none)

/-- Matches brackets from left to right; `level` holds what stands on the innermost level so far,
the last component first. -/
def nest : List OpenBlock → List Component → List Lexeme → List Component
  | outer, level, [] => endAll outer level
  | outer, level, l :: rest =>
    match l.token.opens? with
    | some b => nest (⟨l, b, level⟩ :: outer) [] rest
    | none =>
      match outer with
      | o :: outer' =>
        if l.token = .closing o.bracket then nest outer' (o.end level (some l)) rest
        else nest outer (.plain l :: level) rest
      | [] => nest [] (.plain l :: level) rest

def ofLexemes (ls : List Lexeme) : List Component := nest [] [] ls

/-- The components of a text. -/
def read (s : Text) : List Component := ofLexemes (Lexeme.scan s)

theorem textOf_append (xs ys : List Component) : textOf (xs ++ ys) = textOf xs ++ textOf ys := by
  induction xs with
  | nil => rfl
  | cons x xs ih => simp [textOf, ih]

/-- What open blocks and the level inside them spell, the outermost first. -/
def textSoFar : List OpenBlock → List Component → Text
  | [], level => textOf level.reverse
  | o :: outer, level => textSoFar outer o.before ++ o.opener.text ++ textOf level.reverse

theorem textSoFar_cons (outer : List OpenBlock) (c : Component) (level : List Component) :
    textSoFar outer (c :: level) = textSoFar outer level ++ c.text := by
  cases outer <;> simp [textSoFar, textOf_append, textOf]

theorem textOf_endAll (outer : List OpenBlock) (level : List Component) :
    textOf (endAll outer level) = textSoFar outer level := by
  induction outer generalizing level with
  | nil => rfl
  | cons o outer ih => simp [endAll, ih, OpenBlock.end, textSoFar_cons, textSoFar, text]

theorem textOf_nest (outer : List OpenBlock) (level : List Component) (ls : List Lexeme) :
    textOf (nest outer level ls) = textSoFar outer level ++ ls.flatMap Lexeme.text := by
  induction ls generalizing outer level with
  | nil => simp [nest, textOf_endAll]
  | cons l ls ih =>
    unfold nest
    split
    · simp [ih, textSoFar, textOf]
    · split
      · split
        · simp [ih, textSoFar, OpenBlock.end, textSoFar_cons, text]
        · simp [ih, textSoFar_cons, text]
      · simp [ih, textSoFar_cons, text]

/-- **Matching brackets loses nothing**: the components of a text spell it. -/
theorem textOf_read (s : Text) : textOf (read s) = s := by
  simp [read, ofLexemes, textOf_nest, textSoFar, textOf, Lexeme.spelling_scan]

end Component
end TerseMarkup.Css
