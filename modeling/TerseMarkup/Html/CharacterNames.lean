import TerseMarkup.Html.CharacterNames.Capital
import TerseMarkup.Html.CharacterNames.Small

/-! The names of characters in markup.

A name stands behind an ampersand. Most names end in a semicolon; some old ones may go without, and
then stand in the table twice. Where several names fit, the longest is meant. -/
namespace TerseMarkup.Html.CharacterNames

/-- The longer of two names, the first one if they are of one length. -/
def longer (best : Option (String × List Nat)) (entry : String × List Nat) :
    Option (String × List Nat) :=
  match best with
  | some b => if b.1.length < entry.1.length then some entry else best
  | none => some entry

/-- The longest name at the start of a text, with the code points it stands for. -/
def at? (s : Text) : Option (String × List Nat) :=
  match s with
  | [] => none
  | c :: _ =>
    ((if c.isUpper then capital c else small c).filter
      fun entry => entry.1.toList.isPrefixOf s).foldl longer none

end TerseMarkup.Html.CharacterNames
