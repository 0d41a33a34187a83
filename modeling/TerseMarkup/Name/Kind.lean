import TerseMarkup.Text

/-! The two kinds of names.

Class names and ids are counted together but looked up apart. A `for` attribute holds an id, so it
shares the ids' entries. -/
namespace TerseMarkup

inductive Kind
  | className
  | id
deriving DecidableEq, Repr

namespace Kind

def name : Kind → Text
  | className => "class".toList
  | id => "id".toList

/-- The kind called `name`; the spelling has to be exact. -/
def ofName? (name : Text) : Option Kind :=
  if name = "class".toList then some className
  else if name = "id".toList then some id
  else none

/-- The character that introduces a name of this kind in a selector and in a whitelist. -/
def sigil : Kind → Char
  | className => '.'
  | id => '#'

/-- The kind of the names that an attribute holds, whatever the case of its name. -/
def ofAttribute? (name : Text) : Option Kind :=
  if name.sameIgnoringCase "class".toList then some className
  else if name.sameIgnoringCase "id".toList || name.sameIgnoringCase "for".toList then some id
  else none

@[simp] theorem ofName?_name (k : Kind) : ofName? k.name = some k := by
  cases k <;> decide

end Kind
end TerseMarkup
