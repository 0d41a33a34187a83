import TerseMarkup.Text

/-! Text and attribute values written as markup.

Ampersands, angle brackets and no-break spaces of a text are written as references. In an attribute's
value the angle brackets stay, and the quote that it stands in becomes a reference. The value stands
in the quote that it has fewer of, in double quotes if there is no difference. -/
namespace TerseMarkup.Html.Markup

def noBreakSpace : Char := '\u00A0'

def writeTextChar (c : Char) : Text :=
  if c = noBreakSpace then "&nbsp;".toList
  else if c = '&' then "&amp;".toList
  else if c = '<' then "&lt;".toList
  else if c = '>' then "&gt;".toList
  else [c]

def writeText (t : Text) : Text := t.flatMap writeTextChar

inductive Quote
  | double
  | single
deriving DecidableEq, Repr

namespace Quote

def char : Quote → Char
  | double => '"'
  | single => '\''

/-- The reference that stands for the quote. -/
def reference : Quote → Text
  | double => "&#34;".toList
  | single => "&#39;".toList

/-- The quote to write a value in. -/
def forValue (value : Text) : Quote :=
  if value.count '\'' < value.count '"' then single else double

end Quote

def writeValueChar (q : Quote) (c : Char) : Text :=
  if c = noBreakSpace then "&nbsp;".toList
  else if c = '&' then "&amp;".toList
  else if c = q.char then q.reference
  else [c]

/-- A value between quotes. -/
def writeValue (value : Text) : Text :=
  let q := Quote.forValue value
  q.char :: (value.flatMap (writeValueChar q) ++ [q.char])

end TerseMarkup.Html.Markup
