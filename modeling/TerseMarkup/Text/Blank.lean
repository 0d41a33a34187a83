import TerseMarkup.Text

/-! Blank characters.

Two classes are in use. `isSpace` is the five characters that separate class names, selectors and
tags. `isBlank` is the Unicode property White_Space; it decides what is trimmed off a setting and
which documents have nothing to shorten. -/
namespace TerseMarkup.Text

/-- Tab, line feed, form feed, carriage return and the space. -/
def isSpace (c : Char) : Bool :=
  c == ' ' || c == '\t' || c == '\n' || c == '\x0c' || c == '\r'

/-- The ranges of the Unicode property White_Space, ends included. -/
def blankRanges : List (Nat × Nat) :=
  [(0x09, 0x0D), (0x20, 0x20), (0x85, 0x85), (0xA0, 0xA0), (0x1680, 0x1680), (0x2000, 0x200A),
    (0x2028, 0x2029), (0x202F, 0x202F), (0x205F, 0x205F), (0x3000, 0x3000)]

def isBlank (c : Char) : Bool :=
  blankRanges.any fun (first, last) => first ≤ c.toNat && c.toNat ≤ last

/-- The text without the blanks at its two ends. -/
def trim (t : Text) : Text :=
  ((t.dropWhile isBlank).reverse.dropWhile isBlank).reverse

/-- The maximal runs of characters that are no spaces. -/
def words (t : Text) : List Text :=
  (t.splitOnP isSpace).filter (!·.isEmpty)

end TerseMarkup.Text
