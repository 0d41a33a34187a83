/-! Texts and searching in them.

A text is the list of its characters, which is what every reader below consumes and what every
printer returns. `cut?` finds a first occurrence and hands back what stands before and after it;
`replaceFirst?` is written with it. -/
namespace TerseMarkup

/-- The characters of a document, a stylesheet, a name or a code. -/
abbrev Text := List Char

namespace Text

/-- Capital ASCII letters become small ones, and nothing else changes. -/
def lower (t : Text) : Text := t.map Char.toLower

/-- Equal but for the case of ASCII letters. -/
def sameIgnoringCase (a b : Text) : Bool := lower a == lower b

/-- The length in bytes of the UTF-8 form. -/
def byteSize (t : Text) : Nat := t.foldr (fun c n => c.utf8Size + n) 0

/-- The bytes of the UTF-8 form. -/
def bytes (t : Text) : List UInt8 := (String.ofList t).toUTF8.toList

/-- What follows `start`, if the text begins with it. -/
def after? (start t : Text) : Option Text := start.isPrefixOf? t

/-- As `after?`, with `start` in small letters standing for either case. -/
def afterIgnoringCase? : Text → Text → Option Text
  | [], t => some t
  | _ :: _, [] => none
  | s :: start, c :: t => if c.toLower == s then afterIgnoringCase? start t else none

/-- The parts before and after the first occurrence of `part`. -/
def cut? (part : Text) : Text → Option (Text × Text)
  | [] => if part.isEmpty then some ([], []) else none
  | c :: r =>
    match after? part (c :: r) with
    | some rest => some ([], rest)
    | none => (cut? part r).map fun (before, rest) => (c :: before, rest)

def contains (part t : Text) : Bool := (cut? part t).isSome

/-- The text with the first occurrence of `part` exchanged for `new`. -/
def replaceFirst? (part new t : Text) : Option Text :=
  (cut? part t).map fun (before, rest) => before ++ new ++ rest

end Text
end TerseMarkup
