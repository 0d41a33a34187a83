import TerseMarkup.Cli.Directory
import TerseMarkup.Shortener.Document
import TerseMarkup.Text.Blank

/-! Shortening many documents.

Every document has names of its own, so it does not matter which comes first. One that cannot be read,
is blank, or cannot be shortened is left alone and counts for nothing but its number. -/
namespace TerseMarkup.Cli

/-- What shortening comes to, in one document or in several. -/
structure Totals where
  names : Nat := 0
  before : Nat := 0
  after : Nat := 0
deriving DecidableEq, Repr

namespace Totals

def add (a b : Totals) : Totals := ⟨a.names + b.names, a.before + b.before, a.after + b.after⟩

/-- The bytes saved; none if the documents have grown. -/
def saved (t : Totals) : Nat := t.before - t.after

end Totals

/-- The text of a file, if the bytes are UTF-8. -/
def textOf? (contents : ByteArray) : Option Text := (String.fromUTF8? contents).map String.toList

def bytesOf (t : Text) : ByteArray := (String.ofList t).toUTF8

/-- The document in a file shortened, with what that comes to. The new contents are there only if
they differ. -/
def shortenFile? (s : Shortener) (contents : ByteArray) : Option (Totals × Option ByteArray) := do
  let old ← textOf? contents
  if old.trim.isEmpty then none
  else
    match s.shorten old with
    | .ok (new, table) =>
      let totals : Totals := ⟨table.size, old.byteSize, new.byteSize⟩
      some (totals, if new = old then none else some (bytesOf new))
    | .error _ => none

/-- Whether a path ends like that of a document: in `.html` or `.htm`, with a name before it. -/
def isDocument (path : Text) : Bool :=
  [".html".toList, ".htm".toList].any fun ending =>
    match Text.afterIgnoringCase? ending.reverse path.reverse with
    | some (c :: _) => c != '/' && c != '\\'
    | _ => false

variable {m : Type → Type} [Monad m]

/-- Shortens the document at a path in its place. -/
def shortenAt (storage : Storage m) (s : Shortener) (path : Text) : m Totals := do
  match (← storage.read? path).bind (shortenFile? s) with
  | none => return {}
  | some (totals, none) => return totals
  | some (totals, some new) => return if ← storage.save path new then totals else {}

/-- Shortens the documents at some paths, one after the other. -/
def shortenEach (storage : Storage m) (s : Shortener) (paths : List Text) : m Totals :=
  paths.foldlM (fun totals path => return totals.add (← shortenAt storage s path)) {}

end TerseMarkup.Cli
