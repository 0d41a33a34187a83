import TerseMarkup.Name.Kind
import TerseMarkup.Text.Blank

/-! Names that are never shortened.

An entry is a name behind the sigil of its kind, as in a selector: `.menu` or `#top`. An entry with
no such sigil is kept, and exempts nothing. -/
namespace TerseMarkup

structure Whitelist where
  entries : List Text := []
deriving DecidableEq, Repr

namespace Whitelist

/-- The trimmed entries, each once, in order of first mention, without the empty ones. -/
def ofList (items : List Text) : Whitelist :=
  ⟨((items.map Text.trim).filter (!·.isEmpty)).foldl
    (fun kept item => if kept.contains item then kept else kept ++ [item]) []⟩

def size (w : Whitelist) : Nat := w.entries.length

def isEmpty (w : Whitelist) : Bool := w.entries.isEmpty

def contains (w : Whitelist) (k : Kind) (name : Text) : Bool :=
  w.entries.contains (k.sigil :: name)

theorem contains_iff (w : Whitelist) (k : Kind) (name : Text) :
    w.contains k name = true ↔ k.sigil :: name ∈ w.entries := by
  simp [contains]

end Whitelist
end TerseMarkup
