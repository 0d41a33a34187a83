import TerseMarkup.Name.Codec
import TerseMarkup.Name.Whitelist

/-! The names met so far and their codes.

A table keeps its entries in the order of their first insertion, apart for each kind. The order
matters: among the names that a new name contains, the first one inserted lends its code
(`findWithin?`). A code is minted from the number of entries of both kinds together, plus the
counters passed over because their codes were exempt, so counters never come back. -/
namespace TerseMarkup

/-- Names with their codes, in order of first insertion. -/
abbrev Entries := List (Text × Text)

namespace Entries

def get? (e : Entries) (name : Text) : Option Text := e.lookup name

/-- A new name goes to the end; a known one keeps its place and takes the new code. -/
def put (e : Entries) (name code : Text) : Entries :=
  match e with
  | [] => [(name, code)]
  | (n, c) :: rest => if n = name then (n, code) :: rest else (n, c) :: put rest name code

/-- The first entry whose name occurs in `name` stands in for that occurrence. -/
def within? (e : Entries) (name : Text) : Option Text :=
  e.findSome? fun (n, code) => if n.isEmpty then none else Text.replaceFirst? n code name

end Entries

structure Table where
  classes : Entries := []
  ids : Entries := []
  /-- How many counters have been passed over. -/
  skipped : Nat := 0
deriving DecidableEq, Repr

namespace Table

def empty : Table := {}

def entries (t : Table) : Kind → Entries
  | .className => t.classes
  | .id => t.ids

/-- The number of entries of both kinds. -/
def size (t : Table) : Nat := t.classes.length + t.ids.length

def isEmpty (t : Table) : Bool := t.classes.isEmpty && t.ids.isEmpty

def find? (t : Table) (k : Kind) (name : Text) : Option Text := (t.entries k).get? name

def findWithin? (t : Table) (k : Kind) (name : Text) : Option Text := (t.entries k).within? name

def insert (t : Table) (k : Kind) (name code : Text) : Table :=
  match k with
  | .className => { t with classes := t.classes.put name code }
  | .id => { t with ids := t.ids.put name code }

/-- The counter of the next code, if it is not exempt. -/
def counter (t : Table) : Nat := t.size + t.skipped

/-- The first counter from `n` on whose code is not exempt, looking at `fuel` of them. -/
def nextFree (codec : Codec) (exempt : Text → Bool) : (fuel n : Nat) → Nat
  | 0, n => n
  | fuel + 1, n => if exempt (codec.encode n) then nextFree codec exempt fuel (n + 1) else n

/-- The next code and the table with the counters passed over on the way to it. Different counters
have different codes, so at most `w.size` of them are exempt and the search ends on a free one. -/
def mint (t : Table) (k : Kind) (codec : Codec) (w : Whitelist) : Text × Table :=
  let n := nextFree codec (w.contains k) w.size t.counter
  (codec.encode n, { t with skipped := n - t.size })

/-- The code of a name: its own, else that of a name within it, else a new one. The table is left
without the name. -/
def resolve (t : Table) (k : Kind) (name : Text) (codec : Codec) (w : Whitelist) : Text × Table :=
  match t.find? k name with
  | some code => (code, t)
  | none =>
    match t.findWithin? k name with
    | some code => (code, t)
    | none => t.mint k codec w

end Table
end TerseMarkup
