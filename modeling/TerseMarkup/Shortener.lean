import TerseMarkup.Name.Table

/-! Settings, and the assignment of codes.

A shortener is a codec and a whitelist. `assign` answers one request: an empty or an exempt name
has no code, every other name has the code that the table finds or mints for it, and the table
remembers it. -/
namespace TerseMarkup

/-- The salt in use when none is given. -/
def defaultSalt : Text := "use the force harry".toList

structure Settings where
  salt : Text := defaultSalt
  whitelist : Whitelist := {}
deriving DecidableEq, Repr

/-- What a name is exchanged for, if it is, with a state carried from name to name. -/
abbrev Renaming (σ : Type) := Kind → Text → StateM σ (Option Text)

structure Shortener where
  codec : Codec
  whitelist : Whitelist
deriving DecidableEq, Repr

namespace Shortener

def ofSettings (s : Settings) : Shortener := ⟨Codec.ofSalt s.salt, s.whitelist⟩

/-- The code of a name, recorded in the table; empty and exempt names have none. -/
def assign (s : Shortener) : Renaming Table := fun k name t =>
  if name.isEmpty || s.whitelist.contains k name then (none, t)
  else
    let (code, t) := t.resolve k name s.codec s.whitelist
    (some code, t.insert k name code)

/-- Whether `name` is exempt under the kind called `kind`; other words than `class` and `id` call no
kind. -/
def isWhitelisted (s : Shortener) (kind name : Text) : Bool :=
  (Kind.ofName? kind).any (s.whitelist.contains · name)

end Shortener
end TerseMarkup
