import TerseMarkup.Text

/-! Short codes.

A codec turns a counter into a code over the small letters: one letter for the first 26 counters,
two for the next 676, and so on (bijective base 26). Small letters alone need no escaping in markup
or in a stylesheet. A salt reorders the letters and changes nothing else. -/
namespace TerseMarkup

structure Codec where
  alphabet : Vector Char 26
deriving DecidableEq, Repr

namespace Codec

def letters : Vector Char 26 :=
  #v['a', 'b', 'c', 'd', 'e', 'f', 'g', 'h', 'i', 'j', 'k', 'l', 'm',
    'n', 'o', 'p', 'q', 'r', 's', 't', 'u', 'v', 'w', 'x', 'y', 'z']

/-- Exchanges the letters at `i`, `i - 1`, …, `1`, each with an earlier one. The salt's bytes are
taken in turn; `turn` says which comes next and `total` is the sum of those taken. -/
def shuffleBelow (salt : List UInt8) :
    (i : Nat) → i < 26 → (turn total : Nat) → Vector Char 26 → Vector Char 26
  | 0, _, _, _, a => a
  | i + 1, h, turn, total, a =>
    let turn := turn % salt.length
    let byte := (salt.getD turn 0).toNat
    let total := total + byte
    let j := (byte + turn + total) % (i + 1)
    have hj : j < 26 := Nat.lt_trans (Nat.mod_lt _ (Nat.succ_pos i)) h
    shuffleBelow salt i (by omega) (turn + 1) total (a.swap (i + 1) j h hj)

/-- The alphabet in the order that the salt gives it; the empty salt keeps it as it is. -/
def shuffle (salt : List UInt8) (a : Vector Char 26) : Vector Char 26 :=
  if salt.isEmpty then a else shuffleBelow salt 25 (by omega) 0 0 a

def ofBytes (salt : List UInt8) : Codec := ⟨shuffle salt letters⟩

def ofSalt (salt : Text) : Codec := ofBytes salt.bytes

def encode (c : Codec) (n : Nat) : Text :=
  have digit : n % 26 < 26 := Nat.mod_lt _ (by omega)
  if n < 26 then [c.alphabet[n % 26]] else c.encode (n / 26 - 1) ++ [c.alphabet[n % 26]]
termination_by n
decreasing_by omega

end Codec
end TerseMarkup
