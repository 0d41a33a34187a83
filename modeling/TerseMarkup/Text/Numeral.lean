import TerseMarkup.Text

/-! Numbers written in a text, and the characters that they number. -/
namespace TerseMarkup.Text

/-- What stands for a character that a text cannot hold. -/
def replacement : Char := '\uFFFD'

def isHexDigit (c : Char) : Bool :=
  c.isDigit || ('a' ≤ c && c ≤ 'f') || ('A' ≤ c && c ≤ 'F')

def digitValue (c : Char) : Nat :=
  if c.isDigit then c.toNat - '0'.toNat
  else if 'a' ≤ c then c.toNat - 'a'.toNat + 10
  else c.toNat - 'A'.toNat + 10

/-- The number that digits to a base stand for. -/
def number (base : Nat) (digits : Text) : Nat :=
  digits.foldl (fun n c => base * n + digitValue c) 0

/-- The character with this code point; zero, surrogates and numbers too large have none. -/
def charOfNumber (n : Nat) : Char :=
  if n ≠ 0 ∧ n.isValidChar then Char.ofNat n else replacement

/-- NUL characters are replaced. -/
def withoutNull (t : Text) : Text := t.map fun c => if c = '\x00' then replacement else c

end TerseMarkup.Text
