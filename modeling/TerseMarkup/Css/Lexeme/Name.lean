import TerseMarkup.Text.Blank
import TerseMarkup.Text.Numeral

/-! Names, escapes and strings as a stylesheet spells them.

Every reader here looks at the start of a text and returns what it found with the number of
characters it took. A reader that has to step over an escape carries the number of characters still
to be passed over, so that all of them recurse on the text itself. -/
namespace TerseMarkup.Css
open Text (replacement isHexDigit)

def isNewline (c : Char) : Bool := c == '\n' || c == '\r' || c == '\x0c'

def startsWithNewline (s : Text) : Bool := s.head?.any isNewline

/-- Letters, the underscore, NUL and everything beyond ASCII. -/
def isNameStart (c : Char) : Bool :=
  c.isAlpha || c == '_' || c == '\x00' || 0x80 ≤ c.toNat

def isNameChar (c : Char) : Bool := isNameStart c || c.isDigit || c == '-'

/-- How many characters at the start form one line break, taking a carriage return and a line feed
together. -/
def newlineLength : Text → Nat
  | '\r' :: '\n' :: _ => 2
  | c :: _ => if isNewline c then 1 else 0
  | [] => 0

/-- One space, tab or line break, as it may end an escape. -/
def escapeEndLength (s : Text) : Nat :=
  if s.head?.any (fun c => c == ' ' || c == '\t') then 1 else newlineLength s

/-- The character meant by what follows a backslash. -/
def escape (s : Text) : Char × Nat :=
  match s with
  | [] => (replacement, 0)
  | c :: _ =>
    if isHexDigit c then
      let digits := (s.take 6).takeWhile isHexDigit
      let n := digits.length
      (Text.charOfNumber (Text.number 16 digits), n + escapeEndLength (s.drop n))
    else (if c = '\x00' then replacement else c, 1)

/-- Whether an identifier starts here. -/
def startsIdent : Text → Bool
  | '-' :: c :: _ => isNameStart c || c == '-' || c == '\\'
  | '\\' :: r => !startsWithNewline r
  | c :: _ => isNameStart c
  | [] => false

/-- The longest name at the start, escapes undone; the first `skip` characters belong to an escape
that has been read. -/
def nameFrom : (skip : Nat) → Text → Text × Nat
  | _, [] => ([], 0)
  | skip + 1, _ :: r =>
    let (name, n) := nameFrom skip r
    (name, n + 1)
  | 0, c :: r =>
    if c = '\\' then
      if startsWithNewline r then ([], 0)
      else
        let (char, k) := escape r
        let (name, n) := nameFrom k r
        (char :: name, n + 1)
    else if isNameChar c then
      let (name, n) := nameFrom 0 r
      ((if c = '\x00' then replacement else c) :: name, n + 1)
    else ([], 0)

def name (s : Text) : Text × Nat := nameFrom 0 s

/-- Where an identifier starts, a name takes a character. -/
theorem nameFrom_pos {c : Char} (r : Text) (h : startsIdent (c :: r) = true) :
    1 ≤ (nameFrom 0 (c :: r)).2 := by
  unfold nameFrom
  by_cases hc : c = '\\'
  · subst hc
    have hn : startsWithNewline r = false := by simpa [startsIdent] using h
    simp [hn]
  · have hn : isNameChar c = true := by
      unfold startsIdent at h
      split at h <;> simp_all [isNameChar]
    simp [hc, hn]

/-- The value of a string up to its closing quote or the end of the text; `none` if a line break
comes first, which is left in place. -/
def stringFrom (quote : Char) : (skip : Nat) → Text → Option Text × Nat
  | _, [] => (some [], 0)
  | skip + 1, _ :: r =>
    let (value, n) := stringFrom quote skip r
    (value, n + 1)
  | 0, c :: r =>
    if c = quote then (some [], 1)
    else if isNewline c then (none, 0)
    else if c = '\\' then
      if r.isEmpty || startsWithNewline r then
        let (value, n) := stringFrom quote (newlineLength r) r
        (value, n + 1)
      else
        let (char, k) := escape r
        let (value, n) := stringFrom quote k r
        (value.map (char :: ·), n + 1)
    else
      let (value, n) := stringFrom quote 0 r
      (value.map ((if c = '\x00' then replacement else c) :: ·), n + 1)

end TerseMarkup.Css
