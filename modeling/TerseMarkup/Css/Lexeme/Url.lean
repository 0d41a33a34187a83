import TerseMarkup.Css.Lexeme.Name

/-! Unquoted URLs.

What follows `url(` is one token up to the closing parenthesis, unless a quote comes first: then
`url(` opens a parenthesis like any function. A URL with a character that may not stand in one is
bad, and still one token. Only lengths are read: no rule asks for the address. -/
namespace TerseMarkup.Css

/-- Characters that make an unquoted URL bad. -/
def spoilsUrl (c : Char) : Bool :=
  (0x01 ≤ c.toNat && c.toNat ≤ 0x08) || c == '\x0b' || (0x0E ≤ c.toNat && c.toNat ≤ 0x1F) ||
    c == '\x7f' || c == '"' || c == '\'' || c == '('

/-- The length of the rest of a bad URL, its closing parenthesis included; a parenthesis behind a
backslash does not close it. -/
def badUrlLength : Text → Nat
  | [] => 0
  | ')' :: _ => 1
  | '\\' :: ')' :: r => badUrlLength r + 2
  | '\\' :: '\\' :: r => badUrlLength r + 2
  | _ :: r => badUrlLength r + 1

/-- After a URL's trailing space only the parenthesis may follow. The flag tells a good URL. -/
def urlEnd : Text → Bool × Nat
  | [] => (true, 0)
  | ')' :: _ => (true, 1)
  | c :: r =>
    if Text.isSpace c then
      let (good, n) := urlEnd r
      (good, n + 1)
    else (false, badUrlLength r + 1)

/-- The URL from its first character on. -/
def urlBody : (skip : Nat) → Text → Bool × Nat
  | _, [] => (true, 0)
  | skip + 1, _ :: r =>
    let (good, n) := urlBody skip r
    (good, n + 1)
  | 0, c :: r =>
    if Text.isSpace c then urlEnd (c :: r)
    else if c = ')' then (true, 1)
    else if spoilsUrl c then (false, badUrlLength r + 1)
    else if c = '\\' then
      if startsWithNewline r then (false, badUrlLength r + 1)
      else
        let (good, n) := urlBody (escape r).2 r
        (good, n + 1)
    else
      let (good, n) := urlBody 0 r
      (good, n + 1)

/-- What follows `url(`: whether the URL is good and its length, or `none` before a quote. -/
def url? (s : Text) : Option (Bool × Nat) :=
  let space := (s.takeWhile Text.isSpace).length
  match s.drop space with
  | '"' :: _ => none
  | '\'' :: _ => none
  | rest =>
    let (good, n) := urlBody 0 rest
    some (good, space + n)

end TerseMarkup.Css
