import TerseMarkup.Text

/-! The arguments of a command line.

Arguments are read from left to right. A word stands alone; a setting takes a value, which may be
attached to it or be the next argument, whatever that looks like. Anything else may be the path of a
document. -/
namespace TerseMarkup.Cli

/-- Words that stand alone. -/
inductive Flag
  | help
  | progress
  | version
deriving DecidableEq, Repr

/-- Words that take a value. -/
inductive Setting
  | list
  | salt
  | whitelist
deriving DecidableEq, Repr

inductive Keyword
  | flag (f : Flag)
  | setting (s : Setting)
deriving DecidableEq, Repr

inductive Argument
  | flag (f : Flag)
  | setting (s : Setting) (value : Text)
  | path (p : Text)
deriving DecidableEq, Repr

namespace Keyword

/-- The words by their spellings. -/
def spellings : List (Text × Keyword) :=
  [("-h".toList, flag .help), ("--help".toList, flag .help),
    ("-p".toList, flag .progress), ("--progress".toList, flag .progress),
    ("-V".toList, flag .version), ("--version".toList, flag .version),
    ("-l".toList, setting .list), ("--list".toList, setting .list),
    ("-s".toList, setting .salt), ("--salt".toList, setting .salt),
    ("-w".toList, setting .whitelist), ("--whitelist".toList, setting .whitelist)]

def ofSpelling? (word : Text) : Option Keyword := spellings.lookup word

/-- A short word takes what is attached to it, a long one what is behind an equals sign. -/
def split? : Text → Option (Text × Text)
  | '-' :: '-' :: c :: r =>
    if c.isAlphanum ∧ r.contains '=' then
      let (name, rest) := r.span (· ≠ '=')
      some ('-' :: '-' :: c :: name, rest)
    else none
  | '-' :: c :: d :: r => if c.isAlphanum then some (['-', c], d :: r) else none
  | _ => none

/-- The word at the start of an argument, and the value attached to it. -/
def read? (argument : Text) : Option (Keyword × Option Text) :=
  match ofSpelling? argument with
  | some k => some (k, none)
  | none => do
    let (word, rest) ← split? argument
    let k ← ofSpelling? word
    some (k, some (if rest.head? = some '=' then rest.tail else rest))

end Keyword

namespace Argument

/-- Reads the arguments up to `--`. Empty ones are passed over, and so is a setting at the end that
has no value. -/
def readAll : List Text → List Argument
  | [] => []
  | a :: rest =>
    if a.isEmpty then readAll rest
    else if a = ['-', '-'] then []
    else
      match Keyword.read? a with
      | some (.flag f, _) => flag f :: readAll rest
      | some (.setting s, some value) => setting s value :: readAll rest
      | some (.setting s, none) =>
        match rest with
        | value :: rest => setting s value :: readAll rest
        | [] => []
      | none => path a :: readAll rest

end Argument
end TerseMarkup.Cli
