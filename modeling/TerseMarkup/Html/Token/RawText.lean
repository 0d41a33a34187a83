import TerseMarkup.Html.Token
import TerseMarkup.Text.Blank

/-! Text that is not markup.

Inside a style, a script and a few other elements nothing is markup but the element's own end tag.
A script may hide even that: behind `<!--`, a `<script` opens a stretch in which `</script` does not
end the script. -/
namespace TerseMarkup.Html.RawText

/-- Whether `name` stands here as the whole name of a tag; `name` is in small letters. -/
def startsName (name : Text) (s : Text) : Bool :=
  match Text.afterIgnoringCase? name s with
  | some (c :: _) => Text.isSpace c || c == '/' || c == '>'
  | _ => false

/-- Whether the end tag of `name` starts here. -/
def startsEnd (name : Text) : Text → Bool
  | '<' :: '/' :: r => startsName name r
  | _ => false

/-- The length of the text before the end tag of `name`. -/
def length (name : Text) : Text → Nat
  | [] => 0
  | c :: r => if startsEnd name (c :: r) then 0 else length name r + 1

/-- Where in a script its end tag counts. `dashes` counts hyphens directly before, up to two. -/
inductive ScriptPart
  | plain
  | hidden (dashes : Nat)
  | nested (dashes : Nat)
deriving DecidableEq, Repr

namespace ScriptPart

/-- The part behind one character that starts no mark of its own. -/
def behind (c : Char) : ScriptPart → ScriptPart
  | plain => plain
  | hidden dashes =>
    if c = '-' then hidden (min 2 (dashes + 1))
    else if c = '>' ∧ dashes = 2 then plain
    else hidden 0
  | nested dashes =>
    if c = '-' then nested (min 2 (dashes + 1))
    else if c = '>' ∧ dashes = 2 then plain
    else nested 0

end ScriptPart

def scriptName : Text := "script".toList

/-- The length of a script before its end tag; the first `skip` characters have been read. -/
def scriptLength : (skip : Nat) → ScriptPart → Text → Nat
  | _, _, [] => 0
  | skip + 1, part, _ :: r => scriptLength skip part r + 1
  | 0, .plain, c :: r =>
    if startsEnd scriptName (c :: r) then 0
    else if "<!--".toList.isPrefixOf (c :: r) then scriptLength 3 (.hidden 2) r + 1
    else scriptLength 0 .plain r + 1
  | 0, .hidden dashes, c :: r =>
    if startsEnd scriptName (c :: r) then 0
    else if c = '<' ∧ startsName scriptName r then
      scriptLength (scriptName.length + 1) (.nested 0) r + 1
    else scriptLength 0 (ScriptPart.hidden dashes |>.behind c) r + 1
  | 0, .nested dashes, c :: r =>
    if startsEnd scriptName (c :: r) then
      scriptLength (scriptName.length + 2) (.hidden 0) r + 1
    else scriptLength 0 (ScriptPart.nested dashes |>.behind c) r + 1

end TerseMarkup.Html.RawText
