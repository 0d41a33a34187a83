import TerseMarkup.Text

/-! Fragments.

A text is a fragment if no tag or doctype in it belongs to a whole document. A fragment is read as
the contents of a template, where anything may stand that may stand anywhere, parts of tables
included. -/
namespace TerseMarkup.Html.Fragment

/-- Start tags that belong to a whole document. -/
def starts : List Text := ["<html".toList, "<head".toList, "<body".toList, "<!doctype".toList]

/-- End tags that belong to a whole document. -/
def ends : List Text := ["</body>".toList, "</html>".toList]

/-- Whether a tag's name that has been read may go on, so that it is another name. -/
def continuesName : Text → Bool
  | c :: _ => c == '-' || c == '_' || c == ':' || c == '.' || c.isAlphanum
  | [] => false

/-- Whether markup of a whole document starts here. -/
def startsMarker (s : Text) : Bool :=
  ends.any (fun marker => (Text.afterIgnoringCase? marker s).isSome) ||
    starts.any fun marker => (Text.afterIgnoringCase? marker s).any (!continuesName ·)

/-- Whether no markup of a whole document starts anywhere. -/
def isFragment : Text → Bool
  | [] => true
  | c :: r => !startsMarker (c :: r) && isFragment r

/-- The fragment inside the template that it is read in. -/
def wrap (s : Text) : Text := "<template>".toList ++ s ++ "</template>".toList

end TerseMarkup.Html.Fragment
