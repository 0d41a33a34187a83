import TerseMarkup.Text

/-! Why a document cannot be shortened.

Renaming itself never fails, and malformed stylesheets pass through as they are. What is left is a
document that cannot be read into a tree or written back out of one. -/
namespace TerseMarkup

inductive DocumentError
  | parse
  | serialize
deriving DecidableEq, Repr

namespace DocumentError

def message : DocumentError → String
  | parse => "Unable to parse the document."
  | serialize => "Unable to serialize the document."

end DocumentError
end TerseMarkup
