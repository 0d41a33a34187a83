import TerseMarkup.Cli.Batch

/-! What the command line prints. -/
namespace TerseMarkup.Cli

def programName : String := "HTMLUglify"

def programVersion : String := "0.1.0"

/-- Digits in groups of three from the right. -/
def groupDigits : Text → Text
  | [] => []
  | c :: r => if r.length % 3 = 0 ∧ r ≠ [] then c :: ',' :: groupDigits r else c :: groupDigits r

def writeCount (n : Nat) : Text := groupDigits (Nat.toDigits 10 n)

/-- Text in colours of a terminal. -/
def coloured (code text : String) : String := "\x1b[" ++ code ++ "m" ++ text

def helpLines : List String :=
  ["",
    coloured "38;5;199" programName ++ coloured "0;38;5;69" " v" ++ programVersion ++ coloured "0" "",
    "",
    "Shorten the class, id, and for attributes of HTML",
    "documents (and their embedded styles) in place.",
    "",
    "USAGE:",
    "    htmluglify [FLAGS] [OPTIONS] <PATH(S)>...",
    "",
    "FLAGS:",
    "    -h, --help        Print help information and exit.",
    "    -p, --progress    Show progress bar while working.",
    "    -V, --version     Print version information and exit.",
    "",
    "OPTIONS:",
    "    -l, --list <FILE>       Read (absolute) file and/or directory paths from",
    "                            this text file, or STDIN if '-', one entry per",
    "                            line, instead of or in addition to the trailing",
    "                            <PATH(S)>.",
    "    -s, --salt <SALT>       Salt used to shuffle the short-code alphabet.",
    "                            [default: use the force harry]",
    "    -w, --whitelist <LIST>  Comma-separated list of IDs (#foo) and/or",
    "                            classes (.bar) to leave alone. This option may be",
    "                            used more than once.",
    "",
    "ARGS:",
    "    <PATH(S)>...    Any number of files and directories to crawl and",
    "                    uglify.",
    ""]

/-- Why no document is shortened. -/
inductive Stop
  | help
  | version
  | unreadableList
  | noDocuments
deriving DecidableEq, Repr

namespace Stop

def message : Stop → String
  | help => "\n".intercalate helpLines
  | version => programName ++ " v" ++ programVersion
  | unreadableList => "Unable to read the file."
  | noDocuments => "No documents were found."

/-- Whether the message is what was asked for. -/
def isAnswer : Stop → Bool
  | help | version => true
  | unreadableList | noDocuments => false

end Stop

/-- What the program prints, and the code it exits with. -/
structure Reply where
  exit : UInt32 := 0
  output : Text := []
  errors : Text := []
deriving DecidableEq, Repr

namespace Reply

def ofStop (s : Stop) : Reply :=
  if s.isAnswer then { output := (s.message ++ "\n").toList }
  else
    { exit := 1,
      errors := (coloured "1;91" "Error:" ++ coloured "0" " " ++ s.message ++ "\n").toList }

/-- The summary of a batch of documents. -/
def summary (documents : Nat) (totals : Totals) : Text :=
  writeCount documents ++ (if documents = 1 then " document, " else " documents, ").toList ++
    writeCount totals.names ++ " identifiers shortened, ".toList ++ writeCount totals.saved ++
    " bytes saved.".toList

def ofBatch (documents : Nat) (totals : Totals) : Reply :=
  { output :=
      (coloured "1;92" "Crunched:" ++ coloured "0" " ").toList ++ summary documents totals ++
        ['\n'] }

end Reply
end TerseMarkup.Cli
