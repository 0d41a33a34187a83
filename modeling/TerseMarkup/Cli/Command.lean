import TerseMarkup.Cli.Arguments
import TerseMarkup.Cli.Report

/-! The command.

The arguments are gone through in order, and the first one that ends the matter does: a question for
help or for the version, or a list that cannot be read. Documents are then shortened, each once however
often it is named. -/
namespace TerseMarkup.Cli

/-- What the arguments ask for. -/
structure Order where
  salt : Text := defaultSalt
  whitelist : List Text := []
  files : List Text := []

namespace Order

/-- The paths that a list names, one on a line. -/
def pathsOf (list : Text) : List Text :=
  ((list.splitOnP (· == '\n')).map Text.trim).filter (!·.isEmpty)

def shortener (o : Order) : Shortener :=
  .ofSettings { salt := o.salt, whitelist := .ofList o.whitelist }

/-- The documents, each once. -/
def documents (o : Order) : List Text := (o.files.filter isDocument).eraseDups

end Order

variable {m : Type → Type} [Monad m]

/-- Adds the files that some paths lead to. -/
def addPaths (storage : Storage m) (o : Order) (paths : List Text) : m Order := do
  return { o with files := o.files ++ (← paths.mapM storage.files).flatten }

/-- Adds what the arguments ask for, unless one of them ends the matter. -/
def addArguments (storage : Storage m) (o : Order) : List Argument → m (Except Stop Order)
  | [] => return .ok o
  | .flag .help :: _ => return .error .help
  | .flag .version :: _ => return .error .version
  | .flag .progress :: rest => addArguments storage o rest
  | .setting .salt value :: rest => addArguments storage { o with salt := value } rest
  | .setting .whitelist value :: rest =>
    addArguments storage { o with whitelist := o.whitelist ++ value.splitOnP (· == ',') } rest
  | .setting .list name :: rest => do
    match (← storage.read? name).bind textOf? with
    | none => return .error .unreadableList
    | some list => addArguments storage (← addPaths storage o (Order.pathsOf list)) rest
  | .path p :: rest => do addArguments storage (← addPaths storage o [p]) rest

/-- Runs the command with these arguments. -/
def run (storage : Storage m) (arguments : List Text) : m Reply := do
  match ← addArguments storage {} (Argument.readAll arguments) with
  | .error stop => return .ofStop stop
  | .ok order =>
    let documents := order.documents
    if documents.isEmpty then return .ofStop .noDocuments
    else return .ofBatch documents.length (← shortenEach storage order.shortener documents)

end TerseMarkup.Cli
