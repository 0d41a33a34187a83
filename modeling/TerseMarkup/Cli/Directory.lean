import TerseMarkup.Text

/-! Files by their paths.

`Storage` is what the command line asks of the place where documents are kept. `Directory` keeps files
in memory, by the names of the folders they are in; a path is followed from its root, step by step,
and only leads on from a folder. -/
namespace TerseMarkup.Cli

/-- What can be done with files, in a monad that does it. -/
structure Storage (m : Type → Type) where
  /-- The file at a path, or all files in the folder there, however deep, each by the one path that
  is its own; nothing if the path leads nowhere. -/
  files : Text → m (List Text)
  /-- The contents of the file at a path. -/
  read? : Text → m (Option ByteArray)
  /-- Replaces the contents of a file; off if that fails. -/
  save : Text → ByteArray → m Bool

/-- Files with the steps that lead to them from the root. -/
abbrev Directory := List (List Text × ByteArray)

namespace Directory

/-- The steps of a path, with an empty one where two slashes meet or a slash ends it. -/
def steps (path : Text) : List Text := path.splitOnP (· == '/')

/-- The path that leads there by these steps. -/
def pathOf (steps : List Text) : Text := List.intercalate ['/'] steps

def isFile (d : Directory) (place : List Text) : Bool := d.any (·.1 == place)

/-- A place is a folder if a file is in it; the root always is one. -/
def isFolder (d : Directory) (place : List Text) : Bool :=
  place.isEmpty || d.any fun file => place.isPrefixOf file.1 && file.1.length > place.length

/-- Follows steps from a place. -/
def follow? (d : Directory) (place : List Text) : List Text → Option (List Text)
  | [] => if d.isFile place || d.isFolder place then some place else none
  | step :: rest =>
    if !d.isFolder place then none
    else if step.isEmpty || step == ['.'] then d.follow? place rest
    else if step == ['.', '.'] then
      if place.isEmpty then none else d.follow? place.dropLast rest
    else d.follow? (place ++ [step]) rest

/-- The place that a path leads to. Only paths from the root of the directory lead anywhere. -/
def place? (d : Directory) (path : Text) : Option (List Text) :=
  if path.isEmpty || path.head? == some '/' then none else d.follow? [] (steps path)

def filesAt (d : Directory) (path : Text) : List Text :=
  match d.place? path with
  | some place => (d.filter fun file => place.isPrefixOf file.1).map (pathOf ·.1)
  | none => []

def contents? (d : Directory) (path : Text) : Option ByteArray := do
  let place ← d.place? path
  d.lookup place

def save (d : Directory) (path : Text) (contents : ByteArray) : Directory :=
  d.map fun file => if pathOf file.1 == path then (file.1, contents) else file

/-- The directory as a storage. -/
def storage : Storage (StateM Directory) where
  files path := return (← get).filesAt path
  read? path := return (← get).contents? path
  save path contents := do
    modify (·.save path contents)
    return true

end Directory
end TerseMarkup.Cli
