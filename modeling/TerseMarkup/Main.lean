import TerseMarkup.Cli.Command

/-! The program: the command line over the files of the system. -/
open TerseMarkup TerseMarkup.Cli

/-- All files in a folder, however deep. -/
partial def filesIn (folder : String) : IO (List Text) := do
  let place ← IO.FS.realPath folder
  let mut found := []
  for entry in ← place.readDir do
    let path ← IO.FS.realPath entry.path
    if ← path.isDir then found := found ++ (← filesIn path.toString)
    else found := found ++ [path.toString.toList]
  return found

/-- The files of the system as a storage. What cannot be done counts as nothing being there. -/
def systemStorage : Storage IO where
  files path := do
    try
      let place ← IO.FS.realPath (String.ofList path)
      if ← place.isDir then filesIn place.toString
      else if ← place.pathExists then return [place.toString.toList]
      else return []
    catch _ => return []
  read? path := do
    try return some (← IO.FS.readBinFile (String.ofList path))
    catch _ => return none
  save path contents := do
    try
      IO.FS.writeBinFile (String.ofList path) contents
      return true
    catch _ => return false

def main (arguments : List String) : IO UInt32 := do
  let reply ← run systemStorage (arguments.map String.toList)
  (← IO.getStdout).putStr (String.ofList reply.output)
  (← IO.getStderr).putStr (String.ofList reply.errors)
  return reply.exit
