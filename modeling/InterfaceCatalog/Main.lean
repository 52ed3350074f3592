import InterfaceCatalog.CommandLine.Run

namespace InterfaceCatalog

partial def readNode? (place : String) : IO (Option Node) := do
  try
    let real ← IO.FS.realPath place
    if ← real.isDir then
      let mut entries := []
      for entry in ← real.readDir do
        if let some node ← readNode? entry.path.toString then
          entries := (encodeUtf8 entry.fileName, node) :: entries
      return some (.directory entries)
    else return some (.file (← IO.FS.readBinFile real).toList)
  catch _ => return none

def readDisk (paths : List Path) : IO Disk := do
  let current := Path.ofString (← IO.currentDir).toString
  let start : Disk := { root := .empty, current := Disk.names current }
  let mut disk := start.makeDirectory current
  for path in paths do
    if let some node ← readNode? path.text then
      let place := if path.isAbsolute then path else current.join path.bytes
      disk := { disk with root := disk.root.place node (Disk.names place) }
  return disk

def runProgram (arguments : Arguments) : IO UInt32 := do
  let environment := (← IO.getEnv systemDirectoriesVariable).map encodeUtf8
  let settingsDisk ← readDisk arguments.settingsFile.toList
  let systemPaths := match arguments.settings settingsDisk environment with
    | .ok settings => if arguments.scansSystem then settings.systemDirectories else []
    | .error _ => []
  let disk ← readDisk (arguments.settingsFile.toList ++ systemPaths ++ arguments.directories)
  let outcome := arguments.run disk environment
  IO.print outcome.output
  IO.eprint outcome.errors
  return if outcome.succeeded then 0 else 1

end InterfaceCatalog

def main (texts : List String) : IO UInt32 := do
  match InterfaceCatalog.Arguments.read texts with
  | .ok arguments => InterfaceCatalog.runProgram arguments
  | .error .help =>
    IO.println InterfaceCatalog.Arguments.usage
    return 0
  | .error fault =>
    IO.eprintln fault.message
    return 2
