/-
The command line. The files below the working directory, and those that the request names elsewhere, are read into a disk;
the request runs on that disk, and the files that it changed are written back.
-/
import TerseStyle.Batch.CommandLine

namespace TerseStyle.Main

/-- the path of a location -/
def pathOf (location : Files.Location) : String := "/" ++ "/".intercalate (location.map String.ofList)

/-- the location of a path without dots -/
def locationOf (path : String) : Files.Location := (Files.cutAtSlashes path.toList).filter fun piece => !piece.isEmpty

/-- reads a file into a disk. One that is no text, or cannot be read, is undecodable, and one that cannot be opened for
writing is locked. -/
def readFile (disk : Files.Disk) (location : Files.Location) : IO Files.Disk := do
  let bytes ← (IO.FS.readBinFile (pathOf location)).toBaseIO
  let content := match bytes.toOption.bind String.fromUTF8? with
    | some s => .text s.toList
    | none => .undecodable
  let handle ← (IO.FS.Handle.mk (pathOf location) .readWrite).toBaseIO
  let locked := if handle.toOption.isSome then disk.locked else location :: disk.locked
  return { disk with tree := disk.tree.add location (.file content), locked }

/-- reads what is at a location into a disk, with everything below a directory -/
partial def readAt (disk : Files.Disk) (location : Files.Location) : IO Files.Disk := do
  match ← (IO.FS.realPath (pathOf location)).toBaseIO with
  | .error _ => return disk
  | .ok path =>
    if ← path.isDir then
      let mut disk := { disk with tree := disk.tree.add location .directory }
      let entries ← path.readDir.toBaseIO
      for e in entries.toOption.getD #[] do
        disk ← readAt disk (location ++ [e.fileName.toList])
      return disk
    else readFile disk location

/-- the paths on the way to a path, up to the first component with a wildcard -/
def waysTo (path : Text) : List Text :=
  let pieces := (Files.cutAtSlashes path).takeWhile fun piece => !piece.any (['*', '?', '['].contains ·)
  (List.range pieces.length).map fun n => ['/'].intercalate (pieces.take (n + 1))

/-- reads what a path leads to, if it may lead out of the working directory, and the directories on the way -/
def readPath (disk : Files.Disk) (path : Text) : IO Files.Disk := do
  unless (Files.components path).any fun c => c = .root || c = .parent do return disk
  let mut disk := disk
  let mut last := none
  for way in waysTo path do
    if let .ok place ← (IO.FS.realPath (String.ofList (if way.isEmpty then ['/'] else way))).toBaseIO then
      last := some (locationOf place.toString)
      if ← place.isDir then
        disk := { disk with tree := disk.tree.add (locationOf place.toString) .directory }
  match last with
  | none => return disk
  | some location => readAt disk location

/-- the disk that a request runs on -/
def readDisk (r : Batch.Request) : IO Files.Disk := do
  let directory := locationOf (← IO.FS.realPath (← IO.currentDir)).toString
  let disk ← readAt { tree := [], directory } directory
  (r.config.toList ++ r.patterns).foldlM readPath disk

/-- writes the files that a run changed and says what happened -/
def conclude (before : Files.Tree) (result : Except Batch.Failure Batch.Summary) (world : Batch.World) :
    IO UInt32 := do
  for (location, text) in world.tree.changes before do
    IO.FS.writeFile (pathOf location) (String.ofList text)
  for event in world.events do
    IO.eprintln (String.ofList event.line)
  match result with
  | .ok _ => return 0
  | .error failure =>
    IO.eprintln ("Error: " ++ String.ofList failure.context)
    unless failure.cause.isEmpty do
      IO.eprintln ("\nCaused by:\n    " ++ String.ofList failure.cause)
    return 1

/-- reads the command line and runs it -/
def run (arguments : List String) : IO UInt32 := do
  match Batch.CommandLine.parse (arguments.map String.toList) with
  | .error refusal =>
    if refusal.isQuestion then
      IO.println (String.ofList refusal.message)
      return 0
    else
      IO.eprintln ("error: " ++ String.ofList refusal.message)
      return 2
  | .ok request =>
    let disk ← readDisk request
    let (result, world) := ((Batch.run request).run).run { toDisk := disk }
    conclude disk.tree result world

end TerseStyle.Main

def main (arguments : List String) : IO UInt32 := TerseStyle.Main.run arguments
