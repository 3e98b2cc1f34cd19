/-
Files, and what paths lead to. A tree holds what is below the root, each thing at a location: the list of names on the way
down. A path starts at the root, or else at the working directory; two dots lead up, and from the root to the root.
-/
import TerseStyle.Files.Path

namespace TerseStyle.Files

/-- the names on the way from the root -/
abbrev Location := List Text

/-- what a file holds -/
inductive Content where
  | text (t : Text)
  /-- bytes that are no text -/
  | undecodable
  deriving DecidableEq, Repr

/-- something at a location -/
inductive Entry where
  | directory
  | file (content : Content)
  deriving DecidableEq, Repr

/-- why a path cannot be read or written -/
inductive Fault where
  | notFound
  | notDirectory
  | isDirectory
  | undecodable
  /-- the file is protected -/
  | denied
  /-- the path has a character that no name has -/
  | unnameable
  deriving DecidableEq, Repr

/-- the wording of a fault -/
def Fault.message : Fault → Text
  | notFound => "No such file or directory (os error 2)".toList
  | notDirectory => "Not a directory (os error 20)".toList
  | isDirectory => "Is a directory (os error 21)".toList
  | undecodable => "stream did not contain valid UTF-8".toList
  | denied => "Permission denied (os error 13)".toList
  | unnameable => "file name contained an unexpected NUL byte".toList

/-- files and directories by their locations; the root itself is not among them -/
abbrev Tree := List (Location × Entry)

namespace Tree

/-- adds a directory, unless something is there already -/
def addDirectory (tree : Tree) (location : Location) : Tree :=
  if location.isEmpty || (tree.lookup location).isSome then tree else tree ++ [(location, .directory)]

/-- adds the directories above a location -/
def addParents (tree : Tree) (location : Location) : Tree :=
  (List.range location.length).foldl (fun tree n => tree.addDirectory (location.take n)) tree

/-- adds a file or a directory with the directories above it -/
def add (tree : Tree) (location : Location) (entry : Entry) : Tree :=
  let tree := tree.addParents location
  match entry with
  | .directory => tree.addDirectory location
  | .file _ => tree.filter (fun e => e.1 ≠ location) ++ [(location, entry)]

/-- what is at a location -/
def get? (tree : Tree) (location : Location) : Option Entry :=
  if location.isEmpty then some .directory else tree.lookup location

/-- the names in a directory -/
def names (tree : Tree) (location : Location) : List Text :=
  tree.filterMap fun e => if e.1.dropLast = location then e.1.getLast? else none

/-- the content of a file changed at a location -/
def write (tree : Tree) (location : Location) (t : Text) : Tree :=
  tree.map fun e => if e.1 = location then (e.1, .file (.text t)) else e

/-- the files whose content differs from another tree, with their new text -/
def changes (tree before : Tree) : List (Location × Text) :=
  tree.filterMap fun e =>
    match e.2 with
    | .file (.text t) => if before.lookup e.1 = some e.2 then none else some (e.1, t)
    | _ => none

/-! ## Steps -/

/-- goes one step from a location -/
def step (tree : Tree) (here : Location) (piece : Text) : Except Fault Location :=
  match tree.get? here with
  | none => .error .notFound
  | some (.file _) => .error .notDirectory
  | some .directory =>
    if piece.isEmpty || piece = ['.'] then .ok here
    else if piece = ['.', '.'] then .ok here.dropLast
    else if (tree.get? (here ++ [piece])).isSome then .ok (here ++ [piece])
    else .error .notFound

/-- goes several steps from a location -/
def walk (tree : Tree) (here : Location) : List Text → Except Fault Location
  | [] => .ok here
  | piece :: rest => do walk tree (← tree.step here piece) rest

end Tree

/-- a tree of files as a program finds it -/
structure Disk where
  tree : Tree
  /-- the working directory -/
  directory : Location := []
  /-- the files that cannot be written -/
  locked : List Location := []
  deriving DecidableEq, Repr

namespace Disk

/-- where the steps of a path begin -/
def start (disk : Disk) (path : Text) : Location := if path.head? = some '/' then [] else disk.directory

/-- where a path leads to -/
def locate (disk : Disk) (path : Text) : Except Fault Location :=
  if path.isEmpty then .error .notFound
  else if '\x00' ∈ path then .error .unnameable
  else disk.tree.walk (disk.start path) (cutAtSlashes path)

/-- what is at the end of a path -/
def at? (disk : Disk) (path : Text) : Option Entry :=
  match disk.locate path with
  | .ok location => disk.tree.get? location
  | .error _ => none

/-- whether a path leads to a directory -/
def isDirectory (disk : Disk) (path : Text) : Bool := disk.at? path = some .directory

/-- whether a path leads to a file -/
def isFile (disk : Disk) (path : Text) : Bool :=
  match disk.at? path with
  | some (.file _) => true
  | _ => false

/-- reads the text of a file -/
def read (disk : Disk) (path : Text) : Except Fault Text := do
  let location ← disk.locate path
  match disk.tree.get? location with
  | some (.file (.text t)) => return t
  | some (.file .undecodable) => throw .undecodable
  | some .directory => throw .isDirectory
  | none => throw .notFound

/-- changes the text of a file that is there -/
def write (disk : Disk) (path : Text) (t : Text) : Except Fault Disk := do
  let location ← disk.locate path
  match disk.tree.get? location with
  | some (.file _) =>
    if disk.locked.contains location then throw .denied
    return { disk with tree := disk.tree.write location t }
  | some .directory => throw .isDirectory
  | none => throw .notFound

end Disk

/-- what finds the paths that match a pattern, or says in words why a text is no pattern. In place of a path that cannot
be read stands the wording of why. -/
abbrev Matcher := Disk → Text → Except Text (List (Except Text Text))

/-! ## Joining -/

/-- a path with a name behind it; behind the working directory the name stands alone -/
def joinPath (path name : Text) : Text :=
  if components path = [.current] then name
  else if path.isEmpty || path.getLast? = some '/' then path ++ name
  else path ++ '/' :: name

end TerseStyle.Files
