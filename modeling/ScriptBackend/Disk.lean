import ScriptBackend.Path

/-! # Files and directories

A tree of named files and directories, and a working directory in it.  Paths are followed
one piece at a time, as they are written: each step needs a directory to start from, so
`x/..` exists only if `x` is a directory, and `x/` is no file.
-/
namespace ScriptBackend

/-- Why a file cannot be read. -/
inductive ReadFailure where
  | notFound
  | denied
  | notDirectory
  | isDirectory
  | nameTooLong
  | nulInPath
  | notText
  deriving DecidableEq, Repr

/-- The message of a failure to read. -/
def ReadFailure.message : ReadFailure → String
  | .notFound => "No such file or directory (os error 2)"
  | .denied => "Permission denied (os error 13)"
  | .notDirectory => "Not a directory (os error 20)"
  | .isDirectory => "Is a directory (os error 21)"
  | .nameTooLong => "File name too long (os error 36)"
  | .nulInPath => "file name contained an unexpected NUL byte"
  | .notText => "stream did not contain valid UTF-8"

/-- A file or a directory.  A file has its bytes, or a reason why it exists but cannot be read. -/
inductive Node where
  | file (content : Except ReadFailure ByteArray)
  | directory (entries : List (String × Node))

/-- The files that exist, and the directory that relative paths start from. -/
structure Disk where
  root : Node := .directory []
  workingDirectory : Path := ⟨"/"⟩

/-- The entries of a node; a file has none. -/
def Node.entries : Node → List (String × Node)
  | .file _ => []
  | .directory entries => entries

/-- The tree with the node at the end of a way changed; directories on the way are made as
needed.  A file on the way leads nowhere, and then nothing changes. -/
def Node.update (change : Option Node → Node) : List String → Option Node → Node
  | [], here => change here
  | _ :: _, some (.file content) => .file content
  | name :: way, here =>
    let entries := (here.map Node.entries).getD []
    let inner := update change way (entries.lookup name)
    .directory (entries.filter (fun entry => entry.1 ≠ name) ++ [(name, inner)])

namespace Disk

/-- The longest name a file can have, in bytes. -/
def nameLimit : Nat := 255

/-- The longest path that can be followed, in bytes. -/
def pathLimit : Nat := 4095

/-- One step from a place, given as the node and the directories around it, inside out. -/
def enter (place : Node × List Node) (piece : List Char) : Except ReadFailure (Node × List Node) :=
  match place with
  | (.file _, _) => .error .notDirectory
  | (.directory entries, around) =>
    if piece = [] ∨ piece = ['.'] then .ok (.directory entries, around)
    else if piece = ['.', '.'] then
      match around with
      | [] => .ok (.directory entries, [])
      | outer :: around => .ok (outer, around)
    else
      let name := String.ofList piece
      if nameLimit < name.utf8ByteSize then .error .nameTooLong
      else
        match entries.lookup name with
        | some node => .ok (node, .directory entries :: around)
        | none => .error .notFound

/-- The place a path names, followed from the given one. -/
def follow (start : Node × List Node) (p : Path) : Except ReadFailure (Node × List Node) :=
  (Path.pieces p.text.toList).foldlM enter start

/-- The file or directory a path names. -/
def resolve (disk : Disk) (p : Path) : Except ReadFailure Node := do
  if p.text.toList.contains '\x00' then throw .nulInPath
  if p.text.isEmpty then throw .notFound
  if pathLimit < p.text.utf8ByteSize then throw .nameTooLong
  let start ← if p.isAbsolute then pure (disk.root, [])
    else follow (disk.root, []) disk.workingDirectory
  let place ← follow start p
  return place.1

/-- Whether a path names a file. -/
def isFile (disk : Disk) (p : Path) : Bool :=
  match disk.resolve p with
  | .ok (.file _) => true
  | _ => false

/-- The text of the file a path names. -/
def readText (disk : Disk) (p : Path) : Except ReadFailure String :=
  match disk.resolve p with
  | .ok (.file (.ok content)) =>
    match String.fromUTF8? content with
    | some text => .ok text
    | none => .error .notText
  | .ok (.file (.error failure)) => .error failure
  | .ok (.directory _) => .error .isDirectory
  | .error failure => .error failure

/-- The names on the way from the root after one more component. -/
def advance (way : List String) : Path.Component → List String
  | .root => []
  | .here => way
  | .up => way.dropLast
  | .name n => way ++ [n]

/-- The ways to the places that components lead through, one after another. -/
def stations (way : List String) : List Path.Component → List (List String)
  | [] => []
  | c :: cs => advance way c :: stations (advance way c) cs

/-- The ways to the places that a path leads through, the last of them to what it names. -/
def route (disk : Disk) (p : Path) : List (List String) :=
  stations [] ((Path.absolute? disk.workingDirectory p).getD p).components

/-- The disk with a directory at the end of a way, unless something is there already. -/
def makeDirectory (disk : Disk) (way : List String) : Disk :=
  { disk with root := Node.update (fun here => here.getD (.directory [])) way (some disk.root) }

/-- The disk with all directories that a path leads through.  What stands before `..` is made
like any other. -/
def addDirectory (disk : Disk) (p : Path) : Disk :=
  (disk.route p).foldl makeDirectory disk

/-- The disk with a file at the end of a way, unless a directory is there. -/
def makeFile (disk : Disk) (content : ByteArray) (way : List String) : Disk :=
  let change : Option Node → Node
    | some (.directory entries) => .directory entries
    | _ => .file (.ok content)
  { disk with root := Node.update change way (some disk.root) }

/-- The disk with a file at the given path, and all directories that the path leads through
before. -/
def addFile (disk : Disk) (p : Path) (content : ByteArray) : Disk :=
  match (disk.route p).reverse with
  | [] => disk
  | way :: before => (before.reverse.foldl makeDirectory disk).makeFile content way

/-- The disk with nothing but an empty working directory. -/
def empty (workingDirectory : Path) : Disk :=
  ({ workingDirectory } : Disk).addDirectory workingDirectory

end Disk

end ScriptBackend
