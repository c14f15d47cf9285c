import Std.Data.HashMap
import Std.Data.HashSet
import ScriptBackend.Manifest
import ScriptBackend.Reference.Name
import ScriptBackend.Reference.Search

/-! # Sets of assemblies

The assemblies that were accepted, in the order in which they were.  Short names are unique
in a set, up to case; those that are taken are kept beside the assemblies.  Two indices lead
from a path and from a short name to an assembly; of several assemblies with one path, the
index has the last.
-/
namespace ScriptBackend

/-- An accepted assembly. -/
structure Assembly where
  path : Path
  manifest : Manifest
  deriving DecidableEq, Repr

/-- The accepted assemblies. -/
structure AssemblySet where
  assemblies : Array Assembly := #[]
  /-- The position of the assembly at the place a path names. -/
  byPath : Std.HashMap (List Path.Component) Nat := ∅
  /-- The position of the assembly with a folded short name. -/
  byName : Std.HashMap String Nat := ∅
  /-- The folded short names that are taken. -/
  names : Std.HashSet String := ∅

/-- The assemblies with what they depend on first, as far as cycles allow. -/
structure AssemblyOrder where
  paths : List Path
  /-- Some assemblies depend on each other. -/
  hasCycle : Bool
  deriving DecidableEq, Repr

namespace AssemblySet

/-- Whether the set has an assembly of the given short name. -/
def isReferenced (set : AssemblySet) (name : String) : Bool :=
  set.names.contains (foldName name)

/-- The set with one more assembly, if its short name is new. -/
def add? (set : AssemblySet) (path : Path) (name : String) (manifest : Manifest) :
    Option AssemblySet :=
  if set.isReferenced name then none
  else some
    { assemblies := set.assemblies.push ⟨path, manifest⟩
      byPath := set.byPath.insert path.components set.assemblies.size
      byName := set.byName.insert (foldName name) set.assemblies.size
      names := set.names.insert (foldName name) }

/-- The message about a short name that is not new. -/
def duplicateMessage (name : String) : String :=
  "duplicate reference '" ++ name ++ "'"

/-- The number of assemblies. -/
def size (set : AssemblySet) : Nat :=
  set.assemblies.size

/-- The manifest of the assembly at the place a path names. -/
def get? (set : AssemblySet) (path : Path) : Option Manifest := do
  let index ← set.byPath[path.components]?
  let assembly ← set.assemblies[index]?
  return assembly.manifest

/-- The manifest of the assembly with a short name. -/
def getByName? (set : AssemblySet) (name : String) : Option Manifest := do
  let index ← set.byName[foldName name]?
  let assembly ← set.assemblies[index]?
  return assembly.manifest

/-- The position of the last name in a list that equals `name`. -/
def lastPosition? (name : String) : List String → Option Nat
  | [] => none
  | first :: rest =>
    match lastPosition? name rest with
    | some i => some (i + 1)
    | none => if first = name then some 0 else none

/-- The full names of the assemblies. -/
def fullNames (set : AssemblySet) : List String :=
  set.assemblies.toList.map (·.manifest.fullName)

/-- The positions of the assemblies that the one at `index` refers to, in the order of its
references.  A full name leads to the last assembly that has it, and an unknown one
nowhere. -/
def dependencies (set : AssemblySet) (index : Nat) : List Nat :=
  match set.assemblies[index]? with
  | none => []
  | some assembly => assembly.manifest.references.filterMap (lastPosition? · set.fullNames)

/-- The assemblies in the order in which they can be loaded.  A cycle is searched for apart from
the walk that lists them. -/
def ordered (set : AssemblySet) : AssemblyOrder :=
  let walk := Walk.ofGraph set.size set.dependencies
  { paths := walk.finished.filterMap fun index => set.assemblies[index]?.map (·.path)
    hasCycle := Walk.findsCycle set.size set.dependencies }

end AssemblySet

end ScriptBackend
