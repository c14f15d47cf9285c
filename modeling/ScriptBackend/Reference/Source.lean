import ScriptBackend.Reference.Error
import ScriptBackend.Reference.Set

/-! # Loaded references

The references of a compilation are loaded one after another.  A reference that is in order
becomes the core assembly or is accepted into the set of the others; for each of the rest an
error is reported, and loading goes on.  In the end there has to be a core assembly, and all
assemblies have to be built for script.
-/
namespace ScriptBackend

/-- What was loaded. -/
structure ReferenceSource where
  core : Option Assembly := none
  others : AssemblySet := {}
  /-- The order of the other assemblies. -/
  order : AssemblyOrder := ⟨[], false⟩
  /-- What was wrong, in the order in which it was found. -/
  errors : List (ReferenceError Manifest.Error) := []

namespace ReferenceSource

/-- Whether anything was wrong. -/
def failed (source : ReferenceSource) : Bool :=
  !source.errors.isEmpty

/-- The manifest of the assembly at a path, the core assembly apart. -/
def manifest? (source : ReferenceSource) (path : Path) : Option Manifest :=
  source.others.get? path

/-- The manifest of the assembly with a short name, the core assembly apart. -/
def manifestByName? (source : ReferenceSource) (name : String) : Option Manifest :=
  source.others.getByName? name

end ReferenceSource

/-- Something that loads references: what it has loaded, and all that it has reported. -/
structure Loader where
  source : ReferenceSource := {}
  diagnostics : Diagnostics := {}

namespace Loader

/-- Nothing is loaded any more; what was reported stays. -/
def reset (l : Loader) : Loader :=
  { l with source := {} }

/-- An error is found: it is kept and reported. -/
def reject (l : Loader) (e : ReferenceError Manifest.Error) : Loader :=
  { source := { l.source with errors := l.source.errors ++ [e] }
    diagnostics := l.diagnostics.report e.diagnostic }

/-- The absolute path and the short name of a reference that names a file. -/
def locate? (disk : Disk) (reference : Path) : Option (Path × String) := do
  let path ← Path.absolute? disk.workingDirectory reference
  if disk.isFile path then return (path, ← path.stem?) else none

/-- An assembly that is read becomes the core assembly or one of the others. -/
def accept (l : Loader) (path : Path) (name : String) (manifest : Manifest) : Loader :=
  if isCoreName name then
    match l.source.core with
    | some _ => l.reject (.duplicateCore path)
    | none => { l with source := { l.source with core := some ⟨path, manifest⟩ } }
  else
    match l.source.others.add? path name manifest with
    | some others => { l with source := { l.source with others } }
    | none => l

/-- The next reference is loaded.  A short name that is taken is refused before the file is
read. -/
def visit (disk : Disk) (l : Loader) (reference : Path) : Loader :=
  match locate? disk reference with
  | none => l.reject (.missingFile reference)
  | some (path, name) =>
    if l.source.others.isReferenced name then l.reject (.duplicateReference reference)
    else
      match Manifest.read disk path with
      | .error reason => l.reject (.loadFailure reference reason)
      | .ok manifest => l.accept path name manifest

/-- There has to be a core assembly that is built for script. -/
def checkCore (l : Loader) : Loader :=
  match l.source.core with
  | none => l.reject .missingCore
  | some core =>
    if core.manifest.isScriptAssembly then l else l.reject (.invalidScriptAssembly core.path)

/-- The other assemblies have to be built for script. -/
def checkOthers (l : Loader) : Loader :=
  (l.source.others.assemblies.toList.filter (!·.manifest.isScriptAssembly)).foldl
    (fun l a => l.reject (.invalidScriptAssembly a.path)) l

/-- The other assemblies are put in order. -/
def arrange (l : Loader) : Loader :=
  { l with source := { l.source with order := l.source.others.ordered } }

/-- References are loaded, in place of what was loaded before. -/
def load (disk : Disk) (l : Loader) (references : List Path) : Loader :=
  (references.foldl (visit disk) l.reset).checkCore.checkOthers.arrange

end Loader

end ScriptBackend
