import ScriptBackend.Disk
import ScriptBackend.Text.Blank
import ScriptBackend.Toml.Misfit

/-! # Manifests of assemblies

An assembly is known by its manifest, a TOML document with the assembly's full name, the
full names of the assemblies it depends on, and its attributes.  One attribute marks the
assemblies that are built for script.
-/
namespace ScriptBackend

/-- What is known of an assembly. -/
structure Manifest where
  fullName : String
  references : List String := []
  attributes : List String := []
  deriving DecidableEq, Repr

namespace Manifest

/-- The attribute of the assemblies that are built for script. -/
def scriptAttribute : String := "System.ScriptAssemblyAttribute"

/-- Whether the assembly is built for script. -/
def isScriptAssembly (m : Manifest) : Bool :=
  m.attributes.contains scriptAttribute

/-- Why a text or a file gives no manifest. -/
inductive Error where
  | unreadable (failure : ReadFailure)
  | unparsed (fault : Toml.Fault)
  /-- The full name is blank. -/
  | missingName

/-- The message of an error. -/
def Error.message : Error → String
  | .unreadable failure => "failed to read metadata: " ++ failure.message
  | .unparsed .malformed => "malformed metadata"
  | .unparsed (.misfit m) => m.message
  | .missingName => "metadata has an empty assembly name"

/-- A manifest whose name may still be to come. -/
structure Draft where
  name : Option String := none
  references : List String := []
  attributes : List String := []

/-- The draft with one field set from a document; unknown fields do not matter. -/
def Draft.setField (draft : Draft) (key : String) (value : Toml.Value) :
    Except Toml.Misfit Draft :=
  if key = "name" then
    (value.asText "a string").map fun t => { draft with name := some t }
  else if key = "references" then
    (value.asList (·.asText "a string")).map fun ts => { draft with references := ts }
  else if key = "attributes" then
    (value.asList (·.asText "a string")).map fun ts => { draft with attributes := ts }
  else .ok draft

/-- The manifest of a draft that has a name. -/
def Draft.finish (draft : Draft) : Except Toml.Misfit Manifest :=
  match draft.name with
  | some name => .ok ⟨name, draft.references, draft.attributes⟩
  | none => .error (.missingField "name")

/-- The manifest of a top-level table. -/
def ofEntries (entries : Toml.Entries) : Except Toml.Misfit Manifest := do
  let draft ← entries.foldlM (fun draft (key, value) => draft.setField key value) ({} : Draft)
  draft.finish

/-- The manifest of a table whose full name is not blank. -/
def ofTable (entries : Toml.Entries) : Except Error Manifest :=
  match ofEntries entries with
  | .error m => .error (.unparsed (.misfit m))
  | .ok manifest => if Text.isBlank manifest.fullName then .error .missingName else .ok manifest

/-- The manifest of a document. -/
def parse (text : String) : Except Error Manifest :=
  match Toml.read text with
  | none => .error (.unparsed .malformed)
  | some entries => ofTable entries

/-- The manifest in the file at a path. -/
def read (disk : Disk) (p : Path) : Except Error Manifest :=
  match disk.readText p with
  | .error failure => .error (.unreadable failure)
  | .ok text => parse text

/-- The manifest with one more assembly it depends on. -/
def withReference (m : Manifest) (fullName : String) : Manifest :=
  { m with references := m.references ++ [fullName] }

/-- The manifest with one more attribute. -/
def withAttribute (m : Manifest) (typeName : String) : Manifest :=
  { m with attributes := m.attributes ++ [typeName] }

end Manifest

end ScriptBackend
