import ScriptBackend.Diagnostics
import ScriptBackend.Manifest
import ScriptBackend.Reference.Name

/-! # What can be wrong with references -/
namespace ScriptBackend

/-- Something wrong with a reference.  `ρ` is what is known about why a file did not load. -/
inductive ReferenceError (ρ : Type) where
  | missingFile (path : Path)
  | duplicateReference (path : Path)
  | loadFailure (path : Path) (reason : ρ)
  | missingCore
  | duplicateCore (path : Path)
  | invalidScriptAssembly (path : Path)

namespace ReferenceError

variable {ρ : Type}

/-- The reference an error is about. -/
def path? : ReferenceError ρ → Option Path
  | .missingCore => none
  | .missingFile p | .duplicateReference p | .loadFailure p _ | .duplicateCore p
  | .invalidScriptAssembly p => some p

/-- The kind of an error in words. -/
def kindText : ReferenceError ρ → String
  | .missingFile _ => "missing file"
  | .duplicateReference _ => "duplicate reference"
  | .loadFailure _ _ => "load failure"
  | .missingCore => "missing core assembly"
  | .duplicateCore _ => "duplicate core assembly"
  | .invalidScriptAssembly _ => "invalid script assembly"

/-- The message of an error. -/
def message : ReferenceError ρ → String
  | .missingFile p => "The referenced assembly '" ++ p.text ++ "' could not be located."
  | .duplicateReference p => "The referenced assembly '" ++ p.text ++ "' is a duplicate reference."
  | .loadFailure p _ =>
    "The referenced assembly '" ++ p.text ++ "' could not be loaded as an assembly."
  | .missingCore => "The '" ++ coreName ++ "' assembly must be referenced."
  | .duplicateCore _ =>
    "The core runtime assembly, " ++ coreName ++ ".dll must be referenced only once."
  | .invalidScriptAssembly p => "The assembly '" ++ p.text ++ "' is not a valid script assembly."

/-- The error as it is reported. -/
def diagnostic (e : ReferenceError ρ) : Diagnostic :=
  { message := e.message, location := e.path?.map Path.text }

end ReferenceError

end ScriptBackend
