import ScriptBackend.Text.Uppercase

/-! # Short names

Assemblies are told apart by their short names, in which the case of letters does not
matter.
-/
namespace ScriptBackend

/-- The form of a short name that is compared. -/
def foldName (name : String) : String :=
  Text.uppercase name

/-- The short name of the core assembly. -/
def coreName : String := "mscorlib"

/-- Whether a short name is that of the core assembly. -/
def isCoreName (name : String) : Bool :=
  foldName name = foldName coreName

end ScriptBackend
