/-! # Symbols

The types that a program declares, grouped into namespaces, as the analysis of the program
finds them.
-/
namespace ScriptBackend

/-- The kind of a type. -/
inductive TypeKind where
  /-- A class, with the number of steps to the root of its inheritance chain; one with
  global methods only holds functions and has no instances. -/
  | classType (depth : Nat) (globalMethods : Bool)
  | interfaceType
  | enumeration
  | delegate
  | record
  deriving DecidableEq, Repr

namespace TypeKind

/-- The place of the kind in the order in which types are written. -/
def ordinal : TypeKind → Nat
  | .classType _ _ => 0
  | .interfaceType => 1
  | .enumeration => 2
  | .delegate => 3
  | .record => 4

/-- Whether the kind is that of a class. -/
def isClass : TypeKind → Bool
  | .classType _ _ => true
  | _ => false

/-- The inheritance depth of a class. -/
def depth? : TypeKind → Option Nat
  | .classType depth _ => some depth
  | _ => none

/-- Whether the kind is that of a class with global methods. -/
def hasGlobalMethods : TypeKind → Bool
  | .classType _ globalMethods => globalMethods
  | _ => false

end TypeKind

/-- A declared type.  A new one is public and part of the application. -/
structure TypeSymbol where
  name : String
  kind : TypeKind
  /-- The name in the generated script, if it is another. -/
  scriptName : Option String := none
  isPublic : Bool := true
  /-- Declared by the program itself and not imported. -/
  isApplication : Bool := true
  isTest : Bool := false
  deriving DecidableEq, Repr

namespace TypeSymbol

/-- The type, hidden outside of its module. -/
def internal (t : TypeSymbol) : TypeSymbol :=
  { t with isPublic := false }

/-- The type as one that belongs to the tests. -/
def test (t : TypeSymbol) : TypeSymbol :=
  { t with isTest := true }

/-- The type as an imported one. -/
def imported (t : TypeSymbol) : TypeSymbol :=
  { t with isApplication := false }

/-- The type as one with global methods, which only a class can be. -/
def withGlobalMethods (t : TypeSymbol) : TypeSymbol :=
  match t.kind with
  | .classType depth _ => { t with kind := .classType depth true }
  | _ => t

/-- The type with its own name in the generated script. -/
def withScriptName (t : TypeSymbol) (name : String) : TypeSymbol :=
  { t with scriptName := some name }

/-- The name in the generated script. -/
def generatedName (t : TypeSymbol) : String :=
  t.scriptName.getD t.name

/-- Whether the type is a class of the tests. -/
def isTestClass (t : TypeSymbol) : Bool :=
  t.kind.isClass && t.isTest

/-- The marks of the type as a number: 1 for an application type, 2 for a test. -/
def flagBits (t : TypeSymbol) : Nat :=
  (if t.isApplication then 1 else 0) + (if t.isTest then 2 else 0)

end TypeSymbol

/-- A named group of types. -/
structure Namespace where
  name : String
  types : List TypeSymbol := []
  deriving DecidableEq, Repr

/-- Whether the namespace has a type that is part of the application. -/
def Namespace.hasApplicationTypes (n : Namespace) : Bool :=
  n.types.any (·.isApplication)

/-- Everything a program declares, with the name of its module and the names of the modules
it depends on. -/
structure SymbolSet where
  scriptName : String
  namespaces : List Namespace := []
  dependencies : List String := []
  deriving DecidableEq, Repr

end ScriptBackend
