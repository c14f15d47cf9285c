import ScriptBackend.Symbol

/-! # The types of a module

Which types of a program get code, and in which order: by kind, classes with fewer steps to
their root first, and otherwise as they are declared.
-/
namespace ScriptBackend

namespace TypeSymbol

/-- The order in which types are written.  It does not tell apart types of one kind, except
classes of different depth. -/
def order (x y : TypeSymbol) : Ordering :=
  (compare x.kind.ordinal y.kind.ordinal).then <|
    match x.kind.depth?, y.kind.depth? with
    | some m, some n => compare m n
    | _, _ => .eq

/-- The types in the order in which they are written; those the order does not tell apart
stay as they are. -/
def sort (types : List TypeSymbol) : List TypeSymbol :=
  types.mergeSort fun x y => x.order y != .gt

/-- Whether a type gets code: it is part of the application, has a body, and belongs to what
is compiled.  A delegate has no body, and the values of an internal enumeration are put in
where they are used. -/
def isSelected (includeTests : Bool) (t : TypeSymbol) : Bool :=
  t.isApplication && t.kind != .delegate && (!t.isTest || includeTests) &&
    (t.kind != .enumeration || t.isPublic)

end TypeSymbol

/-- The selected types, each list in the order in which it is written. -/
structure Selection where
  types : List TypeSymbol
  publicTypes : List TypeSymbol
  internalTypes : List TypeSymbol
  deriving DecidableEq, Repr

/-- The selected types as they are declared; a namespace without application types has none. -/
def SymbolSet.selected (symbols : SymbolSet) (includeTests : Bool) : List TypeSymbol :=
  (symbols.namespaces.filter (·.hasApplicationTypes)).flatMap fun n =>
    n.types.filter (·.isSelected includeTests)

/-- The selection of a program's types. -/
def SymbolSet.selection (symbols : SymbolSet) (includeTests : Bool) : Selection :=
  let selected := symbols.selected includeTests
  { types := TypeSymbol.sort selected
    publicTypes := TypeSymbol.sort (selected.filter (·.isPublic))
    internalTypes := TypeSymbol.sort (selected.filter (!·.isPublic)) }

end ScriptBackend
