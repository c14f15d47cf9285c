import ScriptBackend.Script.Writer
import ScriptBackend.Symbol

/-! # Emitters

The frame of a module is always the same; what stands in it for each type is up to an
emitter.  It is called once for each piece of a type, and answers with what to do with the
writer.
-/
namespace ScriptBackend.Script

/-- The pieces of script that a type can have. -/
inductive Piece where
  | body
  | registration
  | constructor
  | testScaffold
  deriving DecidableEq, Repr

/-- A call to the emitter: which piece of which type it is to write. -/
structure Call where
  piece : Piece
  type : TypeSymbol
  deriving DecidableEq, Repr

/-- An emitter with a state of its own, which it changes with every call.  It sees the writer
and answers with the operations to carry out. -/
structure Emitter (σ : Type) where
  emit : Call → Writer → σ → List Writer.Op × σ

/-- The emitter whose answers depend on nothing but the call. -/
def Emitter.ofCall (answer : Call → List Writer.Op) : Emitter Unit where
  emit call _ _ := (answer call, ())

end ScriptBackend.Script
