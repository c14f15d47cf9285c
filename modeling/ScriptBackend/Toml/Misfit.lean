import ScriptBackend.Decimal.Shortest
import ScriptBackend.Text.Quoted
import ScriptBackend.Toml.Document

/-! # Values that do not fit

Reading a document into a record takes its keys in document order and stops at the first
that does not fit.  This module has the ways not to fit, with their messages, and the
readers of single fields.
-/
namespace ScriptBackend.Toml

/-- How a message shows a value: simple ones with their text, all others by their kind.
Dates and times count as maps. -/
def Value.shown : Value → String
  | .string t => "string " ++ Text.quoted t
  | .integer n => "integer `" ++ toString n ++ "`"
  | .float x => "floating point `" ++ x.text ++ "`"
  | .boolean b => "boolean `" ++ (if b then "true" else "false") ++ "`"
  | .array _ | .series _ => "sequence"
  | .moment _ | .table _ _ => "map"

/-- Why the top-level table of a document does not fit a record. -/
inductive Misfit where
  | missingField (name : String)
  | unknownField (name : String) (known : List String)
  | invalidType (found : Value) (expected : String)
  | invalidValue (found : Value) (expected : String)

/-- The message of a misfit. -/
def Misfit.message : Misfit → String
  | .missingField name => "missing field `" ++ name ++ "`"
  | .unknownField name known =>
    "unknown field `" ++ name ++ "`, expected one of " ++
      ", ".intercalate (known.map fun field => "`" ++ field ++ "`")
  | .invalidType found expected => "invalid type: " ++ found.shown ++ ", expected " ++ expected
  | .invalidValue found expected => "invalid value: " ++ found.shown ++ ", expected " ++ expected

/-- Why a text does not give a record: it is no document, or the document does not fit. -/
inductive Fault where
  | malformed
  | misfit (m : Misfit)

namespace Value

/-- The text of a value; `expected` is what the message asks for instead of others. -/
def asText (expected : String) : Value → Except Misfit String
  | .string t => .ok t
  | v => .error (.invalidType v expected)

/-- The truth value of a value. -/
def asBool : Value → Except Misfit Bool
  | .boolean b => .ok b
  | v => .error (.invalidType v "a boolean")

/-- The natural number of a value. -/
def asNat : Value → Except Misfit Nat
  | .integer n => if 0 ≤ n then .ok n.toNat else .error (.invalidValue (.integer n) "usize")
  | v => .error (.invalidType v "usize")

/-- The items of a value; those of a series are its tables. -/
def items? : Value → Option (List Value)
  | .array items => some items
  | .series elements => some (elements.map (.table .written))
  | _ => none

/-- The items of a value, each read by `item`; the first that does not fit is the error. -/
def asList {α : Type} (item : Value → Except Misfit α) (v : Value) : Except Misfit (List α) :=
  match v.items? with
  | some items => items.mapM item
  | none => .error (.invalidType v "a sequence")

end Value

end ScriptBackend.Toml
