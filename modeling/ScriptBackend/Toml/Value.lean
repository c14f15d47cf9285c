import ScriptBackend.Decimal.Binary64

/-! # TOML values

What a TOML document can hold.  Tables and arrays of tables remember how they were
written, because that decides which later lines may still add to them.
-/
namespace ScriptBackend.Toml

/-- A calendar day. -/
structure Day where
  year : Nat
  month : Nat
  day : Nat
  deriving DecidableEq, Repr

/-- A time of day; the second 60 is a leap second. -/
structure Clock where
  hour : Nat
  minute : Nat
  second : Nat
  nanosecond : Nat
  deriving DecidableEq, Repr

/-- A date, a time of day or both.  Only both together can have an offset, in minutes east
of universal time. -/
inductive Moment where
  | day (d : Day)
  | clock (t : Clock)
  | both (d : Day) (t : Clock) (offset : Option Int)
  deriving DecidableEq, Repr

/-- How a table came to be. -/
inductive Origin where
  /-- It has a header of its own. -/
  | written
  /-- The header of a table inside it mentions it. -/
  | implied
  /-- A dotted key goes through it. -/
  | dotted
  /-- It is written in braces, and complete. -/
  | inline
  deriving DecidableEq, Repr

/-- A value.  The entries of a table have distinct keys, in document order: a table with a
header of its own stands at that header, all else where it is first mentioned. -/
inductive Value where
  | string (text : String)
  | integer (n : Int)
  | float (x : Decimal.Binary64)
  | boolean (b : Bool)
  | moment (m : Moment)
  | array (items : List Value)
  | table (origin : Origin) (entries : List (String × Value))
  /-- An array of tables, one for each header in double brackets. -/
  | series (elements : List (List (String × Value)))

/-- The entries of a table: keys with their values. -/
abbrev Entries := List (String × Value)

namespace Entries

/-- The entries with the value of `key` exchanged. -/
def exchange (entries : Entries) (key : String) (value : Value) : Entries :=
  entries.map fun entry => if entry.1 = key then (key, value) else entry

/-- The entries without `key`. -/
def remove (entries : Entries) (key : String) : Entries :=
  entries.filter fun entry => entry.1 ≠ key

/-- The entries with one more at the end. -/
def append (entries : Entries) (key : String) (value : Value) : Entries :=
  entries ++ [(key, value)]

end Entries

end ScriptBackend.Toml
