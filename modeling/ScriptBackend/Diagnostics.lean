/-! # Diagnostics

The errors that were reported, in the order in which they were.
-/
namespace ScriptBackend

/-- A reported error, with the place it applies to if one is known. -/
structure Diagnostic where
  message : String
  location : Option String := none
  deriving DecidableEq, Repr

/-- The line that shows a reported error. -/
def Diagnostic.text (d : Diagnostic) : String :=
  match d.location with
  | some location => location ++ ": error: " ++ d.message
  | none => "error: " ++ d.message

/-- All reported errors. -/
structure Diagnostics where
  items : List Diagnostic := []
  deriving DecidableEq, Repr

namespace Diagnostics

/-- One more error is reported. -/
def report (ds : Diagnostics) (d : Diagnostic) : Diagnostics :=
  ⟨ds.items ++ [d]⟩

/-- Several errors are reported one after another. -/
def reportAll (ds : Diagnostics) (reports : List Diagnostic) : Diagnostics :=
  reports.foldl report ds

@[simp]
theorem items_report (ds : Diagnostics) (d : Diagnostic) : (ds.report d).items = ds.items ++ [d] :=
  rfl

@[simp]
theorem items_reportAll (ds : Diagnostics) (reports : List Diagnostic) :
    (ds.reportAll reports).items = ds.items ++ reports := by
  induction reports generalizing ds with
  | nil => simp [reportAll]
  | cons d reports ih =>
    rw [reportAll, List.foldl_cons, ← reportAll, ih]
    simp

/-- Whether any error was reported. -/
def hasErrors (ds : Diagnostics) : Bool :=
  !ds.items.isEmpty

/-- How many errors were reported. -/
def count (ds : Diagnostics) : Nat :=
  ds.items.length

/-- The lines of all reported errors. -/
def text (ds : Diagnostics) : String :=
  "\n".intercalate (ds.items.map Diagnostic.text)

/-- Whether `part` stands somewhere in a text. -/
def occursIn (part : List Char) : List Char → Bool
  | [] => part.isEmpty
  | c :: cs => part.isPrefixOf (c :: cs) || occursIn part cs

/-- Whether a text stands somewhere in a message. -/
def mentions (ds : Diagnostics) (part : String) : Bool :=
  ds.items.any fun d => occursIn part.toList d.message.toList

end Diagnostics

end ScriptBackend
