import ScriptBackend.Disk
import ScriptBackend.Toml.Misfit

/-! # Options

What a compilation is asked to do: whether tests are part of it, how wide an indentation
level is, and which assemblies it refers to.  Options come from a TOML document or are built
up from the default ones; either way an indentation level is at most `widthLimit` wide.
-/
namespace ScriptBackend

/-- The options of a compilation. -/
structure Options where
  includeTests : Bool := false
  indentWidth : Nat := 2
  references : List Path := []
  deriving DecidableEq

namespace Options

/-- The greatest width of an indentation level. -/
def widthLimit : Nat := 8

/-- Why a text or a file gives no options. -/
inductive Error where
  | unreadable (failure : ReadFailure)
  | unparsed (fault : Toml.Fault)
  /-- The indentation width is too great. -/
  | tooWide (width : Nat)

/-- The name of the option that sets the indentation width. -/
def widthField : String := "indent_width"

/-- The fields of an options document. -/
def fields : List String := ["include_tests", widthField, "references"]

/-- The message of an error that is not about the text of the document. -/
def Error.message : Error → String
  | .unreadable failure => "failed to read options file: " ++ failure.message
  | .unparsed .malformed => "malformed options"
  | .unparsed (.misfit m) => m.message
  | .tooWide width =>
    "invalid option '" ++ widthField ++ "': must be at most " ++ toString widthLimit ++
      ", got " ++ toString width

/-- The options with one field set from a document. -/
def setField (options : Options) (key : String) (value : Toml.Value) :
    Except Toml.Misfit Options :=
  if key = "include_tests" then
    value.asBool.map fun b => { options with includeTests := b }
  else if key = widthField then
    value.asNat.map fun n => { options with indentWidth := n }
  else if key = "references" then
    (value.asList (·.asText "path string")).map fun texts =>
      { options with references := texts.map Path.mk }
  else .error (.unknownField key fields)

/-- The options of a top-level table. -/
def ofEntries (entries : Toml.Entries) : Except Toml.Misfit Options :=
  entries.foldlM (fun options (key, value) => options.setField key value) {}

/-- The options of a table that keep to the limit of the width. -/
def ofTable (entries : Toml.Entries) : Except Error Options :=
  match ofEntries entries with
  | .error m => .error (.unparsed (.misfit m))
  | .ok options =>
    if options.indentWidth ≤ widthLimit then .ok options
    else .error (.tooWide options.indentWidth)

/-- The options of a document. -/
def parse (text : String) : Except Error Options :=
  match Toml.read text with
  | none => .error (.unparsed .malformed)
  | some entries => ofTable entries

/-- The options of the file at a path. -/
def read (disk : Disk) (p : Path) : Except Error Options :=
  match disk.readText p with
  | .error failure => .error (.unreadable failure)
  | .ok text => parse text

/-- The options with or without tests. -/
def withTests (options : Options) (included : Bool) : Options :=
  { options with includeTests := included }

/-- The options with one more reference. -/
def withReference (options : Options) (p : Path) : Options :=
  { options with references := options.references ++ [p] }

/-- The options with the given indentation width, or the limit if that is less. -/
def withIndentWidth (options : Options) (width : Nat) : Options :=
  { options with indentWidth := min width widthLimit }

end Options

end ScriptBackend
