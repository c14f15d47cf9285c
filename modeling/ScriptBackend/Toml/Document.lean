import ScriptBackend.Toml.Moment
import ScriptBackend.Toml.Number
import ScriptBackend.Toml.Table
import ScriptBackend.Toml.Text

/-! # Documents

Reads a TOML document: its values, keys and lines, and then the table they make up
(`read`).  A text is a document or it is not; nothing is said about where it fails.

Values nest at most `nestingLimit` deep, and a key has at most that many parts.
-/
namespace ScriptBackend.Toml

/-- How deep values nest, and how many parts a key has, at most. -/
def nestingLimit : Nat := 79

/-- A character that may stand in a key without quotes. -/
def isKeyChar (c : Char) : Bool :=
  c.isAlphanum || c = '_' || c = '-'

/-- Reads one part of a key. -/
def keyPart : Reader String := fun cs =>
  match cs.takeWhile isKeyChar with
  | [] => shortText cs
  | part => some (String.ofList part, cs.dropWhile isKeyChar)

/-- Reads a key of at most `limit` parts, and the blanks around its parts. -/
def keyPath : (limit : Nat) → Reader KeyPath
  | 0, _ => none
  | limit + 1, cs => do
    let (part, cs) ← keyPart (skipBlanks cs)
    match skipBlanks cs with
    | '.' :: cs =>
      let (parts, rest) ← keyPath limit cs
      some (part :: parts, rest)
    | rest => some ([part], rest)

/-- Reads a key, an equals sign and a value. -/
def pair (value : Reader Value) : Reader (KeyPath × Value) := fun cs => do
  let (path, cs) ← keyPath nestingLimit cs
  let cs ← mark '=' cs
  let (v, rest) ← value (skipBlanks cs)
  some ((path, v), rest)

/-- Reads the items of an array up to its closing bracket; a comma may follow the last one.
`fuel` bounds the number of items. -/
def items (value : Reader Value) : (fuel : Nat) → Reader (List Value)
  | 0, _ => none
  | fuel + 1, cs =>
    match skipGap false cs with
    | ']' :: rest => some ([], rest)
    | cs => do
      let (v, cs) ← value cs
      match skipGap false cs with
      | ']' :: rest => some ([v], rest)
      | ',' :: cs =>
        let (vs, rest) ← items value fuel cs
        some (v :: vs, rest)
      | _ => none

/-- Reads the pairs of a table in braces up to the closing one.  `fuel` bounds the number of
pairs. -/
def inlinePairs (value : Reader Value) : (fuel : Nat) → Reader (List (KeyPath × Value))
  | 0, _ => none
  | fuel + 1, cs => do
    let (p, cs) ← pair value cs
    match skipBlanks cs with
    | '\x7d' :: rest => some ([p], rest)
    | ',' :: cs =>
      let (ps, rest) ← inlinePairs value fuel cs
      some (p :: ps, rest)
    | _ => none

/-- Reads an array after its opening bracket.  Every item but the last has a comma, so there
are no more items than characters. -/
def array (value : Reader Value) : Reader Value := fun cs =>
  (items value (cs.length + 1) cs).map fun (vs, rest) => (.array vs, rest)

/-- Reads a table in braces after the opening one. -/
def inlineTable (value : Reader Value) : Reader Value := fun cs =>
  match skipBlanks cs with
  | '\x7d' :: rest => some (.table .inline [], rest)
  | cs => do
    let (ps, rest) ← inlinePairs value (cs.length + 1) cs
    let entries ← Entries.assignAll [] ps
    some (.table .inline entries, rest)

/-- Reads a truth value. -/
def boolean : Reader Bool := fun cs =>
  match word ['t', 'r', 'u', 'e'] cs with
  | some rest => some (true, rest)
  | none => (word ['f', 'a', 'l', 's', 'e'] cs).map fun rest => (false, rest)

/-- Reads a value that holds no others. -/
def scalar : Reader Value := fun cs =>
  ((text cs).map fun (t, rest) => (.string t, rest)).or <|
  ((boolean cs).map fun (b, rest) => (.boolean b, rest)).or <|
  ((moment cs).map fun (m, rest) => (.moment m, rest)).or <|
  ((float cs).map fun (x, rest) => (.float x, rest)).or <|
  (integer cs).map fun (n, rest) => (.integer n, rest)

/-- Reads a value that nests at most `limit` deep. -/
def value : (limit : Nat) → Reader Value
  | 0, cs => scalar cs
  | limit + 1, cs =>
    match cs with
    | '[' :: cs => array (value limit) cs
    | '\x7b' :: cs => inlineTable (value limit) cs
    | cs => scalar cs

/-- A line of a document. -/
inductive Line where
  | empty
  | header (h : Header)
  | pair (path : KeyPath) (v : Value)

/-- Reads the header of a section. -/
def header : Reader Header
  | '[' :: '[' :: cs => do
    let (path, cs) ← keyPath nestingLimit cs
    let rest ← word [']', ']'] cs
    some (.element path, rest)
  | '[' :: cs => do
    let (path, cs) ← keyPath nestingLimit cs
    let rest ← mark ']' cs
    some (.table path, rest)
  | _ => none

/-- Reads what stands on a line before its comment. -/
def lineContent : Reader Line
  | '[' :: cs => (header ('[' :: cs)).map fun (h, rest) => (.header h, rest)
  | cs => (pair (value nestingLimit) cs).map fun ((path, v), rest) => (.pair path v, rest)

/-- Reads a line with its end. -/
def line : Reader Line := fun cs =>
  match finishLine? cs with
  | some rest => some (.empty, rest)
  | none => do
    let (content, cs) ← lineContent (skipBlanks cs)
    let rest ← finishLine? cs
    some (content, rest)

/-- Reads all lines.  `fuel` bounds their number. -/
def lines : (fuel : Nat) → List Char → Option (List Line)
  | 0, _ => none
  | _ + 1, [] => some []
  | fuel + 1, cs => do
    let (l, rest) ← line cs
    let ls ← lines fuel rest
    some (l :: ls)

/-- The pairs below a header up to the next one, and the lines from there on, as sections. -/
def sectionsFrom (h : Header) (above : List (KeyPath × Value)) : List Line → List Section
  | [] => [⟨h, above⟩]
  | .empty :: ls => sectionsFrom h above ls
  | .pair path v :: ls => sectionsFrom h (above ++ [(path, v)]) ls
  | .header next :: ls => ⟨h, above⟩ :: sectionsFrom next [] ls

/-- The text without the byte order mark that may begin it. -/
def dropMark : List Char → List Char
  | '\ufeff' :: rest => rest
  | cs => cs

/-- The top-level table of a document, if the text is one.  No line is empty of characters,
so there are no more lines than characters. -/
def read (text : String) : Option Entries := do
  let cs := dropMark text.toList
  let ls ← lines (cs.length + 1) cs
  Entries.ofSections (sectionsFrom .root [] ls)

end ScriptBackend.Toml
