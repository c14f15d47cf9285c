import ScriptBackend.Toml.Value

/-! # Tables that grow line by line

A document is a sequence of sections, each a header with the pairs below it.  A pair gives a
value to a key, and a key of several parts goes through tables that it makes on its way.
This module says which lines fit together: no key is given two values, no table two headers,
and a table that is complete is not added to.
-/
namespace ScriptBackend.Toml

/-- The parts of a key; they are at least one. -/
abbrev KeyPath := List String

/-- The line that begins a section. -/
inductive Header where
  /-- No header: the section at the beginning of the document. -/
  | root
  /-- `[path]`, a table. -/
  | table (path : KeyPath)
  /-- `[[path]]`, one more table of a series. -/
  | element (path : KeyPath)

/-- A header with the pairs below it. -/
structure Section where
  header : Header
  pairs : List (KeyPath × Value)

namespace Entries

/-- Gives a value to a key.  `own` says whether the table may receive values directly: the
table of the section may, and so may tables that only dotted keys have made; tables known
from headers may only be passed through. -/
def assign (own : Bool) : KeyPath → Value → Entries → Option Entries
  | [], _, _ => none
  | [key], value, entries =>
    if own && (entries.lookup key).isNone then some (entries.append key value) else none
  | key :: path, value, entries =>
    match entries.lookup key with
    | none => do
      let inner ← assign true path value []
      some (entries.append key (.table .dotted inner))
    | some (.table .dotted inner) => do
      let inner ← assign true path value inner
      some (entries.exchange key (.table .dotted inner))
    | some (.table .implied inner) => do
      let inner ← assign false path value inner
      some (entries.exchange key (.table .implied inner))
    | some (.series elements) => do
      let inner ← assign false path value (← elements.getLast?)
      some (entries.exchange key (.series (elements.dropLast ++ [inner])))
    | some _ => none

/-- Adds the pairs of a section or of a table in braces. -/
def assignAll (entries : Entries) (pairs : List (KeyPath × Value)) : Option Entries :=
  pairs.foldlM (fun entries (path, value) => assign true path value entries) entries

/-- Changes the table that holds the last part of a header's path, making the tables on the
way that are not there yet.  In a series the path goes on in its last table. -/
def place (change : String → Entries → Option Entries) : KeyPath → Entries → Option Entries
  | [], _ => none
  | [key], entries => change key entries
  | key :: path, entries =>
    match entries.lookup key with
    | none => do
      let inner ← place change path []
      some (entries.append key (.table .implied inner))
    | some (.table .inline _) => none
    | some (.table origin inner) => do
      let inner ← place change path inner
      some (entries.exchange key (.table origin inner))
    | some (.series elements) => do
      let inner ← place change path (← elements.getLast?)
      some (entries.exchange key (.series (elements.dropLast ++ [inner])))
    | some _ => none

/-- The table with the header `[… key]`.  Only a table that other headers imply may exist
already, and from now on it stands where its own header is. -/
def openTable (pairs : List (KeyPath × Value)) (key : String) (entries : Entries) :
    Option Entries :=
  match entries.lookup key with
  | none => do
    let inner ← assignAll [] pairs
    some (entries.append key (.table .written inner))
  | some (.table .implied inner) => do
    let inner ← assignAll inner pairs
    some ((entries.remove key).append key (.table .written inner))
  | some _ => none

/-- The next table of the series with the header `[[… key]]`. -/
def openElement (pairs : List (KeyPath × Value)) (key : String) (entries : Entries) :
    Option Entries := do
  let inner ← assignAll [] pairs
  match entries.lookup key with
  | none => some (entries.append key (.series [inner]))
  | some (.series elements) => some (entries.exchange key (.series (elements ++ [inner])))
  | some _ => none

/-- Adds a section to the document. -/
def addSection (entries : Entries) (s : Section) : Option Entries :=
  match s.header with
  | .root => assignAll entries s.pairs
  | .table path => place (openTable s.pairs) path entries
  | .element path => place (openElement s.pairs) path entries

/-- The top-level table of the document with the given sections. -/
def ofSections (sections : List Section) : Option Entries :=
  sections.foldlM addSection []

end Entries

end ScriptBackend.Toml
