/-! # Paths

A path is kept as it was written.  Two paths name the same place when they have the same
components: repeated and trailing slashes and inner dots do not count, while `..` and a dot
at the beginning of a relative path do.
-/
namespace ScriptBackend

/-- A path as it was written. -/
structure Path where
  text : String
  deriving DecidableEq, Repr

namespace Path

/-- A part of a path. -/
inductive Component where
  | root
  | here
  | up
  | name (n : String)
  deriving DecidableEq, Hashable, Repr

/-- What stands between the slashes of a text, the empty pieces included. -/
def pieces : List Char → List (List Char)
  | [] => [[]]
  | c :: cs =>
    if c = '/' then [] :: pieces cs
    else
      match pieces cs with
      | p :: ps => (c :: p) :: ps
      | [] => [[c]]

/-- Whether the path begins at the root. -/
def isAbsolute (p : Path) : Bool :=
  p.text.toList.head? = some '/'

/-- The component of a piece after the beginning of a path, if it counts. -/
def component? (piece : List Char) : Option Component :=
  if piece = [] ∨ piece = ['.'] then none
  else if piece = ['.', '.'] then some .up
  else some (.name (String.ofList piece))

/-- The component at the beginning of a path that is no name. -/
def leading (p : Path) : List Component :=
  if p.isAbsolute then [.root]
  else if (pieces p.text.toList).head? = some ['.'] then [.here]
  else []

/-- The components of a path. -/
def components (p : Path) : List Component :=
  p.leading ++ (pieces p.text.toList).filterMap component?

/-- The text of a component. -/
def Component.text : Component → String
  | .root => "/"
  | .here => "."
  | .up => ".."
  | .name n => n

/-- Whether the path is written with a slash at its end. -/
def endsInSlash (p : Path) : Bool :=
  p.text.toList.getLast? = some '/'

/-- Whether the path begins with two slashes, and no third. -/
def hasDoubleRoot (p : Path) : Bool :=
  match p.text.toList with
  | '/' :: '/' :: '/' :: _ => false
  | '/' :: '/' :: _ => true
  | _ => false

/-- The text with one more part, after a slash if it has none at its end. -/
def extend (base part : String) : String :=
  if base.toList.getLast? = some '/' then base ++ part else base ++ "/" ++ part

/-- The path from the root, seen from `base`.  Dots and repeated slashes go, `..` stays, and
one slash at the end stays if there is one.  The empty path has none. -/
def absolute? (base p : Path) : Option Path :=
  if p.text.isEmpty then none
  else
    let start :=
      if p.hasDoubleRoot then "//" else if p.isAbsolute then "/" else base.text
    let parts := (pieces p.text.toList).filterMap component?
    let text := parts.foldl (fun text part => extend text part.text) start
    some ⟨if p.endsInSlash then extend text "" else text⟩

/-- The name without its last dot and what follows it; a name with no dot but its first
character is whole. -/
def stemOf (name : List Char) : List Char :=
  match (name.reverse.dropWhile (· ≠ '.')).drop 1 with
  | [] => name
  | stem => stem.reverse

/-- The stem of the file a path names, if its last component is a name. -/
def stem? (p : Path) : Option String :=
  match p.components.getLast? with
  | some (.name n) => some (String.ofList (stemOf n.toList))
  | _ => none

end Path

end ScriptBackend
