import ScriptBackend.Toml.Scan

/-! # Quoted texts

The four ways to write a text: between double quotes with escapes, between single quotes as
it stands, and either on several lines between tripled quotes.
-/
namespace ScriptBackend.Toml

/-- A character that may stand for itself between double quotes. -/
def isBasicChar (c : Char) : Bool :=
  isCommentChar c && c ≠ '\x22' && c ≠ '\\'

/-- A character that may stand between single quotes. -/
def isLiteralChar (c : Char) : Bool :=
  isCommentChar c && c ≠ '\x27'

/-- The escapes of one letter. -/
def escapes : List (Char × Char) :=
  [('b', '\x08'), ('t', '\t'), ('n', '\n'), ('f', '\x0c'), ('r', '\r'), ('\x22', '\x22'),
    ('\\', '\\')]

/-- The character with the given hexadecimal digits, if there is one. -/
def scalar? (cs : List Char) : Option Char := do
  let n := ofDigits 16 (← cs.mapM (digitValue? 16))
  if n.isValidChar then some (Char.ofNat n) else none

/-- Reads what follows the backslash of an escape. -/
def escaped : Reader Char
  | 'u' :: a :: b :: c :: d :: rest => (scalar? [a, b, c, d]).map (·, rest)
  | 'U' :: a :: b :: c :: d :: e :: f :: g :: h :: rest =>
    (scalar? [a, b, c, d, e, f, g, h]).map (·, rest)
  | c :: rest => (escapes.lookup c).map (·, rest)
  | [] => none

theorem length_lt_of_escaped {cs rest : List Char} {c : Char} (h : escaped cs = some (c, rest)) :
    rest.length < cs.length := by
  unfold escaped at h
  split at h
  · obtain ⟨_, _, heq⟩ := Option.map_eq_some_iff.1 h
    cases heq; simp only [List.length_cons]; omega
  · obtain ⟨_, _, heq⟩ := Option.map_eq_some_iff.1 h
    cases heq; simp only [List.length_cons]; omega
  · obtain ⟨_, _, heq⟩ := Option.map_eq_some_iff.1 h
    cases heq; simp
  · cases h

/-- Puts a character in front of a text that was read. -/
def push (c : Char) : Option (List Char × List Char) → Option (List Char × List Char) :=
  Option.map fun (text, rest) => (c :: text, rest)

/-- Reads a text on one line up to its closing double quote. -/
def basicBody (cs : List Char) : Option (List Char × List Char) :=
  match cs with
  | [] => none
  | '\x22' :: rest => some ([], rest)
  | '\\' :: rest =>
    match h : escaped rest with
    | some (c, left) =>
      have := length_lt_of_escaped h
      push c (basicBody left)
    | none => none
  | c :: rest => if isBasicChar c then push c (basicBody rest) else none
termination_by cs.length

/-- Reads a text on one line up to its closing single quote. -/
def literalBody (cs : List Char) : Option (List Char × List Char) := do
  let rest ← mark '\x27' (cs.dropWhile isLiteralChar)
  some (cs.takeWhile isLiteralChar, rest)

/-- The text after a line joined to the next by a backslash: blanks up to the line end, and
all blanks and line ends after it. -/
def joinedLine? (cs : List Char) : Option (List Char) :=
  (lineEnd? (skipBlanks cs)).map skipSpace

theorem length_lt_of_joinedLine? {cs rest : List Char} (h : joinedLine? cs = some rest) :
    rest.length < cs.length := by
  obtain ⟨mid, hmid, rfl⟩ := Option.map_eq_some_iff.1 h
  have := length_lt_of_lineEnd? hmid
  have := length_skipBlanks_le cs
  have := length_skipSpace_le mid
  omega

/-- Reads a text on several lines up to its three closing double quotes.  One or two quotes
more right before these belong to the text. -/
def longBasicBody (cs : List Char) : Option (List Char × List Char) :=
  match cs with
  | [] => none
  | '\x22' :: '\x22' :: '\x22' :: '\x22' :: '\x22' :: rest => some (['\x22', '\x22'], rest)
  | '\x22' :: '\x22' :: '\x22' :: '\x22' :: rest => some (['\x22'], rest)
  | '\x22' :: '\x22' :: '\x22' :: rest => some ([], rest)
  | '\x22' :: rest => push '\x22' (longBasicBody rest)
  | '\r' :: '\n' :: rest => push '\n' (longBasicBody rest)
  | '\n' :: rest => push '\n' (longBasicBody rest)
  | '\\' :: rest =>
    match hj : joinedLine? rest with
    | some left =>
      have := length_lt_of_joinedLine? hj
      longBasicBody left
    | none =>
      match h : escaped rest with
      | some (c, left) =>
        have := length_lt_of_escaped h
        push c (longBasicBody left)
      | none => none
  | c :: rest => if isBasicChar c then push c (longBasicBody rest) else none
termination_by cs.length

/-- Reads a text on several lines up to its three closing single quotes.  One or two quotes
more right before these belong to the text. -/
def longLiteralBody : List Char → Option (List Char × List Char)
  | [] => none
  | '\x27' :: '\x27' :: '\x27' :: '\x27' :: '\x27' :: rest => some (['\x27', '\x27'], rest)
  | '\x27' :: '\x27' :: '\x27' :: '\x27' :: rest => some (['\x27'], rest)
  | '\x27' :: '\x27' :: '\x27' :: rest => some ([], rest)
  | '\x27' :: rest => push '\x27' (longLiteralBody rest)
  | '\r' :: '\n' :: rest => push '\n' (longLiteralBody rest)
  | '\n' :: rest => push '\n' (longLiteralBody rest)
  | c :: rest => if isLiteralChar c then push c (longLiteralBody rest) else none

/-- The text after the line end that may follow tripled opening quotes. -/
def dropFirstLineEnd (cs : List Char) : List Char :=
  (lineEnd? cs).getD cs

/-- Reads a text on one line, in double or single quotes. -/
def shortText : Reader String
  | '\x22' :: rest => (basicBody rest).map (Prod.map String.ofList id)
  | '\x27' :: rest => (literalBody rest).map (Prod.map String.ofList id)
  | _ => none

/-- Reads a text in any of the four forms. -/
def text : Reader String
  | '\x22' :: '\x22' :: '\x22' :: rest =>
    (longBasicBody (dropFirstLineEnd rest)).map (Prod.map String.ofList id)
  | '\x27' :: '\x27' :: '\x27' :: rest =>
    (longLiteralBody (dropFirstLineEnd rest)).map (Prod.map String.ofList id)
  | cs => shortText cs

end ScriptBackend.Toml
