/-! # Reading characters

Readers take the characters that are left and give a value with what is left after it, or
nothing if the text does not begin with what they look for.  This module reads what all parts
of a TOML document share: blanks, line ends and comments, and the digits of numbers.
-/
namespace ScriptBackend.Toml

/-- Reads a value from the front of a text. -/
abbrev Reader (α : Type) := List Char → Option (α × List Char)

/-- A space or a tab. -/
def isBlank (c : Char) : Bool :=
  c = ' ' || c = '\t'

/-- A character that may stand in a comment: no control character but the tab. -/
def isCommentChar (c : Char) : Bool :=
  c = '\t' || (' ' ≤ c && c ≠ '\x7f')

/-- A decimal digit. -/
def isDecimalDigit (c : Char) : Bool :=
  '0' ≤ c && c ≤ '9'

/-- The text after its leading blanks. -/
def skipBlanks (cs : List Char) : List Char :=
  cs.dropWhile isBlank

theorem length_skipBlanks_le (cs : List Char) : (skipBlanks cs).length ≤ cs.length :=
  (List.dropWhile_sublist isBlank).length_le

/-- The text after its leading blanks and line ends. -/
def skipSpace : List Char → List Char
  | [] => []
  | '\r' :: '\n' :: rest => skipSpace rest
  | c :: rest => if isBlank c || c = '\n' then skipSpace rest else c :: rest

theorem length_skipSpace_le (cs : List Char) : (skipSpace cs).length ≤ cs.length := by
  fun_induction skipSpace cs <;> simp_all <;> omega

/-- The text after its leading blanks, line ends and comments. -/
def skipGap (inComment : Bool) : List Char → List Char
  | [] => []
  | '\r' :: '\n' :: rest => skipGap false rest
  | '\n' :: rest => skipGap false rest
  | c :: rest =>
    if inComment && isCommentChar c then skipGap true rest
    else if !inComment && isBlank c then skipGap false rest
    else if !inComment && c = '#' then skipGap true rest
    else c :: rest

/-- The text after a line end. -/
def lineEnd? : List Char → Option (List Char)
  | '\n' :: rest => some rest
  | '\r' :: '\n' :: rest => some rest
  | _ => none

theorem length_lt_of_lineEnd? {cs rest : List Char} (h : lineEnd? cs = some rest) :
    rest.length < cs.length := by
  unfold lineEnd? at h
  split at h
  · cases h; simp
  · cases h; simp only [List.length_cons]; omega
  · cases h

/-- The text after a comment, if there is one. -/
def skipComment : List Char → List Char
  | '#' :: rest => rest.dropWhile isCommentChar
  | cs => cs

/-- The text after the rest of a line on which nothing but a comment may follow. -/
def finishLine? (cs : List Char) : Option (List Char) :=
  match skipComment (skipBlanks cs) with
  | [] => some []
  | cs => lineEnd? cs

/-- The value of a digit in the given base, at most sixteen. -/
def digitValue? (base : Nat) (c : Char) : Option Nat :=
  let d :=
    if isDecimalDigit c then c.toNat - '0'.toNat
    else if 'a' ≤ c && c ≤ 'f' then c.toNat - 'a'.toNat + 10
    else if 'A' ≤ c && c ≤ 'F' then c.toNat - 'A'.toNat + 10
    else base
  if d < base then some d else none

/-- The number written by the digits, the most significant one first. -/
def ofDigits (base : Nat) (digits : List Nat) : Nat :=
  digits.foldl (fun n d => n * base + d) 0

/-- Reads digits, each of which may have one underscore before it. -/
def moreDigits (base : Nat) : List Char → List Nat × List Char
  | [] => ([], [])
  | '_' :: c :: rest =>
    match digitValue? base c with
    | some d => let (ds, left) := moreDigits base rest; (d :: ds, left)
    | none => ([], '_' :: c :: rest)
  | c :: rest =>
    match digitValue? base c with
    | some d => let (ds, left) := moreDigits base rest; (d :: ds, left)
    | none => ([], c :: rest)

/-- Reads one or more digits, with single underscores between them. -/
def digits (base : Nat) : Reader (List Nat)
  | [] => none
  | c :: rest => do
    let d ← digitValue? base c
    let (ds, left) := moreDigits base rest
    some (d :: ds, left)

/-- Reads a number of exactly `count` decimal digits. -/
def fixedDigits (count : Nat) : Reader Nat := fun cs => do
  let ds ← (cs.take count).mapM (digitValue? 10)
  if ds.length = count then some (ofDigits 10 ds, cs.drop count) else none

/-- Reads the given character. -/
def mark (c : Char) : List Char → Option (List Char)
  | [] => none
  | d :: rest => if d = c then some rest else none

/-- Reads the given word. -/
def word (w : List Char) (cs : List Char) : Option (List Char) :=
  if w.isPrefixOf cs then some (cs.drop w.length) else none

/-- Reads an optional sign: whether it is a minus. -/
def sign : List Char → Bool × List Char
  | '-' :: rest => (true, rest)
  | '+' :: rest => (false, rest)
  | cs => (false, cs)

end ScriptBackend.Toml
