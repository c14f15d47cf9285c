/-! # Indented text

A writer takes text piece by piece and indents it.  The indentation of a line is written
together with its first character, at the level in force by then, so an empty line stays
empty and the lines of a longer text are indented one by one.

The spaces of a line are counted in a machine word, and no text is longer than a signed one
can tell.  So there are two ways to write: `write` knows no bounds, while `feed` stops at the
first line whose indentation exceeds them.  Where `feed` takes everything, both agree
(`feed_eq_write`).
-/
namespace ScriptBackend.Script

/-- A text under way. -/
structure Writer where
  output : String := ""
  /-- The depth of the indentation. -/
  level : Nat := 0
  /-- The number of spaces of one level. -/
  width : Nat := 2
  /-- Nothing stands on the current line yet. -/
  atLineStart : Bool := true
  deriving DecidableEq, Repr

namespace Writer

/-- The number of spaces of a line that begins now. -/
def indentation (w : Writer) : Nat :=
  w.level * w.width

/-- The writer with one more character. -/
def put (w : Writer) (c : Char) : Writer :=
  if c = '\n' then { w with output := w.output.push '\n', atLineStart := true }
  else if w.atLineStart then
    { w with
      output := (w.output ++ String.ofList (List.replicate w.indentation ' ')).push c
      atLineStart := false }
  else { w with output := w.output.push c }

/-- The writer with one more text. -/
def write (w : Writer) (text : String) : Writer :=
  text.toList.foldl put w

@[simp]
theorem write_empty (w : Writer) : w.write "" = w := rfl

/-- A text can be written in any number of pieces. -/
theorem write_append (w : Writer) (s t : String) : w.write (s ++ t) = (w.write s).write t := by
  simp [write]

@[simp]
theorem level_put (w : Writer) (c : Char) : (w.put c).level = w.level := by
  unfold put
  split
  · rfl
  · split <;> rfl

/-- Writing text does not change the level. -/
@[simp]
theorem level_write (w : Writer) (text : String) : (w.write text).level = w.level := by
  unfold write
  induction text.toList generalizing w with
  | nil => rfl
  | cons c cs ih => rw [List.foldl_cons, ih, level_put]

/-- Why a writer refuses an operation. -/
inductive Refusal where
  /-- An outdent at level zero. -/
  | outdentBelowZero
  /-- The spaces of a line are too many to count. -/
  | indentationOverflow
  /-- With the spaces of a line the text is too long. -/
  | lengthOverflow
  deriving DecidableEq, Repr

/-- The message of a refusal. -/
def Refusal.message : Refusal → String
  | .outdentBelowZero => "outdent below zero"
  | .indentationOverflow => "attempt to multiply with overflow"
  | .lengthOverflow => "capacity overflow"

/-- The greatest number of spaces that can be counted, that of 64 bits. -/
def countLimit : Nat := 0xFFFFFFFFFFFFFFFF

/-- The greatest length of a text in bytes, that of 63 bits. -/
def lengthLimit : Nat := 0x7FFFFFFFFFFFFFFF

/-- Why no line can begin at the current level, if none can. -/
def overflow? (w : Writer) : Option Refusal :=
  if countLimit < w.indentation then some .indentationOverflow
  else if lengthLimit < w.output.utf8ByteSize + w.indentation then some .lengthOverflow
  else none

/-- Why a character is refused, if it is.  Only the first of a line can be, because the
indentation comes with it. -/
def refusal? (w : Writer) (c : Char) : Option Refusal :=
  if w.atLineStart && c ≠ '\n' then w.overflow? else none

/-- The writer with the characters up to the first that it refuses, and why it refuses that
one. -/
def feed (w : Writer) : List Char → Writer × Option Refusal
  | [] => (w, none)
  | c :: cs =>
    match w.refusal? c with
    | some refusal => (w, some refusal)
    | none => (w.put c).feed cs

/-- Writing within the bounds does not change the level either. -/
@[simp]
theorem level_feed (w : Writer) (cs : List Char) : (w.feed cs).1.level = w.level := by
  induction cs generalizing w with
  | nil => rfl
  | cons c cs ih =>
    unfold feed
    split
    · rfl
    · rw [ih, level_put]

theorem feed_eq_foldl {w : Writer} {cs : List Char} (taken : (w.feed cs).2 = none) :
    (w.feed cs).1 = cs.foldl put w := by
  induction cs generalizing w with
  | nil => rfl
  | cons c cs ih =>
    unfold feed at taken ⊢
    split at taken
    · simp at taken
    · simp [*]

/-- A text that is taken to its end is written as if there were no bounds. -/
theorem feed_eq_write {w : Writer} {text : String} (taken : (w.feed text.toList).2 = none) :
    (w.feed text.toList).1 = w.write text :=
  feed_eq_foldl taken

/-- The writer at the beginning of the next line. -/
def newLine (w : Writer) : Writer :=
  w.put '\n'

/-- The writer one level deeper. -/
def indent (w : Writer) : Writer :=
  { w with level := w.level + 1 }

/-- The writer one level less deep; at level zero there is none. -/
def outdent? (w : Writer) : Option Writer :=
  if w.level = 0 then none else some { w with level := w.level - 1 }

/-- What can be done with a writer. -/
inductive Op where
  | write (text : String)
  | line (text : String)
  | newLine
  | indent
  | outdent
  deriving DecidableEq, Repr

/-- Goes on with the writer unless it has refused something. -/
def andThen (result : Writer × Option Refusal) (next : Writer → Writer × Option Refusal) :
    Writer × Option Refusal :=
  match result with
  | (w, none) => next w
  | (w, some refusal) => (w, some refusal)

theorem feed_append (w : Writer) (cs ds : List Char) :
    w.feed (cs ++ ds) = andThen (w.feed cs) (·.feed ds) := by
  induction cs generalizing w with
  | nil => rfl
  | cons c cs ih =>
    rw [List.cons_append, feed, feed]
    cases w.refusal? c with
    | some refusal => rfl
    | none => exact ih (w.put c)

/-- A line end is never refused. -/
theorem feed_newLine (w : Writer) : w.feed ['\n'] = (w.newLine, none) := by
  simp [feed, refusal?, newLine]

/-- The writer after an operation, and why it did not do all of it, if so. -/
def perform (w : Writer) : Op → Writer × Option Refusal
  | .write text => w.feed text.toList
  | .line text => andThen (w.feed text.toList) fun next => (next.newLine, none)
  | .newLine => (w.newLine, none)
  | .indent => (w.indent, none)
  | .outdent =>
    match w.outdent? with
    | some next => (next, none)
    | none => (w, some .outdentBelowZero)

/-- Writing a line is writing its text with the line end. -/
theorem perform_line (w : Writer) (text : String) :
    w.perform (.line text) = w.feed (text.toList ++ ['\n']) := by
  rw [perform, feed_append]
  simp only [feed_newLine]

/-- The writer after the operations up to the first that it refuses, and why it refuses that
one. -/
def run (w : Writer) : List Op → Writer × Option Refusal
  | [] => (w, none)
  | op :: ops =>
    match w.perform op with
    | (next, none) => next.run ops
    | (next, some refusal) => (next, some refusal)

end Writer

end ScriptBackend.Script
