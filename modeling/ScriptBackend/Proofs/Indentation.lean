import Mathlib.Data.List.Basic
import ScriptBackend.Script.Writer

/-! # Indented lines

What a writer adds for a text at one level is the text with each line indented, unless the
line is empty (`indentText`).  A text that goes on a line that has begun is different only
in its first line, which is not indented.
-/
namespace ScriptBackend.Script

/-- A line with spaces before it, unless it is empty. -/
def indentLine (n : Nat) (line : List Char) : List Char :=
  if line = [] then [] else List.replicate n ' ' ++ line

/-- The lines of a text, indented.  The first one is left alone if it goes on a line that has
begun. -/
def indentLines (n : Nat) (atLineStart : Bool) : List (List Char) → List (List Char)
  | [] => []
  | first :: rest =>
    (if atLineStart then indentLine n first else first) :: rest.map (indentLine n)

/-- The text with `n` spaces before each line that is not empty. -/
def indentText (n : Nat) (text : String) : String :=
  String.ofList (['\n'].intercalate ((text.toList.splitOn '\n').map (indentLine n)))

@[simp]
theorem indentLine_nil (n : Nat) : indentLine n [] = [] := rfl

theorem indentLine_cons (n : Nat) (c : Char) (line : List Char) :
    indentLine n (c :: line) = List.replicate n ' ' ++ c :: line := by
  simp [indentLine]

@[simp]
theorem indentLine_zero (line : List Char) : indentLine 0 line = line := by
  unfold indentLine
  split
  · symm; assumption
  · rfl

theorem indentLines_true (n : Nat) (lines : List (List Char)) :
    indentLines n true lines = lines.map (indentLine n) := by
  cases lines with
  | nil => rfl
  | cons first rest => rfl

theorem intercalate_append_cons (sep before line : List Char) (rest : List (List Char)) :
    sep.intercalate ((before ++ line) :: rest) = before ++ sep.intercalate (line :: rest) := by
  cases rest with
  | nil => simp
  | cons next rest => simp

/-- Without spaces nothing changes. -/
@[simp]
theorem indentText_zero (text : String) : indentText 0 text = text := by
  have hid : indentLine 0 = id := funext indentLine_zero
  rw [indentText, hid, List.map_id, List.intercalate_splitOn, String.ofList_toList]

namespace Writer

variable {w : Writer}

@[simp]
theorem indentation_put (w : Writer) (c : Char) : (w.put c).indentation = w.indentation := by
  unfold put
  split
  · rfl
  · split <;> rfl

theorem toList_output_foldl_put (w : Writer) (cs : List Char) :
    (cs.foldl put w).output.toList = w.output.toList ++
      ['\n'].intercalate (indentLines w.indentation w.atLineStart (cs.splitOn '\n')) := by
  induction cs generalizing w with
  | nil => cases hw : w.atLineStart <;> simp [indentLines]
  | cons c cs ih =>
    obtain ⟨first, rest, hlines⟩ := List.exists_cons_of_ne_nil (List.splitOn_ne_nil '\n' cs)
    rw [List.foldl_cons, ih, indentation_put, List.splitOn_cons_eq_if_modifyHead, hlines]
    by_cases hc : c = '\n'
    · -- the line ends, and the next one begins
      subst hc
      simp [put, indentLines]
    · cases hw : w.atLineStart with
      | false => simp [put, hc, hw, indentLines]
      | true => simp [put, hc, hw, indentLines, indentLine_cons, intercalate_append_cons]

/-- At the beginning of a line, all lines of a text are indented. -/
theorem output_write_of_atLineStart (h : w.atLineStart = true) (text : String) :
    (w.write text).output = w.output ++ indentText w.indentation text := by
  rw [← String.toList_inj, write, toList_output_foldl_put, h, indentLines_true]
  simp [indentText]

/-- On a line that has begun, the rest of the line is written as it is. -/
theorem output_write_of_not_atLineStart (h : w.atLineStart = false) {text : String}
    (hline : '\n' ∉ text.toList) : (w.write text).output = w.output ++ text := by
  rw [← String.toList_inj, write, toList_output_foldl_put, h, List.splitOn_eq_singleton hline]
  simp [indentLines]

/-- Whether a line has begun is told by the last character. -/
theorem atLineStart_write (w : Writer) {text : String} {c : Char}
    (h : text.toList.getLast? = some c) : (w.write text).atLineStart = decide (c = '\n') := by
  obtain ⟨cs, hcs⟩ := List.getLast?_eq_some_iff.mp h
  rw [write, hcs, List.foldl_append, List.foldl_cons, List.foldl_nil, put]
  split
  · simp [*]
  · split <;> simp [*]

@[simp]
theorem width_put (w : Writer) (c : Char) : (w.put c).width = w.width := by
  unfold put
  split
  · rfl
  · split <;> rfl

@[simp]
theorem width_write (w : Writer) (text : String) : (w.write text).width = w.width := by
  unfold write
  induction text.toList generalizing w with
  | nil => rfl
  | cons c cs ih => rw [List.foldl_cons, ih, width_put]

/-- Writing changes the text and whether a line has begun, and nothing else. -/
theorem write_eq (w : Writer) (text : String) :
    w.write text =
      { w with output := (w.write text).output, atLineStart := (w.write text).atLineStart } := by
  have hlevel : (w.write text).level = w.level := w.level_write text
  have hwidth : (w.write text).width = w.width := w.width_write text
  rw [← hlevel, ← hwidth]

/-- The writer after a text that begins a line. -/
theorem write_of_atLineStart (h : w.atLineStart = true) {text : String} {c : Char}
    (hc : text.toList.getLast? = some c) :
    w.write text =
      { w with
        output := w.output ++ indentText w.indentation text
        atLineStart := decide (c = '\n') } := by
  rw [write_eq, output_write_of_atLineStart h, w.atLineStart_write hc]

/-- The writer after a text that goes on a line. -/
theorem write_of_not_atLineStart (h : w.atLineStart = false) {text : String} {c : Char}
    (hc : text.toList.getLast? = some c) (hline : '\n' ∉ text.toList) :
    w.write text = { w with output := w.output ++ text } := by
  have hcn : c ≠ '\n' := fun hcn => hline (hcn ▸ List.mem_of_getLast? hc)
  rw [write_eq, output_write_of_not_atLineStart h hline, w.atLineStart_write hc,
    decide_eq_false hcn, ← h]

/-- The writer after a new line. -/
theorem write_newLine (w : Writer) :
    w.write "\n" = { w with output := w.output ++ "\n", atLineStart := true } := by
  have houtput : (w.write "\n").output = w.output ++ "\n" := String.push_eq_append '\n'
  rw [write_eq, houtput, w.atLineStart_write (c := '\n') rfl, decide_eq_true rfl]

end Writer
end ScriptBackend.Script
