import Mathlib.Data.List.Induction
import ScriptBackend.Proofs.Indentation
import ScriptBackend.Proofs.UnboundedWriter

/-! # The lines that a writer gives

Whatever is done with a writer, its text has the lines of what was written, and each line
that is not empty has the spaces of the level at which its first character came.

To say so, each character is kept together with the level in force when it was written
(`Writer.written`).  The level is carried along the operations and not asked of the writer; that
the writer has the same one is a fact about each operation (`Writer.level_perform`).  One more
character goes on the last line of the text and of what was written alike, or begins a new line
in both (`Writer.Shows.put`).  The spaces of a line are still to come exactly as long as nothing
was written on it.
-/
namespace ScriptBackend.Script

section Pieces

variable {α : Type} {p : α → Bool}

/-- There is a last piece, and what has no separator in it goes on this one. -/
theorem exists_splitOnP_append (p : α → Bool) (xs : List α) :
    ∃ front last, xs.splitOnP p = front ++ [last] ∧
      ∀ ys, (∀ y ∈ ys, p y = false) → (xs ++ ys).splitOnP p = front ++ [last ++ ys] := by
  induction xs using List.reverseRecOn with
  | nil => exact ⟨[], [], rfl, fun ys hys => List.splitOnP_eq_singleton hys⟩
  | append_singleton xs x ih =>
    cases hx : p x with
    | true =>
      refine ⟨xs.splitOnP p, [], List.splitOnP_append_cons xs [] hx, fun ys hys => ?_⟩
      rw [List.append_assoc, List.singleton_append, List.splitOnP_append_cons xs ys hx,
        List.splitOnP_eq_singleton hys, List.nil_append]
    | false =>
      obtain ⟨front, last, -, hmore⟩ := ih
      refine ⟨front, last ++ [x], hmore [x] (by simpa using hx), fun ys hys => ?_⟩
      rw [List.append_assoc, hmore _ (by simpa [hx] using hys), List.append_assoc]

theorem splitOnP_append_of_forall {xs ys last : List α} {front : List (List α)}
    (h : xs.splitOnP p = front ++ [last]) (hys : ∀ y ∈ ys, p y = false) :
    (xs ++ ys).splitOnP p = front ++ [last ++ ys] := by
  obtain ⟨front', last', h', hmore⟩ := exists_splitOnP_append p xs
  obtain ⟨rfl, hlast⟩ := List.append_inj' (h.symm.trans h') rfl
  obtain rfl := List.singleton_inj.mp hlast
  exact hmore ys hys

end Pieces

/-- The lines of a text whose characters are marked with levels. -/
def markedLines (marks : List (Char × Nat)) : List (List (Char × Nat)) :=
  marks.splitOnP (·.1 == '\n')

/-- The level of the first character, if there is one. -/
def firstLevel : List (Char × Nat) → Nat
  | [] => 0
  | (_, level) :: _ => level

/-- The level at which the first character of a line was written, if it has one. -/
def lineLevel (marks : List (Char × Nat)) (k : Nat) : Nat :=
  firstLevel ((markedLines marks)[k]?.getD [])

/-- A line with the spaces of the level at which it begins. -/
def indentMarked (width : Nat) (line : List (Char × Nat)) : List Char :=
  indentLine (width * firstLevel line) (line.map Prod.fst)

theorem indentMarked_append {width : Nat} {line : List (Char × Nat)} (h : line ≠ [])
    (m : Char × Nat) : indentMarked width (line ++ [m]) = indentMarked width line ++ [m.1] := by
  cases line with
  | nil => exact absurd rfl h
  | cons first line => simp [indentMarked, firstLevel, indentLine_cons]

theorem indentMarked_eq_nil_iff {width : Nat} {line : List (Char × Nat)} :
    indentMarked width line = [] ↔ line = [] := by
  cases line with
  | nil => simp [indentMarked]
  | cons first line => simp [indentMarked, indentLine_cons]

/-- The marks make no difference to where a text is cut into lines. -/
theorem map_markedLines (marks : List (Char × Nat)) :
    (marks.map Prod.fst).splitOn '\n' = (markedLines marks).map (·.map Prod.fst) := by
  induction marks with
  | nil => rfl
  | cons m marks ih =>
    obtain ⟨first, rest, hlines⟩ :=
      List.exists_cons_of_ne_nil (List.splitOnP_ne_nil (·.1 == '\n') marks)
    unfold markedLines at ih ⊢
    rw [List.map_cons, List.splitOn_cons_eq_if_modifyHead, ih,
      List.splitOnP_cons_eq_if_modifyHead, hlines]
    split <;> rfl

/-- A text has nothing on its last line exactly if it is empty or ends a line. -/
theorem getLast?_splitOn_eq_nil_iff (cs : List Char) :
    (cs.splitOn '\n').getLast? = some [] ↔ cs = [] ∨ cs.getLast? = some '\n' := by
  rcases List.eq_nil_or_concat cs with rfl | ⟨front, c, rfl⟩
  · simp
  · rw [List.concat_eq_append, List.splitOn_eq_splitOnP]
    by_cases hc : c = '\n'
    · subst hc
      rw [List.splitOnP_append_cons front [] (by simp)]
      simp
    · obtain ⟨pieces, last, -, hmore⟩ := exists_splitOnP_append (· == '\n') front
      rw [hmore [c] (by simpa using hc)]
      simp [hc]

namespace Writer

/-- The characters of a text that a writer takes, up to the first that it refuses. -/
def taken (w : Writer) : List Char → List Char
  | [] => []
  | c :: cs =>
    match w.refusal? c with
    | some _ => []
    | none => c :: (w.put c).taken cs

/-- The writer after some operations, each done as far as the writer does it. -/
def performAll (w : Writer) (ops : List Op) : Writer :=
  ops.foldl (fun w op => (w.perform op).1) w

/-- The characters that operations write, each with the level in force.  The level is the given
one at first, and then what the operations so far make of it. -/
def written (w : Writer) (level : Nat) : List Op → List (Char × Nat)
  | [] => []
  | op :: ops =>
    (w.taken (op.text?.getD "").toList).map (·, level) ++
      (w.perform op).1.written (op.levelAfter level) ops

variable {w : Writer} {width : Nat} {marks : List (Char × Nat)}

theorem perform_of_text {op : Op} {text : String} (h : op.text? = some text) :
    w.perform op = w.feed text.toList := by
  cases op with
  | write text' =>
    cases h
    rfl
  | line text' =>
    cases h
    rw [perform_line, String.toList_append]
    rfl
  | newLine =>
    cases h
    simp [perform, feed, refusal?, newLine]
  | indent | outdent => cases h

/-- An operation that does not write changes the level, and nothing else. -/
theorem fst_perform_of_no_text {op : Op} (h : op.text? = none) :
    (w.perform op).1 = { w with level := op.levelAfter w.level } ∧
      (w.perform op).1 = w.apply op := by
  cases op with
  | write | line | newLine => cases h
  | indent => exact ⟨rfl, rfl⟩
  | outdent =>
    obtain ⟨output, level, width, atLineStart⟩ := w
    cases level with
    | zero | succ => exact ⟨rfl, rfl⟩

/-- The level of a writer is told by the operations, whether it does all of them or not. -/
theorem level_perform (w : Writer) (op : Op) :
    (w.perform op).1.level = op.levelAfter w.level := by
  cases htext : op.text? with
  | some text =>
    rw [perform_of_text htext, level_feed]
    exact (apply_of_text (w := w) htext).2.2.symm
  | none => rw [(fst_perform_of_no_text htext).1]

theorem taken_of_feed {cs : List Char} (h : (w.feed cs).2 = none) : w.taken cs = cs := by
  induction cs generalizing w with
  | nil => rfl
  | cons c cs ih =>
    unfold feed at h
    unfold taken
    cases hc : w.refusal? c with
    | some r => simp [hc] at h
    | none =>
      simp only [hc] at h ⊢
      rw [ih h]

/-! ### What a character changes -/

/-- The writer has written the marked characters, and nothing else. -/
structure Shows (width : Nat) (marks : List (Char × Nat)) (w : Writer) : Prop where
  sameWidth : w.width = width
  lines : w.output.toList.splitOn '\n' = (markedLines marks).map (indentMarked width)
  /-- The spaces of the last line are still to come if and only if it is empty. -/
  pending : w.atLineStart = true ↔ (markedLines marks).getLast? = some []

/-- At the end of a line an empty one begins. -/
theorem Shows.newLine (h : Shows width marks w) (level : Nat) :
    Shows width (marks ++ [('\n', level)]) (w.put '\n') := by
  have hmarks : markedLines (marks ++ [('\n', level)]) = markedLines marks ++ [[]] :=
    List.splitOnP_append_cons marks [] rfl
  refine ⟨(w.width_put _).trans h.sameWidth, ?_, ?_⟩
  · rw [hmarks, List.map_append, ← h.lines, List.splitOn_eq_splitOnP,
      List.splitOn_eq_splitOnP]
    simp only [put, if_true, String.toList_push]
    exact List.splitOnP_append_cons _ [] (by simp)
  · simp [hmarks, put]

theorem toList_output_put_of_ne (w : Writer) {c : Char} (hc : c ≠ '\n') :
    (w.put c).output.toList = w.output.toList ++
      ((if w.atLineStart then List.replicate w.indentation ' ' else []) ++ [c]) := by
  cases hw : w.atLineStart with
  | true | false => simp [Writer.put, hc, hw]

/-- A character that does not end a line goes on the last one, with the spaces of the line if
it is the first. -/
theorem Shows.put_of_ne (h : Shows width marks w) {c : Char} (hc : c ≠ '\n') :
    Shows width (marks ++ [(c, w.level)]) (w.put c) := by
  obtain ⟨front, last, hmarks, hmore⟩ := exists_splitOnP_append (·.1 == '\n') marks
  have hnew : markedLines (marks ++ [(c, w.level)]) = front ++ [last ++ [(c, w.level)]] :=
    hmore _ (by simpa using hc)
  have hlines : w.output.toList.splitOnP (· == '\n') =
      front.map (indentMarked width) ++ [indentMarked width last] := by
    rw [← List.splitOn_eq_splitOnP, h.lines, markedLines, hmarks, List.map_append,
      List.map_singleton]
  have hpending : w.atLineStart = true ↔ last = [] := by
    rw [h.pending, markedLines, hmarks]
    simp
  refine ⟨(w.width_put _).trans h.sameWidth, ?_, ?_⟩
  · rw [hnew, List.map_append, List.map_singleton, List.splitOn_eq_splitOnP,
      toList_output_put_of_ne w hc, splitOnP_append_of_forall hlines]
    · congr 2
      cases hw : w.atLineStart with
      | true =>
        obtain rfl : last = [] := hpending.mp hw
        simp [indentMarked, firstLevel, indentLine_cons, indentation, h.sameWidth, Nat.mul_comm]
      | false =>
        have hlast : last ≠ [] := fun hnil => by simp [hpending.mpr hnil] at hw
        simp [indentMarked_append hlast]
    · intro y hy
      rcases List.mem_append.mp hy with hy | hy
      · split at hy
        · simp [List.eq_of_mem_replicate hy]
        · cases hy
      · simp [List.mem_singleton.mp hy, hc]
  · have hstart : (w.put c).atLineStart = false := by
      cases hw : w.atLineStart with
      | true | false => simp [put, hc, hw]
    simp [hstart, hnew]

/-- **One more character keeps the lines together.** -/
theorem Shows.put (h : Shows width marks w) (c : Char) :
    Shows width (marks ++ [(c, w.level)]) (w.put c) := by
  by_cases hc : c = '\n'
  · exact hc ▸ h.newLine w.level
  · exact h.put_of_ne hc

theorem Shows.feed (h : Shows width marks w) (cs : List Char) :
    Shows width (marks ++ (w.taken cs).map (·, w.level)) (w.feed cs).1 := by
  induction cs generalizing w marks with
  | nil => simpa [taken, Writer.feed] using h
  | cons c cs ih =>
    unfold taken Writer.feed
    cases w.refusal? c with
    | some r => simpa using h
    | none => simpa using ih (h.put c)

theorem Shows.perform (h : Shows width marks w) (op : Op) :
    Shows width (marks ++ (w.taken (op.text?.getD "").toList).map (·, w.level))
      (w.perform op).1 := by
  cases htext : op.text? with
  | some text =>
    rw [perform_of_text htext]
    exact h.feed text.toList
  | none =>
    -- only the level changes, and the lines that there are do not depend on it
    rw [(fst_perform_of_no_text htext).1]
    simp only [Option.getD_none, String.toList_empty, taken, List.map_nil, List.append_nil]
    exact ⟨h.sameWidth, h.lines, h.pending⟩

theorem Shows.performAll (h : Shows width marks w) (ops : List Op) :
    Shows width (marks ++ w.written w.level ops) (w.performAll ops) := by
  induction ops generalizing w marks with
  | nil => simpa [written, Writer.performAll] using h
  | cons op ops ih =>
    rw [written, ← level_perform, ← List.append_assoc]
    exact ih (h.perform op)

theorem shows_fresh (width : Nat) : Shows width [] { width } where
  sameWidth := rfl
  lines := rfl
  pending := by simp [markedLines]

/-! ### What is not written -/

/-- Everything is written and the writer is as without bounds, or the text would be too long. -/
theorem written_eq_plainText (w : Writer) (level : Nat) (ops : List Op) :
    w.performAll ops = w.applyAll ops ∧
        (w.written level ops).map Prod.fst = (plainText ops).toList ∨
      lengthLimit < (w.applyAll ops).output.utf8ByteSize := by
  induction ops generalizing w level with
  | nil => exact Or.inl ⟨rfl, rfl⟩
  | cons op ops ih =>
    rw [performAll, List.foldl_cons, ← performAll, applyAll_cons, written]
    cases htext : op.text? with
    | some text =>
      obtain ⟨happly, -, -⟩ := apply_of_text (w := w) htext
      rw [perform_of_text htext, happly, plainText_cons htext]
      rcases feed_agrees w text.toList with hfeed | ⟨hsize, -⟩
      · have htaken : w.taken text.toList = text.toList := taken_of_feed (by rw [hfeed])
        have hwrite : (w.feed text.toList).1 = w.write text := by
          rw [hfeed]
          rfl
        rw [hwrite]
        refine (ih (w.write text) (op.levelAfter level)).imp_left fun ⟨hsame, hrest⟩ => ⟨hsame, ?_⟩
        rw [Option.getD_some, htaken, List.map_append, hrest, String.toList_append]
        simp [Function.comp_def]
      · exact Or.inr (Nat.lt_of_lt_of_le hsize (size_le_applyAll (w.write text) ops))
    | none =>
      have hplain : plainText (op :: ops) = plainText ops := by
        rw [plainText, List.filterMap_cons_none htext, plainText]
      rw [(fst_perform_of_no_text htext).2, hplain]
      simpa [taken] using ih (w.apply op) (op.levelAfter level)

/-- **The text of a writer has the lines of what was written, each with its spaces.**  There
are as many lines, and each is the line that was written, behind the spaces of the level at
which its first character came unless it is empty.  The level is counted along the operations:
from zero, one more for an indent and one less for an outdent, which does nothing at level zero.
A line is begun exactly if the text is not empty and does not end a line.  What was written is
all that was to be written, unless the text with it is longer than any text can be. -/
theorem performAll_indents_lines (width : Nat) (ops : List Op) :
    let start : Writer := { width }
    let marks := start.written 0 ops
    let plain := (marks.map Prod.fst).splitOn '\n'
    let shown := (start.performAll ops).output.toList.splitOn '\n'
    shown.length = plain.length ∧
      (∀ k line, plain[k]? = some line →
        shown[k]? = some (indentLine (width * lineLevel marks k) line)) ∧
      ((start.performAll ops).atLineStart = true ↔ (start.performAll ops).output = "" ∨
        (start.performAll ops).output.toList.getLast? = some '\n') ∧
      (marks.map Prod.fst = (plainText ops).toList ∨
        lengthLimit < (start.applyAll ops).output.utf8ByteSize) := by
  intro start marks plain shown
  have hshows : Shows width marks (start.performAll ops) := (shows_fresh width).performAll ops
  have hshown : shown = (markedLines marks).map (indentMarked width) := hshows.lines
  have hplain : plain = (markedLines marks).map (·.map Prod.fst) := map_markedLines marks
  refine ⟨by simp [hshown, hplain], ?_, ?_, ?_⟩
  · intro k line hline
    rw [hplain, List.getElem?_map] at hline
    obtain ⟨marked, hmarked, rfl⟩ := Option.map_eq_some_iff.mp hline
    rw [hshown, List.getElem?_map, hmarked, Option.map_some, lineLevel, hmarked, Option.getD_some,
      indentMarked]
  · rw [← String.toList_eq_nil_iff, ← getLast?_splitOn_eq_nil_iff, hshows.pending, hshows.lines,
      List.getLast?_map]
    simp [indentMarked_eq_nil_iff]
  · exact (written_eq_plainText start 0 ops).imp_left And.right

end Writer
end ScriptBackend.Script
