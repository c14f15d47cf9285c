import ScriptBackend.Proofs.RenderedLines
import ScriptBackend.Proofs.SessionRecord

/-! # Texts in pieces

Text comes to a writer in pieces, and a cut may fall anywhere: beside a line end, between two of
them, or where the spaces of a line are still to come.  None of this shows.  The characters of the
pieces are taken one after the other, up to the first that is refused, so all operations that only
write leave the writer as their text as a whole does (`run_of_prints`).

The lines of a text, on the other hand, are not those of its pieces.  Line by line (`writeLines`),
a text is cut at its line ends, and what stands between two of them is written at once, behind the
spaces of the line if nothing is on it yet and there is something to write.  That this is the same
(`feed_eq_writeLines`) goes by induction on the lines; within a line only the first character can
be refused.
-/
namespace ScriptBackend.Script.Writer

variable {w : Writer}

theorem andThen_done (result : Writer × Option Refusal) : andThen result (·, none) = result := by
  rcases result with ⟨w, _ | refusal⟩
  · rfl
  · rfl

theorem run_cons (w : Writer) (op : Op) (ops : List Op) :
    w.run (op :: ops) = andThen (w.perform op) (·.run ops) := by
  rw [run]
  rcases w.perform op with ⟨next, _ | refusal⟩
  · rfl
  · rfl

/-- **Operations that only write do what their text does**, whether all of it is written or a
part. -/
theorem run_of_prints {ops : List Op} {text : String} (h : Prints ops text) (w : Writer) :
    w.run ops = w.feed text.toList := by
  obtain ⟨honly, rfl⟩ := h
  induction ops generalizing w with
  | nil => rfl
  | cons op ops ih =>
    obtain ⟨text, htext⟩ := Option.isSome_iff_exists.mp (honly op List.mem_cons_self)
    have hrest (next : Writer) : next.run ops = next.feed (plainText ops).toList :=
      ih next fun o ho => honly o (List.mem_cons_of_mem op ho)
    rw [run_cons, perform_of_text htext, plainText_cons htext, String.toList_append, feed_append]
    simp only [hrest]

theorem prints_write (text : String) : Prints [.write text] text :=
  .single rfl

theorem prints_map_write (pieces : List String) :
    Prints (pieces.map .write) (String.join pieces) := by
  induction pieces with
  | nil => exact .nil
  | cons piece pieces ih =>
    rw [List.map_cons, String.join_cons]
    exact (prints_write piece).append ih

/-! ### Line by line -/

/-- The writer with a piece of a line.  The first piece that is not empty comes with the spaces of
the line, and is refused if these are too many. -/
def fragment (w : Writer) (piece : List Char) : Writer × Option Refusal :=
  if piece = [] then (w, none)
  else if w.atLineStart then
    match w.overflow? with
    | some refusal => (w, some refusal)
    | none =>
      ({ w with
        output := w.output ++ String.ofList (List.replicate w.indentation ' ' ++ piece)
        atLineStart := false }, none)
  else ({ w with output := w.output ++ String.ofList piece }, none)

/-- The writer with further lines, each behind a line end. -/
def nextLines (w : Writer) : List (List Char) → Writer × Option Refusal
  | [] => (w, none)
  | line :: lines => andThen (w.newLine.fragment line) (·.nextLines lines)

/-- The writer with a text, line by line. -/
def writeLines (w : Writer) (text : String) : Writer × Option Refusal :=
  match text.toList.splitOn '\n' with
  | [] => (w, none)
  | first :: rest => andThen (w.fragment first) (·.nextLines rest)

/-- On a line that has begun, nothing is refused. -/
theorem feed_of_not_atLineStart {piece : List Char} (h : w.atLineStart = false)
    (hline : '\n' ∉ piece) :
    w.feed piece = ({ w with output := w.output ++ String.ofList piece }, none) := by
  induction piece generalizing w with
  | nil => simp [feed]
  | cons c cs ih =>
    obtain ⟨hc, hcs⟩ := List.ne_and_not_mem_of_not_mem_cons hline
    have hput : w.put c = { w with output := w.output.push c } := by simp [put, hc.symm, h]
    have hrefusal : w.refusal? c = none := by simp [refusal?, h]
    have houtput : w.output.push c ++ String.ofList cs = w.output ++ String.ofList (c :: cs) := by
      simp [← String.toList_inj]
    rw [feed, hrefusal, hput, ← houtput]
    exact ih h hcs

/-- A piece of a line is taken as a whole or not at all. -/
theorem feed_eq_fragment {piece : List Char} (hline : '\n' ∉ piece) :
    w.feed piece = w.fragment piece := by
  rcases piece with _ | ⟨c, cs⟩
  · rfl
  rw [fragment, if_neg (List.cons_ne_nil c cs)]
  by_cases hw : w.atLineStart = true
  · obtain ⟨hc, hcs⟩ := List.ne_and_not_mem_of_not_mem_cons hline
    have hrefusal : w.refusal? c = w.overflow? := by simp [refusal?, hw, hc.symm]
    rw [feed, hrefusal, if_pos hw]
    cases w.overflow? with
    | some refusal => rfl
    | none =>
      -- with its first character the line has begun
      have hput : w.put c =
          { w with
            output := (w.output ++ String.ofList (List.replicate w.indentation ' ')).push c
            atLineStart := false } := by
        simp [put, hc.symm, hw]
      have houtput : (w.output ++ String.ofList (List.replicate w.indentation ' ')).push c ++
          String.ofList cs =
            w.output ++ String.ofList (List.replicate w.indentation ' ' ++ c :: cs) := by
        simp [← String.toList_inj]
      rw [hput, ← houtput]
      exact feed_of_not_atLineStart rfl hcs
  · rw [if_neg hw]
    exact feed_of_not_atLineStart (by simpa using hw) hline

theorem not_mem_of_mem_splitOn {cs line : List Char} (h : line ∈ cs.splitOn '\n') :
    '\n' ∉ line := by
  induction cs generalizing line with
  | nil => simp_all
  | cons c cs ih =>
    obtain ⟨first, rest, hlines⟩ := List.exists_cons_of_ne_nil (List.splitOn_ne_nil '\n' cs)
    rw [List.splitOn_cons_eq_if_modifyHead, hlines] at h
    rw [hlines] at ih
    by_cases hc : c = '\n'
    · rw [if_pos (beq_iff_eq.mpr hc)] at h
      rcases List.mem_cons.mp h with rfl | h
      · exact List.not_mem_nil
      · exact ih h
    · rw [if_neg (by simpa using hc), List.modifyHead_cons] at h
      rcases List.mem_cons.mp h with rfl | h
      · have hfirst : '\n' ∉ first := ih List.mem_cons_self
        simp [hfirst, Ne.symm hc]
      · exact ih (List.mem_cons_of_mem first h)

/-- Lines that are joined are taken line by line. -/
theorem feed_intercalate (w : Writer) (first : List Char) (rest : List (List Char))
    (hlines : ∀ line ∈ first :: rest, '\n' ∉ line) :
    w.feed (['\n'].intercalate (first :: rest)) =
      andThen (w.fragment first) (·.nextLines rest) := by
  obtain ⟨hfirst, hrest⟩ := List.forall_mem_cons.mp hlines
  induction rest generalizing w first with
  | nil =>
    rw [List.intercalate_singleton, feed_eq_fragment hfirst]
    exact (andThen_done _).symm
  | cons line rest ih =>
    obtain ⟨hline, hmore⟩ := List.forall_mem_cons.mp hrest
    rw [List.intercalate_cons_cons, List.append_assoc, feed_append, feed_eq_fragment hfirst]
    refine congrArg (andThen _) (funext fun next => ?_)
    have hnewLine : next.feed ('\n' :: ['\n'].intercalate (line :: rest)) =
        next.newLine.feed (['\n'].intercalate (line :: rest)) := by
      simp [feed, refusal?, newLine]
    exact hnewLine.trans (ih next.newLine line hrest hline hmore)

theorem feed_eq_writeLines (w : Writer) (text : String) :
    w.feed text.toList = w.writeLines text := by
  obtain ⟨first, rest, hlines⟩ :=
    List.exists_cons_of_ne_nil (List.splitOn_ne_nil '\n' text.toList)
  have htext : text.toList = ['\n'].intercalate (first :: rest) := by
    rw [← hlines, List.intercalate_splitOn]
  rw [writeLines, hlines, htext]
  exact w.feed_intercalate first rest fun line hline =>
    not_mem_of_mem_splitOn (by rwa [hlines] : line ∈ text.toList.splitOn '\n')

/-- **The pieces of a text do not show.**  From any state, a text leaves the writer as its two parts
do one after the other, and the same operation refuses, if one does; a line as its text with the
line end behind it; and pieces, however they were cut, as the text that they make up.  All of it
is what the text does line by line. -/
theorem run_pieces_eq_whole (w : Writer) :
    (∀ a b, w.perform (.write (a ++ b)) = w.run [.write a, .write b]) ∧
      (∀ a, w.perform (.line a) = w.perform (.write (a ++ "\n"))) ∧
      (∀ pieces : List String,
        w.run (pieces.map .write) = w.perform (.write (String.join pieces))) ∧
      ∀ text, w.perform (.write text) = w.writeLines text := by
  refine ⟨fun a b => ?_, fun a => ?_, fun pieces => ?_, fun text => ?_⟩
  · exact (run_of_prints ((prints_write a).append (prints_write b)) w).symm
  · rw [perform_line, perform, String.toList_append]
    rfl
  · exact run_of_prints (prints_map_write pieces) w
  · exact w.feed_eq_writeLines text

end ScriptBackend.Script.Writer
