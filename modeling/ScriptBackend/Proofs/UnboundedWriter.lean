import ScriptBackend.Script.Writer

/-! # Writing without bounds

A writer refuses operations for two reasons: an outdent at level zero, and a line whose
indentation makes the text too long.  Here operations are carried out as if there were no
such bounds (`applyAll`).  If no outdent goes below zero (`Grounded`), a run either does the
same, or the text without bounds is longer than any text can be (`run_agrees`).
-/
namespace ScriptBackend.Script.Writer

variable {w : Writer}

/-- The text that an operation writes, if it is one that writes. -/
def Op.text? : Op → Option String
  | .write text => some text
  | .line text => some (text ++ "\n")
  | .newLine => some "\n"
  | .indent | .outdent => none

/-- What operations write, without its indentation. -/
def plainText (ops : List Op) : String :=
  String.join (ops.filterMap Op.text?)

/-- The writer after an operation, as if there were no bounds.  An outdent at level zero does
nothing. -/
def apply (w : Writer) : Op → Writer
  | .write text => w.write text
  | .line text => w.write (text ++ "\n")
  | .newLine => w.write "\n"
  | .indent => w.indent
  | .outdent => { w with level := w.level - 1 }

/-- The writer after some operations, as if there were no bounds. -/
def applyAll (w : Writer) (ops : List Op) : Writer :=
  ops.foldl apply w

/-- The level after an operation. -/
def Op.levelAfter (level : Nat) : Op → Nat
  | .indent => level + 1
  | .outdent => level - 1
  | .write _ | .line _ | .newLine => level

/-- No outdent of the operations is reached at level zero. -/
def Grounded (level : Nat) : List Op → Prop
  | [] => True
  | op :: ops => (op = .outdent → 0 < level) ∧ Grounded (op.levelAfter level) ops

@[simp]
theorem applyAll_nil (w : Writer) : w.applyAll [] = w := rfl

@[simp]
theorem applyAll_cons (w : Writer) (op : Op) (ops : List Op) :
    w.applyAll (op :: ops) = (w.apply op).applyAll ops := rfl

theorem applyAll_append (w : Writer) (ops ops' : List Op) :
    w.applyAll (ops ++ ops') = (w.applyAll ops).applyAll ops' :=
  List.foldl_append

theorem level_apply (w : Writer) (op : Op) : (w.apply op).level = op.levelAfter w.level := by
  cases op with
  | write text | line text => exact level_write w _
  | newLine => exact level_write w _
  | indent | outdent => rfl

theorem plainText_cons {op : Op} {text : String} (h : op.text? = some text) (ops : List Op) :
    plainText (op :: ops) = text ++ plainText ops := by
  rw [plainText, List.filterMap_cons_some h, String.join_cons, plainText]

theorem plainText_append (ops ops' : List Op) :
    plainText (ops ++ ops') = plainText ops ++ plainText ops' := by
  rw [plainText, List.filterMap_append, String.join_append, plainText, plainText]

theorem apply_of_text {op : Op} {text : String} (h : op.text? = some text) :
    w.apply op = w.write text ∧ op ≠ .outdent ∧ op.levelAfter w.level = w.level := by
  cases op with
  | write | line | newLine =>
    cases h
    exact ⟨rfl, nofun, rfl⟩
  | indent | outdent => cases h

/-- The operations lead from one writer to the other, and never below level zero. -/
structure Leads (w : Writer) (ops : List Op) (next : Writer) : Prop where
  applyAll : w.applyAll ops = next
  grounded : Grounded w.level ops

theorem Leads.append {next last : Writer} {ops ops' : List Op} (h : Leads w ops next)
    (h' : Leads next ops' last) : Leads w (ops ++ ops') last := by
  refine ⟨by rw [applyAll_append, h.applyAll, h'.applyAll], ?_⟩
  obtain ⟨rfl, hground⟩ := h
  have hground' := h'.grounded
  clear h'
  induction ops generalizing w with
  | nil => exact hground'
  | cons op ops ih =>
    have hrest : Grounded (w.apply op).level ops := by
      rw [level_apply]
      exact hground.2
    refine ⟨hground.1, ?_⟩
    rw [← level_apply]
    exact ih hrest hground'

/-- The operations write this text and do nothing else. -/
structure Prints (ops : List Op) (text : String) : Prop where
  only : ∀ op ∈ ops, op.text?.isSome = true
  text : plainText ops = text

theorem Prints.nil : Prints [] "" :=
  ⟨fun _ hop => absurd hop List.not_mem_nil, rfl⟩

theorem Prints.single {op : Op} {text : String} (h : op.text? = some text) : Prints [op] text := by
  refine ⟨fun o ho => ?_, ?_⟩
  · rw [List.mem_singleton.mp ho, h]
    rfl
  · rw [plainText_cons h]
    exact String.append_empty

theorem Prints.append {ops ops' : List Op} {text text' : String} (h : Prints ops text)
    (h' : Prints ops' text') : Prints (ops ++ ops') (text ++ text') :=
  ⟨List.forall_mem_append.mpr ⟨h.only, h'.only⟩, by rw [plainText_append, h.text, h'.text]⟩

/-- Operations that only write, write their text. -/
theorem Prints.leads {ops : List Op} {text : String} (h : Prints ops text) (w : Writer) :
    Leads w ops (w.write text) := by
  obtain ⟨honly, rfl⟩ := h
  induction ops generalizing w with
  | nil => exact ⟨rfl, trivial⟩
  | cons op ops ih =>
    obtain ⟨text, htext⟩ := Option.isSome_iff_exists.mp (honly op List.mem_cons_self)
    obtain ⟨happly, hne, hlevel⟩ := apply_of_text (w := w) htext
    have hrest : Leads (w.write text) ops ((w.write text).write (plainText ops)) :=
      ih (w.write text) fun o ho => honly o (List.mem_cons_of_mem op ho)
    refine ⟨?_, fun hout => absurd hout hne, ?_⟩
    · rw [applyAll_cons, happly, hrest.applyAll, plainText_cons htext, write_append]
    · rw [hlevel, ← level_write w text]
      exact hrest.grounded

theorem Leads.indent (w : Writer) : Leads w [.indent] w.indent :=
  ⟨rfl, by simp [Grounded]⟩

/-! ### The length of the text -/

theorem size_le_put (w : Writer) (c : Char) :
    w.output.utf8ByteSize ≤ (w.put c).output.utf8ByteSize := by
  unfold put
  split
  · simp
  · split
    · simp only [String.utf8ByteSize_push, String.utf8ByteSize_append]
      omega
    · simp

theorem size_le_foldl_put (w : Writer) (cs : List Char) :
    w.output.utf8ByteSize ≤ (cs.foldl put w).output.utf8ByteSize := by
  induction cs generalizing w with
  | nil => exact Nat.le_refl _
  | cons c cs ih => exact Nat.le_trans (size_le_put w c) (ih (w.put c))

theorem size_le_apply (w : Writer) (op : Op) :
    w.output.utf8ByteSize ≤ (w.apply op).output.utf8ByteSize := by
  cases op with
  | write | line | newLine => exact size_le_foldl_put w _
  | indent | outdent => exact Nat.le_refl _

theorem size_le_applyAll (w : Writer) (ops : List Op) :
    w.output.utf8ByteSize ≤ (w.applyAll ops).output.utf8ByteSize := by
  induction ops generalizing w with
  | nil => exact Nat.le_refl _
  | cons op ops ih => exact Nat.le_trans (size_le_apply w op) (ih (w.apply op))

theorem utf8ByteSize_spaces (n : Nat) :
    (String.ofList (List.replicate n ' ')).utf8ByteSize = n := by
  induction n with
  | zero => rfl
  | succ n ih =>
    rw [List.replicate_succ', String.ofList_append, String.utf8ByteSize_append, ih]
    rfl

/-- A character is refused only if with it the text is too long. -/
theorem size_put_of_refusal {c : Char} {r : Refusal} (h : w.refusal? c = some r) :
    r ≠ .outdentBelowZero ∧ lengthLimit < (w.put c).output.utf8ByteSize := by
  unfold refusal? at h
  split at h
  case isFalse => cases h
  case isTrue hstart =>
    simp only [Bool.and_eq_true, decide_eq_true_eq] at hstart
    -- the first character of a line comes with the spaces that both bounds are about
    have hput : (w.put c).output.utf8ByteSize =
        w.output.utf8ByteSize + w.indentation + c.utf8Size := by
      simp [put, hstart.1, hstart.2, utf8ByteSize_spaces]
    have hlimit : lengthLimit < countLimit := by decide
    unfold overflow? at h
    split at h
    · cases h
      refine ⟨by decide, ?_⟩
      omega
    · split at h
      · cases h
        refine ⟨by decide, ?_⟩
        omega
      · cases h

/-! ### Operations within the bounds -/

/-- The result is the one without bounds, or the text would be too long. -/
def Agrees (free : Writer) (result : Writer × Option Refusal) : Prop :=
  result = (free, none) ∨
    lengthLimit < free.output.utf8ByteSize ∧ ∃ r, r ≠ .outdentBelowZero ∧ result.2 = some r

theorem feed_agrees (w : Writer) (cs : List Char) : Agrees (cs.foldl put w) (w.feed cs) := by
  induction cs generalizing w with
  | nil => exact Or.inl rfl
  | cons c cs ih =>
    rw [feed]
    cases hr : w.refusal? c with
    | none => exact ih (w.put c)
    | some r =>
      obtain ⟨hne, hsize⟩ := size_put_of_refusal hr
      exact Or.inr ⟨Nat.lt_of_lt_of_le hsize (size_le_foldl_put _ cs), r, hne, rfl⟩

theorem perform_agrees {op : Op} (h : op = .outdent → 0 < w.level) :
    Agrees (w.apply op) (w.perform op) := by
  cases op with
  | write text => exact feed_agrees w text.toList
  | line text =>
    have htext : (text ++ "\n").toList = text.toList ++ ['\n'] := String.toList_append
    rw [apply, write, htext, perform_line]
    exact feed_agrees w _
  | newLine => exact Or.inl rfl
  | indent => exact Or.inl rfl
  | outdent =>
    have hlevel : w.level ≠ 0 := Nat.ne_of_gt (h rfl)
    simp [Agrees, apply, perform, outdent?, hlevel]

/-- **A run that never goes below zero is as without bounds, or the text is too long.** -/
theorem run_agrees {ops : List Op} (h : Grounded w.level ops) :
    Agrees (w.applyAll ops) (w.run ops) := by
  induction ops generalizing w with
  | nil => exact Or.inl rfl
  | cons op ops ih =>
    obtain ⟨hop, hrest⟩ := h
    rw [run, applyAll_cons]
    rcases perform_agrees hop with hok | ⟨hsize, r, hne, hr⟩
    · rw [hok]
      exact ih (by rwa [level_apply])
    · -- what comes after the refusal would only make the text longer
      obtain ⟨next, hperform⟩ : ∃ next, w.perform op = (next, some r) := ⟨_, Prod.ext rfl hr⟩
      rw [hperform]
      exact Or.inr ⟨Nat.lt_of_lt_of_le hsize (size_le_applyAll _ ops), r, hne, rfl⟩

end ScriptBackend.Script.Writer
