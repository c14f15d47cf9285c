import Mathlib.Data.List.Basic
import ScriptBackend.Proofs.UnboundedWriter
import ScriptBackend.Script.Module

/-! # The record of a session

Following steps is one run of the writer: each step of the frame is an operation of its own,
and each call stands for the operations that the emitter answers with.  The record of a
session (`Session.record`) keeps both, and the session ends as the run of all these
operations ends (`Session.follow_eq_run`).
-/
namespace ScriptBackend.Script

variable {σ : Type} {e : Emitter σ}

namespace Writer

theorem run_append (w : Writer) (ops ops' : List Op) :
    w.run (ops ++ ops') =
      match w.run ops with
      | (next, none) => next.run ops'
      | (next, some r) => (next, some r) := by
  induction ops generalizing w with
  | nil => rfl
  | cons op ops ih =>
    rw [List.cons_append, run, run]
    rcases w.perform op with ⟨next, _ | r⟩
    · exact ih next
    · rfl

theorem run_singleton (w : Writer) (op : Op) : w.run [op] = w.perform op := by
  rw [run]
  rcases w.perform op with ⟨next, _ | r⟩
  · rfl
  · rfl

end Writer

/-- The call of a step, if it is one. -/
def Step.call? : Step → Option Call
  | .op _ => none
  | .call c => some c

/-- The call that was made and what the emitter wrote in it, if the step was a call. -/
def said? : Step × List Writer.Op → Option (Call × String)
  | (.op _, _) => none
  | (.call c, ops) => some (c, Writer.plainText ops)

namespace Session

/-- The operations that a step stands for. -/
def ops (e : Emitter σ) (s : Session σ) : Step → List Writer.Op
  | .op o => [o]
  | .call c => (e.emit c s.writer s.emitterState).1

/-- The steps, each with the operations that it stands for. -/
def record (e : Emitter σ) (s : Session σ) : List Step → List (Step × List Writer.Op)
  | [] => []
  | st :: steps => (st, s.ops e st) :: (s.step e st).1.record e steps

/-- The calls of some steps, each with what the emitter writes in it. -/
def said (e : Emitter σ) (s : Session σ) (steps : List Step) : List (Call × String) :=
  (s.record e steps).filterMap said?

theorem record_map_fst (s : Session σ) (steps : List Step) :
    (s.record e steps).map Prod.fst = steps := by
  induction steps generalizing s with
  | nil => rfl
  | cons st steps ih => rw [record, List.map_cons, ih]

theorem step_eq_run (s : Session σ) (st : Step) :
    ((s.step e st).1.writer, (s.step e st).2) = s.writer.run (s.ops e st) := by
  cases st with
  | op o => exact (Writer.run_singleton s.writer o).symm
  | call c => rfl

/-- **A session is a run of its writer.** -/
theorem follow_eq_run (s : Session σ) (steps : List Step) :
    ((s.follow e steps).1.writer, (s.follow e steps).2) =
      s.writer.run ((s.record e steps).flatMap Prod.snd) := by
  induction steps generalizing s with
  | nil => rfl
  | cons st steps ih =>
    rw [record, List.flatMap_cons, Writer.run_append, ← step_eq_run, follow]
    rcases hstep : s.step e st with ⟨next, _ | r⟩
    · exact ih next
    · rfl

variable {options : Options} {symbols : SymbolSet} {s next : Session σ}

theorem generate_of_done (h : s.follow e (outline options symbols) = (next, none))
    (hlevel : next.writer.level = s.writer.level) :
    s.generate e options symbols = (next, none) := by
  rw [generate, h]
  exact if_pos hlevel

theorem generate_of_unbalanced (h : s.follow e (outline options symbols) = (next, none))
    (hlevel : next.writer.level ≠ s.writer.level) :
    s.generate e options symbols =
      (next, some (.unbalanced symbols.scriptName next.writer.level s.writer.level)) := by
  rw [generate, h]
  exact if_neg hlevel

theorem generate_of_refused {refusal : Writer.Refusal}
    (h : s.follow e (outline options symbols) = (next, some refusal)) :
    s.generate e options symbols = (next, some (.refused refusal)) := by
  rw [generate, h]

end Session

/-! ### Emitters that only write -/

/-- The emitter answers with nothing but text to write. -/
def Emitter.OnlyWrites (e : Emitter σ) : Prop :=
  ∀ call writer state, ∀ op ∈ (e.emit call writer state).1, op.text?.isSome = true

/-- A step of the frame stands for its operation, and a call for nothing but text. -/
def Faithful : Step × List Writer.Op → Prop
  | (.op o, ops) => ops = [o]
  | (.call _, ops) => ∀ op ∈ ops, op.text?.isSome = true

/-- The record of some steps in which the emitter only writes. -/
structure Records (r : List (Step × List Writer.Op)) (steps : List Step) : Prop where
  steps : r.map Prod.fst = steps
  faithful : ∀ p ∈ r, Faithful p

theorem records_record (h : e.OnlyWrites) (s : Session σ) (steps : List Step) :
    Records (s.record e steps) steps := by
  refine ⟨s.record_map_fst steps, ?_⟩
  induction steps generalizing s with
  | nil => exact fun p hp => absurd hp List.not_mem_nil
  | cons st steps ih =>
    intro p hp
    rcases List.mem_cons.mp hp with rfl | hp
    · cases st with
      | op o => rfl
      | call c => exact h c s.writer s.emitterState
    · exact ih _ p hp

namespace Records

variable {r : List (Step × List Writer.Op)} {steps steps' : List Step}

/-- The record of steps in two parts has two parts. -/
theorem split (h : Records r (steps ++ steps')) :
    ∃ first rest, r = first ++ rest ∧ Records first steps ∧ Records rest steps' := by
  obtain ⟨first, rest, rfl, hfirst, hrest⟩ := List.map_eq_append_iff.mp h.steps
  exact ⟨first, rest, rfl,
    ⟨hfirst, fun p hp => h.faithful p (List.mem_append_left rest hp)⟩,
    ⟨hrest, fun p hp => h.faithful p (List.mem_append_right first hp)⟩⟩

/-- The calls on record are those of the steps. -/
theorem calls (h : Records r steps) :
    (r.filterMap said?).map Prod.fst = steps.filterMap Step.call? := by
  rw [← h.steps, List.map_filterMap, List.filterMap_map]
  congr 1
  funext p
  rcases p with ⟨o | c, ops⟩
  · rfl
  · rfl

theorem eq_nil (h : Records r []) : r = [] :=
  List.map_eq_nil_iff.mp h.steps

theorem uncons {st : Step} (h : Records r (st :: steps)) :
    ∃ ops rest, r = (st, ops) :: rest ∧ Faithful (st, ops) ∧ Records rest steps := by
  obtain ⟨p, rest, rfl, rfl, hrest⟩ := List.map_eq_cons_iff.mp h.steps
  exact ⟨p.2, rest, rfl, h.faithful p List.mem_cons_self, hrest,
    fun q hq => h.faithful q (List.mem_cons_of_mem p hq)⟩

/-- Steps of the frame stand for their operations, and nothing is said in them. -/
theorem frame (ops : List Writer.Op) (h : Records r (ops.map Step.op)) :
    r.flatMap Prod.snd = ops ∧ r.filterMap said? = [] := by
  induction ops generalizing r with
  | nil =>
    obtain rfl := h.eq_nil
    exact ⟨rfl, rfl⟩
  | cons o ops ih =>
    obtain ⟨first, rest, rfl, hfirst, hrest⟩ := h.uncons
    obtain rfl : first = [o] := hfirst
    obtain ⟨hops, hsaid⟩ := ih hrest
    exact ⟨by rw [List.flatMap_cons, hops, List.singleton_append], hsaid⟩

end Records

end ScriptBackend.Script
