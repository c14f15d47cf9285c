import ScriptBackend.Proofs.ModuleText

/-! # The level of a module

The frame of a module indents and outdents, and so does the emitter in its calls.  The frame
comes back to the level at which it began and is never below it (`keeps_frame`), so the level
at the end tells what all calls together did to it.

A writer is broken off by an outdent at level zero.  Whether this happens is told by the
operations alone: some outdent has as many outdents before it as there are levels to leave
(`Writer.Sinks`).  If each call keeps to its level, so does the whole module, at whatever level
it began.
-/
namespace ScriptBackend.Script

namespace Writer

variable {w : Writer} {level : Nat} {height : Int} {op : Op} {ops ops' : List Op}

/-- How an operation changes the level. -/
def Op.shift : Op → Int
  | .indent => 1
  | .outdent => -1
  | .write _ | .line _ | .newLine => 0

/-- How operations change the level altogether. -/
def netShift : List Op → Int
  | [] => 0
  | op :: ops => op.shift + netShift ops

/-- Some outdent of the operations is reached at level zero. -/
def Sinks (level : Nat) (ops : List Op) : Prop :=
  ∃ before after, ops = before ++ .outdent :: after ∧ (level : Int) + netShift before = 0

/-- The operations never go more than `height` below the level at which they begin. -/
def Above (height : Int) (ops : List Op) : Prop :=
  ∀ before, before <+: ops → 0 ≤ height + netShift before

/-- The operations never go below the level at which they begin, and they come back to it. -/
structure Keeps (ops : List Op) : Prop where
  above : Above 0 ops
  settled : netShift ops = 0

@[simp]
theorem netShift_nil : netShift [] = 0 := rfl

@[simp]
theorem netShift_cons (op : Op) (ops : List Op) :
    netShift (op :: ops) = op.shift + netShift ops :=
  rfl

@[simp]
theorem netShift_append (ops ops' : List Op) :
    netShift (ops ++ ops') = netShift ops + netShift ops' := by
  induction ops with
  | nil => exact (Int.zero_add _).symm
  | cons op ops ih => rw [List.cons_append, netShift_cons, netShift_cons, ih, Int.add_assoc]

/-! ### Outdents at level zero -/

theorem levelAfter_eq (h : op = .outdent → 0 < level) :
    (op.levelAfter level : Int) = level + op.shift := by
  cases op with
  | write | line | newLine | indent => simp [Op.levelAfter, Op.shift]
  | outdent =>
    have hlevel := h rfl
    simp only [Op.levelAfter, Op.shift]
    omega

theorem sinks_cons_iff (h : op = .outdent → 0 < level) :
    Sinks level (op :: ops) ↔ Sinks (op.levelAfter level) ops := by
  have hlevel := levelAfter_eq h
  constructor
  · rintro ⟨before, after, heq, hzero⟩
    cases before with
    | nil =>
      obtain ⟨rfl, -⟩ := List.cons.inj heq
      have := h rfl
      simp only [netShift_nil] at hzero
      omega
    | cons first before =>
      obtain ⟨rfl, rfl⟩ := List.cons.inj heq
      refine ⟨before, after, rfl, ?_⟩
      rw [netShift_cons] at hzero
      omega
  · rintro ⟨before, after, rfl, hzero⟩
    refine ⟨op :: before, after, rfl, ?_⟩
    rw [netShift_cons]
    omega

theorem grounded_iff_not_sinks : Grounded level ops ↔ ¬ Sinks level ops := by
  induction ops generalizing level with
  | nil =>
    refine iff_of_true trivial ?_
    rintro ⟨before, after, heq, -⟩
    cases before <;> cases heq
  | cons op ops ih =>
    unfold Grounded
    by_cases h : op = .outdent → 0 < level
    · rw [sinks_cons_iff h, ih]
      exact and_iff_right h
    · -- the first operation is an outdent at level zero
      obtain ⟨rfl, hlevel⟩ := Classical.not_imp.mp h
      refine iff_of_false (fun hground => h hground.1) (not_not_intro ⟨[], ops, rfl, ?_⟩)
      rw [netShift_nil]
      omega

theorem level_applyAll (h : Grounded w.level ops) :
    ((w.applyAll ops).level : Int) = w.level + netShift ops := by
  induction ops generalizing w with
  | nil => simp
  | cons op ops ih =>
    obtain ⟨hop, hrest⟩ := h
    rw [← level_apply] at hrest
    rw [applyAll_cons, ih hrest, level_apply, levelAfter_eq hop, netShift_cons, Int.add_assoc]

/-- **A run comes to its end, sinks, or makes the text too long.** -/
theorem run_cases (w : Writer) (ops : List Op) :
    w.run ops = (w.applyAll ops, none) ∧ ¬ Sinks w.level ops ∨
      (w.run ops).2 = some .outdentBelowZero ∧ Sinks w.level ops ∨
      (∃ r, r ≠ .outdentBelowZero ∧ (w.run ops).2 = some r) ∧
        lengthLimit < (w.applyAll ops).output.utf8ByteSize := by
  induction ops generalizing w with
  | nil => exact Or.inl ⟨rfl, grounded_iff_not_sinks.mp trivial⟩
  | cons op ops ih =>
    by_cases hop : op = .outdent → 0 < w.level
    · rw [sinks_cons_iff hop, ← level_apply, run, applyAll_cons]
      rcases perform_agrees hop with hok | ⟨hsize, r, hne, hr⟩
      · rw [hok]
        exact ih (w.apply op)
      · obtain ⟨next, hperform⟩ : ∃ next, w.perform op = (next, some r) := ⟨_, Prod.ext rfl hr⟩
        rw [hperform]
        exact Or.inr (Or.inr ⟨⟨r, hne, rfl⟩, Nat.lt_of_lt_of_le hsize (size_le_applyAll _ ops)⟩)
    · obtain ⟨rfl, hlevel⟩ := Classical.not_imp.mp hop
      have hzero : w.level = 0 := Nat.eq_zero_of_not_pos hlevel
      refine Or.inr (Or.inl ⟨?_, [], ops, rfl, by simp [hzero]⟩)
      simp [run, perform, outdent?, hzero]

/-! ### Operations that keep their level -/

theorem above_nil_iff : Above height [] ↔ 0 ≤ height := by
  simp [Above]

theorem above_cons_iff :
    Above height (op :: ops) ↔ 0 ≤ height ∧ Above (height + op.shift) ops := by
  constructor
  · intro h
    refine ⟨by simpa using h [] List.nil_prefix, fun before hbefore => ?_⟩
    have := h (op :: before) ((List.prefix_cons_inj op).mpr hbefore)
    rwa [netShift_cons, ← Int.add_assoc] at this
  · rintro ⟨hheight, hrest⟩ before hbefore
    rcases List.prefix_cons_iff.mp hbefore with rfl | ⟨rest, rfl, hprefix⟩
    · simpa using hheight
    · rw [netShift_cons, ← Int.add_assoc]
      exact hrest rest hprefix

theorem above_append (h : Above height ops) (h' : Above (height + netShift ops) ops') :
    Above height (ops ++ ops') := by
  induction ops generalizing height with
  | nil => simpa using h'
  | cons op ops ih =>
    obtain ⟨hheight, hrest⟩ := above_cons_iff.mp h
    rw [netShift_cons, ← Int.add_assoc] at h'
    exact above_cons_iff.mpr ⟨hheight, ih hrest h'⟩

theorem Above.mono {height' : Int} (h : Above height ops) (hle : height ≤ height') :
    Above height' ops := by
  intro before hbefore
  have := h before hbefore
  omega

/-- Operations that stay above where they begin do not sink, wherever that is. -/
theorem Above.not_sinks (h : Above 0 ops) (level : Nat) : ¬ Sinks level ops := by
  rintro ⟨before, after, rfl, hzero⟩
  have hprefix : before ++ [Op.outdent] <+: before ++ .outdent :: after := ⟨after, by simp⟩
  have habove := h _ hprefix
  simp only [netShift_append, netShift_cons, netShift_nil, Op.shift] at habove
  omega

theorem Keeps.append (h : Keeps ops) (h' : Keeps ops') : Keeps (ops ++ ops') := by
  refine ⟨above_append h.above ?_, ?_⟩
  · rw [h.settled]
    exact h'.above
  · rw [netShift_append, h.settled, h'.settled, Int.add_zero]

/-- A block one level deeper keeps the level if what is in it does. -/
theorem Keeps.block (h : Keeps ops) : Keeps (.indent :: (ops ++ [.outdent])) := by
  refine ⟨above_cons_iff.mpr ⟨Int.le_refl 0, above_append (h.above.mono (by decide)) ?_⟩, ?_⟩
  · rw [h.settled]
    simp [above_cons_iff, above_nil_iff, Op.shift]
  · simp [h.settled, Op.shift]

theorem keeps_of_text (h : ∀ op ∈ ops, op.text?.isSome = true) : Keeps ops := by
  induction ops with
  | nil => exact ⟨above_nil_iff.mpr (Int.le_refl 0), rfl⟩
  | cons op ops ih =>
    obtain ⟨hop, hops⟩ := List.forall_mem_cons.mp h
    have hshift : op.shift = 0 := by
      cases op with
      | write | line | newLine => rfl
      | indent | outdent => cases hop
    have hkeeps := ih hops
    exact ⟨above_cons_iff.mpr ⟨Int.le_refl 0, by rw [hshift]; exact hkeeps.above⟩,
      by rw [netShift_cons, hshift, hkeeps.settled, Int.add_zero]⟩

end Writer

open Writer (Keeps Above Sinks netShift above_nil_iff above_cons_iff above_append keeps_of_text)

/-! ### The frame of a module -/

/-- The operation of a step, if it is one of the frame. -/
def Step.op? : Step → Option Writer.Op
  | .op o => some o
  | .call _ => none

/-- The operations of the frame. -/
def frameOps (steps : List Step) : List Writer.Op :=
  steps.filterMap Step.op?

theorem frameOps_append (steps steps' : List Step) :
    frameOps (steps ++ steps') = frameOps steps ++ frameOps steps' :=
  List.filterMap_append

theorem frameOps_ops (ops : List Writer.Op) : frameOps (ops.map .op) = ops := by
  simp [frameOps, List.filterMap_map, Function.comp_def, Step.op?]

theorem frameOps_calls (piece : Piece) (types : List TypeSymbol) :
    frameOps (calls piece types) = [] := by
  simp [frameOps, calls, List.filterMap_map, Function.comp_def, Step.op?]

/-- Between the entries of a list there are texts and calls only. -/
theorem keeps_entrySteps (types : List TypeSymbol) : Keeps (frameOps (entrySteps types)) := by
  induction types with
  | nil => exact keeps_of_text nofun
  | cons t types ih =>
    have hentry : Keeps (frameOps (registrationEntry t)) :=
      keeps_of_text (by simp [frameOps, registrationEntry, Step.op?, Writer.Op.text?])
    cases types with
    | nil => exact hentry
    | cons next types =>
      have hcomma : Keeps (frameOps [.op (.line ",")]) := keeps_of_text (by decide)
      rw [entrySteps_cons_cons, frameOps_append, frameOps_append]
      exact hentry.append (hcomma.append ih)

theorem keeps_registrationBucket (types : List TypeSymbol) :
    Keeps (frameOps (registrationBucket types)) := by
  unfold registrationBucket
  split
  case isTrue => exact keeps_of_text (by decide)
  case isFalse =>
    have hentries := keeps_entrySteps (types.filter (!·.kind.hasGlobalMethods))
    have hline : Keeps [.line "\x7b"] := keeps_of_text (by decide)
    have hclose : Keeps [.newLine, .write "\x7d"] := keeps_of_text (by decide)
    have hbreak : Keeps [.newLine] := keeps_of_text (by decide)
    -- two blocks, one in the other
    have hblocks := hbreak.append ((hline.append hentries.block).append hclose).block
    rw [frameOps_append, frameOps_append, registrationEntries_true]
    simpa [frameOps, Step.op?] using hblocks

/-- The steps between the first and the last line of a module. -/
def interior (options : Options) (symbols : SymbolSet) : List Step :=
  let selection := symbols.selection options.includeTests
  headSteps symbols.scriptName selection.types ++ registrationBucket selection.internalTypes ++
    [Writer.Op.write ","].map .op ++ registrationBucket selection.publicTypes ++
    [Writer.Op.line ");", .newLine].map .op ++
    tailSteps symbols.scriptName (selection.types.filter (·.kind.isClass))
      (if options.includeTests then selection.types.filter (·.isTestClass) else [])

theorem outline_eq_interior (options : Options) (symbols : SymbolSet) :
    outline options symbols =
      [Writer.Op.write (headerLine symbols.scriptName symbols.dependencies), .newLine,
          .indent].map .op ++
        interior options symbols ++ [Writer.Op.outdent, .line "\x7d);"].map .op := by
  rw [outline_eq]
  simp only [interior, List.append_assoc]

theorem keeps_headSteps (name : String) (types : List TypeSymbol) :
    Keeps (frameOps (headSteps name types)) := by
  simp only [headSteps, frameOps_append, frameOps_ops, frameOps_calls]
  exact keeps_of_text (by simp [Writer.Op.text?])

theorem keeps_tailSteps (name : String) (classes tests : List TypeSymbol) :
    Keeps (frameOps (tailSteps name classes tests)) := by
  simp only [tailSteps, frameOps_append, frameOps_ops, frameOps_calls]
  exact keeps_of_text (by simp [Writer.Op.text?])

/-- **The frame of a module keeps its level.** -/
theorem keeps_frame (options : Options) (symbols : SymbolSet) :
    Keeps (frameOps (outline options symbols)) := by
  have hheader : Keeps [.write (headerLine symbols.scriptName symbols.dependencies), .newLine] :=
    keeps_of_text (by simp [Writer.Op.text?])
  have hcomma : Keeps [.write ","] := keeps_of_text (by decide)
  have hend : Keeps [.line ");", .newLine] := keeps_of_text (by decide)
  have hfooter : Keeps [.line "\x7d);"] := keeps_of_text (by decide)
  have hinterior : Keeps (frameOps (interior options symbols)) := by
    simp only [interior, frameOps_append, frameOps_ops]
    exact (((((keeps_headSteps _ _).append (keeps_registrationBucket _)).append hcomma).append
      (keeps_registrationBucket _)).append hend).append (keeps_tailSteps _ _ _)
  rw [outline_eq_interior, frameOps_append, frameOps_append, frameOps_ops, frameOps_ops]
  simpa using (hheader.append hinterior.block).append hfooter

/-! ### The calls in the frame -/

/-- The operations that the emitter answered with, if the step is a call. -/
def answer : Step × List Writer.Op → List Writer.Op
  | (.op _, _) => []
  | (.call _, ops) => ops

/-- What the emitter answered in all calls. -/
def emitted (record : List (Step × List Writer.Op)) : List Writer.Op :=
  record.flatMap answer

/-- In each call the emitter keeps to the level that it finds. -/
def Emitter.KeepsLevel {σ : Type} (e : Emitter σ) : Prop :=
  ∀ call writer state, Keeps (e.emit call writer state).1

theorem netShift_emitted {record : List (Step × List Writer.Op)}
    (h : ∀ p ∈ record, Keeps (answer p)) : netShift (emitted record) = 0 := by
  induction record with
  | nil => rfl
  | cons p record ih =>
    obtain ⟨hfirst, hrest⟩ := List.forall_mem_cons.mp h
    have hsettled := ih hrest
    rw [emitted] at hsettled ⊢
    rw [List.flatMap_cons, Writer.netShift_append, hfirst.settled, hsettled, Int.add_zero]

namespace Session

variable {σ : Type} {e : Emitter σ} {options : Options} {symbols : SymbolSet}

/-- The level is changed by the frame and by the emitter. -/
theorem netShift_record (s : Session σ) (steps : List Step) :
    netShift ((s.record e steps).flatMap Prod.snd) =
      netShift (frameOps steps) + netShift (emitted (s.record e steps)) := by
  induction steps generalizing s with
  | nil => rfl
  | cons st steps ih =>
    have hrest := ih (s.step e st).1
    rw [emitted] at hrest ⊢
    rw [record, List.flatMap_cons, List.flatMap_cons, Writer.netShift_append,
      Writer.netShift_append, hrest]
    cases st with
    | op o =>
      simp only [ops, answer, frameOps, Step.op?, List.filterMap_cons, Writer.netShift_cons,
        Writer.netShift_nil]
      omega
    | call c =>
      simp only [answer, frameOps, Step.op?, List.filterMap_cons]
      omega

/-- Calls that keep their level go nowhere that the frame does not go. -/
theorem above_record {height : Int} (s : Session σ) {steps : List Step}
    (hframe : Above height (frameOps steps)) (hcalls : ∀ p ∈ s.record e steps, Keeps (answer p)) :
    Above height ((s.record e steps).flatMap Prod.snd) := by
  induction steps generalizing s height with
  | nil => exact hframe
  | cons st steps ih =>
    rw [record] at hcalls ⊢
    obtain ⟨hfirst, hrest⟩ := List.forall_mem_cons.mp hcalls
    rw [List.flatMap_cons]
    cases st with
    | op o =>
      obtain ⟨hheight, habove⟩ := above_cons_iff.mp hframe
      exact above_cons_iff.mpr ⟨hheight, ih _ habove hrest⟩
    | call c =>
      have hheight : 0 ≤ height := by simpa using hframe [] List.nil_prefix
      refine above_append (hfirst.above.mono hheight) ?_
      have hsettled : netShift (s.ops e (.call c)) = 0 := hfirst.settled
      rw [hsettled, Int.add_zero]
      exact ih _ hframe hrest

theorem keeps_answer (h : e.KeepsLevel) (s : Session σ) (steps : List Step) :
    ∀ p ∈ s.record e steps, Keeps (answer p) := by
  induction steps generalizing s with
  | nil => exact fun p hp => absurd hp List.not_mem_nil
  | cons st steps ih =>
    refine List.forall_mem_cons.mpr ⟨?_, ih _⟩
    cases st with
    | op o => exact keeps_of_text nofun
    | call c => exact h c s.writer s.emitterState

/-- The session after modules that were generated one after another, whatever became of them,
and what went wrong with each. -/
def generateAll (e : Emitter σ) (options : Options) (s : Session σ) :
    List SymbolSet → Session σ × List (Option Failure)
  | [] => (s, [])
  | symbols :: sets =>
    let (next, failure) := s.generate e options symbols
    let (last, failures) := next.generateAll e options sets
    (last, failure :: failures)

theorem generateAll_cons (s : Session σ) (symbols : SymbolSet) (sets : List SymbolSet) :
    s.generateAll e options (symbols :: sets) =
      (((s.generate e options symbols).1.generateAll e options sets).1,
        (s.generate e options symbols).2 ::
          ((s.generate e options symbols).1.generateAll e options sets).2) := by
  rw [generateAll]

/-- The writer after some steps, as if there were no bounds. -/
def unbounded (e : Emitter σ) (s : Session σ) (steps : List Step) : Writer :=
  s.writer.applyAll ((s.record e steps).flatMap Prod.snd)

/-- The text is too long, and the module is not finished for this reason. -/
def Overflows (e : Emitter σ) (options : Options) (s : Session σ) (symbols : SymbolSet) : Prop :=
  Writer.lengthLimit < (s.unbounded e (outline options symbols)).output.utf8ByteSize ∧
    ∃ r, r ≠ .outdentBelowZero ∧ (s.generate e options symbols).2 = some (.refused r)

/-- **A module sinks, or comes to its end at the level that the calls lead to.** -/
theorem generate_cases (s : Session σ) (options : Options) (symbols : SymbolSet)
    {record : List (Step × List Writer.Op)} {result : Session σ × Option Failure}
    (hrecord : s.record e (outline options symbols) = record)
    (hresult : s.generate e options symbols = result) :
    s.Overflows e options symbols ∨
      Sinks s.writer.level (record.flatMap Prod.snd) ∧
        result.2 = some (.refused .outdentBelowZero) ∨
      ¬ Sinks s.writer.level (record.flatMap Prod.snd) ∧
        (result.1.writer.level : Int) = s.writer.level + netShift (emitted record) ∧
        result.2 =
          if netShift (emitted record) = 0 then none
          else some (.unbalanced symbols.scriptName result.1.writer.level s.writer.level) := by
  have hrun := s.follow_eq_run (e := e) (outline options symbols)
  have hnet := s.netShift_record (e := e) (outline options symbols)
  rw [hrecord] at hrun hnet
  rcases hfollow : s.follow e (outline options symbols) with ⟨next, refusal⟩
  rw [hfollow] at hrun
  rcases s.writer.run_cases (record.flatMap Prod.snd) with
    ⟨hdone, hsinks⟩ | ⟨hrefused, hsinks⟩ | ⟨⟨r, hne, hrefused⟩, hsize⟩
  · obtain ⟨hwriter, rfl⟩ := Prod.mk.inj (hrun.trans hdone)
    have hlevel : (next.writer.level : Int) = s.writer.level + netShift (emitted record) := by
      rw [hwriter, Writer.level_applyAll (Writer.grounded_iff_not_sinks.mpr hsinks), hnet,
        (keeps_frame options symbols).settled, Int.zero_add]
    refine Or.inr (Or.inr ?_)
    by_cases hshift : netShift (emitted record) = 0
    · rw [← hresult, generate_of_done hfollow (by omega), if_pos hshift]
      exact ⟨hsinks, hlevel, rfl⟩
    · rw [← hresult, generate_of_unbalanced hfollow (by omega), if_neg hshift]
      exact ⟨hsinks, hlevel, rfl⟩
  · obtain rfl : refusal = some .outdentBelowZero := (congrArg Prod.snd hrun).trans hrefused
    rw [← hresult, generate_of_refused hfollow]
    exact Or.inr (Or.inl ⟨hsinks, rfl⟩)
  · obtain rfl : refusal = some r := (congrArg Prod.snd hrun).trans hrefused
    refine Or.inl ⟨?_, r, hne, ?_⟩
    · rwa [unbounded, hrecord]
    · rw [generate_of_refused hfollow]

/-- A module whose calls keep their level is finished, at whatever level it begins. -/
theorem generate_of_keeps (s : Session σ)
    (hcalls : ∀ p ∈ s.record e (outline options symbols), Keeps (answer p)) :
    (s.generate e options symbols).2 = none ∨ s.Overflows e options symbols := by
  have habove := s.above_record (keeps_frame options symbols).above hcalls
  rcases s.generate_cases options symbols rfl rfl with
    hlong | ⟨hsinks, -⟩ | ⟨-, -, hresult⟩
  · exact Or.inr hlong
  · exact absurd hsinks (habove.not_sinks s.writer.level)
  · rw [hresult, if_pos (netShift_emitted hcalls)]
    exact Or.inl rfl

theorem generateAll_of_keepsLevel (h : e.KeepsLevel) (s : Session σ) (sets : List SymbolSet) :
    (∀ failure ∈ (s.generateAll e options sets).2, failure = none) ∨
      ∃ before symbols after, sets = before ++ symbols :: after ∧
        (s.generateAll e options before).1.Overflows e options symbols := by
  induction sets generalizing s with
  | nil => exact Or.inl nofun
  | cons symbols sets ih =>
    rcases s.generate_of_keeps (s.keeps_answer h (outline options symbols)) with hdone | hlong
    · rcases ih (s.generate e options symbols).1 with hrest | ⟨before, symbols', after, rfl, hlong⟩
      · rw [generateAll_cons]
        exact Or.inl (List.forall_mem_cons.mpr ⟨hdone, hrest⟩)
      · refine Or.inr ⟨symbols :: before, symbols', after, rfl, ?_⟩
        rw [generateAll_cons]
        exact hlong
    · exact Or.inr ⟨[], symbols, sets, rfl, hlong⟩

/-- **The level decides how a module ends.**  It is broken off at an outdent below zero exactly
if some outdent, of the frame or of the emitter, is reached at level zero.  Otherwise the level
at its end is the one at its beginning, changed by what the emitter did in all calls, and the
module fails exactly if that is not the level at its beginning.  So a module whose calls keep
their level is finished, wherever the modules before it have left the level, and with an emitter
that keeps its level all modules are.  All this is up to a text that is too long. -/
theorem generate_balances {σ : Type} (e : Emitter σ) (options : Options) (s : Session σ) :
    (∀ symbols : SymbolSet,
      let record := s.record e (outline options symbols)
      let ops := record.flatMap Prod.snd
      let shift := netShift (emitted record)
      let result := s.generate e options symbols
      s.Overflows e options symbols ∨
        (result.2 = some (.refused .outdentBelowZero) ↔ Sinks s.writer.level ops) ∧
        (¬ Sinks s.writer.level ops →
          (result.1.writer.level : Int) = s.writer.level + shift ∧
          (result.2 =
            some (.unbalanced symbols.scriptName result.1.writer.level s.writer.level) ↔
              shift ≠ 0) ∧
          (result.2 = none ↔ shift = 0))) ∧
      (∀ symbols : SymbolSet, (∀ p ∈ s.record e (outline options symbols), Keeps (answer p)) →
        (s.generate e options symbols).2 = none ∨ s.Overflows e options symbols) ∧
      (e.KeepsLevel → ∀ sets : List SymbolSet,
        (∀ failure ∈ (s.generateAll e options sets).2, failure = none) ∨
          ∃ before symbols after, sets = before ++ symbols :: after ∧
            (s.generateAll e options before).1.Overflows e options symbols) := by
  refine ⟨fun symbols => ?_, fun symbols => s.generate_of_keeps,
    fun h => s.generateAll_of_keepsLevel h⟩
  intro record ops shift result
  have hrecord : s.record e (outline options symbols) = record := rfl
  have hgenerate : s.generate e options symbols = result := rfl
  rcases s.generate_cases options symbols hrecord hgenerate with
    hlong | ⟨hsinks, hrefused⟩ | ⟨hsinks, hlevel, hresult⟩
  · exact Or.inl hlong
  · exact Or.inr ⟨iff_of_true hrefused hsinks, fun hnot => absurd hsinks hnot⟩
  · -- the end of the module is reached, and only the last check is left
    clear_value result
    refine Or.inr ⟨iff_of_false ?_ hsinks, fun _ => ⟨hlevel, ?_⟩⟩
    · rw [hresult]
      split <;> simp
    · have hshift : netShift (emitted record) = shift := rfl
      rw [hresult, hshift]
      by_cases hzero : shift = 0
      · simp [hzero]
      · simp [hzero]

end Session
end ScriptBackend.Script
