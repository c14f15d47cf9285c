import ScriptBackend.Proofs.ModuleText
import ScriptBackend.Proofs.SelectedTypes

/-! # The calls of a generation

The emitter is called for each selected type in turn, and for one piece of all types after
the other (`callSequence`).  Whatever it answers, the calls keep to this sequence: a
generation that is broken off has made the first of them, and one that comes to its end has
made them all.

The emitter has no say in this because the steps of a module are laid out before the first
call, and every step puts its call on record before the answer is looked at
(`Session.calls_step`).
-/
namespace ScriptBackend.Script

/-- The calls for types in the order in which they are written. -/
def callSequence (includeTests : Bool) (types : List TypeSymbol) : List Call :=
  types.map (⟨.body, ·⟩) ++
    (types.filter fun t => !t.isPublic && !t.kind.hasGlobalMethods).map (⟨.registration, ·⟩) ++
    (types.filter fun t => t.isPublic && !t.kind.hasGlobalMethods).map (⟨.registration, ·⟩) ++
    (types.filter (·.kind.isClass)).map (⟨.constructor, ·⟩) ++
    if includeTests then (types.filter (·.isTestClass)).map (⟨.testScaffold, ·⟩) else []

/-- The lists that the calls of a module go through are parts of one sorted list. -/
theorem moduleCalls_eq_callSequence (options : Options) (symbols : SymbolSet) :
    moduleCalls options symbols =
      callSequence options.includeTests
        (TypeSymbol.sort (symbols.selected options.includeTests)) := by
  simp only [moduleCalls, callSequence, SymbolSet.selection, TypeSymbol.sort_filter,
    List.filter_append, List.filter_filter, List.map_append, List.append_assoc, Bool.and_comm]

namespace Session

variable {σ : Type} {e : Emitter σ}

/-- A step that is a call is on record afterwards, whether the writer refuses its answer or
not. -/
theorem calls_step (s : Session σ) (st : Step) :
    (s.step e st).1.calls = s.calls ++ st.call?.toList := by
  cases st with
  | op o => simp [step, Step.call?]
  | call c => rfl

/-- The calls on record are those of the steps up to the one that the writer refuses. -/
theorem calls_follow (s : Session σ) (steps : List Step) :
    ∃ done, done <+: steps ∧
      (s.follow e steps).1.calls = s.calls ++ done.filterMap Step.call? ∧
      ((s.follow e steps).2 = none → done = steps) := by
  induction steps generalizing s with
  | nil => exact ⟨[], List.prefix_refl [], (List.append_nil _).symm, fun _ => rfl⟩
  | cons st steps ih =>
    have hstep := s.calls_step (e := e) st
    rw [follow]
    rcases hnext : s.step e st with ⟨next, _ | refusal⟩
    · obtain ⟨done, hdone, hcalls, hall⟩ := ih next
      rw [hnext] at hstep
      refine ⟨st :: done, (List.prefix_cons_inj st).mpr hdone, ?_, ?_⟩
      · rw [hcalls, hstep, List.append_assoc, List.filterMap_cons]
        cases st.call? <;> rfl
      · intro hnone
        rw [hall hnone]
    · rw [hnext] at hstep
      refine ⟨[st], List.prefix_append [st] steps, ?_, fun hnone => absurd hnone (by simp)⟩
      rw [hstep, List.filterMap_cons]
      cases st.call? <;> rfl

/-- Up to any step, the calls are the first of the sequence. -/
theorem calls_follow_outline (s : Session σ) (options : Options) (symbols : SymbolSet) (n : Nat) :
    ∃ made, (s.follow e ((outline options symbols).take n)).1.calls = s.calls ++ made ∧
      made <+: moduleCalls options symbols := by
  obtain ⟨done, hdone, hcalls, -⟩ := s.calls_follow (e := e) ((outline options symbols).take n)
  refine ⟨done.filterMap Step.call?, hcalls, ?_⟩
  rw [← calls_outline]
  exact (hdone.trans (List.take_prefix n _)).filterMap Step.call?

end Session

/-- **The calls of a generation keep to the sequence.**  The selected types are taken in the
one order in which they are written.  A generation that ends well, or with a level that is not
the one it began at, makes exactly the calls of the sequence, and one that the writer stops
makes the first of them.  It is the same after any number of steps, so also for an emitter
that does not come back from a call. -/
theorem generate_keeps_callSequence {σ : Type} (e : Emitter σ) (options : Options) (s : Session σ)
    (symbols : SymbolSet) :
    ∃ types, TypeSymbol.StablySorts ((symbols.namespaces.flatMap (·.types)).filter
        (·.isSelected options.includeTests)) types ∧
      let sequence := callSequence options.includeTests types
      let result := s.generate e options symbols
      (∃ made, result.1.calls = s.calls ++ made ∧
        match result.2 with
        | none => made = sequence
        | some (.unbalanced _ _ _) => made = sequence
        | some (.refused _) => made <+: sequence) ∧
      ∀ n, ∃ made, (s.follow e ((outline options symbols).take n)).1.calls = s.calls ++ made ∧
        made <+: sequence := by
  refine ⟨TypeSymbol.sort (symbols.selected options.includeTests), ?_, ?_⟩
  · rw [← SymbolSet.selected_eq]
    exact TypeSymbol.stablySorts_sort _
  · rw [← moduleCalls_eq_callSequence]
    refine ⟨?_, s.calls_follow_outline options symbols⟩
    obtain ⟨done, hdone, hcalls, hall⟩ := s.calls_follow (e := e) (outline options symbols)
    refine ⟨done.filterMap Step.call?, ?_⟩
    rcases hfollow : s.follow e (outline options symbols) with ⟨next, _ | refusal⟩
    · rw [hfollow] at hcalls hall
      rw [← calls_outline, ← hall rfl]
      by_cases hlevel : next.writer.level = s.writer.level
      · rw [Session.generate_of_done hfollow hlevel]
        exact ⟨hcalls, rfl⟩
      · rw [Session.generate_of_unbalanced hfollow hlevel]
        exact ⟨hcalls, rfl⟩
    · rw [hfollow] at hcalls
      rw [Session.generate_of_refused hfollow, ← calls_outline]
      exact ⟨hcalls, hdone.filterMap Step.call?⟩

end ScriptBackend.Script
