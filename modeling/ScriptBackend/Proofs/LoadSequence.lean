import ScriptBackend.Proofs.CompileStages

/-! # Loads one after another

A loader can be used again.  What it has loaded is replaced with each load, and what it has
reported stays.  So a load in a sequence leaves the same behind as a load by itself, and what is
reported grows by the errors of each load (`Loader.items_loadAll`).  The files may change between
two loads.
-/
namespace ScriptBackend

/-- Only the error about the core assembly that is missing is about no path. -/
theorem ReferenceError.path?_eq_none_iff {ρ : Type} {e : ReferenceError ρ} :
    e.path? = none ↔ e = .missingCore := by
  cases e with
  | missingCore => exact iff_of_true rfl rfl
  | missingFile | duplicateReference | loadFailure | duplicateCore | invalidScriptAssembly =>
    exact iff_of_false nofun nofun

namespace Loader

/-- A load to make: the references, and the files at that time. -/
structure Request where
  disk : Disk
  references : List Path

/-- What a new loader loads. -/
def Request.source (request : Request) : ReferenceSource :=
  (load request.disk {} request.references).source

/-- The loader after some loads. -/
def loadAll (l : Loader) (requests : List Request) : Loader :=
  requests.foldl (fun l request => l.load request.disk request.references) l

theorem loadAll_snoc (l : Loader) (requests : List Request) (last : Request) :
    l.loadAll (requests ++ [last]) = (l.loadAll requests).load last.disk last.references := by
  rw [loadAll, List.foldl_append]
  rfl

/-- Nothing that was loaded before the last load is left. -/
theorem source_loadAll_snoc (l : Loader) (requests : List Request) (last : Request) :
    (l.loadAll (requests ++ [last])).source = last.source := by
  rw [loadAll_snoc]
  exact source_load_congr last.disk (l.loadAll requests) {} last.references

/-- The reports of a sequence are those of its loads. -/
theorem items_loadAll (l : Loader) (requests : List Request) :
    (l.loadAll requests).diagnostics.items = l.diagnostics.items ++
      requests.flatMap fun request => request.source.errors.map ReferenceError.diagnostic := by
  induction requests using List.reverseRecOn with
  | nil =>
    rw [List.flatMap_nil, List.append_nil]
    rfl
  | append_singleton requests last ih =>
    have hreported := reported_load last.disk (l.loadAll requests) last.references
    rw [← loadAll_snoc, Reported, source_loadAll_snoc, ih] at hreported
    rw [hreported, List.flatMap_append, List.flatMap_singleton, List.append_assoc]

/-- **Each load of a sequence reports its own errors and loads what a new loader would.**  The
reports are those from before, followed by the message of each error in its order, at the path
that the error is about; only a missing core assembly has no place.  The load fails exactly if
there are errors.  The core assembly, the order, the lookups and the errors are those of a load
by itself, so that all in all the errors of all loads by themselves are reported. -/
theorem loadAll_reports_afresh (l : Loader) (requests : List Request) (last : Request) :
    let before := l.loadAll requests
    let after := l.loadAll (requests ++ [last])
    after.diagnostics.items = before.diagnostics.items ++
        after.source.errors.map (fun e => ⟨e.message, e.path?.map Path.text⟩) ∧
      (∀ e ∈ after.source.errors, e.path? = none ↔ e = .missingCore) ∧
      (after.source.failed = true ↔ after.source.errors ≠ []) ∧
      after.source = (load last.disk {} last.references).source ∧
      after.diagnostics.items = l.diagnostics.items ++ (requests ++ [last]).flatMap fun request =>
        (load request.disk {} request.references).diagnostics.items := by
  intro before after
  have hlast : after = before.load last.disk last.references := loadAll_snoc l requests last
  refine ⟨?_, fun e _ => ReferenceError.path?_eq_none_iff, ?_, source_loadAll_snoc l requests last,
    ?_⟩
  · rw [hlast]
    exact reported_load last.disk before last.references
  · simp [ReferenceSource.failed]
  · refine (items_loadAll l (requests ++ [last])).trans ?_
    congr 2
    funext request
    exact (reported_load request.disk {} request.references).symm

end Loader
end ScriptBackend
