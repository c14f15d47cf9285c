import ScriptBackend.Compilation
import ScriptBackend.Proofs.LoadLookup

/-! # The stages of a compilation

A compilation loads its references, has the program analysed against them, and generates a
module.  Here is what the first stage reports, and what it hands on.

A load reports each error that it keeps and nothing else (`Loader.reported_load`), so the number
of errors, the reports and the verdict say the same.  What it loads does not depend on what was
reported before (`Loader.source_load_congr`).  And if there is nothing to report, the core
assembly is there and all assemblies are built for script (`Loader.marked_load`), which is what
the analysis may rely on.
-/
namespace ScriptBackend

/-- What the analysis may rely on: the core assembly is there, and it and all assemblies in order
carry the script attribute. -/
structure ReferenceSource.Marked (source : ReferenceSource) : Prop where
  core : ∃ core, source.core = some core ∧ Manifest.scriptAttribute ∈ core.manifest.attributes
  others : ∀ path ∈ source.order.paths, ∃ manifest, source.manifest? path = some manifest ∧
    Manifest.scriptAttribute ∈ manifest.attributes

namespace Loader

variable {disk : Disk} {l l' : Loader} {before : List Diagnostic}

/-! ### Errors and reports -/

/-- The errors that are kept have been reported, after what was reported before. -/
def Reported (before : List Diagnostic) (l : Loader) : Prop :=
  l.diagnostics.items = before ++ l.source.errors.map ReferenceError.diagnostic

theorem reported_reset (l : Loader) : Reported l.diagnostics.items l.reset := by
  simp [Reported, reset]

theorem Reported.reject (h : Reported before l) (e : ReferenceError Manifest.Error) :
    Reported before (l.reject e) := by
  simp only [Reported, Loader.reject, Diagnostics.items_report, List.map_append, List.map_cons,
    List.map_nil]
  rw [h, List.append_assoc]

theorem Reported.visit (h : Reported before l) (reference : Path) :
    Reported before (l.visit disk reference) := by
  have hvisited := visited_visit disk l reference
  generalize l.visit disk reference = next at hvisited ⊢
  cases hvisited with
  | rejected e => exact h.reject e
  | core | other => exact h

theorem Reported.checkCore (h : Reported before l) : Reported before l.checkCore := by
  unfold Loader.checkCore
  split
  · exact h.reject _
  · split
    · exact h
    · exact h.reject _

theorem Reported.checkOthers (h : Reported before l) : Reported before l.checkOthers :=
  List.foldlRecOn _ _ h fun _ hnow _ _ => hnow.reject _

/-- **A load reports the errors that it keeps**, in their order, and nothing else. -/
theorem reported_load (disk : Disk) (l : Loader) (references : List Path) :
    Reported l.diagnostics.items (l.load disk references) := by
  have hloop : Reported l.diagnostics.items (references.foldl (Loader.visit disk) l.reset) :=
    List.foldlRecOn _ _ (reported_reset l) fun _ hnow reference _ => hnow.visit reference
  exact hloop.checkCore.checkOthers

/-! ### What is loaded, whatever was reported before -/

theorem source_reject_congr (h : l.source = l'.source) (e : ReferenceError Manifest.Error) :
    (l.reject e).source = (l'.reject e).source := by
  rw [reject, reject, h]

theorem source_accept_congr (h : l.source = l'.source) (path : Path) (name : String)
    (manifest : Manifest) :
    (l.accept path name manifest).source = (l'.accept path name manifest).source := by
  unfold accept
  rw [h]
  by_cases hcore : isCoreName name = true
  · rw [if_pos hcore, if_pos hcore]
    cases l'.source.core with
    | some core => exact source_reject_congr h _
    | none => rfl
  · rw [if_neg hcore, if_neg hcore]
    cases l'.source.others.add? path name manifest with
    | some others => rfl
    | none => exact h

theorem source_visit_congr (h : l.source = l'.source) (reference : Path) :
    (l.visit disk reference).source = (l'.visit disk reference).source := by
  unfold visit
  rw [h]
  cases locate? disk reference with
  | none => exact source_reject_congr h _
  | some found =>
    by_cases htaken : l'.source.others.isReferenced found.2 = true
    · simp only [htaken, if_true]
      exact source_reject_congr h _
    · simp only [htaken, Bool.false_eq_true, if_false]
      cases Manifest.read disk found.1 with
      | error reason => exact source_reject_congr h _
      | ok manifest => exact source_accept_congr h _ _ manifest

theorem afterLoop_congr (disk : Disk) (l l' : Loader) (references : List Path) :
    afterLoop disk l references = afterLoop disk l' references := by
  induction references using List.reverseRecOn with
  | nil => rfl
  | append_singleton references reference ih =>
    rw [afterLoop, afterLoop, List.foldl_append, List.foldl_append]
    exact source_visit_congr ih reference

theorem source_load_congr (disk : Disk) (l l' : Loader) (references : List Path) :
    (l.load disk references).source = (l'.load disk references).source := by
  rw [source_load, source_load, afterLoop_congr disk l l']

/-- **A load after other reports is a load by itself**, with those reports in front. -/
theorem load_after (disk : Disk) (diagnostics : Diagnostics) (references : List Path) :
    (load disk { diagnostics } references).source = (load disk {} references).source ∧
      (load disk { diagnostics } references).diagnostics.items =
        diagnostics.items ++ (load disk {} references).diagnostics.items := by
  have hsource := source_load_congr disk { diagnostics } {} references
  refine ⟨hsource, ?_⟩
  rw [reported_load, reported_load, hsource, List.nil_append]

/-! ### A load without errors -/

/-- **A load without errors leaves nothing unmarked.** -/
theorem marked_load {references : List Path}
    (h : (l.load disk references).source.errors = []) :
    (l.load disk references).source.Marked := by
  have hfailed : (l.load disk references).source.failed = false := by
    rw [ReferenceSource.failed, h]
    rfl
  obtain ⟨-, hcoreErrors, hotherErrors⟩ := (failed_load_eq_false_iff disk l references).mp hfailed
  have hmem {manifest : Manifest} (h : manifest.isScriptAssembly = true) :
      Manifest.scriptAttribute ∈ manifest.attributes := List.contains_iff_mem.mp h
  constructor
  · obtain ⟨hpresent, hcoreMarked⟩ := coreErrors_eq_nil_iff.mp hcoreErrors
    obtain ⟨core, hcore⟩ := Option.isSome_iff_exists.mp hpresent
    have hmarked := hcoreMarked core (by rw [hcore]; exact List.mem_singleton_self core)
    rw [source_load]
    exact ⟨core, hcore, hmem hmarked⟩
  · obtain ⟨entries, hconsistent, hperm⟩ := consistent_load disk l references
    have hassemblies := hconsistent.holds.assemblies
    rw [source_load] at hassemblies
    intro path hpath
    obtain ⟨e, he, rfl⟩ := List.mem_map.mp (hperm.mem_iff.mp hpath)
    have hmarked := otherErrors_eq_nil_iff.mp hotherErrors e.toAssembly (by
      rw [hassemblies]
      exact List.mem_map_of_mem he)
    exact ⟨e.manifest, hconsistent.manifest?_eq_some_iff.mpr ⟨e, he, rfl, rfl⟩, hmem hmarked⟩

end Loader

namespace Compilation

section Stages

variable {σ : Type} {options : Options} {disk : Disk} {analyzer : Analyzer}
  {emitter : Script.Emitter σ} {state : σ} {diagnostics : Diagnostics} {loader : Loader}
  {reports : List Diagnostic} {symbols : SymbolSet}

theorem compile_of_failed (hload : Loader.load disk { diagnostics } options.references = loader)
    (hfailed : loader.source.errors ≠ []) :
    compile options disk analyzer emitter state diagnostics =
      { result := .error (.references loader.source.errors.length)
        diagnostics := loader.diagnostics } := by
  have hverdict : loader.source.failed = true := by simpa [ReferenceSource.failed] using hfailed
  simp only [compile, loadReferences, hload, hverdict, if_true]

theorem compile_of_unanalyzed
    (hload : Loader.load disk { diagnostics } options.references = loader)
    (hloaded : loader.source.errors = [])
    (hanalyze : analyzer.analyze loader.source = (none, reports)) :
    compile options disk analyzer emitter state diagnostics =
      { result := .error .analysis
        analyzed := some loader.source
        diagnostics := loader.diagnostics.reportAll reports } := by
  have hverdict : loader.source.failed = false := by simp [ReferenceSource.failed, hloaded]
  simp only [compile, loadReferences, hload, hverdict, Bool.false_eq_true, if_false, hanalyze]

theorem compile_of_analyzed
    (hload : Loader.load disk { diagnostics } options.references = loader)
    (hloaded : loader.source.errors = [])
    (hanalyze : analyzer.analyze loader.source = (some symbols, reports)) :
    compile options disk analyzer emitter state diagnostics =
      { generate options emitter state symbols (loader.diagnostics.reportAll reports) with
        analyzed := some loader.source } := by
  have hverdict : loader.source.failed = false := by simp [ReferenceSource.failed, hloaded]
  simp only [compile, loadReferences, hload, hverdict, Bool.false_eq_true, if_false, hanalyze]

end Stages

/-- **A compilation stops at the first stage that fails.**  If the load has anything to report,
that many errors are the result, those reports are all that there are, and neither the analysis
nor the emitter is called.  Otherwise the analysis is given sources without an error, all of
them marked, and only its own reports are added.  If it finds nothing, the emitter is not
called; if it finds symbols, the result is that of a new session for them, whatever the analysis
reported. -/
theorem compile_runs_stages {σ : Type} (options : Options) (disk : Disk) (analyzer : Analyzer)
    (emitter : Script.Emitter σ) (state : σ) (diagnostics : Diagnostics) :
    let loaded := Loader.load disk {} options.references
    let source := loaded.source
    let reports := loaded.diagnostics.items
    let outcome := compile options disk analyzer emitter state diagnostics
    reports = source.errors.map ReferenceError.diagnostic ∧
      (reports ≠ [] →
        outcome.result = .error (.references reports.length) ∧
          outcome.diagnostics.items = diagnostics.items ++ reports ∧
          outcome.analyzed = none ∧ outcome.calls = []) ∧
      (reports = [] →
        outcome.analyzed = some source ∧ source.errors = [] ∧ source.Marked ∧
          outcome.diagnostics.items = diagnostics.items ++ (analyzer.analyze source).2 ∧
          match (analyzer.analyze source).1 with
          | none => outcome.result = .error .analysis ∧ outcome.calls = []
          | some symbols =>
            let fresh := (Script.Session.start options state).generate emitter options symbols
            outcome.calls = fresh.1.calls ∧
              outcome.result =
                match fresh.2 with
                | none => .ok fresh.1.writer.output
                | some failure => .error (.generation failure)) := by
  intro loaded source reports outcome
  have hreports : reports = source.errors.map ReferenceError.diagnostic :=
    Loader.reported_load disk {} options.references
  have hmarked : source.errors = [] → source.Marked := Loader.marked_load
  obtain ⟨hsource, hitems⟩ := Loader.load_after disk diagnostics options.references
  rcases hload : Loader.load disk { diagnostics } options.references with ⟨source', after⟩
  rw [hload] at hsource hitems
  obtain rfl : source' = source := hsource
  have hafter : after.items = diagnostics.items ++ reports := hitems
  -- how the references were loaded does not matter any more
  clear_value loaded source reports
  refine ⟨hreports, fun hsome => ?_, fun hnone => ?_⟩
  · have herrors : source.errors ≠ [] := by
      intro hnil
      exact hsome (hreports.trans (List.map_eq_nil_iff.mpr hnil))
    have hcompile : outcome = _ := compile_of_failed hload herrors
    have hcount : source.errors.length = reports.length := by rw [hreports, List.length_map]
    rw [hcompile]
    exact ⟨by rw [← hcount], hafter, rfl, rfl⟩
  · have herrors : source.errors = [] := List.map_eq_nil_iff.mp (hreports.symm.trans hnone)
    rw [hnone, List.append_nil] at hafter
    rcases hanalyze : analyzer.analyze source with ⟨_ | symbols, found⟩
    · have hcompile : outcome = _ := compile_of_unanalyzed hload herrors hanalyze
      rw [hcompile]
      refine ⟨rfl, herrors, hmarked herrors, ?_, rfl, rfl⟩
      rw [Diagnostics.items_reportAll, hafter]
    · have hcompile : outcome = _ := compile_of_analyzed hload herrors hanalyze
      rw [hcompile]
      dsimp only
      rcases hfresh : (Script.Session.start options state).generate emitter options symbols with
        ⟨session, failure⟩
      rw [generate_eq hfresh, Diagnostics.items_reportAll, hafter]
      exact ⟨rfl, herrors, hmarked herrors, rfl, rfl, rfl⟩

end Compilation

end ScriptBackend
