import ScriptBackend.Proofs.SelectedTypes
import ScriptBackend.Script.Module

/-! # What does not show in a module

Of a program, a module shows the name, the dependencies and the types that get code.  Programs
that agree on these are `Alike`, however their types are grouped into namespaces and whatever
other types they have, and no emitter can tell them apart (`Session.generate_of_alike`).

All that an emitter learns about a program is laid out before the first call (`outline`), so it
is enough to compare the outlines.  What an outline takes from the namespaces are the selected
types, and a namespace without application types has none of them anyway.

Tests are left out by the options or by taking them out of the program, with the same result
(`Session.generate_without_tests`).  The options count twice, when types are selected and when the
tests are written; but where no test was selected there is none to write.
-/
namespace ScriptBackend

/-- The types that get code, in the order in which the namespaces declare them. -/
def SymbolSet.selectable (includeTests : Bool) (symbols : SymbolSet) : List TypeSymbol :=
  (symbols.namespaces.flatMap (·.types)).filter (·.Selectable includeTests)

/-- The programs have the same name, the same dependencies and the same types that get code. -/
structure SymbolSet.Alike (includeTests : Bool) (a b : SymbolSet) : Prop where
  scriptName : a.scriptName = b.scriptName
  dependencies : a.dependencies = b.dependencies
  selectable : a.selectable includeTests = b.selectable includeTests

/-- The namespace without the types of the tests. -/
def Namespace.withoutTests (n : Namespace) : Namespace :=
  { n with types := n.types.filter (!·.isTest) }

/-- The program without the types of the tests.  A namespace stays even if it had no others. -/
def SymbolSet.withoutTests (symbols : SymbolSet) : SymbolSet :=
  { symbols with namespaces := symbols.namespaces.map (·.withoutTests) }

namespace SymbolSet

theorem selected_eq_selectable (symbols : SymbolSet) (includeTests : Bool) :
    symbols.selected includeTests = symbols.selectable includeTests := by
  rw [selected_eq, selectable]
  refine List.filter_congr fun t _ => ?_
  rw [Bool.eq_iff_iff, TypeSymbol.isSelected_iff, decide_eq_true_iff]

theorem selection_congr {a b : SymbolSet} {testsA testsB : Bool}
    (h : a.selected testsA = b.selected testsB) : a.selection testsA = b.selection testsB := by
  simp only [selection, h]

theorem flatMap_types_withoutTests (symbols : SymbolSet) :
    symbols.withoutTests.namespaces.flatMap (·.types) =
      (symbols.namespaces.flatMap (·.types)).filter (!·.isTest) := by
  rw [withoutTests, List.flatMap_map, List.filter_flatMap]
  rfl

/-- Leaving out the tests first or when selecting is the same. -/
theorem selected_withoutTests (symbols : SymbolSet) :
    symbols.withoutTests.selected true = symbols.selected false := by
  rw [selected_eq, selected_eq, flatMap_types_withoutTests, List.filter_filter]
  refine List.filter_congr fun t _ => ?_
  unfold TypeSymbol.isSelected
  cases t.isTest <;> simp

/-- Where tests are left out, no selected type belongs to them. -/
theorem isTest_of_mem_types {symbols : SymbolSet} {t : TypeSymbol}
    (h : t ∈ (symbols.selection false).types) : t.isTest = false := by
  have hmem : t ∈ symbols.selected false := (TypeSymbol.sort_perm _).mem_iff.mp h
  rw [selected_eq, List.mem_filter] at hmem
  have hselectable : t.Selectable false := TypeSymbol.isSelected_iff.mp hmem.2
  rw [Bool.eq_false_iff]
  exact fun htest => absurd (hselectable.2.2.1 htest) Bool.false_ne_true

end SymbolSet

namespace Script

/-- Programs that are alike have one outline. -/
theorem outline_of_alike {options : Options} {a b : SymbolSet}
    (h : a.Alike options.includeTests b) : outline options a = outline options b := by
  have hselection : a.selection options.includeTests = b.selection options.includeTests := by
    refine SymbolSet.selection_congr ?_
    rw [SymbolSet.selected_eq_selectable, SymbolSet.selected_eq_selectable, h.selectable]
  simp only [outline, h.scriptName, h.dependencies, hselection]

/-- The outline without tests is that of the program without tests. -/
theorem outline_withoutTests (options : Options) (symbols : SymbolSet) :
    outline (options.withTests false) symbols =
      outline (options.withTests true) symbols.withoutTests := by
  have hselection : symbols.withoutTests.selection true = symbols.selection false :=
    SymbolSet.selection_congr symbols.selected_withoutTests
  have hscaffolds : (symbols.selection false).types.filter (·.isTestClass) = [] := by
    refine List.filter_eq_nil_iff.mpr fun t ht => ?_
    simp [TypeSymbol.isTestClass, SymbolSet.isTest_of_mem_types ht]
  have hname : symbols.withoutTests.scriptName = symbols.scriptName := rfl
  have hdependencies : symbols.withoutTests.dependencies = symbols.dependencies := rfl
  simp only [outline, Options.withTests, hselection, hname, hdependencies, hscaffolds, calls,
    List.map_nil, ite_self]

namespace Session

/-- A generation is determined by its outline and the name of its module. -/
theorem generate_congr {σ : Type} {e : Emitter σ} {s : Session σ} {optionsA optionsB : Options}
    {a b : SymbolSet} (houtline : outline optionsA a = outline optionsB b)
    (hname : a.scriptName = b.scriptName) :
    s.generate e optionsA a = s.generate e optionsB b := by
  simp only [generate, houtline, hname]

/-- **Only what gets code shows.**  If two programs have the same name, the same dependencies and
the same types that get code, any emitter is called for the same pieces, leaves the same text and
state behind, and fails for the same reason or not at all.  It is the same after any number of
steps, so also for an emitter that does not come back from a call. -/
theorem generate_of_alike {σ : Type} (e : Emitter σ) (options : Options) (s : Session σ)
    {a b : SymbolSet} (alike : a.Alike options.includeTests b) :
    s.generate e options a = s.generate e options b ∧
      ∀ n, s.follow e ((outline options a).take n) = s.follow e ((outline options b).take n) := by
  have houtline : outline options a = outline options b := outline_of_alike alike
  exact ⟨generate_congr houtline alike.scriptName, fun n => by rw [houtline]⟩

/-- A program with types of all sorts that get no code, and one that has only those that do, in one
namespace of another name.  The emitter raises the level with every body. -/
theorem generate_of_alike_gathered :
    let page : TypeSymbol := ⟨"Page", .classType 1 false, none, true, true, false⟩
    let color : TypeSymbol := ⟨"Color", .enumeration, none, true, true, false⟩
    let scattered : SymbolSet :=
      { scriptName := "app"
        dependencies := ["ss"]
        namespaces :=
          [⟨"Web", [⟨"Element", .classType 0 false, none, true, false, false⟩]⟩,
            ⟨"App", [⟨"Handler", .delegate, none, true, true, false⟩, page]⟩,
            ⟨"App.Empty", []⟩,
            ⟨"App.Data", [color, ⟨"Mode", .enumeration, none, false, true, false⟩]⟩,
            ⟨"Tests", [⟨"PageTests", .classType 0 false, none, true, true, true⟩]⟩] }
    let gathered : SymbolSet :=
      { scriptName := "app", dependencies := ["ss"], namespaces := [⟨"All", [page, color]⟩] }
    let e : Emitter Unit := .ofCall fun call =>
      match call.piece with
      | .body => [.line call.type.name, .indent]
      | _ => [.write call.type.name]
    let options : Options := { includeTests := false, indentWidth := 2 }
    scattered.Alike false gathered ∧ scattered ≠ gathered ∧
      (start options ()).generate e options scattered =
        (start options ()).generate e options gathered := by
  intro page color scattered gathered e options
  have alike : scattered.Alike false gathered := ⟨rfl, rfl, by decide⟩
  have hne : scattered ≠ gathered := by decide
  exact ⟨alike, hne, (generate_of_alike e options (start options ()) alike).1⟩

/-- **Tests can be left out by the options or by taking them out of the program.**  A generation
without tests does the same as one with tests for the program that has none, whatever the emitter
and at every step. -/
theorem generate_without_tests {σ : Type} (e : Emitter σ) (options : Options) (s : Session σ)
    (symbols : SymbolSet) :
    s.generate e (options.withTests false) symbols =
        s.generate e (options.withTests true) symbols.withoutTests ∧
      ∀ n, s.follow e ((outline (options.withTests false) symbols).take n) =
        s.follow e ((outline (options.withTests true) symbols.withoutTests).take n) := by
  have houtline := outline_withoutTests options symbols
  exact ⟨generate_congr houtline rfl, fun n => by rw [houtline]⟩

end Session

end Script

end ScriptBackend
