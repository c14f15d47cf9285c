import ScriptBackend.Proofs.DependencyOrder
import ScriptBackend.Proofs.LoadVerdict
import ScriptBackend.Proofs.SetIndex

/-! # Looking up what is loaded

After a load, the assemblies in order, the lookup by path and the lookup by short name agree,
whether the load found errors or not.  The short names are not kept with the assemblies, but
they are the stems of the paths (`Loader.Consistent`), and paths to one place have one stem.
So assemblies under different names are at different places, and none is where the core
assembly is.
-/
namespace ScriptBackend

/-- Paths to one place have one stem. -/
theorem Path.stem?_congr {p q : Path} (h : p.components = q.components) : p.stem? = q.stem? := by
  rw [stem?, stem?, h]

namespace Loader

variable {disk : Disk} {l : Loader} {reference : Path} {source : ReferenceSource}
  {entries : List AssemblySet.Entry}

/-- What one reference can do to what is loaded: it is rejected, or it becomes the core
assembly or one of the others. -/
inductive Visited (disk : Disk) (l : Loader) (reference : Path) : Loader → Prop
  | rejected (e : ReferenceError Manifest.Error) : Visited disk l reference (l.reject e)
  | core {path : Path} {name : String} {manifest : Manifest} : Names disk reference path name →
      isCoreName name = true → Manifest.read disk path = .ok manifest → l.source.core = none →
      Visited disk l reference { l with source := { l.source with core := some ⟨path, manifest⟩ } }
  | other {path : Path} {name : String} {manifest : Manifest} {others : AssemblySet} :
      Names disk reference path name → isCoreName name = false →
      Manifest.read disk path = .ok manifest →
      l.source.others.add? path name manifest = some others →
      Visited disk l reference { l with source := { l.source with others } }

theorem visited_visit (disk : Disk) (l : Loader) (reference : Path) :
    Visited disk l reference (l.visit disk reference) := by
  unfold visit
  cases hlocate : locate? disk reference with
  | none => exact .rejected _
  | some found =>
    obtain ⟨path, name⟩ := found
    have hnames := locate?_eq_some_iff.mp hlocate
    by_cases htaken : l.source.others.isReferenced name = true
    · simp only [htaken, if_true]
      exact .rejected _
    · simp only [htaken, Bool.false_eq_true, if_false]
      cases hread : Manifest.read disk path with
      | error reason => exact .rejected _
      | ok manifest =>
        unfold accept
        cases hcore : isCoreName name with
        | true =>
          cases hsource : l.source.core with
          | some core => exact .rejected _
          | none => exact .core hnames hcore hread hsource
        | false =>
          -- the name is not taken, so the set takes the assembly
          obtain ⟨others, hadd⟩ :
              ∃ others, l.source.others.add? path name manifest = some others := by
            simp [AssemblySet.add?, htaken]
          simp only [hadd]
          exact .other hnames hcore hread hadd

/-- What is loaded fits together: the others are held under the stems of their paths and not
under the name of the core assembly, and each has the manifest that its file gives. -/
structure Consistent (disk : Disk) (source : ReferenceSource) (entries : List AssemblySet.Entry) :
    Prop where
  holds : source.others.Holds entries
  stem : ∀ e ∈ entries, e.path.stem? = some e.name
  notCore : ∀ e ∈ entries, isCoreName e.name = false
  read : ∀ e ∈ entries, Manifest.read disk e.path = .ok e.manifest
  core : ∀ a, source.core = some a → ∃ name, a.path.stem? = some name ∧ isCoreName name = true

theorem Consistent.initial : Consistent disk {} [] where
  holds := AssemblySet.holds_empty
  stem := nofun
  notCore := nofun
  read := nofun
  core := nofun

theorem Consistent.acceptOther {path : Path} {name : String} {manifest : Manifest}
    {others : AssemblySet} (h : Consistent disk source entries)
    (hnames : Names disk reference path name) (hcore : isCoreName name = false)
    (hread : Manifest.read disk path = .ok manifest)
    (hadd : source.others.add? path name manifest = some others) :
    Consistent disk { source with others } (entries ++ [⟨⟨path, manifest⟩, name⟩]) := by
  have hsnoc {P : AssemblySet.Entry → Prop} (hold : ∀ e ∈ entries, P e)
      (hnew : P ⟨⟨path, manifest⟩, name⟩) : ∀ e ∈ entries ++ [⟨⟨path, manifest⟩, name⟩], P e := by
    intro e he
    rcases List.mem_append.mp he with he | he
    · exact hold e he
    · exact List.mem_singleton.mp he ▸ hnew
  exact ⟨h.holds.add hadd, hsnoc h.stem hnames.2, hsnoc h.notCore hcore, hsnoc h.read hread, h.core⟩

/-- One more reference keeps everything consistent. -/
theorem Consistent.visit (h : Consistent disk l.source entries) (reference : Path) :
    ∃ entries', Consistent disk (l.visit disk reference).source entries' := by
  have hvisited := visited_visit disk l reference
  generalize l.visit disk reference = next at hvisited ⊢
  cases hvisited with
  | rejected e => exact ⟨entries, h.holds, h.stem, h.notCore, h.read, h.core⟩
  | core hnames hcore _ _ =>
    refine ⟨entries, h.holds, h.stem, h.notCore, h.read, fun a ha => ?_⟩
    obtain rfl := Option.some.inj ha
    exact ⟨_, hnames.2, hcore⟩
  | other hnames hcore hread hadd => exact ⟨_, h.acceptOther hnames hcore hread hadd⟩

theorem consistent_afterLoop (disk : Disk) (l : Loader) (references : List Path) :
    ∃ entries, Consistent disk (afterLoop disk l references) entries := by
  have hloop : ∀ (l : Loader) (entries : List AssemblySet.Entry), Consistent disk l.source entries →
      ∃ entries', Consistent disk (references.foldl (Loader.visit disk) l).source entries' := by
    induction references with
    | nil => exact fun l entries h => ⟨entries, h⟩
    | cons reference references ih =>
      intro l entries h
      obtain ⟨entries', h'⟩ := h.visit reference
      exact ih _ entries' h'
  exact hloop l.reset [] Consistent.initial

/-- The checks after the loop change nothing but the errors and the order. -/
theorem consistent_load (disk : Disk) (l : Loader) (references : List Path) :
    ∃ entries, Consistent disk (l.load disk references).source entries ∧
      (l.load disk references).source.order.paths.Perm (entries.map (·.path)) := by
  obtain ⟨entries, h⟩ := consistent_afterLoop disk l references
  rw [source_load]
  refine ⟨entries, ⟨h.holds, h.stem, h.notCore, h.read, h.core⟩, ?_⟩
  have hperm := (afterLoop disk l references).others.ordered_paths_perm
  rwa [h.holds.assemblies, List.map_map] at hperm

namespace Consistent

theorem stems_nodup (h : Consistent disk source entries) :
    (entries.map fun e => e.path.stem?.map foldName).Nodup := by
  have hstems : (entries.map fun e => e.path.stem?.map foldName) =
      (entries.map (foldName ·.name)).map some := by
    rw [List.map_map]
    refine List.map_congr_left fun e he => ?_
    rw [h.stem e he, Option.map_some, Function.comp_apply]
  rw [hstems]
  exact h.holds.names_nodup.map fun _ _ => Option.some.inj

/-- Assemblies under different names are at different places. -/
theorem components_nodup (h : Consistent disk source entries) :
    (entries.map (·.path.components)).Nodup := by
  refine List.pairwise_map.mpr ((List.pairwise_map.mp h.stems_nodup).imp ?_)
  intro e e' hne heq
  exact hne (by rw [Path.stem?_congr heq])

theorem manifest?_eq_some_iff (h : Consistent disk source entries) {p : Path}
    {manifest : Manifest} :
    source.manifest? p = some manifest ↔
      ∃ e ∈ entries, e.path.components = p.components ∧ e.manifest = manifest :=
  h.holds.get?_eq_some_iff h.components_nodup

theorem manifestByName?_eq_some_iff (h : Consistent disk source entries) {name : String}
    {manifest : Manifest} :
    source.manifestByName? name = some manifest ↔
      ∃ e ∈ entries, foldName e.name = foldName name ∧ e.manifest = manifest :=
  h.holds.getByName?_eq_some_iff

/-- Nothing but the core assembly is where the core assembly is. -/
theorem manifest?_core (h : Consistent disk source entries) {core : Assembly}
    (hcore : source.core = some core) : source.manifest? core.path = none := by
  refine Option.eq_none_iff_forall_ne_some.mpr fun manifest hsome => ?_
  obtain ⟨e, he, hpath, -⟩ := h.manifest?_eq_some_iff.mp hsome
  obtain ⟨name, hname, hcoreName⟩ := h.core core hcore
  rw [← Path.stem?_congr hpath, h.stem e he] at hname
  rw [← Option.some.inj hname, h.notCore e he] at hcoreName
  exact Bool.false_ne_true hcoreName

theorem manifestByName?_coreName (h : Consistent disk source entries) {name : String}
    (hname : isCoreName name = true) : source.manifestByName? name = none := by
  refine Option.eq_none_iff_forall_ne_some.mpr fun manifest hsome => ?_
  obtain ⟨e, he, hfold, -⟩ := h.manifestByName?_eq_some_iff.mp hsome
  rw [← isCoreName_congr hfold, h.notCore e he] at hname
  exact Bool.false_ne_true hname

end Consistent

/-- **After a load the order and the lookups agree**, whether it found errors or not.  The
stems of the paths in the order differ in their folded form, from each other and from the
name of the core assembly, and the paths lead to different places.  The manifest of each is
the one that its file gives, by its path and by its stem alike.  No other name leads to a
manifest, and neither does the path or the name of the core assembly. -/
theorem load_lookups_agree (disk : Disk) (l : Loader) (references : List Path) :
    let source := (l.load disk references).source
    let paths := source.order.paths
    (paths.map fun p => p.stem?.map foldName).Nodup ∧
      (paths.map Path.components).Nodup ∧
      (∀ p ∈ paths, ∃ stem manifest, p.stem? = some stem ∧
        foldName stem ≠ foldName coreName ∧ HasManifest disk p manifest ∧
        source.manifest? p = some manifest ∧ source.manifestByName? stem = some manifest) ∧
      (∀ name, (source.manifestByName? name).isSome = true ↔
        ∃ p ∈ paths, p.stem?.map foldName = some (foldName name)) ∧
      (∀ core, source.core = some core → source.manifest? core.path = none) ∧
      ∀ name, foldName name = foldName coreName → source.manifestByName? name = none := by
  intro source paths
  obtain ⟨entries, h, hperm⟩ := consistent_load disk l references
  have hmem : ∀ p, p ∈ paths ↔ ∃ e ∈ entries, e.path = p :=
    fun p => hperm.mem_iff.trans List.mem_map
  refine ⟨?_, ?_, ?_, ?_, fun core => h.manifest?_core, ?_⟩
  · rw [(hperm.map _).nodup_iff, List.map_map]
    exact h.stems_nodup
  · rw [(hperm.map _).nodup_iff, List.map_map]
    exact h.components_nodup
  · intro p hp
    obtain ⟨e, he, rfl⟩ := (hmem p).mp hp
    refine ⟨e.name, e.manifest, h.stem e he, fun hfold => ?_, read_eq_ok_iff.mp (h.read e he),
      h.manifest?_eq_some_iff.mpr ⟨e, he, rfl, rfl⟩,
      h.manifestByName?_eq_some_iff.mpr ⟨e, he, rfl, rfl⟩⟩
    have hcore := h.notCore e he
    rw [isCoreName_iff.mpr hfold] at hcore
    exact Bool.false_ne_true hcore.symm
  · intro name
    rw [Option.isSome_iff_exists]
    constructor
    · rintro ⟨manifest, hsome⟩
      obtain ⟨e, he, hfold, -⟩ := h.manifestByName?_eq_some_iff.mp hsome
      exact ⟨e.path, (hmem e.path).mpr ⟨e, he, rfl⟩, by rw [h.stem e he, Option.map_some, hfold]⟩
    · rintro ⟨p, hp, hstem⟩
      obtain ⟨e, he, rfl⟩ := (hmem p).mp hp
      rw [h.stem e he, Option.map_some] at hstem
      exact ⟨e.manifest,
        h.manifestByName?_eq_some_iff.mpr ⟨e, he, Option.some.inj hstem, rfl⟩⟩
  · exact fun name hname => h.manifestByName?_coreName (isCoreName_iff.mpr hname)

end Loader
end ScriptBackend
