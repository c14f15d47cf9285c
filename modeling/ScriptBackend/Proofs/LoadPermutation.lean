import ScriptBackend.Proofs.LoadOrder

/-! # The order of the references does not matter

Loading is sensitive to order: of two references with one short name the first is taken, and the
errors come in the order of the list.  But whether anything is wrong does not depend on it.  If
nothing is, each reference leads to an assembly under a name of its own, so that in any order the
same assemblies are accepted, and only their order in the set differs.

Where full names are unique the mark of a cycle does not depend on that order either: a
dependency between two assemblies is one between the positions that they have in either set
(`AssemblySet.DependsOn.moved`), and so a cycle of one set is a cycle of the other.
-/
namespace ScriptBackend

namespace AssemblySet

variable {set other : AssemblySet} {a : Assembly} {u v : Nat}

/-- Where full names are unique, an assembly is at the position of its name. -/
theorem assemblies_idxOf_fullName (hnodup : set.fullNames.Nodup)
    (ha : a ∈ set.assemblies.toList) :
    set.assemblies[set.fullNames.idxOf a.manifest.fullName]? = some a := by
  obtain ⟨i, hi⟩ := List.mem_iff_getElem?.mp ha
  rw [Array.getElem?_toList] at hi
  have hname : set.fullNames[i]? = some a.manifest.fullName := by
    rw [fullNames_getElem?, hi, Option.map_some]
  obtain ⟨hlt, hget⟩ := List.getElem?_eq_some_iff.mp hname
  rw [← hget, hnodup.idxOf_getElem, hi]

/-- The position in another set of the assembly at a position. -/
def movedTo (set other : AssemblySet) (u : Nat) : Nat :=
  other.fullNames.idxOf (set.fullNames.getD u "")

theorem assemblies_movedTo (hperm : set.assemblies.toList.Perm other.assemblies.toList)
    (hnodup : other.fullNames.Nodup) (ha : set.assemblies[u]? = some a) :
    other.assemblies[set.movedTo other u]? = some a := by
  have hname : set.fullNames.getD u "" = a.manifest.fullName := by
    rw [List.getD_eq_getElem?_getD, fullNames_getElem?, ha]
    rfl
  rw [movedTo, hname]
  refine assemblies_idxOf_fullName hnodup (hperm.mem_iff.mp ?_)
  exact List.mem_of_getElem? (Array.getElem?_toList.trans ha)

/-- A dependency is one in each set with the same assemblies, if no full name is shared. -/
theorem DependsOn.moved (hperm : set.assemblies.toList.Perm other.assemblies.toList)
    (hnodup : other.fullNames.Nodup) (h : set.DependsOn u v) :
    other.DependsOn (set.movedTo other u) (set.movedTo other v) := by
  obtain ⟨a, b, hu, hv, hname, -⟩ := h
  have hv' := assemblies_movedTo hperm hnodup hv
  refine ⟨a, b, assemblies_movedTo hperm hnodup hu, hv', hname, fun k c hk hc heq => ?_⟩
  -- the only position of the name is the one where `b` is
  have hk' : other.fullNames[k]? = other.fullNames[set.movedTo other v]? := by
    rw [fullNames_getElem?, fullNames_getElem?, hc, hv', Option.map_some, Option.map_some, heq]
  have hlt : k < other.fullNames.length := by
    have hsize := (Array.getElem?_eq_some_iff.mp hc).1
    rwa [fullNames, List.length_map, Array.length_toList]
  exact Nat.ne_of_lt' hk ((List.getElem?_inj hlt hnodup).mp hk')

theorem hasCycle_of_perm (hperm : set.assemblies.toList.Perm other.assemblies.toList)
    (hnodup : other.fullNames.Nodup) (h : set.ordered.hasCycle = true) :
    other.ordered.hasCycle = true := by
  obtain ⟨u, -, hu⟩ := hasCycle_iff.mp h
  exact hasCycle_of_transGen (hu.lift (set.movedTo other) fun _ _ => DependsOn.moved hperm hnodup)

/-- **The mark of a cycle does not depend on the order of acceptance**, if no full name is
shared. -/
theorem ordered_hasCycle_perm (hperm : set.assemblies.toList.Perm other.assemblies.toList)
    (hnodup : set.fullNames.Nodup) : set.ordered.hasCycle = other.ordered.hasCycle := by
  have hnodup' : other.fullNames.Nodup := (hperm.map _).nodup_iff.mp hnodup
  rw [Bool.eq_iff_iff]
  exact ⟨hasCycle_of_perm hperm hnodup', hasCycle_of_perm hperm.symm hnodup⟩

end AssemblySet

namespace Loader

section CleanReferences

variable {disk : Disk} {l l' : Loader} {references references' : List Path}

/-- Every reference leads to an assembly, and no two to the same folded name. -/
structure Clean (disk : Disk) (references : List Path) : Prop where
  sound : ∀ r ∈ references, Sound disk r
  stems_nodup : (references.map (foldedStem? disk)).Nodup

theorem Clean.perm (h : Clean disk references) (hperm : references.Perm references') :
    Clean disk references' :=
  ⟨fun r hr => h.sound r (hperm.mem_iff.mpr hr), (hperm.map _).nodup_iff.mp h.stems_nodup⟩

theorem Sound.found? {r : Path} (h : Sound disk r) :
    ∃ e, Loader.found? disk r = some e ∧ foldedStem? disk r = some (foldName e.name) := by
  obtain ⟨path, manifest, hfile, hread⟩ := h
  obtain ⟨name, hnames⟩ := hfile.names
  exact ⟨⟨⟨path, manifest⟩, name⟩, found?_eq_some_iff.mpr ⟨hnames, hread⟩, hnames.foldedStem?⟩

/-- A load that finds nothing wrong has clean references. -/
theorem clean_of_not_failed (h : (l.load disk references).source.failed = false) :
    Clean disk references := by
  obtain ⟨outcomes, hdecided, htracks⟩ := tracks_afterLoop disk l references
  obtain ⟨herrors, -, -⟩ := (failed_load_eq_false_iff disk l references).mp h
  obtain ⟨hsound, hnodup⟩ := hdecided.errors_eq_nil_iff.mp (htracks.errors.symm.trans herrors)
  exact ⟨hsound, hnodup⟩

/-- The assemblies that the references lead to. -/
def assembliesOf (disk : Disk) (references : List Path) : List AssemblySet.Entry :=
  references.filterMap (found? disk)

/-- Clean references are all accepted. -/
theorem load_of_clean (l : Loader) (h : Clean disk references) :
    let source := (l.load disk references).source
    source.core.toList =
        ((assembliesOf disk references).filter (isCoreName ·.name)).map (·.toAssembly) ∧
      source.others.assemblies.toList =
        ((assembliesOf disk references).filter (!isCoreName ·.name)).map (·.toAssembly) ∧
      source.errors = coreErrors source.core ++ otherErrors source.others.assemblies.toList := by
  have hentries : references.map (found? disk) = (assembliesOf disk references).map some := by
    refine (map_some_filterMap fun r hr => ?_).symm
    obtain ⟨e, he, -⟩ := (h.sound r hr).found?
    rw [he, Option.isSome_some]
  refine load_of_entries l hentries ?_
  have hstems : ((assembliesOf disk references).map (foldName ·.name)).map some =
      references.map (foldedStem? disk) := by
    calc ((assembliesOf disk references).map (foldName ·.name)).map some
        = (references.map (found? disk)).map (Option.map (foldName ·.name)) := by
          rw [hentries, List.map_map, List.map_map]
          rfl
      _ = references.map (foldedStem? disk) := by
          rw [List.map_map]
          refine List.map_congr_left fun r hr => ?_
          obtain ⟨e, he, hstem⟩ := (h.sound r hr).found?
          rw [Function.comp_apply, he, hstem, Option.map_some]
  exact List.Nodup.of_map some (hstems ▸ h.stems_nodup)

/-- Two optional values whose lists are permutations are equal. -/
theorem eq_of_toList_perm {α : Type} {a b : Option α} (h : a.toList.Perm b.toList) : a = b := by
  cases a with
  | none =>
    rw [Option.toList_none, List.nil_perm, Option.toList_eq_nil_iff] at h
    exact h.symm
  | some a =>
    rw [Option.toList_some, List.singleton_perm] at h
    exact (Option.toList_eq_singleton_iff.mp h.symm).symm

/-- A load that finds nothing wrong finds nothing wrong in any order of the references, and the
same assemblies. -/
theorem load_perm_of_not_failed (l' : Loader) (hperm : references.Perm references')
    (h : (l.load disk references).source.failed = false) :
    let source := (l.load disk references).source
    let source' := (l'.load disk references').source
    source'.failed = false ∧ source.core = source'.core ∧
      source.others.assemblies.toList.Perm source'.others.assemblies.toList := by
  intro source source'
  have hclean := clean_of_not_failed h
  obtain ⟨hcore, hothers, herrors⟩ := load_of_clean l hclean
  obtain ⟨hcore', hothers', herrors'⟩ := load_of_clean l' (hclean.perm hperm)
  have hfound : (assembliesOf disk references).Perm (assembliesOf disk references') :=
    hperm.filterMap _
  have hsame : source.core = source'.core := by
    refine eq_of_toList_perm ?_
    rw [hcore, hcore']
    exact (hfound.filter _).map _
  have hothersPerm : source.others.assemblies.toList.Perm source'.others.assemblies.toList := by
    rw [hothers, hothers']
    exact (hfound.filter _).map _
  refine ⟨?_, hsame, hothersPerm⟩
  have hnil : source.errors = [] := by simpa [ReferenceSource.failed] using h
  obtain ⟨hcoreNil, hothersNil⟩ := List.append_eq_nil_iff.mp (herrors.symm.trans hnil)
  have hothersNil' : otherErrors source'.others.assemblies.toList = [] := by
    rw [otherErrors_eq_nil_iff] at hothersNil ⊢
    exact fun a ha => hothersNil a (hothersPerm.mem_iff.mpr ha)
  rw [ReferenceSource.failed, herrors', hothersNil', ← hsame, hcoreNil]
  rfl

/-- The manifest at a path is that of the assembly there. -/
theorem manifest?_load_eq_some_iff {p : Path} {manifest : Manifest} :
    (l.load disk references).source.manifest? p = some manifest ↔
      ∃ a ∈ (l.load disk references).source.others.assemblies.toList,
        a.path.components = p.components ∧ a.manifest = manifest := by
  obtain ⟨entries, hconsistent, -⟩ := consistent_load disk l references
  rw [hconsistent.manifest?_eq_some_iff, hconsistent.holds.assemblies]
  simp only [List.mem_map, exists_exists_and_eq_and]

end CleanReferences

/-- **What a load finds does not depend on the order of the references.**  Whether anything is
wrong is the same in any order.  If nothing is, the core assembly is the same, and the other
assemblies are the same up to their order, each with the same manifest; and if their full names
are unique, so is the mark of a cycle. -/
theorem load_perm_agrees (disk : Disk) (l l' : Loader) {references references' : List Path}
    (hperm : references.Perm references') :
    let source := (l.load disk references).source
    let source' := (l'.load disk references').source
    source.failed = source'.failed ∧
      (source.failed = false →
        source.core = source'.core ∧
          source.order.paths.Perm source'.order.paths ∧
          (∀ p, source.manifest? p = source'.manifest? p) ∧
          (source.others.fullNames.Nodup → source.order.hasCycle = source'.order.hasCycle)) := by
  intro source source'
  constructor
  · rw [Bool.eq_iff_iff, ← not_iff_not, Bool.not_eq_true, Bool.not_eq_true]
    exact ⟨fun h => (load_perm_of_not_failed l' hperm h).1,
      fun h => (load_perm_of_not_failed l hperm.symm h).1⟩
  · intro h
    obtain ⟨-, hcore, hothers⟩ := load_perm_of_not_failed l' hperm h
    have horder : source.order = source.others.ordered := order_load disk l references
    have horder' : source'.order = source'.others.ordered := order_load disk l' references'
    refine ⟨hcore, ?_, fun p => ?_, fun hnodup => ?_⟩
    · rw [horder, horder']
      exact (source.others.ordered_paths_perm.trans (hothers.map _)).trans
        source'.others.ordered_paths_perm.symm
    · refine Option.ext fun manifest => ?_
      rw [manifest?_load_eq_some_iff, manifest?_load_eq_some_iff]
      exact exists_congr fun a => and_congr_left' hothers.mem_iff
    · rw [horder, horder']
      exact AssemblySet.ordered_hasCycle_perm hothers hnodup

namespace Circle

/-- Two libraries that refer to each other. -/
def left : Assembly :=
  SharedName.assembly "Left" "Left" ["Right"]

/-- The other library. -/
def right : Assembly :=
  SharedName.assembly "Right" "Right" ["Left"]

/-- The files of the libraries. -/
def disk : Disk where
  root := .directory [("w", .directory
    [("mscorlib.toml", SharedName.manifestFile "mscorlib" ""),
      ("Left.toml", SharedName.manifestFile "Left" "'Right'"),
      ("Right.toml", SharedName.manifestFile "Right" "'Left'")])]
  workingDirectory := ⟨"/w"⟩

/-- The references to the files. -/
def references : List Path :=
  [⟨"mscorlib.toml"⟩, ⟨"Left.toml"⟩, ⟨"Right.toml"⟩]

theorem load_eq :
    let source := (({} : Loader).load disk references).source
    source.failed = false ∧ source.others.assemblies = #[left, right] ∧
      source.order = ⟨[right.path, left.path], true⟩ := by
  intro source
  have hentries : references.map (found? disk) =
      [⟨SharedName.assembly "mscorlib" "mscorlib" [], "mscorlib"⟩, ⟨left, "Left"⟩,
        (⟨right, "Right"⟩ : AssemblySet.Entry)].map some := by
    decide +kernel
  obtain ⟨hfailed, -, hassemblies, horder⟩ :=
    load_of_marked {} (SharedName.assembly "mscorlib" "mscorlib" []) #[left, right] hentries
      (by decide +kernel) (by decide +kernel) (by decide +kernel) (by decide +kernel)
  refine ⟨hfailed, hassemblies, horder.trans ?_⟩
  cbv

end Circle

/-- Two libraries that refer to each other do so in any order of the references. -/
theorem load_perm_agrees_circle :
    let source := (({} : Loader).load Circle.disk Circle.references).source
    let source' := (({} : Loader).load Circle.disk Circle.references.reverse).source
    Circle.references.Perm Circle.references.reverse ∧ source.failed = false ∧
      source.others.fullNames.Nodup ∧ source'.failed = false ∧ source.core = source'.core ∧
      source'.order.paths.Perm [Circle.right.path, Circle.left.path] ∧
      (∀ p, source.manifest? p = source'.manifest? p) ∧ source'.order.hasCycle = true := by
  intro source source'
  obtain ⟨hfailed, hassemblies, horder⟩ := Circle.load_eq
  have hnodup : source.others.fullNames.Nodup := by
    rw [AssemblySet.fullNames, hassemblies]
    decide
  have hperm : Circle.references.Perm Circle.references.reverse :=
    (List.reverse_perm Circle.references).symm
  obtain ⟨hverdict, hsame⟩ := load_perm_agrees Circle.disk {} {} hperm
  obtain ⟨hcore, hpaths, hmanifests, hcycle⟩ := hsame hfailed
  rw [horder] at hpaths hcycle
  exact ⟨hperm, hfailed, hnodup, hverdict ▸ hfailed, hcore, hpaths.symm, hmanifests,
    (hcycle hnodup).symm⟩

end Loader
end ScriptBackend
