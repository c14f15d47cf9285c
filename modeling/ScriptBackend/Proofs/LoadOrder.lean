import ScriptBackend.Proofs.DependencyCycle
import ScriptBackend.Proofs.LoadLookup

/-! # Dependencies come first in a load

In a load without cycles, each assembly comes after the ones whose full names it refers to, as
far as these names are theirs alone.  Short names are told apart when references are loaded,
and full names are not.  A full name that several assemblies share leads to the last of them,
and the others can come after an assembly that refers to it.

A load in which this happens is worked out by a rule for references that lead to assemblies
under different short names: they are all accepted, in the order of the list
(`Loader.load_of_entries`).
-/
namespace ScriptBackend

namespace AssemblySet

variable {set : AssemblySet} {i : Nat} {u : Assembly}

/-- Where all paths differ, the place of a path is that of its position. -/
theorem idxOf_ordered_paths (hnodup : set.ordered.paths.Nodup) (hu : set.assemblies[i]? = some u) :
    set.ordered.paths.idxOf u.path = set.positions.idxOf i := by
  have hsize : i < set.size := (Array.getElem?_eq_some_iff.mp hu).1
  have hmem : i ∈ set.positions := set.positions_perm.mem_iff.mpr (List.mem_range.mpr hsize)
  have hplace : (set.ordered.paths.map some)[set.positions.idxOf i]? = some (some u.path) := by
    rw [ordered_paths, List.getElem?_map, List.getElem?_idxOf hmem, Option.map_some, pathAt?, hu,
      Option.map_some]
  rw [List.getElem?_map, Option.map_eq_some_iff] at hplace
  obtain ⟨p, hp, heq⟩ := hplace
  obtain ⟨hlt, hget⟩ := List.getElem?_eq_some_iff.mp hp
  rw [← Option.some.inj heq, ← hget, hnodup.idxOf_getElem]

end AssemblySet

namespace Loader

theorem order_load (disk : Disk) (l : Loader) (references : List Path) :
    (l.load disk references).source.order = (l.load disk references).source.others.ordered := by
  rw [source_load]

/-- The paths in the order of a load all differ. -/
theorem order_load_nodup (disk : Disk) (l : Loader) (references : List Path) :
    (l.load disk references).source.order.paths.Nodup := by
  obtain ⟨entries, hconsistent, hperm⟩ := consistent_load disk l references
  refine hperm.nodup_iff.mpr (List.Nodup.of_map Path.components ?_)
  rw [List.map_map]
  exact hconsistent.components_nodup

/-! ### Loads in which nothing is refused -/

section Entries

variable {disk : Disk} {references : List Path} {reference : Path} {outcomes : List Outcome}
  {entries : List AssemblySet.Entry}

/-- The assembly that a reference leads to and its short name, if it leads to one. -/
def found? (disk : Disk) (reference : Path) : Option AssemblySet.Entry :=
  match locate? disk reference with
  | none => none
  | some (path, name) =>
    match Manifest.read disk path with
    | .ok manifest => some ⟨⟨path, manifest⟩, name⟩
    | .error _ => none

/-- What becomes of an assembly whose name is free. -/
def outcomeOf (e : AssemblySet.Entry) : Outcome :=
  if isCoreName e.name then .core e.toAssembly else .other e.toAssembly

theorem found?_eq_some_iff {e : AssemblySet.Entry} : found? disk reference = some e ↔
    Names disk reference e.path e.name ∧ Manifest.read disk e.path = .ok e.manifest := by
  unfold found?
  constructor
  · intro h
    split at h
    case h_1 => cases h
    case h_2 path name hlocate =>
      split at h
      case h_1 manifest hread =>
        cases h
        exact ⟨locate?_eq_some_iff.mp hlocate, hread⟩
      case h_2 => cases h
  · rintro ⟨hnames, hread⟩
    simp only [locate?_eq_some_iff.mpr hnames, hread]

/-- References that lead to assemblies under different names can be loaded without errors. -/
theorem sound_of_entries (hentries : references.map (found? disk) = entries.map some)
    (hnodup : (entries.map (foldName ·.name)).Nodup) :
    (∀ r ∈ references, Sound disk r) ∧ (references.map (foldedStem? disk)).Nodup := by
  have hfound : ∀ r ∈ references, ∃ e, found? disk r = some e := by
    intro r hr
    have hmem : found? disk r ∈ entries.map some := hentries ▸ List.mem_map_of_mem hr
    obtain ⟨e, -, he⟩ := List.mem_map.mp hmem
    exact ⟨e, he.symm⟩
  constructor
  · intro r hr
    obtain ⟨e, he⟩ := hfound r hr
    obtain ⟨hnames, hread⟩ := found?_eq_some_iff.mp he
    exact ⟨e.path, e.manifest, hnames.1, hread⟩
  · have hstems : references.map (foldedStem? disk) = (entries.map (foldName ·.name)).map some := by
      calc references.map (foldedStem? disk)
          = (references.map (found? disk)).map (Option.map (foldName ·.name)) := by
            rw [List.map_map]
            refine List.map_congr_left fun r hr => ?_
            obtain ⟨e, he⟩ := hfound r hr
            rw [Function.comp_apply, he, (found?_eq_some_iff.mp he).1.foldedStem?, Option.map_some]
        _ = (entries.map (foldName ·.name)).map some := by
            rw [hentries, List.map_map, List.map_map]
            rfl
    rw [hstems]
    exact hnodup.map fun _ _ => Option.some.inj

/-- References that lead to assemblies under different names are all accepted. -/
theorem Decided.outcomes_eq (h : Decided disk references outcomes)
    (hentries : references.map (found? disk) = entries.map some)
    (hnodup : (entries.map (foldName ·.name)).Nodup) : outcomes = entries.map outcomeOf := by
  have hclean := h.errors_eq_nil_iff.mpr (sound_of_entries hentries hnodup)
  obtain ⟨hlength, hdecides⟩ := h
  have hsame : references.length = entries.length := by
    simpa using congrArg List.length hentries
  refine List.ext_getElem? fun i => ?_
  rcases Nat.lt_or_ge i references.length with hlt | hge
  · obtain ⟨o, ho, hdec⟩ := hdecides i references[i] (List.getElem?_eq_getElem hlt)
    have hnone : o.error? = none :=
      List.filterMap_eq_nil_iff.mp hclean o (List.mem_of_getElem? ho)
    obtain ⟨path, name, manifest, hnames, hread, hfree⟩ := hdec.error?_eq_none_iff.mp hnone
    have hfound : found? disk references[i] = some ⟨⟨path, manifest⟩, name⟩ :=
      found?_eq_some_iff.mpr ⟨hnames, hread⟩
    -- so what the reference was accepted as is the entry at its place
    have hentry : (entries.map some)[i]? = some (some ⟨⟨path, manifest⟩, name⟩) := by
      rw [← hentries, List.getElem?_map, List.getElem?_eq_getElem hlt, Option.map_some, hfound]
    rw [List.getElem?_map] at hentry
    obtain ⟨e, he, heq⟩ := Option.map_eq_some_iff.mp hentry
    obtain rfl := Option.some.inj heq
    rw [ho, List.getElem?_map, he, Option.map_some, outcomeOf]
    cases hcore : isCoreName name with
    | true => rw [hdec.unique (.core hnames hcore hfree hread)]; rfl
    | false => rw [hdec.unique (.other hnames hcore hfree hread)]; rfl
  · rw [List.getElem?_eq_none (by omega), List.getElem?_eq_none (by rw [List.length_map]; omega)]

/-- Assemblies whose names are free become the core assembly or others, and give no errors. -/
theorem outcomes_of_entries (entries : List AssemblySet.Entry) :
    (entries.map outcomeOf).filterMap Outcome.core? =
        (entries.filter (isCoreName ·.name)).map (·.toAssembly) ∧
      (entries.map outcomeOf).filterMap Outcome.other? =
        (entries.filter (!isCoreName ·.name)).map (·.toAssembly) ∧
      (entries.map outcomeOf).filterMap Outcome.error? = [] := by
  induction entries with
  | nil => exact ⟨rfl, rfl, rfl⟩
  | cons e entries ih =>
    obtain ⟨hcore, hother, herror⟩ := ih
    cases hname : isCoreName e.name with
    | true | false =>
      simp [-List.filterMap_map, List.filterMap_cons, outcomeOf, hname, Outcome.core?,
        Outcome.other?, Outcome.error?, hcore, hother, herror]

/-- **References that lead to assemblies under different names are loaded one by one**, and
the only errors are those about what is loaded. -/
theorem load_of_entries (l : Loader) (hentries : references.map (found? disk) = entries.map some)
    (hnodup : (entries.map (foldName ·.name)).Nodup) :
    let source := (l.load disk references).source
    source.core.toList = (entries.filter (isCoreName ·.name)).map (·.toAssembly) ∧
      source.others.assemblies.toList =
        (entries.filter (!isCoreName ·.name)).map (·.toAssembly) ∧
      source.errors = coreErrors source.core ++ otherErrors source.others.assemblies.toList := by
  obtain ⟨outcomes, hdecided, htracks⟩ := tracks_afterLoop disk l references
  obtain rfl := hdecided.outcomes_eq hentries hnodup
  obtain ⟨hcore, hother, herror⟩ := outcomes_of_entries entries
  rw [source_load]
  refine ⟨htracks.core.trans hcore, htracks.others.trans hother, ?_⟩
  rw [htracks.errors, herror, List.nil_append]

/-- If these assemblies carry the script attribute and one of them is the core assembly, nothing
is wrong. -/
theorem load_of_marked (l : Loader) (core : Assembly) (others : Array Assembly)
    (hentries : references.map (found? disk) = entries.map some)
    (hnodup : (entries.map (foldName ·.name)).Nodup)
    (hcore : (entries.filter (isCoreName ·.name)).map (·.toAssembly) = [core])
    (hothers : (entries.filter (!isCoreName ·.name)).map (·.toAssembly) = others.toList)
    (hmarked : ∀ a ∈ core :: others.toList, a.manifest.isScriptAssembly = true) :
    let source := (l.load disk references).source
    source.failed = false ∧ source.core = some core ∧ source.others.assemblies = others ∧
      source.order = ({ assemblies := others } : AssemblySet).ordered := by
  intro source
  obtain ⟨hcore', hothers', herrors⟩ := load_of_entries l hentries hnodup
  have hsome : source.core = some core :=
    Option.toList_eq_singleton_iff.mp (hcore'.trans hcore)
  have hassemblies : source.others.assemblies = others :=
    Array.toList_inj.mp (hothers'.trans hothers)
  refine ⟨?_, hsome, hassemblies,
    (order_load disk l references).trans (AssemblySet.ordered_congr hassemblies)⟩
  rw [List.forall_mem_cons] at hmarked
  have hcoreNone : coreErrors source.core = [] := by
    rw [hsome, coreErrors, if_pos hmarked.1]
  have hothersNone : otherErrors source.others.assemblies.toList = [] := by
    rw [hassemblies]
    exact otherErrors_eq_nil_iff.mpr hmarked.2
  rw [ReferenceSource.failed, herrors, hcoreNone, hothersNone]
  rfl

end Entries

/-! ### Full names in a load -/

/-- **Without a cycle, an assembly comes after the last one of each full name that it refers
to.** -/
theorem load_lists_dependency_first (disk : Disk) (l : Loader) (references : List Path)
    (hcycle : (l.load disk references).source.order.hasCycle = false) {i j : Nat} {u v : Assembly}
    (hu : (l.load disk references).source.others.assemblies[i]? = some u)
    (hv : (l.load disk references).source.others.assemblies[j]? = some v)
    (hlast : ∀ k w, j < k → (l.load disk references).source.others.assemblies[k]? = some w →
      w.manifest.fullName ≠ v.manifest.fullName)
    (hdep : v.manifest.fullName ∈ u.manifest.references) :
    (l.load disk references).source.order.paths.idxOf v.path <
      (l.load disk references).source.order.paths.idxOf u.path := by
  have hnodup := order_load_nodup disk l references
  rw [order_load] at hcycle hnodup ⊢
  rw [AssemblySet.idxOf_ordered_paths hnodup hu, AssemblySet.idxOf_ordered_paths hnodup hv]
  exact AssemblySet.positions_idxOf_lt_of_not_hasCycle hcycle ⟨u, v, hu, hv, hdep, hlast⟩

namespace SharedName

/-- The assembly of a file with the given full name and references. -/
def assembly (file fullName : String) (references : List String) : Assembly :=
  ⟨⟨"/w/" ++ file ++ ".toml"⟩, ⟨fullName, references, [Manifest.scriptAttribute]⟩⟩

/-- A program that refers to a library by its full name. -/
def app : Assembly :=
  assembly "App" "App" ["Lib"]

/-- A library. -/
def libA : Assembly :=
  assembly "LibA" "Lib" []

/-- Another library with the same full name. -/
def libB : Assembly :=
  assembly "LibB" "Lib" []

/-- The file with a manifest of the given full name and references. -/
def manifestFile (fullName references : String) : Node :=
  .file (.ok ("name = '" ++ fullName ++ "'\nreferences = [" ++ references ++
    "]\nattributes = ['" ++ Manifest.scriptAttribute ++ "']\n").toUTF8)

/-- The files of the program. -/
def disk : Disk where
  root := .directory [("w", .directory
    [("mscorlib.toml", manifestFile "mscorlib" ""), ("App.toml", manifestFile "App" "'Lib'"),
      ("LibA.toml", manifestFile "Lib" ""), ("LibB.toml", manifestFile "Lib" "")])]
  workingDirectory := ⟨"/w"⟩

/-- The references to the files. -/
def references : List Path :=
  [⟨"mscorlib.toml"⟩, ⟨"App.toml"⟩, ⟨"LibA.toml"⟩, ⟨"LibB.toml"⟩]

theorem load_eq :
    let source := (({} : Loader).load disk references).source
    source.failed = false ∧ source.others.assemblies = #[app, libA, libB] ∧
      source.order = ⟨[libB.path, app.path, libA.path], false⟩ := by
  intro source
  have hentries : references.map (found? disk) =
      [⟨assembly "mscorlib" "mscorlib" [], "mscorlib"⟩, ⟨app, "App"⟩, ⟨libA, "LibA"⟩,
        (⟨libB, "LibB"⟩ : AssemblySet.Entry)].map some := by
    decide +kernel
  obtain ⟨hfailed, -, hassemblies, horder⟩ :=
    load_of_marked {} (assembly "mscorlib" "mscorlib" []) #[app, libA, libB] hentries
      (by decide +kernel) (by decide +kernel) (by decide +kernel) (by decide +kernel)
  refine ⟨hfailed, hassemblies, horder.trans ?_⟩
  cbv

end SharedName

/-- The later library of two with one full name comes before the program. -/
theorem load_lists_dependency_first_shared :
    let source := (({} : Loader).load SharedName.disk SharedName.references).source
    source.order.hasCycle = false ∧
      source.others.assemblies[0]? = some SharedName.app ∧
      source.others.assemblies[2]? = some SharedName.libB ∧
      (∀ k w, 2 < k → source.others.assemblies[k]? = some w →
        w.manifest.fullName ≠ SharedName.libB.manifest.fullName) ∧
      SharedName.libB.manifest.fullName ∈ SharedName.app.manifest.references ∧
      source.order.paths.idxOf SharedName.libB.path <
        source.order.paths.idxOf SharedName.app.path := by
  intro source
  obtain ⟨-, hassemblies, horder⟩ := SharedName.load_eq
  have hcycle : source.order.hasCycle = false := congrArg AssemblyOrder.hasCycle horder
  have happ : source.others.assemblies[0]? = some SharedName.app := by
    rw [hassemblies]
    rfl
  have hlib : source.others.assemblies[2]? = some SharedName.libB := by
    rw [hassemblies]
    rfl
  have hlast : ∀ k w, 2 < k → source.others.assemblies[k]? = some w →
      w.manifest.fullName ≠ SharedName.libB.manifest.fullName := by
    intro k w hk hw
    rw [hassemblies, Array.getElem?_eq_none hk] at hw
    cases hw
  have hdep : SharedName.libB.manifest.fullName ∈ SharedName.app.manifest.references := by
    decide
  exact ⟨hcycle, happ, hlib, hlast, hdep,
    load_lists_dependency_first _ _ _ hcycle happ hlib hlast hdep⟩

/-- The earlier library of two with one full name comes after the program that refers to this
name, although nothing is wrong with the load. -/
theorem load_lists_shared_name_late :
    let source := (({} : Loader).load SharedName.disk SharedName.references).source
    source.failed = false ∧ source.order.hasCycle = false ∧
      ∃ u ∈ source.others.assemblies.toList, ∃ v ∈ source.others.assemblies.toList,
        u ≠ v ∧ v.manifest.fullName ∈ u.manifest.references ∧
          ¬ source.order.paths.idxOf v.path < source.order.paths.idxOf u.path := by
  intro source
  obtain ⟨hfailed, hassemblies, horder⟩ := SharedName.load_eq
  rw [horder, hassemblies]
  refine ⟨hfailed, rfl, SharedName.app, ?_, SharedName.libA, ?_⟩
  · decide +kernel
  · decide +kernel

end Loader
end ScriptBackend
