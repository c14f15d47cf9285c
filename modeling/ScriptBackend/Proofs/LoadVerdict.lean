import Mathlib.Data.List.Nodup
import ScriptBackend.Proofs.LoadOutcome

/-! # When loading finds nothing wrong

A load reports no error exactly if each reference names a file with a manifest that is built
for script, one of them is the core assembly, and no two of the others have short names that
fold alike.  The errors come from three places, which are settled one by one: the loop over
the references reports none exactly if everything can be loaded and all folded names differ,
and the two checks after it look at the core assembly and at the others.
-/
namespace ScriptBackend
namespace Loader

variable {disk : Disk} {earlier references : List Path} {reference path : Path} {name : String}
variable {outcomes : List Outcome}

/-- The file at a path can be read, and is a text that gives the manifest. -/
def HasManifest (disk : Disk) (path : Path) (manifest : Manifest) : Prop :=
  ∃ content text, disk.resolve path = .ok (.file (.ok content)) ∧
    String.fromUTF8? content = some text ∧ Manifest.parse text = .ok manifest

/-- The folded short name of a reference, if its path ends in a name. -/
def foldedStem? (disk : Disk) (reference : Path) : Option String :=
  ((Path.absolute? disk.workingDirectory reference).bind Path.stem?).map foldName

/-- The reference names a file with a manifest. -/
def Sound (disk : Disk) (reference : Path) : Prop :=
  ∃ path manifest, NamesFile disk reference path ∧ Manifest.read disk path = .ok manifest

theorem read_eq_ok_iff {manifest : Manifest} :
    Manifest.read disk path = .ok manifest ↔ HasManifest disk path manifest := by
  unfold Manifest.read Disk.readText HasManifest
  cases disk.resolve path with
  | error failure => simp
  | ok node =>
    cases node with
    | directory entries => simp
    | file content =>
      cases content with
      | error failure => simp
      | ok content =>
        cases htext : String.fromUTF8? content with
        | none => simp [htext]
        | some text => simp [htext]

theorem Names.foldedStem? (h : Names disk reference path name) :
    foldedStem? disk reference = some (foldName name) := by
  simp [Loader.foldedStem?, h.1.1, h.2]

/-! ### The loop over the references -/

/-- A reference is not refused exactly if it can be loaded under a name that is free. -/
theorem Decides.error?_eq_none_iff {o : Outcome} (h : Decides disk earlier reference o) :
    o.error? = none ↔ ∃ path name manifest, Names disk reference path name ∧
      Manifest.read disk path = .ok manifest ∧ ¬ Provides disk earlier name := by
  constructor
  · intro hnone
    cases h with
    | missing | duplicate | unloadable | secondCore => cases hnone
    | core hn _ hp hread | other hn _ hp hread => exact ⟨_, _, _, hn, hread, hp⟩
  · rintro ⟨path, name, manifest, hn, hread, hp⟩
    cases hcore : isCoreName name with
    | true => rw [h.unique (.core hn hcore hp hread)]; rfl
    | false => rw [h.unique (.other hn hcore hp hread)]; rfl

/-- Among references that can be loaded, a name is provided by those with that folded stem. -/
theorem provides_iff (hsound : ∀ r ∈ references, Sound disk r) :
    Provides disk references name ↔ some (foldName name) ∈ references.map (foldedStem? disk) := by
  rw [List.mem_map]
  constructor
  · rintro ⟨r, hr, path, stem, manifest, hn, hfold, -⟩
    exact ⟨r, hr, by rw [hn.foldedStem?, hfold]⟩
  · rintro ⟨r, hr, hstem⟩
    obtain ⟨path, manifest, hfile, hread⟩ := hsound r hr
    obtain ⟨stem, hn⟩ := hfile.names
    rw [hn.foldedStem?] at hstem
    exact ⟨r, hr, path, stem, manifest, hn, Option.some.inj hstem, hread⟩

theorem Decided.errors_eq_nil_iff (h : Decided disk references outcomes) :
    outcomes.filterMap Outcome.error? = [] ↔
      (∀ r ∈ references, Sound disk r) ∧ (references.map (foldedStem? disk)).Nodup := by
  obtain ⟨hlength, hdecides⟩ := h
  rw [List.filterMap_eq_nil_iff]
  constructor
  · intro hclean
    have hfirst : ∀ i r, references[i]? = some r → ∃ path name manifest,
        Names disk r path name ∧ Manifest.read disk path = .ok manifest ∧
          ¬ Provides disk (references.take i) name := by
      intro i r hr
      obtain ⟨o, ho, hdec⟩ := hdecides i r hr
      exact hdec.error?_eq_none_iff.mp (hclean o (List.mem_of_getElem? ho))
    refine ⟨fun r hr => ?_, ?_⟩
    · obtain ⟨i, hi⟩ := List.mem_iff_getElem?.mp hr
      obtain ⟨path, name, manifest, hn, hread, -⟩ := hfirst i r hi
      exact ⟨path, manifest, hn.1, hread⟩
    · rw [List.Nodup, List.pairwise_map, List.pairwise_iff_getElem]
      intro i j hi hj hij heq
      obtain ⟨path, name, manifest, hn, hread, -⟩ :=
        hfirst i references[i] (List.getElem?_eq_getElem hi)
      obtain ⟨path', name', manifest', hn', -, hfree⟩ :=
        hfirst j references[j] (List.getElem?_eq_getElem hj)
      rw [hn.foldedStem?, hn'.foldedStem?] at heq
      -- the earlier reference provides the name of the later one
      refine hfree ⟨references[i], ?_, path, name, manifest, hn, Option.some.inj heq, hread⟩
      have htake : (references.take j)[i]? = some references[i] := by
        rw [List.getElem?_take_of_lt hij, List.getElem?_eq_getElem hi]
      exact List.mem_of_getElem? htake
  · rintro ⟨hsound, hnodup⟩ o ho
    obtain ⟨i, hi⟩ := List.mem_iff_getElem?.mp ho
    have hlt : i < references.length := hlength ▸ (List.getElem?_eq_some_iff.mp hi).1
    obtain ⟨o', ho', hdec⟩ := hdecides i references[i] (List.getElem?_eq_getElem hlt)
    obtain rfl := Option.some.inj (hi.symm.trans ho')
    obtain ⟨path, manifest, hfile, hread⟩ := hsound references[i] (List.getElem_mem hlt)
    obtain ⟨name, hn⟩ := hfile.names
    refine hdec.error?_eq_none_iff.mpr ⟨path, name, manifest, hn, hread, fun hp => ?_⟩
    -- were the name provided before, its folded stem would stand at two places
    rw [provides_iff fun r hr => hsound r (List.mem_of_mem_take hr), ← hn.foldedStem?,
      List.map_take] at hp
    obtain ⟨j, hj⟩ := List.mem_iff_getElem?.mp hp
    have hji : j < i := by
      have := (List.getElem?_eq_some_iff.mp hj).1
      rw [List.length_take] at this
      omega
    have hi' : (references.map (foldedStem? disk))[i]? = some (foldedStem? disk references[i]) := by
      rw [List.getElem?_map, List.getElem?_eq_getElem hlt, Option.map_some]
    rw [List.getElem?_take_of_lt hji, ← hi'] at hj
    have hj' : j < (references.map (foldedStem? disk)).length := by
      rw [List.length_map]
      omega
    exact Nat.ne_of_lt hji ((List.getElem?_inj hj' hnodup).mp hj)

/-- An assembly comes from the file that its reference names. -/
theorem Decides.read_of_accepted {o : Outcome} {a : Assembly} (h : Decides disk earlier reference o)
    (ha : o.core? = some a ∨ o.other? = some a) :
    NamesFile disk reference a.path ∧ Manifest.read disk a.path = .ok a.manifest := by
  cases h with
  | missing | duplicate | unloadable | secondCore => rcases ha with ha | ha <;> cases ha
  | core hn _ _ hread =>
    rcases ha with ha | ha
    · cases ha
      exact ⟨hn.1, hread⟩
    · cases ha
  | other hn _ _ hread =>
    rcases ha with ha | ha
    · cases ha
    · cases ha
      exact ⟨hn.1, hread⟩

/-- If nothing is refused, the assemblies are those that the references lead to. -/
theorem Decided.accepted_iff (h : Decided disk references outcomes)
    (hclean : outcomes.filterMap Outcome.error? = []) {a : Assembly} :
    a ∈ outcomes.filterMap Outcome.core? ++ outcomes.filterMap Outcome.other? ↔
      ∃ r ∈ references, NamesFile disk r a.path ∧ Manifest.read disk a.path = .ok a.manifest := by
  obtain ⟨hlength, hdecides⟩ := h
  rw [List.mem_append, List.mem_filterMap, List.mem_filterMap, ← exists_or]
  constructor
  · rintro ⟨o, ha⟩
    rw [← and_or_left] at ha
    obtain ⟨i, hi⟩ := List.mem_iff_getElem?.mp ha.1
    have hlt : i < references.length := hlength ▸ (List.getElem?_eq_some_iff.mp hi).1
    obtain ⟨o', ho', hdec⟩ := hdecides i references[i] (List.getElem?_eq_getElem hlt)
    obtain rfl := Option.some.inj (hi.symm.trans ho')
    exact ⟨references[i], List.getElem_mem hlt, hdec.read_of_accepted ha.2⟩
  · rintro ⟨r, hr, hfile, hread⟩
    obtain ⟨i, hi⟩ := List.mem_iff_getElem?.mp hr
    obtain ⟨o, ho, hdec⟩ := hdecides i r hi
    have hmem : o ∈ outcomes := List.mem_of_getElem? ho
    have hnone : o.error? = none := List.filterMap_eq_nil_iff.mp hclean o hmem
    cases hdec with
    | missing | duplicate | unloadable | secondCore => cases hnone
    | core hn _ _ hread' =>
      obtain rfl := hfile.unique hn.1
      obtain rfl := Except.ok.inj (hread.symm.trans hread')
      exact ⟨_, Or.inl ⟨hmem, rfl⟩⟩
    | other hn _ _ hread' =>
      obtain rfl := hfile.unique hn.1
      obtain rfl := Except.ok.inj (hread.symm.trans hread')
      exact ⟨_, Or.inr ⟨hmem, rfl⟩⟩

/-! ### The checks after the loop -/

theorem coreErrors_eq_nil_iff {core : Option Assembly} :
    coreErrors core = [] ↔
      core.isSome = true ∧ ∀ a ∈ core.toList, a.manifest.isScriptAssembly = true := by
  cases core with
  | none => simp [coreErrors]
  | some core => simp [coreErrors]

theorem otherErrors_eq_nil_iff {others : List Assembly} :
    otherErrors others = [] ↔ ∀ a ∈ others, a.manifest.isScriptAssembly = true := by
  simp [otherErrors]

/-- One occurrence of a member and no repetition among the rest make a list without
repetitions. -/
theorem nodup_and_mem_iff {l : List (Option String)} {k : Option String} :
    l.Nodup ∧ k ∈ l ↔ l.count k = 1 ∧ (l.filter (· ≠ k)).Nodup := by
  simp only [List.nodup_iff_count_le_one]
  constructor
  · rintro ⟨hcount, hmem⟩
    refine ⟨Nat.le_antisymm (hcount k) (List.count_pos_iff.mpr hmem), fun a => ?_⟩
    exact Nat.le_trans (List.filter_sublist.count_le a) (hcount a)
  · rintro ⟨hk, hrest⟩
    refine ⟨fun a => ?_, List.count_pos_iff.mp (by omega)⟩
    by_cases ha : a = k
    · exact Nat.le_of_eq (ha ▸ hk)
    · have hfilter := hrest a
      rwa [List.count_filter (by simpa using ha)] at hfilter

theorem sound_iff : Sound disk reference ↔ (∃ path, NamesFile disk reference path) ∧
    ∀ path, NamesFile disk reference path → ∃ manifest, HasManifest disk path manifest := by
  constructor
  · rintro ⟨path, manifest, hfile, hread⟩
    refine ⟨⟨path, hfile⟩, fun path' hfile' => ⟨manifest, ?_⟩⟩
    rw [← hfile.unique hfile']
    exact read_eq_ok_iff.mp hread
  · rintro ⟨⟨path, hfile⟩, hall⟩
    obtain ⟨manifest, hmanifest⟩ := hall path hfile
    exact ⟨path, manifest, hfile, read_eq_ok_iff.mpr hmanifest⟩

/-- The errors of a load, place by place. -/
theorem failed_load_eq_false_iff (disk : Disk) (l : Loader) (references : List Path) :
    (l.load disk references).source.failed = false ↔
      (afterLoop disk l references).errors = [] ∧
      coreErrors (afterLoop disk l references).core = [] ∧
      otherErrors (afterLoop disk l references).others.assemblies.toList = [] := by
  rw [source_load]
  simp [ReferenceSource.failed]

/-- **A load finds nothing wrong exactly if** every reference names a file, every such file
has a manifest, exactly one reference has the folded short name of the core assembly, those
of the others are pairwise different, and all manifests carry the script attribute. -/
theorem load_succeeds_iff (disk : Disk) (l : Loader) (references : List Path) :
    (l.load disk references).source.failed = false ↔
      (∀ r ∈ references, ∃ path, NamesFile disk r path) ∧
      (∀ r ∈ references, ∀ path, NamesFile disk r path →
        ∃ manifest, HasManifest disk path manifest) ∧
      (references.map (foldedStem? disk)).count (some (foldName coreName)) = 1 ∧
      ((references.map (foldedStem? disk)).filter (· ≠ some (foldName coreName))).Nodup ∧
      ∀ r ∈ references, ∀ path manifest, NamesFile disk r path → HasManifest disk path manifest →
        Manifest.scriptAttribute ∈ manifest.attributes := by
  obtain ⟨outcomes, hdecided, htracks⟩ := tracks_afterLoop disk l references
  rw [failed_load_eq_false_iff, htracks.errors, hdecided.errors_eq_nil_iff, coreErrors_eq_nil_iff,
    otherErrors_eq_nil_iff, htracks.core, htracks.others, htracks.hasCore]
  constructor
  · rintro ⟨⟨hsound, hnodup⟩, ⟨hcore, hcoreMarked⟩, hothersMarked⟩
    have hclean := hdecided.errors_eq_nil_iff.mpr ⟨hsound, hnodup⟩
    obtain ⟨hcount, hrest⟩ := nodup_and_mem_iff.mp ⟨hnodup, (provides_iff hsound).mp hcore⟩
    refine ⟨fun r hr => (sound_iff.mp (hsound r hr)).1, fun r hr => (sound_iff.mp (hsound r hr)).2,
      hcount, hrest, ?_⟩
    intro r hr path manifest hfile hmanifest
    have haccepted := (hdecided.accepted_iff hclean (a := ⟨path, manifest⟩)).mpr
      ⟨r, hr, hfile, read_eq_ok_iff.mpr hmanifest⟩
    refine List.contains_iff_mem.mp ?_
    rcases List.mem_append.mp haccepted with ha | ha
    · exact hcoreMarked _ ha
    · exact hothersMarked _ ha
  · rintro ⟨hfiles, hmanifests, hcount, hrest, hmarked⟩
    have hsound : ∀ r ∈ references, Sound disk r :=
      fun r hr => sound_iff.mpr ⟨hfiles r hr, hmanifests r hr⟩
    obtain ⟨hnodup, hmem⟩ := nodup_and_mem_iff.mpr ⟨hcount, hrest⟩
    have hclean := hdecided.errors_eq_nil_iff.mpr ⟨hsound, hnodup⟩
    have hall : ∀ a ∈ outcomes.filterMap Outcome.core? ++ outcomes.filterMap Outcome.other?,
        a.manifest.isScriptAssembly = true := by
      intro a ha
      obtain ⟨r, hr, hfile, hread⟩ := (hdecided.accepted_iff hclean).mp ha
      exact List.contains_iff_mem.mpr
        (hmarked r hr a.path a.manifest hfile (read_eq_ok_iff.mp hread))
    exact ⟨⟨hsound, hnodup⟩,
      ⟨(provides_iff hsound).mpr hmem, fun a ha => hall a (List.mem_append_left _ ha)⟩,
      fun a ha => hall a (List.mem_append_right _ ha)⟩

end Loader
end ScriptBackend
