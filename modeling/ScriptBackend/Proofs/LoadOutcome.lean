import Mathlib.Data.List.Induction
import ScriptBackend.Proofs.FileName
import ScriptBackend.Reference.Source

/-! # What becomes of each reference

Loading goes through the references with a state, but what becomes of a reference can be
told from the files and the references before it alone (`Loader.Decides`): a folded short
name belongs to the first reference with that name that can be loaded, and each other
reference gives one error.  The state of the loop follows these outcomes (`Loader.Tracks`),
and so does what is loaded in the end.
-/
namespace ScriptBackend

/-- An assembly that a set takes comes last in it, and its name is taken from then on. -/
theorem AssemblySet.add?_eq_some {set next : AssemblySet} {path : Path} {name : String}
    {manifest : Manifest} (h : set.add? path name manifest = some next) :
    next.assemblies = set.assemblies.push ⟨path, manifest⟩ ∧
      ∀ other, next.isReferenced other = true ↔
        foldName name = foldName other ∨ set.isReferenced other = true := by
  unfold add? at h
  split at h
  · cases h
  · cases h
    exact ⟨rfl, fun other => by simp [isReferenced]⟩

namespace Loader

variable {disk : Disk} {earlier references : List Path} {reference path : Path} {name : String}

/-- The absolute path of a reference is `path`, and a file is there. -/
def NamesFile (disk : Disk) (reference path : Path) : Prop :=
  Path.absolute? disk.workingDirectory reference = some path ∧ disk.isFile path = true

/-- The reference names the file at `path`, whose short name is `name`. -/
def Names (disk : Disk) (reference path : Path) (name : String) : Prop :=
  NamesFile disk reference path ∧ path.stem? = some name

/-- The reference names a file with a short name that folds like `name`, and the file has a
manifest. -/
def Loads (disk : Disk) (reference : Path) (name : String) : Prop :=
  ∃ path stem manifest, Names disk reference path stem ∧ foldName stem = foldName name ∧
    Manifest.read disk path = .ok manifest

/-- One of the references can be loaded under the short name. -/
def Provides (disk : Disk) (references : List Path) (name : String) : Prop :=
  ∃ reference ∈ references, Loads disk reference name

/-- What becomes of a reference. -/
inductive Outcome where
  | core (assembly : Assembly)
  | other (assembly : Assembly)
  | refused (error : ReferenceError Manifest.Error)

namespace Outcome

/-- The core assembly, if the reference became that. -/
def core? : Outcome → Option Assembly
  | .core a => some a
  | _ => none

/-- The assembly, if the reference was accepted as one of the others. -/
def other? : Outcome → Option Assembly
  | .other a => some a
  | _ => none

/-- The error, if the reference was refused. -/
def error? : Outcome → Option (ReferenceError Manifest.Error)
  | .refused e => some e
  | _ => none

end Outcome

/-- How the files and the references before it decide what becomes of a reference. -/
inductive Decides (disk : Disk) (earlier : List Path) (reference : Path) : Outcome → Prop
  | missing : (∀ path, ¬ NamesFile disk reference path) →
      Decides disk earlier reference (.refused (.missingFile reference))
  | duplicate {path : Path} {name : String} : Names disk reference path name →
      isCoreName name = false → Provides disk earlier name →
      Decides disk earlier reference (.refused (.duplicateReference reference))
  | unloadable {path : Path} {name : String} {reason : Manifest.Error} :
      Names disk reference path name → (isCoreName name = true ∨ ¬ Provides disk earlier name) →
      Manifest.read disk path = .error reason →
      Decides disk earlier reference (.refused (.loadFailure reference reason))
  | secondCore {path : Path} {name : String} {manifest : Manifest} :
      Names disk reference path name → isCoreName name = true → Provides disk earlier name →
      Manifest.read disk path = .ok manifest →
      Decides disk earlier reference (.refused (.duplicateCore path))
  | core {path : Path} {name : String} {manifest : Manifest} :
      Names disk reference path name → isCoreName name = true → ¬ Provides disk earlier name →
      Manifest.read disk path = .ok manifest →
      Decides disk earlier reference (.core ⟨path, manifest⟩)
  | other {path : Path} {name : String} {manifest : Manifest} :
      Names disk reference path name → isCoreName name = false → ¬ Provides disk earlier name →
      Manifest.read disk path = .ok manifest →
      Decides disk earlier reference (.other ⟨path, manifest⟩)

/-! ### Names of references -/

theorem isCoreName_iff : isCoreName name = true ↔ foldName name = foldName coreName := by
  simp [isCoreName]

theorem isCoreName_congr {a b : String} (h : foldName a = foldName b) :
    isCoreName a = isCoreName b := by
  simp [isCoreName, h]

theorem NamesFile.unique {path' : Path} (h : NamesFile disk reference path)
    (h' : NamesFile disk reference path') : path = path' :=
  Option.some.inj (h.1.symm.trans h'.1)

theorem Names.unique {path' : Path} {name' : String} (h : Names disk reference path name)
    (h' : Names disk reference path' name') : path = path' ∧ name = name' := by
  obtain rfl := h.1.unique h'.1
  exact ⟨rfl, Option.some.inj (h.2.symm.trans h'.2)⟩

theorem NamesFile.names (h : NamesFile disk reference path) :
    ∃ name, Names disk reference path name := by
  obtain ⟨name, hname⟩ := Disk.stem?_of_isFile h.2
  exact ⟨name, h, hname⟩

theorem locate?_eq_some_iff : locate? disk reference = some (path, name) ↔
    Names disk reference path name := by
  simp only [locate?, Names, NamesFile, Option.bind_eq_bind, Option.bind_eq_some_iff]
  constructor
  · rintro ⟨p, habs, h⟩
    split at h
    case isTrue hfile =>
      obtain ⟨stem, hstem, heq⟩ := Option.bind_eq_some_iff.mp h
      cases heq
      exact ⟨⟨habs, hfile⟩, hstem⟩
    case isFalse => cases h
  · rintro ⟨⟨habs, hfile⟩, hstem⟩
    exact ⟨path, habs, by simp [hfile, hstem]⟩

theorem locate?_eq_none_iff : locate? disk reference = none ↔
    ∀ path, ¬ NamesFile disk reference path := by
  constructor
  · intro h path hpath
    obtain ⟨name, hname⟩ := hpath.names
    rw [locate?_eq_some_iff.mpr hname] at h
    cases h
  · intro h
    cases hlocate : locate? disk reference with
    | none => rfl
    | some found => exact absurd (locate?_eq_some_iff.mp hlocate).1 (h found.1)

theorem Provides.congr {a b : String} (h : foldName a = foldName b)
    (hp : Provides disk references a) : Provides disk references b := by
  obtain ⟨r, hr, path, stem, manifest, hnames, hfold, hread⟩ := hp
  exact ⟨r, hr, path, stem, manifest, hnames, hfold.trans h, hread⟩

theorem provides_snoc : Provides disk (references ++ [reference]) name ↔
    Provides disk references name ∨ Loads disk reference name := by
  simp [Provides, or_and_right, exists_or]

theorem not_provides_nil : ¬ Provides disk [] name := by
  simp [Provides]

/-- A reference with a manifest can be loaded under its short name and no other. -/
theorem Names.loads_iff {manifest : Manifest} {other : String}
    (h : Names disk reference path name) (hread : Manifest.read disk path = .ok manifest) :
    Loads disk reference other ↔ foldName name = foldName other := by
  constructor
  · rintro ⟨path', stem, manifest', hnames, hfold, -⟩
    rw [(h.unique hnames).2, hfold]
  · intro hfold
    exact ⟨path, name, manifest, h, hfold, hread⟩

/-- The rules exclude each other. -/
theorem Decides.unique {o o' : Outcome} (h : Decides disk earlier reference o)
    (h' : Decides disk earlier reference o') : o = o' := by
  -- unless the file is missing, both are about one path and one name
  cases h with
  | missing hnone =>
    cases h' with
    | missing => rfl
    | duplicate hn | unloadable hn | secondCore hn | core hn | other hn =>
      exact absurd hn.1 (hnone _)
  | duplicate hn hcore hp =>
    cases h' with
    | missing hnone => exact absurd hn.1 (hnone _)
    | duplicate => rfl
    | unloadable hn' hor | secondCore hn' hor | core hn' hor | other hn' hor =>
      obtain ⟨rfl, rfl⟩ := hn.unique hn'
      simp_all
  | unloadable hn hor hread | secondCore hn hor hp hread | core hn hor hp hread
  | other hn hor hp hread =>
    cases h' with
    | missing hnone => exact absurd hn.1 (hnone _)
    | duplicate hn' | unloadable hn' | secondCore hn' | core hn' | other hn' =>
      obtain ⟨rfl, rfl⟩ := hn.unique hn'
      simp_all

/-! ### The state of the loop -/

/-- What is loaded after some references agrees with their outcomes. -/
structure Tracks (disk : Disk) (references : List Path) (outcomes : List Outcome)
    (source : ReferenceSource) : Prop where
  core : source.core.toList = outcomes.filterMap Outcome.core?
  others : source.others.assemblies.toList = outcomes.filterMap Outcome.other?
  errors : source.errors = outcomes.filterMap Outcome.error?
  /-- The names that are taken are those that could be loaded, but not that of the core. -/
  taken : ∀ name, source.others.isReferenced name = true ↔
    isCoreName name = false ∧ Provides disk references name
  hasCore : source.core.isSome = true ↔ Provides disk references coreName

variable {outcomes : List Outcome} {source : ReferenceSource}

theorem Tracks.initial : Tracks disk [] [] {} where
  core := rfl
  others := rfl
  errors := rfl
  taken name := by simp [AssemblySet.isReferenced, not_provides_nil]
  hasCore := by simp [not_provides_nil]

/-- A refused reference leaves everything but the errors as it was, because it provides no
name that is not provided already. -/
theorem Tracks.refuse (h : Tracks disk references outcomes source)
    (hloads : ∀ name, Loads disk reference name → Provides disk references name)
    (e : ReferenceError Manifest.Error) :
    Tracks disk (references ++ [reference]) (outcomes ++ [.refused e])
      { source with errors := source.errors ++ [e] } := by
  have hprovides (name : String) : Provides disk (references ++ [reference]) name ↔
      Provides disk references name :=
    provides_snoc.trans (or_iff_left_of_imp (hloads name))
  constructor
  case core => simpa [List.filterMap_cons, Outcome.core?] using h.core
  case others => simpa [List.filterMap_cons, Outcome.other?] using h.others
  case errors => simp [Outcome.error?, h.errors]
  case taken =>
    intro name
    rw [hprovides]
    exact h.taken name
  case hasCore =>
    rw [hprovides]
    exact h.hasCore

theorem Tracks.acceptCore {manifest : Manifest} (h : Tracks disk references outcomes source)
    (hnames : Names disk reference path name) (hcore : isCoreName name = true)
    (hread : Manifest.read disk path = .ok manifest) (hnone : source.core = none) :
    Tracks disk (references ++ [reference]) (outcomes ++ [.core ⟨path, manifest⟩])
      { source with core := some ⟨path, manifest⟩ } := by
  have hcore' : foldName name = foldName coreName := isCoreName_iff.mp hcore
  constructor
  case core => simp [Outcome.core?, ← h.core, hnone]
  case others => simpa [List.filterMap_cons, Outcome.other?] using h.others
  case errors => simpa [List.filterMap_cons, Outcome.error?] using h.errors
  case taken =>
    intro other
    rw [provides_snoc, hnames.loads_iff hread, h.taken other]
    constructor
    · rintro ⟨hother, hp⟩
      exact ⟨hother, Or.inl hp⟩
    · rintro ⟨hother, hp | heq⟩
      · exact ⟨hother, hp⟩
      · rw [isCoreName_congr heq, hother] at hcore
        cases hcore
  case hasCore =>
    rw [provides_snoc, hnames.loads_iff hread]
    simp [hcore']

theorem Tracks.acceptOther {manifest : Manifest} (h : Tracks disk references outcomes source)
    (hnames : Names disk reference path name) (hcore : isCoreName name = false)
    (hread : Manifest.read disk path = .ok manifest)
    {others : AssemblySet} (hadd : source.others.add? path name manifest = some others) :
    Tracks disk (references ++ [reference]) (outcomes ++ [.other ⟨path, manifest⟩])
      { source with others } := by
  obtain ⟨hassemblies, hreferenced⟩ := AssemblySet.add?_eq_some hadd
  constructor
  case core => simpa [List.filterMap_cons, Outcome.core?] using h.core
  case others => simp [Outcome.other?, ← h.others, hassemblies]
  case errors => simpa [List.filterMap_cons, Outcome.error?] using h.errors
  case taken =>
    intro other
    rw [provides_snoc, hnames.loads_iff hread, hreferenced, h.taken other]
    constructor
    · rintro (heq | ⟨hother, hp⟩)
      · exact ⟨isCoreName_congr heq ▸ hcore, Or.inr heq⟩
      · exact ⟨hother, Or.inl hp⟩
    · rintro ⟨hother, hp | heq⟩
      · exact Or.inr ⟨hother, hp⟩
      · exact Or.inl heq
  case hasCore =>
    rw [provides_snoc, hnames.loads_iff hread, ← isCoreName_iff, hcore]
    simpa using h.hasCore

/-- A reference with a manifest becomes the core assembly, or one of the others, or is one
core assembly too many. -/
theorem Tracks.accept {l : Loader} {manifest : Manifest}
    (h : Tracks disk references outcomes l.source) (hnames : Names disk reference path name)
    (hfree : isCoreName name = true ∨ ¬ Provides disk references name)
    (hread : Manifest.read disk path = .ok manifest) :
    ∃ o, Decides disk references reference o ∧
      Tracks disk (references ++ [reference]) (outcomes ++ [o])
        (l.accept path name manifest).source := by
  unfold Loader.accept
  cases hcore : isCoreName name with
  | true =>
    have hfold : foldName name = foldName coreName := isCoreName_iff.mp hcore
    have hprovides : Provides disk references name ↔ l.source.core.isSome = true :=
      ⟨fun hp => h.hasCore.mpr (hp.congr hfold), fun hs => (h.hasCore.mp hs).congr hfold.symm⟩
    cases hsource : l.source.core with
    | some core =>
      have hp : Provides disk references name := hprovides.mpr (by simp [hsource])
      refine ⟨_, .secondCore hnames hcore hp hread, h.refuse ?_ _⟩
      intro other hloads
      exact hp.congr ((hnames.loads_iff hread).mp hloads)
    | none =>
      have hp : ¬ Provides disk references name := by
        rw [hprovides, hsource]
        exact Bool.false_ne_true
      exact ⟨_, .core hnames hcore hp hread, h.acceptCore hnames hcore hread hsource⟩
  | false =>
    have hp : ¬ Provides disk references name := hfree.resolve_left (by simp [hcore])
    have hfresh : ¬ l.source.others.isReferenced name = true :=
      fun ht => hp ((h.taken name).mp ht).2
    obtain ⟨others, hadd⟩ : ∃ others, l.source.others.add? path name manifest = some others := by
      simp [AssemblySet.add?, hfresh]
    simp only [hadd]
    exact ⟨_, .other hnames hcore hp hread, h.acceptOther hnames hcore hread hadd⟩

/-- **One reference is loaded as the rules say**, and the state follows. -/
theorem Tracks.visit {l : Loader} (h : Tracks disk references outcomes l.source)
    (reference : Path) :
    ∃ o, Decides disk references reference o ∧
      Tracks disk (references ++ [reference]) (outcomes ++ [o])
        (Loader.visit disk l reference).source := by
  unfold Loader.visit
  cases hlocate : locate? disk reference with
  | none =>
    have hnone := locate?_eq_none_iff.mp hlocate
    refine ⟨_, .missing hnone, h.refuse ?_ _⟩
    rintro name ⟨path, stem, manifest, hnames, -⟩
    exact absurd hnames.1 (hnone path)
  | some found =>
    obtain ⟨path, name⟩ := found
    have hnames := locate?_eq_some_iff.mp hlocate
    by_cases htaken : l.source.others.isReferenced name = true
    · obtain ⟨hcore, hp⟩ := (h.taken name).mp htaken
      simp only [htaken, if_true]
      -- the file is not read, but it could not give a name that is not provided already
      refine ⟨_, .duplicate hnames hcore hp, h.refuse ?_ _⟩
      rintro other ⟨path', stem, manifest, hnames', hfold, -⟩
      obtain ⟨rfl, rfl⟩ := hnames.unique hnames'
      exact hp.congr hfold
    · have hfree : isCoreName name = true ∨ ¬ Provides disk references name := by
        by_cases hcore : isCoreName name = true
        · exact Or.inl hcore
        · exact Or.inr fun hp => htaken ((h.taken name).mpr ⟨by simpa using hcore, hp⟩)
      simp only [htaken, Bool.false_eq_true, if_false]
      cases hread : Manifest.read disk path with
      | error reason =>
        refine ⟨_, .unloadable hnames hfree hread, h.refuse ?_ _⟩
        rintro other ⟨path', stem, manifest, hnames', -, hread'⟩
        obtain ⟨rfl, rfl⟩ := hnames.unique hnames'
        rw [hread] at hread'
        cases hread'
      | ok manifest => exact h.accept hnames hfree hread

/-- The outcomes of some references, each decided by those before it. -/
def Decided (disk : Disk) (references : List Path) (outcomes : List Outcome) : Prop :=
  outcomes.length = references.length ∧
    ∀ i r, references[i]? = some r →
      ∃ o, outcomes[i]? = some o ∧ Decides disk (references.take i) r o

theorem Decided.snoc {o : Outcome} (h : Decided disk references outcomes)
    (ho : Decides disk references reference o) :
    Decided disk (references ++ [reference]) (outcomes ++ [o]) := by
  obtain ⟨hlength, hdecides⟩ := h
  refine ⟨by simp [hlength], fun i r hr => ?_⟩
  by_cases hi : i < references.length
  · rw [List.getElem?_append_left hi] at hr
    rw [List.getElem?_append_left (hlength ▸ hi), List.take_append_of_le_length (Nat.le_of_lt hi)]
    exact hdecides i r hr
  · have hi' : references.length ≤ i := Nat.le_of_not_lt hi
    rw [List.getElem?_append_right hi'] at hr
    -- the new reference is the only one left
    have hzero : i - references.length = 0 := by
      have := (List.getElem?_eq_some_iff.mp hr).1
      rw [List.length_singleton] at this
      omega
    obtain rfl : i = references.length := by omega
    rw [Nat.sub_self] at hr
    cases hr
    refine ⟨o, by rw [List.getElem?_append_right (by omega)]; simp [hlength], ?_⟩
    rwa [List.take_left]

/-- What the loop over the references leaves behind. -/
def afterLoop (disk : Disk) (l : Loader) (references : List Path) : ReferenceSource :=
  (references.foldl (Loader.visit disk) l.reset).source

/-- **All references are loaded as the rules say.** -/
theorem tracks_afterLoop (disk : Disk) (l : Loader) (references : List Path) :
    ∃ outcomes, Decided disk references outcomes ∧
      Tracks disk references outcomes (afterLoop disk l references) := by
  induction references using List.reverseRecOn with
  | nil => exact ⟨[], ⟨rfl, by simp⟩, Tracks.initial⟩
  | append_singleton references reference ih =>
    obtain ⟨outcomes, hdecided, htracks⟩ := ih
    obtain ⟨o, ho, hnext⟩ := htracks.visit reference
    refine ⟨outcomes ++ [o], hdecided.snoc ho, ?_⟩
    rw [afterLoop, List.foldl_append, List.foldl_cons, List.foldl_nil]
    exact hnext

/-! ### After the loop -/

/-- What is wrong with the core assembly. -/
def coreErrors : Option Assembly → List (ReferenceError Manifest.Error)
  | none => [.missingCore]
  | some core =>
    if core.manifest.isScriptAssembly then [] else [.invalidScriptAssembly core.path]

/-- What is wrong with the other assemblies. -/
def otherErrors (others : List Assembly) : List (ReferenceError Manifest.Error) :=
  (others.filter (!·.manifest.isScriptAssembly)).map fun a => .invalidScriptAssembly a.path

theorem source_checkCore (l : Loader) :
    l.checkCore.source =
      { l.source with errors := l.source.errors ++ coreErrors l.source.core } := by
  unfold checkCore coreErrors
  cases l.source.core with
  | none => rfl
  | some core =>
    by_cases hmarked : core.manifest.isScriptAssembly = true
    · simp [hmarked]
    · simp [hmarked, reject]

theorem source_checkOthers (l : Loader) :
    l.checkOthers.source =
      { l.source with
        errors := l.source.errors ++ otherErrors l.source.others.assemblies.toList } := by
  have hfold (unmarked : List Assembly) (l : Loader) :
      (unmarked.foldl (fun l a => l.reject (.invalidScriptAssembly a.path)) l).source =
        { l.source with
          errors := l.source.errors ++ unmarked.map fun a => .invalidScriptAssembly a.path } := by
    induction unmarked generalizing l with
    | nil => simp
    | cons a unmarked ih =>
      rw [List.foldl_cons, ih]
      simp [reject]
  exact hfold _ l

theorem source_load (disk : Disk) (l : Loader) (references : List Path) :
    (l.load disk references).source =
      { core := (afterLoop disk l references).core
        others := (afterLoop disk l references).others
        order := (afterLoop disk l references).others.ordered
        errors := (afterLoop disk l references).errors ++
          coreErrors (afterLoop disk l references).core ++
          otherErrors (afterLoop disk l references).others.assemblies.toList } := by
  rw [load, arrange, source_checkOthers, source_checkCore]
  rfl

theorem length_outcomes (outcomes : List Outcome) :
    outcomes.length = (outcomes.filterMap Outcome.other?).length +
      (outcomes.filterMap Outcome.core?).length + (outcomes.filterMap Outcome.error?).length := by
  induction outcomes with
  | nil => rfl
  | cons o outcomes ih =>
    cases o with
    | core | other | refused =>
      simp only [List.filterMap_cons, Outcome.core?, Outcome.other?, Outcome.error?,
        List.length_cons, ih]
      omega

/-- **What becomes of the references of a load.**  Each reference has exactly one outcome,
which its files and the references before it decide.  The core assembly is the one that a
reference became, the others are those that were accepted, in the order of the list, and the
errors are those of the refused references in the order of the list, followed by what is
wrong with the core assembly and with the others. -/
theorem load_follows_outcomes (disk : Disk) (l : Loader) (references : List Path) :
    ∃ outcomes : List Outcome, outcomes.length = references.length ∧
      (∀ i r, references[i]? = some r → ∃ o, outcomes[i]? = some o ∧
        ∀ o', Decides disk (references.take i) r o' ↔ o' = o) ∧
      let source := (l.load disk references).source
      source.core.toList = outcomes.filterMap Outcome.core? ∧
      source.others.assemblies.toList = outcomes.filterMap Outcome.other? ∧
      source.errors = outcomes.filterMap Outcome.error? ++ coreErrors source.core ++
        otherErrors source.others.assemblies.toList ∧
      references.length = source.others.size + (if source.core.isSome then 1 else 0) +
        (outcomes.filterMap Outcome.error?).length := by
  obtain ⟨outcomes, ⟨hlength, hdecides⟩, htracks⟩ := tracks_afterLoop disk l references
  refine ⟨outcomes, hlength, ?_, ?_⟩
  · intro i r hr
    obtain ⟨o, ho, hdec⟩ := hdecides i r hr
    exact ⟨o, ho, fun o' => ⟨fun h => h.unique hdec, fun h => h ▸ hdec⟩⟩
  · rw [source_load]
    refine ⟨htracks.core, htracks.others, by rw [← htracks.errors], ?_⟩
    rw [← hlength, length_outcomes outcomes, ← htracks.others, ← htracks.core, AssemblySet.size,
      Array.length_toList]
    cases (afterLoop disk l references).core <;> rfl

end Loader
end ScriptBackend
