import ScriptBackend.Manifest
import ScriptBackend.Proofs.TableFields

/-! # Manifests and their table

A manifest is read from a table entry by entry into a draft, the draft is finished if it has a
name, and only then the name is looked at.  Which manifest a table has can be said all at once
(`Describes`): the value of `name` is the full name, and each list fits the entry of its key or is
empty.  Nothing there depends on the order of the entries, or on other keys.

An entry changes one field of the draft, or none if its key is another one
(`setField_eq_ok_iff`), so the draft has what the entries say (`Draft.collects_cons`).  A table
describes one manifest at most (`ofTable_cases`), and a blank name is an error of its own only
where everything fits (`ofTable_decides_outcome`).
-/
namespace ScriptBackend.Manifest

open Toml.Entries (keys gives_of_not_mem gives_cons_self gives_cons_of_ne)

/-- The value is an array of these texts. -/
def Lists (value : Toml.Value) (texts : List String) : Prop :=
  value.items? = some (texts.map .string)

/-- The manifest that a table describes. -/
@[mk_iff]
structure Describes (entries : Toml.Entries) (manifest : Manifest) : Prop where
  fullName : entries.lookup "name" = some (.string manifest.fullName)
  references : entries.Gives "references" Lists [] manifest.references
  attributes : entries.Gives "attributes" Lists [] manifest.attributes

variable {entries : Toml.Entries} {manifest : Manifest} {key : String} {value : Toml.Value}

namespace Draft

/-- The draft that a table gives over another one. -/
@[mk_iff]
structure Collects (base : Draft) (entries : Toml.Entries) (draft : Draft) : Prop where
  name : entries.Gives "name" (fun value name => ∃ text, value = .string text ∧ name = some text)
    base.name draft.name
  references : entries.Gives "references" Lists base.references draft.references
  attributes : entries.Gives "attributes" Lists base.attributes draft.attributes

variable {base next draft : Draft}

/-- What setting a field can do. -/
theorem setField_eq_ok_iff : base.setField key value = .ok next ↔
    (key = "name" ∧ ∃ text, value = .string text ∧ next = { base with name := some text }) ∨
      (key = "references" ∧ ∃ texts, Lists value texts ∧
        next = { base with references := texts }) ∨
      (key = "attributes" ∧ ∃ texts, Lists value texts ∧
        next = { base with attributes := texts }) ∨
      key ∉ ["name", "references", "attributes"] ∧ next = base := by
  unfold setField Lists
  by_cases hname : key = "name"
  · simp [hname, Toml.map_eq_ok_iff, Toml.Value.asText_eq_ok_iff]
  by_cases hreferences : key = "references"
  · simp [hreferences, Toml.map_eq_ok_iff, Toml.Value.asList_asText_eq_ok_iff]
  by_cases hattributes : key = "attributes"
  · simp [hattributes, Toml.map_eq_ok_iff, Toml.Value.asList_asText_eq_ok_iff]
  · simp [hname, hreferences, hattributes, eq_comm]

theorem collects_nil : Collects base [] draft ↔ base = draft := by
  have hnot (key : String) : key ∉ keys [] := List.not_mem_nil
  rw [collects_iff, gives_of_not_mem (hnot _), gives_of_not_mem (hnot _),
    gives_of_not_mem (hnot _)]
  cases base
  cases draft
  simp [eq_comm]

/-- An entry with another key does not matter. -/
theorem collects_cons_of_not_mem {rest : Toml.Entries}
    (hkey : key ∉ ["name", "references", "attributes"]) :
    Collects base ((key, value) :: rest) draft ↔ Collects base rest draft := by
  simp only [List.mem_cons, List.not_mem_nil, or_false, not_or, eq_comm (a := key)] at hkey
  rw [collects_iff, collects_iff, gives_cons_of_ne hkey.1, gives_cons_of_ne hkey.2.1,
    gives_cons_of_ne hkey.2.2]

/-- The first entry sets a field or none, and the others do not set it again. -/
theorem collects_cons {rest : Toml.Entries} (hkey : key ∉ rest.keys) :
    Collects base ((key, value) :: rest) draft ↔
      ∃ next, base.setField key value = .ok next ∧ Collects next rest draft := by
  constructor
  · intro h
    by_cases hknown : key ∈ ["name", "references", "attributes"]
    · rw [List.mem_cons, List.mem_cons, List.mem_singleton] at hknown
      -- for the field of this key the rest has no entry, and for the others the first is none
      rcases hknown with rfl | rfl | rfl
      · obtain ⟨text, hvalue, hname⟩ := gives_cons_self.mp h.name
        exact ⟨{ base with name := some text },
          setField_eq_ok_iff.mpr (.inl ⟨rfl, text, hvalue, rfl⟩),
          (gives_of_not_mem hkey).mpr hname, (gives_cons_of_ne (by decide)).mp h.references,
          (gives_cons_of_ne (by decide)).mp h.attributes⟩
      · have hvalue := gives_cons_self.mp h.references
        exact ⟨{ base with references := draft.references },
          setField_eq_ok_iff.mpr (.inr (.inl ⟨rfl, _, hvalue, rfl⟩)),
          (gives_cons_of_ne (by decide)).mp h.name, (gives_of_not_mem hkey).mpr rfl,
          (gives_cons_of_ne (by decide)).mp h.attributes⟩
      · have hvalue := gives_cons_self.mp h.attributes
        exact ⟨{ base with attributes := draft.attributes },
          setField_eq_ok_iff.mpr (.inr (.inr (.inl ⟨rfl, _, hvalue, rfl⟩))),
          (gives_cons_of_ne (by decide)).mp h.name,
          (gives_cons_of_ne (by decide)).mp h.references, (gives_of_not_mem hkey).mpr rfl⟩
    · refine ⟨base, setField_eq_ok_iff.mpr (.inr (.inr (.inr ⟨hknown, rfl⟩))), ?_⟩
      exact (collects_cons_of_not_mem hknown).mp h
  · rintro ⟨next, hset, h⟩
    rcases setField_eq_ok_iff.mp hset with ⟨rfl, text, hvalue, rfl⟩ | ⟨rfl, texts, hvalue, rfl⟩ |
      ⟨rfl, texts, hvalue, rfl⟩ | ⟨hknown, rfl⟩
    · exact ⟨gives_cons_self.mpr ⟨text, hvalue, (gives_of_not_mem hkey).mp h.name⟩,
        (gives_cons_of_ne (by decide)).mpr h.references,
        (gives_cons_of_ne (by decide)).mpr h.attributes⟩
    · have htexts : draft.references = texts := (gives_of_not_mem hkey).mp h.references
      exact ⟨(gives_cons_of_ne (by decide)).mpr h.name, gives_cons_self.mpr (htexts ▸ hvalue),
        (gives_cons_of_ne (by decide)).mpr h.attributes⟩
    · have htexts : draft.attributes = texts := (gives_of_not_mem hkey).mp h.attributes
      exact ⟨(gives_cons_of_ne (by decide)).mpr h.name,
        (gives_cons_of_ne (by decide)).mpr h.references, gives_cons_self.mpr (htexts ▸ hvalue)⟩
    · exact (collects_cons_of_not_mem hknown).mpr h

/-- The entries collect a draft that is finished as the manifest they describe. -/
theorem collects_finish_iff :
    (∃ draft, Collects {} entries draft ∧ draft.finish = .ok manifest) ↔
      Describes entries manifest := by
  constructor
  · rintro ⟨⟨name, references, attributes⟩, h, hfinish⟩
    cases name with
    | none => cases hfinish
    | some name =>
      cases hfinish
      refine ⟨?_, h.references, h.attributes⟩
      have hname := h.name
      unfold Toml.Entries.Gives at hname
      split at hname
      · cases hname
      · obtain ⟨text, rfl, htext⟩ := hname
        cases htext
        assumption
  · intro h
    refine ⟨⟨some manifest.fullName, manifest.references, manifest.attributes⟩,
      ⟨?_, h.references, h.attributes⟩, rfl⟩
    rw [Toml.Entries.Gives, h.fullName]
    exact ⟨_, rfl, rfl⟩

end Draft

/-! ### What a table gives -/

/-- **A table gives the manifest that it describes.** -/
theorem ofEntries_eq_ok_iff (hnodup : entries.keys.Nodup) :
    ofEntries entries = .ok manifest ↔ Describes entries manifest := by
  rw [← Draft.collects_finish_iff]
  refine Toml.bind_eq_ok_iff.trans (exists_congr fun draft => and_congr_left' ?_)
  exact Toml.Entries.foldlM_eq_ok_iff (fun _ _ => Draft.collects_nil)
    (fun _ _ _ _ _ => Draft.collects_cons) hnodup

/-- Either the table describes one manifest and only the name is left to look at, or it describes
none. -/
theorem ofTable_cases (hnodup : entries.keys.Nodup) :
    (∃ found, (∀ other, Describes entries other ↔ other = found) ∧
        ofTable entries =
          if Text.isBlank found.fullName then .error .missingName else .ok found) ∨
      (∀ other, ¬ Describes entries other) ∧
        ∃ misfit, ofTable entries = .error (.unparsed (.misfit misfit)) := by
  simp only [← ofEntries_eq_ok_iff hnodup, ofTable]
  rcases ofEntries entries with misfit | found
  · exact Or.inr ⟨fun other => by simp, misfit, rfl⟩
  · exact Or.inl ⟨found, fun other => by rw [Except.ok.injEq, eq_comm], rfl⟩

theorem ofTable_eq_ok_iff (hnodup : entries.keys.Nodup) :
    ofTable entries = .ok manifest ↔
      Describes entries manifest ∧
        ∃ c ∈ manifest.fullName.toList, Text.isBlankChar c = false := by
  rw [← Text.isBlank_eq_false_iff]
  rcases ofTable_cases hnodup with ⟨found, hfound, htable⟩ | ⟨hnone, misfit, htable⟩
  · rw [hfound, htable]
    cases hblank : Text.isBlank found.fullName with
    | true =>
      refine ⟨fun h => absurd h (by simp), ?_⟩
      rintro ⟨rfl, hvisible⟩
      exact absurd (hblank.symm.trans hvisible) (by decide)
    | false =>
      rw [if_neg (by decide), Except.ok.injEq, eq_comm]
      exact ⟨fun h => ⟨h, h ▸ hblank⟩, fun h => h.1⟩
  · rw [htable]
    exact ⟨fun h => absurd h (by simp), fun h => absurd h.1 (hnone manifest)⟩

theorem ofTable_eq_missingName_iff (hnodup : entries.keys.Nodup) :
    ofTable entries = .error .missingName ↔
      ∃ manifest, Describes entries manifest ∧
        ∀ c ∈ manifest.fullName.toList, Text.isBlankChar c = true := by
  simp only [← Text.isBlank_eq_true_iff]
  rcases ofTable_cases hnodup with ⟨found, hfound, htable⟩ | ⟨hnone, misfit, htable⟩
  · simp only [hfound, htable, exists_eq_left]
    cases Text.isBlank found.fullName with
    | true => simp
    | false => simp
  · simp [htable, hnone]

theorem ofTable_eq_unparsed_iff (hnodup : entries.keys.Nodup) :
    (∃ fault, ofTable entries = .error (.unparsed fault)) ↔
      ¬ ∃ manifest, Describes entries manifest := by
  rcases ofTable_cases hnodup with ⟨found, hfound, htable⟩ | ⟨hnone, misfit, htable⟩
  · rw [htable]
    refine ⟨?_, fun h => absurd ⟨found, (hfound found).mpr rfl⟩ h⟩
    rintro ⟨fault, h⟩
    split at h <;> simp at h
  · exact ⟨fun _ ⟨manifest, h⟩ => hnone manifest h, fun _ => ⟨_, htable⟩⟩

/-! ### Entries that do not matter -/

/-- The entries that a manifest is read from. -/
def relevant (entries : Toml.Entries) : Toml.Entries :=
  entries.filter fun entry => ["name", "references", "attributes"].contains entry.1

theorem describes_congr {other : Toml.Entries} (h : (relevant other).Perm (relevant entries))
    (hnodup : other.keys.Nodup) : Describes other manifest ↔ Describes entries manifest := by
  have hrelevant : (relevant other).keys.Nodup :=
    hnodup.sublist (List.filter_sublist.map Prod.fst)
  have hlookup (key : String) (hkey : ["name", "references", "attributes"].contains key = true) :
      other.lookup key = entries.lookup key := by
    have hother : (relevant other).lookup key = other.lookup key := Toml.Entries.lookup_filter hkey
    have hentries : (relevant entries).lookup key = entries.lookup key :=
      Toml.Entries.lookup_filter hkey
    rw [← hother, ← hentries, Toml.Entries.lookup_perm h hrelevant]
  rw [describes_iff, describes_iff, Toml.Entries.Gives, Toml.Entries.Gives, Toml.Entries.Gives,
    Toml.Entries.Gives, hlookup "name" (by decide), hlookup "references" (by decide),
    hlookup "attributes" (by decide)]

/-- **What becomes of the table of a manifest.**  If `name` has a text and each list has an array
of texts or no entry at all, the table gives the manifest with that full name, blanks included,
and those texts in their order; unless the full name has no character that is not blank, which is
an error of its own.  Every other table does not fit.  It is the same for any other table that has
the same entries for these keys, in whatever order and among whatever others.  A text gives what
its table gives, whose keys are distinct, and does not fit if it has none. -/
theorem ofTable_decides_outcome (entries : Toml.Entries) (distinct : entries.keys.Nodup) :
    (∀ manifest, ofTable entries = .ok manifest ↔
        Describes entries manifest ∧
          ∃ c ∈ manifest.fullName.toList, Text.isBlankChar c = false) ∧
      (ofTable entries = .error .missingName ↔
        ∃ manifest, Describes entries manifest ∧
          ∀ c ∈ manifest.fullName.toList, Text.isBlankChar c = true) ∧
      ((∃ fault, ofTable entries = .error (.unparsed fault)) ↔
        ¬ ∃ manifest, Describes entries manifest) ∧
      (∀ other : Toml.Entries, other.keys.Nodup → (relevant other).Perm (relevant entries) →
        (∀ manifest, ofTable other = .ok manifest ↔ ofTable entries = .ok manifest) ∧
        (ofTable other = .error .missingName ↔ ofTable entries = .error .missingName) ∧
        ((∃ fault, ofTable other = .error (.unparsed fault)) ↔
          ∃ fault, ofTable entries = .error (.unparsed fault))) ∧
      ∀ text, match Toml.read text with
        | none => parse text = .error (.unparsed .malformed)
        | some found => found.keys.Nodup ∧ parse text = ofTable found := by
  refine ⟨fun _ => ofTable_eq_ok_iff distinct, ofTable_eq_missingName_iff distinct,
    ofTable_eq_unparsed_iff distinct, fun other hnodup hperm => ?_, fun text => ?_⟩
  · simp only [ofTable_eq_ok_iff hnodup, ofTable_eq_ok_iff distinct,
      ofTable_eq_missingName_iff hnodup, ofTable_eq_missingName_iff distinct,
      ofTable_eq_unparsed_iff hnodup, ofTable_eq_unparsed_iff distinct,
      describes_congr hperm hnodup, implies_true, and_self]
  · rcases hread : Toml.read text with _ | found
    · rw [parse, hread]
    · rw [parse, hread]
      exact ⟨Toml.Entries.nodup_keys_read hread, rfl⟩

/-- Other keys may stand anywhere, with any values, and a blank name counts only if all else
fits. -/
theorem ofTable_decides_outcome_padded :
    let plain : Toml.Entries := [("name", .string " Web "), ("attributes", .array [.string "b",
      .string "a"])]
    let padded : Toml.Entries := [("attributes", .array [.string "b", .string "a"]),
      ("origin", .table .inline [("name", .integer 3)]), ("name", .string " Web ")]
    let blank : Toml.Entries := [("name", .string "\t "), ("references", .array [])]
    let mixed : Toml.Entries := [("name", .string "\t "), ("references", .array [.string "Core",
      .boolean true])]
    (padded.keys.Nodup ∧ (relevant padded).Perm (relevant plain)) ∧
      ofTable padded = .ok ⟨" Web ", [], ["b", "a"]⟩ ∧
      blank.keys.Nodup ∧ ofTable blank = .error .missingName ∧
      mixed.keys.Nodup ∧ ∃ fault, ofTable mixed = .error (.unparsed fault) := by
  intro plain padded blank mixed
  have hplain : plain.keys.Nodup := by decide
  have hpadded : padded.keys.Nodup := by decide
  have hblank : blank.keys.Nodup := by decide
  have hmixed : mixed.keys.Nodup := by decide
  have hperm : (relevant padded).Perm (relevant plain) := List.Perm.swap _ _ _
  have hfits : Describes plain ⟨" Web ", [], ["b", "a"]⟩ := ⟨rfl, rfl, rfl⟩
  have hfound := ((ofTable_decides_outcome plain hplain).1 _).mpr ⟨hfits, 'W', by decide, by decide⟩
  refine ⟨⟨hpadded, hperm⟩,
    (((ofTable_decides_outcome plain hplain).2.2.2.1 padded hpadded hperm).1 _).mpr hfound,
    hblank, (ofTable_decides_outcome blank hblank).2.1.mpr
      ⟨⟨"\t ", [], []⟩, ⟨rfl, rfl, rfl⟩, List.all_eq_true.mp (by decide)⟩,
    hmixed, (ofTable_decides_outcome mixed hmixed).2.2.1.mpr ?_⟩
  rintro ⟨manifest, h⟩
  have hlists : Lists (.array [.string "Core", .boolean true]) manifest.references := h.references
  have hmem : Toml.Value.boolean true ∈ manifest.references.map .string := by
    rw [← Option.some.inj hlists]
    exact List.mem_cons_of_mem _ List.mem_cons_self
  obtain ⟨text, -, htext⟩ := List.mem_map.mp hmem
  cases htext

end ScriptBackend.Manifest
