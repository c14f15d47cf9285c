import ScriptBackend.Options
import ScriptBackend.Proofs.TableFields

/-! # Options and their table

Options are read from a table entry by entry, over the default ones, and the width is looked at
when all entries fit.  Which options a table gives can be said all at once (`Overrides`): every key
is known, and each field fits the entry of its key or is as before.  Setting a field takes care of
one entry (`overrides_cons`), so this is what the entries give together
(`ofEntries_eq_ok_iff`).

Nothing in `Overrides` depends on the order of the entries.  A table that fits gives one set of
options and one that does not fit gives none (`ofTable_cases`), so the width only decides between
options and an error of its own where all else fits (`ofTable_decides_fit`).
-/
namespace ScriptBackend.Options

open Toml.Entries (keys gives_of_not_mem gives_cons_self gives_cons_of_ne gives_perm)

/-- The options that a table gives over others.  Its keys are those of options, each value is of
the kind that its key asks for, and what has no key is as before. -/
@[mk_iff]
structure Overrides (base : Options) (entries : Toml.Entries) (options : Options) : Prop where
  known : ∀ key ∈ entries.keys, key ∈ ["include_tests", "indent_width", "references"]
  includeTests : entries.Gives "include_tests" (fun value included => value = .boolean included)
    base.includeTests options.includeTests
  indentWidth : entries.Gives "indent_width" (fun value width => value = .integer (width : Nat))
    base.indentWidth options.indentWidth
  references : entries.Gives "references" (fun value paths => ∃ texts : List String,
    value.items? = some (texts.map .string) ∧ paths = texts.map Path.mk)
    base.references options.references

variable {base next options : Options} {entries : Toml.Entries} {key : String} {value : Toml.Value}

/-- What setting a field can do. -/
theorem setField_eq_ok_iff : base.setField key value = .ok next ↔
    (key = "include_tests" ∧ ∃ included, value = .boolean included ∧
        next = { base with includeTests := included }) ∨
      (key = "indent_width" ∧ ∃ width : Nat, value = .integer width ∧
        next = { base with indentWidth := width }) ∨
      (key = "references" ∧ ∃ texts : List String, value.items? = some (texts.map .string) ∧
        next = { base with references := texts.map Path.mk }) := by
  unfold setField widthField
  by_cases htests : key = "include_tests"
  · simp [htests, Toml.map_eq_ok_iff, Toml.Value.asBool_eq_ok_iff]
  by_cases hwidth : key = "indent_width"
  · simp [hwidth, Toml.map_eq_ok_iff, Toml.Value.asNat_eq_ok_iff]
  by_cases hreferences : key = "references"
  · simp [hreferences, Toml.map_eq_ok_iff, Toml.Value.asList_asText_eq_ok_iff]
  · simp [htests, hwidth, hreferences]

theorem overrides_nil : Overrides base [] options ↔ base = options := by
  have hnot (key : String) : key ∉ keys [] := List.not_mem_nil
  rw [overrides_iff, gives_of_not_mem (hnot _), gives_of_not_mem (hnot _),
    gives_of_not_mem (hnot _)]
  constructor
  · rintro ⟨-, htests, hwidth, hreferences⟩
    cases base
    cases options
    simp_all
  · rintro rfl
    exact ⟨fun key hkey => absurd hkey (hnot key), rfl, rfl, rfl⟩

/-- The first entry sets a field, and the others do not set it again. -/
theorem overrides_cons {rest : Toml.Entries} (hkey : key ∉ rest.keys) :
    Overrides base ((key, value) :: rest) options ↔
      ∃ next, base.setField key value = .ok next ∧ Overrides next rest options := by
  constructor
  · intro h
    obtain ⟨hknown, hrest⟩ := List.forall_mem_cons.mp h.known
    rw [List.mem_cons, List.mem_cons, List.mem_singleton] at hknown
    -- for the field of this key the rest has no entry, and for the others the first entry is none
    rcases hknown with rfl | rfl | rfl
    · have hvalue := gives_cons_self.mp h.includeTests
      exact ⟨{ base with includeTests := options.includeTests },
        setField_eq_ok_iff.mpr (.inl ⟨rfl, _, hvalue, rfl⟩), hrest,
        (gives_of_not_mem hkey).mpr rfl, (gives_cons_of_ne (by decide)).mp h.indentWidth,
        (gives_cons_of_ne (by decide)).mp h.references⟩
    · have hvalue := gives_cons_self.mp h.indentWidth
      exact ⟨{ base with indentWidth := options.indentWidth },
        setField_eq_ok_iff.mpr (.inr (.inl ⟨rfl, _, hvalue, rfl⟩)), hrest,
        (gives_cons_of_ne (by decide)).mp h.includeTests, (gives_of_not_mem hkey).mpr rfl,
        (gives_cons_of_ne (by decide)).mp h.references⟩
    · obtain ⟨texts, hvalue, hpaths⟩ := gives_cons_self.mp h.references
      exact ⟨{ base with references := texts.map Path.mk },
        setField_eq_ok_iff.mpr (.inr (.inr ⟨rfl, texts, hvalue, rfl⟩)), hrest,
        (gives_cons_of_ne (by decide)).mp h.includeTests,
        (gives_cons_of_ne (by decide)).mp h.indentWidth, (gives_of_not_mem hkey).mpr hpaths⟩
  · rintro ⟨next, hset, h⟩
    rcases setField_eq_ok_iff.mp hset with ⟨rfl, included, rfl, rfl⟩ | ⟨rfl, width, rfl, rfl⟩ |
      ⟨rfl, texts, hvalue, rfl⟩
    · have hincluded : options.includeTests = included := (gives_of_not_mem hkey).mp h.includeTests
      exact ⟨List.forall_mem_cons.mpr ⟨by simp, h.known⟩,
        gives_cons_self.mpr (by rw [hincluded]), (gives_cons_of_ne (by decide)).mpr h.indentWidth,
        (gives_cons_of_ne (by decide)).mpr h.references⟩
    · have hwidth : options.indentWidth = width := (gives_of_not_mem hkey).mp h.indentWidth
      exact ⟨List.forall_mem_cons.mpr ⟨by simp, h.known⟩,
        (gives_cons_of_ne (by decide)).mpr h.includeTests,
        gives_cons_self.mpr (by rw [hwidth]), (gives_cons_of_ne (by decide)).mpr h.references⟩
    · have hpaths : options.references = texts.map Path.mk :=
        (gives_of_not_mem hkey).mp h.references
      exact ⟨List.forall_mem_cons.mpr ⟨by simp, h.known⟩,
        (gives_cons_of_ne (by decide)).mpr h.includeTests,
        (gives_cons_of_ne (by decide)).mpr h.indentWidth,
        gives_cons_self.mpr ⟨texts, hvalue, hpaths⟩⟩

theorem overrides_perm {reordered : Toml.Entries} (h : reordered.Perm entries)
    (hnodup : reordered.keys.Nodup) :
    Overrides base reordered options ↔ Overrides base entries options := by
  rw [overrides_iff, overrides_iff, gives_perm h hnodup, gives_perm h hnodup, gives_perm h hnodup]
  exact and_congr_left' (forall_congr' fun key => imp_congr_left (h.map Prod.fst).mem_iff)

/-! ### What a table gives -/

/-- **The options of a table do not depend on the order of its entries.** -/
theorem ofEntries_eq_ok_iff (hnodup : entries.keys.Nodup) :
    ofEntries entries = .ok options ↔ Overrides ⟨false, 2, []⟩ entries options :=
  Toml.Entries.foldlM_eq_ok_iff (fun _ _ => overrides_nil) (fun _ _ _ _ _ => overrides_cons)
    hnodup

/-- Either the table fits and only the width is left to look at, or it gives no options at all. -/
theorem ofTable_cases (hnodup : entries.keys.Nodup) :
    (∃ options, (∀ other, Overrides ⟨false, 2, []⟩ entries other ↔ other = options) ∧
        ofTable entries =
          if options.indentWidth ≤ 8 then .ok options
          else .error (.tooWide options.indentWidth)) ∨
      (∀ other, ¬ Overrides ⟨false, 2, []⟩ entries other) ∧
        ∃ misfit, ofTable entries = .error (.unparsed (.misfit misfit)) := by
  simp only [← ofEntries_eq_ok_iff hnodup, ofTable]
  rcases ofEntries entries with misfit | options
  · exact Or.inr ⟨fun other => by simp, misfit, rfl⟩
  · exact Or.inl ⟨options, fun other => by rw [Except.ok.injEq, eq_comm], rfl⟩

theorem ofTable_eq_ok_iff (hnodup : entries.keys.Nodup) :
    ofTable entries = .ok options ↔
      Overrides ⟨false, 2, []⟩ entries options ∧ options.indentWidth ≤ 8 := by
  rcases ofTable_cases hnodup with ⟨found, hfound, htable⟩ | ⟨hnone, misfit, htable⟩
  · rw [hfound, htable]
    by_cases hwidth : found.indentWidth ≤ 8
    · rw [if_pos hwidth, Except.ok.injEq, eq_comm]
      exact ⟨fun h => ⟨h, h ▸ hwidth⟩, fun h => h.1⟩
    · rw [if_neg hwidth]
      exact ⟨fun h => absurd h (by simp), fun ⟨h, hle⟩ => absurd (h ▸ hle) hwidth⟩
  · rw [htable]
    exact ⟨fun h => absurd h (by simp), fun h => absurd h.1 (hnone options)⟩

theorem ofTable_eq_tooWide_iff (hnodup : entries.keys.Nodup) {width : Nat} :
    ofTable entries = .error (.tooWide width) ↔
      ∃ options, Overrides ⟨false, 2, []⟩ entries options ∧ options.indentWidth = width ∧
        8 < width := by
  rcases ofTable_cases hnodup with ⟨found, hfound, htable⟩ | ⟨hnone, misfit, htable⟩
  · simp only [hfound, htable, exists_eq_left]
    by_cases hwidth : found.indentWidth ≤ 8
    · rw [if_pos hwidth]
      exact ⟨fun h => absurd h (by simp), fun ⟨h, hlt⟩ => absurd hwidth (by omega)⟩
    · rw [if_neg hwidth, Except.error.injEq, Error.tooWide.injEq]
      exact ⟨fun h => ⟨h, by omega⟩, fun h => h.1⟩
  · simp [htable, hnone]

theorem ofTable_eq_unparsed_iff (hnodup : entries.keys.Nodup) :
    (∃ fault, ofTable entries = .error (.unparsed fault)) ↔
      ¬ ∃ options, Overrides ⟨false, 2, []⟩ entries options := by
  rcases ofTable_cases hnodup with ⟨found, hfound, htable⟩ | ⟨hnone, misfit, htable⟩
  · rw [htable]
    refine ⟨?_, fun h => absurd ⟨found, (hfound found).mpr rfl⟩ h⟩
    rintro ⟨fault, h⟩
    split at h <;> simp at h
  · exact ⟨fun _ ⟨options, h⟩ => hnone options h, fun _ => ⟨_, htable⟩⟩

/-! ### Options that are built up -/

/-- A way to change options. -/
inductive Edit where
  | tests (included : Bool)
  | reference (p : Path)
  | width (width : Nat)

/-- The options after a change. -/
def edit (options : Options) : Edit → Options
  | .tests included => options.withTests included
  | .reference p => options.withReference p
  | .width width => options.withIndentWidth width

theorem indentWidth_edit_le (h : options.indentWidth ≤ 8) (e : Edit) :
    (options.edit e).indentWidth ≤ 8 := by
  cases e with
  | tests included => exact h
  | reference p => exact h
  | width width => exact Nat.min_le_right width widthLimit

/-- No sequence of changes gets over the limit of the width. -/
theorem indentWidth_edits_le (h : options.indentWidth ≤ 8) (edits : List Edit) :
    (edits.foldl edit options).indentWidth ≤ 8 := by
  induction edits generalizing options with
  | nil => exact h
  | cons e edits ih => exact ih (indentWidth_edit_le h e)

/-- **What becomes of a table of options.**  If each key is one of options and has a value of its
kind, the table gives the options with these values, and what has no key is as by default; unless
the width is more than 8, which is an error of its own.  Every other table does not fit.  It is
the same for the entries in any other order, and options that come from a table or are the default
ones keep to the limit of the width, however they are changed.  A text gives what its table
gives, whose keys are distinct, and does not fit if it has none. -/
theorem ofTable_decides_fit (entries : Toml.Entries) (distinct : entries.keys.Nodup) :
    (∀ options, ofTable entries = .ok options ↔
        Overrides ⟨false, 2, []⟩ entries options ∧ options.indentWidth ≤ 8) ∧
      (∀ width, ofTable entries = .error (.tooWide width) ↔
        ∃ options, Overrides ⟨false, 2, []⟩ entries options ∧ options.indentWidth = width ∧
          8 < width) ∧
      ((∃ fault, ofTable entries = .error (.unparsed fault)) ↔
        ¬ ∃ options, Overrides ⟨false, 2, []⟩ entries options) ∧
      (∀ reordered : Toml.Entries, reordered.Perm entries →
        (∀ options, ofTable reordered = .ok options ↔ ofTable entries = .ok options) ∧
        (∀ width, ofTable reordered = .error (.tooWide width) ↔
          ofTable entries = .error (.tooWide width)) ∧
        ((∃ fault, ofTable reordered = .error (.unparsed fault)) ↔
          ∃ fault, ofTable entries = .error (.unparsed fault))) ∧
      (∀ options (edits : List Edit), options = {} ∨ ofTable entries = .ok options →
        (edits.foldl edit options).indentWidth ≤ 8) ∧
      ∀ text, match Toml.read text with
        | none => parse text = .error (.unparsed .malformed)
        | some found => found.keys.Nodup ∧ parse text = ofTable found := by
  refine ⟨fun _ => ofTable_eq_ok_iff distinct, fun _ => ofTable_eq_tooWide_iff distinct,
    ofTable_eq_unparsed_iff distinct, fun reordered hperm => ?_, fun options edits hstart => ?_,
    fun text => ?_⟩
  · have hnodup : reordered.keys.Nodup := (hperm.map Prod.fst).nodup_iff.mpr distinct
    simp only [ofTable_eq_ok_iff hnodup, ofTable_eq_ok_iff distinct, ofTable_eq_tooWide_iff hnodup,
      ofTable_eq_tooWide_iff distinct, ofTable_eq_unparsed_iff hnodup,
      ofTable_eq_unparsed_iff distinct, overrides_perm hperm hnodup, implies_true, and_self]
  · refine indentWidth_edits_le ?_ edits
    rcases hstart with rfl | htable
    · decide
    · exact ((ofTable_eq_ok_iff distinct).mp htable).2
  · rcases hread : Toml.read text with _ | found
    · rw [parse, hread]
    · rw [parse, hread]
      exact ⟨Toml.Entries.nodup_keys_read hread, rfl⟩

/-- A width that is too great counts only if all else fits. -/
theorem ofTable_decides_fit_wide :
    let wide : Toml.Entries := [("references", .array [.string "Core.toml", .string "b/Web.toml"]),
      ("indent_width", .integer 9)]
    let unknown : Toml.Entries := wide ++ [("include_test", .boolean true)]
    wide.keys.Nodup ∧ ofTable wide = .error (.tooWide 9) ∧
      unknown.keys.Nodup ∧ ∃ fault, ofTable unknown = .error (.unparsed fault) := by
  intro wide unknown
  have hwide : wide.keys.Nodup := by decide
  have hunknown : unknown.keys.Nodup := by decide
  have hfits : Overrides ⟨false, 2, []⟩ wide ⟨false, 9, [⟨"Core.toml"⟩, ⟨"b/Web.toml"⟩]⟩ :=
    ⟨by decide, rfl, rfl, ["Core.toml", "b/Web.toml"], rfl, rfl⟩
  refine ⟨hwide, ((ofTable_decides_fit wide hwide).2.1 9).mpr ⟨_, hfits, rfl, by decide⟩,
    hunknown, (ofTable_decides_fit unknown hunknown).2.2.1.mpr ?_⟩
  rintro ⟨options, h⟩
  exact absurd (h.known "include_test" (by decide)) (by decide)

end ScriptBackend.Options
