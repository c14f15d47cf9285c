import Mathlib.Data.List.Nodup
import ScriptBackend.Manifest
import ScriptBackend.Proofs.TableFields
import ScriptBackend.Proofs.WrittenDocument

/-! # Manifests that are read back

A manifest is written with a line for its full name, a line for its references and a line for its
attributes.  A `Layout` is a way to do so: it says how texts are quoted, in which order the lines
stand, and whether an empty list has a line at all.

Reading gives back the manifest, whatever the layout (`parse_recovers_written`), unless its full
name is blank.  By `Toml.read_document` only the table is left to look at.  Each entry of the table
fills in one field of the draft (`setField_content`), the entries are in some order, and a field
without an entry has the value that a draft begins with.
-/
namespace ScriptBackend.Manifest

/-! ### What is written -/

/-- A part of a manifest that has a line of its own. -/
inductive Field where
  | name
  | references
  | attributes
  deriving DecidableEq, Repr

namespace Field

/-- The key of the line. -/
def key : Field → String
  | .name => "name"
  | .references => "references"
  | .attributes => "attributes"

/-- What stands after the key. -/
def content (m : Manifest) : Field → Toml.Content
  | .name => .text m.fullName
  | .references => .texts m.references
  | .attributes => .texts m.attributes

/-- The draft with this part taken from a manifest. -/
def fill (m : Manifest) (draft : Draft) : Field → Draft
  | .name => { draft with name := some m.fullName }
  | .references => { draft with references := m.references }
  | .attributes => { draft with attributes := m.attributes }

theorem isBare_key (f : Field) : Toml.IsBare f.key := by
  have hchars : f.key.toList.all Toml.isKeyChar = true := by cases f <;> decide
  have hne : f.key ≠ "" := by cases f <;> decide
  exact ⟨hne, List.all_eq_true.mp hchars⟩

theorem key_injective : Function.Injective key := by
  intro f g
  cases f <;> cases g <;> decide

end Field

/-- A way to write manifests. -/
structure Layout where
  /-- How texts are written. -/
  quoting : Toml.Quoting
  /-- The order of the lines. -/
  order : List Field
  order_perm : order.Perm [.name, .references, .attributes]
  /-- Whether the line of an empty list is left out. -/
  omits : Field → Bool
  /-- Whether the last line has an end. -/
  closed : Bool

namespace Layout

variable (layout : Layout) (m : Manifest)

/-- The fields that have lines, in their order. -/
def fields : List Field :=
  layout.order.filter fun f => !(layout.omits f && f.content m = .texts [])

/-- The text of a manifest. -/
def text : String :=
  String.ofList (Toml.document layout.quoting layout.closed
    ((layout.fields m).map fun f => (f.key, f.content m)))

theorem mem_fields {f : Field} :
    f ∈ layout.fields m ↔ (layout.omits f = true → f.content m ≠ .texts []) := by
  have horder : f ∈ layout.order := by
    rw [layout.order_perm.mem_iff]
    cases f <;> decide
  cases homits : layout.omits f <;> simp [fields, horder, homits]

theorem name_mem_fields : .name ∈ layout.fields m := by
  simp [mem_fields, Field.content]

/-- Only an empty list has no line. -/
theorem content_of_not_mem_fields {f : Field} (h : f ∉ layout.fields m) :
    f.content m = .texts [] := by
  by_contra hcontent
  exact h ((layout.mem_fields m).mpr fun _ => hcontent)

theorem fields_nodup : (layout.fields m).Nodup := by
  have horder : layout.order.Nodup := layout.order_perm.nodup_iff.mpr (by decide)
  exact horder.filter _

/-- The table in the text of a manifest. -/
theorem read_text : Toml.read (layout.text m) =
    some ((layout.fields m).map fun f => (f.key, (f.content m).value)) := by
  have hkeys : ((layout.fields m).map Field.key).Nodup :=
    List.Nodup.map Field.key_injective (layout.fields_nodup m)
  rw [text, Toml.read_document, List.map_map]
  · rfl
  · intro p hp
    obtain ⟨f, -, rfl⟩ := List.mem_map.mp hp
    exact f.isBare_key
  · rwa [List.map_map]

end Layout

/-! ### What is read -/

theorem asList_texts (ss : List String) :
    (Toml.Content.texts ss).value.asList (·.asText "a string") = .ok ss :=
  Toml.Value.asList_asText_eq_ok_iff.mpr rfl

theorem setField_content (m : Manifest) (draft : Draft) (f : Field) :
    draft.setField f.key (f.content m).value = .ok (f.fill m draft) := by
  cases f with
  | name => rfl
  | references =>
    show (Toml.Value.asList _ (Toml.Content.texts m.references).value).map _ = _
    rw [asList_texts]
    rfl
  | attributes =>
    show (Toml.Value.asList _ (Toml.Content.texts m.attributes).value).map _ = _
    rw [asList_texts]
    rfl

theorem foldlM_setField (m : Manifest) (fields : List Field) (draft : Draft) :
    (fields.map fun f => (f.key, (f.content m).value)).foldlM
        (fun draft (key, value) => draft.setField key value) draft =
      .ok (fields.foldl (Field.fill m) draft) := by
  induction fields generalizing draft with
  | nil => rfl
  | cons f fields ih =>
    rw [List.map_cons, List.foldlM_cons]
    show (draft.setField f.key (f.content m).value).bind _ = _
    rw [setField_content]
    exact ih (f.fill m draft)

/-- A filled draft does not depend on the order of the fields. -/
theorem foldl_fill (m : Manifest) (fields : List Field) (draft : Draft) :
    fields.foldl (Field.fill m) draft =
      { name := if .name ∈ fields then some m.fullName else draft.name
        references := if .references ∈ fields then m.references else draft.references
        attributes := if .attributes ∈ fields then m.attributes else draft.attributes } := by
  induction fields generalizing draft with
  | nil => rfl
  | cons f fields ih =>
    rw [List.foldl_cons, ih]
    cases f <;> simp [Field.fill]

theorem ofEntries_fields (layout : Layout) (m : Manifest) :
    ofEntries ((layout.fields m).map fun f => (f.key, (f.content m).value)) = .ok m := by
  have hdraft : (layout.fields m).foldl (Field.fill m) {} =
      ⟨some m.fullName, m.references, m.attributes⟩ := by
    rw [foldl_fill, if_pos (layout.name_mem_fields m)]
    congr 1
    · split_ifs with h
      · rfl
      · exact (Toml.Content.texts.inj (layout.content_of_not_mem_fields m h)).symm
    · split_ifs with h
      · rfl
      · exact (Toml.Content.texts.inj (layout.content_of_not_mem_fields m h)).symm
  rw [ofEntries, foldlM_setField, hdraft]
  rfl

theorem parse_text (layout : Layout) (m : Manifest) :
    parse (layout.text m) = if Text.isBlank m.fullName then .error .missingName else .ok m := by
  rw [parse, layout.read_text]
  show ofTable _ = _
  rw [ofTable, ofEntries_fields]

/-- **Reading undoes writing.**  Written in any layout, a manifest is read back as it was, its full
name with all its blanks and its lists in their order, if the full name has a character that is
not blank.  A full name without such a character counts as missing. -/
theorem parse_recovers_written (layout : Layout) (m : Manifest) :
    ((∃ c ∈ m.fullName.toList, Text.isBlankChar c = false) → parse (layout.text m) = .ok m) ∧
      ((∀ c ∈ m.fullName.toList, Text.isBlankChar c = true) →
        parse (layout.text m) = .error .missingName) := by
  rw [parse_text]
  constructor
  · rintro ⟨c, hc, hvisible⟩
    have hblank : ¬ Text.isBlank m.fullName = true := fun hall =>
      absurd (List.all_eq_true.mp hall c hc) (by rw [hvisible]; decide)
    rw [if_neg hblank]
  · intro hall
    have hblank : Text.isBlank m.fullName = true := List.all_eq_true.mpr hall
    rw [if_pos hblank]

/-- The layout with the attributes first, no lines for empty lists and no end of the last line. -/
def Layout.terse : Layout where
  quoting := .controls
  order := [.attributes, .name, .references]
  order_perm := by decide
  omits _ := true
  closed := false

theorem parse_recovers_written_terse :
    parse "attributes = [\"x, y\", \"\"]\nname = \" a\\u0009\\\"b\\\"\\\\\"" =
        .ok ⟨" a\t\"b\"\\", [], ["x, y", ""]⟩ ∧
      parse "name = \"\\u0009\"" = .error .missingName := by
  have hvisible : Layout.terse.text ⟨" a\t\"b\"\\", [], ["x, y", ""]⟩ =
      "attributes = [\"x, y\", \"\"]\nname = \" a\\u0009\\\"b\\\"\\\\\"" := by decide
  have hblank : Layout.terse.text ⟨"\t", [], []⟩ = "name = \"\\u0009\"" := by decide
  rw [← hvisible, ← hblank]
  exact ⟨(parse_recovers_written .terse _).1 ⟨'a', by decide, by decide⟩,
    (parse_recovers_written .terse _).2 (List.all_eq_true.mp (by decide))⟩

end ScriptBackend.Manifest
