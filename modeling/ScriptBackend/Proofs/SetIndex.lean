import Mathlib.Data.List.Nodup
import Std.Data.HashMap.Lemmas
import Std.Data.HashSet.Lemmas
import ScriptBackend.Reference.Set

/-! # The indices of a set

A set has its assemblies in one list and finds them by two indices.  What it holds is told by
its entries (`AssemblySet.Holds`), the assemblies with the short names under which they were
added: the folded names all differ and are the ones that are taken, and each index leads from a
key to the last position that has it (`IndexesLast`).  Adding an assembly adds an entry, and each
lookup is answered from the entries alone.
-/
namespace ScriptBackend

/-- What is in a list has a last position there. -/
theorem exists_last_position {α : Type} {a : α} {l : List α} (h : a ∈ l) :
    ∃ i : Nat, l[i]? = some a ∧ ∀ k, i < k → l[k]? ≠ some a := by
  induction l with
  | nil => exact absurd h List.not_mem_nil
  | cons first rest ih =>
    by_cases hrest : a ∈ rest
    · obtain ⟨i, hi, hlast⟩ := ih hrest
      refine ⟨i + 1, hi, fun k hk => ?_⟩
      obtain ⟨k, rfl⟩ := Nat.exists_eq_add_one_of_ne_zero (Nat.ne_zero_of_lt hk)
      exact hlast k (Nat.lt_of_succ_lt_succ hk)
    · obtain rfl := (List.mem_cons.mp h).resolve_right hrest
      refine ⟨0, rfl, fun k hk hget => hrest ?_⟩
      obtain ⟨k, rfl⟩ := Nat.exists_eq_add_one_of_ne_zero (Nat.ne_zero_of_lt hk)
      exact List.mem_of_getElem? hget

section IndexesLast

variable {κ : Type} [BEq κ] [Hashable κ]
variable {map : Std.HashMap κ Nat} {keys : List κ} {key : κ} {i : Nat}

/-- The map leads from each key to the last position of the list that has it, and from no
other key anywhere. -/
def IndexesLast (map : Std.HashMap κ Nat) (keys : List κ) : Prop :=
  ∀ (key : κ) (i : Nat),
    map[key]? = some i ↔ keys[i]? = some key ∧ ∀ k, i < k → keys[k]? ≠ some key

theorem IndexesLast.empty : IndexesLast (∅ : Std.HashMap κ Nat) [] :=
  fun key i => by simp

/-- An index leads to positions of its list only. -/
theorem IndexesLast.lt_length (h : IndexesLast map keys) (hi : map[key]? = some i) :
    i < keys.length :=
  (List.getElem?_eq_some_iff.mp ((h key i).mp hi).1).1

theorem IndexesLast.not_mem_of_eq_none (h : IndexesLast map keys) (hnone : map[key]? = none) :
    key ∉ keys := by
  intro hmem
  obtain ⟨i, hi⟩ := exists_last_position hmem
  have hsome : map[key]? = some i := (h key i).mpr hi
  rw [hnone] at hsome
  cases hsome

/-- Where all keys differ, each leads to the only position that has it. -/
theorem IndexesLast.getElem?_eq_some_iff (h : IndexesLast map keys) (hnodup : keys.Nodup) :
    map[key]? = some i ↔ keys[i]? = some key := by
  rw [h key i]
  refine ⟨And.left, fun hi => ⟨hi, fun k hk hkey => ?_⟩⟩
  have hlt : i < keys.length := (List.getElem?_eq_some_iff.mp hi).1
  exact Nat.ne_of_lt hk ((List.getElem?_inj hlt hnodup).mp (hi.trans hkey.symm))

/-- One more key leads to the new position, and the others to where they led before. -/
theorem IndexesLast.insert [LawfulBEq κ] (h : IndexesLast map keys) (new : κ) :
    IndexesLast (map.insert new keys.length) (keys ++ [new]) := by
  intro key i
  rw [Std.HashMap.getElem?_insert]
  by_cases hnew : new = key
  · subst hnew
    simp only [beq_self_eq_true, if_true, Option.some.injEq]
    constructor
    · rintro rfl
      refine ⟨List.getElem?_concat_length, fun k hk => ?_⟩
      rw [List.getElem?_eq_none (by rw [List.length_append]; exact hk)]
      exact nofun
    · rintro ⟨hi, hlast⟩
      have hle : i < (keys ++ [new]).length := (List.getElem?_eq_some_iff.mp hi).1
      rw [List.length_append, List.length_singleton] at hle
      -- the new position has the key, so no earlier one is the last with it
      rcases Nat.lt_or_ge i keys.length with hlt | hge
      · exact absurd List.getElem?_concat_length (hlast keys.length hlt)
      · omega
  · simp only [beq_eq_false_iff_ne.mpr hnew, Bool.false_eq_true, if_false]
    rw [h key i]
    have hsame (k : Nat) : (keys ++ [new])[k]? = some key ↔ keys[k]? = some key := by
      rcases Nat.lt_trichotomy k keys.length with hlt | rfl | hgt
      · rw [List.getElem?_append_left hlt]
      · simp [hnew]
      · rw [List.getElem?_eq_none (by rw [List.length_append]; exact hgt),
          List.getElem?_eq_none (Nat.le_of_lt hgt)]
    simp only [hsame, ne_eq]

end IndexesLast

namespace AssemblySet

/-- An assembly with the short name under which a set was given it. -/
structure Entry extends Assembly where
  name : String
  deriving DecidableEq, Repr

/-- The set holds the entries, in the order in which they were added. -/
structure Holds (set : AssemblySet) (entries : List Entry) : Prop where
  assemblies : set.assemblies.toList = entries.map (·.toAssembly)
  names_nodup : (entries.map (foldName ·.name)).Nodup
  byName : IndexesLast set.byName (entries.map (foldName ·.name))
  byPath : IndexesLast set.byPath (entries.map (·.path.components))
  taken : ∀ folded, folded ∈ set.names ↔ folded ∈ entries.map (foldName ·.name)

variable {set next : AssemblySet} {entries : List Entry} {path : Path} {name : String}
  {manifest : Manifest}

theorem holds_empty : Holds {} [] where
  assemblies := rfl
  names_nodup := List.nodup_nil
  byName := .empty
  byPath := .empty
  taken folded := by simp

namespace Holds

theorem size_eq (h : Holds set entries) : set.assemblies.size = entries.length := by
  rw [← Array.length_toList, h.assemblies, List.length_map]

theorem assemblies_getElem? (h : Holds set entries) (i : Nat) :
    set.assemblies[i]? = entries[i]?.map (·.toAssembly) := by
  rw [← Array.getElem?_toList, h.assemblies, List.getElem?_map]

theorem isReferenced_iff (h : Holds set entries) :
    set.isReferenced name = true ↔ foldName name ∈ entries.map (foldName ·.name) := by
  rw [isReferenced, Std.HashSet.contains_iff_mem, h.taken]

/-- **An assembly that is added is one more entry.** -/
theorem add (h : Holds set entries) (hadd : set.add? path name manifest = some next) :
    Holds next (entries ++ [⟨⟨path, manifest⟩, name⟩]) := by
  unfold add? at hadd
  split at hadd
  case isTrue => cases hadd
  case isFalse hfree =>
    cases hadd
    rw [h.isReferenced_iff] at hfree
    constructor
    case assemblies => simp [h.assemblies]
    case names_nodup =>
      rw [List.map_append, List.map_singleton]
      exact h.names_nodup.append (List.nodup_singleton _) (by simpa using hfree)
    case byName =>
      rw [List.map_append, List.map_singleton, h.size_eq, ← List.length_map (foldName ·.name)]
      exact h.byName.insert _
    case byPath =>
      rw [List.map_append, List.map_singleton, h.size_eq, ← List.length_map (·.path.components)]
      exact h.byPath.insert _
    case taken =>
      intro folded
      rw [List.map_append, List.map_singleton, Std.HashSet.mem_insert, List.mem_append, h.taken,
        List.mem_singleton, beq_iff_eq, eq_comm, or_comm]

/-- An index leads from a key to the last entry with it. -/
theorem lookup_eq_getLast? {κ : Type} [BEq κ] [Hashable κ] [DecidableEq κ]
    {map : Std.HashMap κ Nat} {key : Entry → κ} (h : Holds set entries)
    (hmap : IndexesLast map (entries.map key)) (k : κ) :
    (do let i ← map[k]?; let a ← set.assemblies[i]?; return a.manifest) =
      (entries.filter (key · = k)).getLast?.map (·.manifest) := by
  cases hk : map[k]? with
  | none =>
    have hnone : entries.filter (key · = k) = [] := by
      refine List.filter_eq_nil_iff.mpr fun e he hkey => hmap.not_mem_of_eq_none hk ?_
      exact List.mem_map.mpr ⟨e, he, of_decide_eq_true hkey⟩
    rw [hnone]
    rfl
  | some i =>
    obtain ⟨hi, hlast⟩ := (hmap k i).mp hk
    rw [List.getElem?_map, Option.map_eq_some_iff] at hi
    obtain ⟨e, he, hkey⟩ := hi
    obtain ⟨hlt, hget⟩ := List.getElem?_eq_some_iff.mp he
    have hsplit : entries = entries.take i ++ e :: entries.drop (i + 1) := by
      rw [← hget, List.getElem_cons_drop, List.take_append_drop]
    have hafter : (entries.drop (i + 1)).filter (key · = k) = [] := by
      refine List.filter_eq_nil_iff.mpr fun e' he' hkey' => ?_
      obtain ⟨j, hj⟩ := List.mem_iff_getElem?.mp he'
      rw [List.getElem?_drop] at hj
      refine hlast (i + 1 + j) (by omega) ?_
      rw [List.getElem?_map, hj, Option.map_some, of_decide_eq_true hkey']
    have hfilter : entries.filter (key · = k) = (entries.take i).filter (key · = k) ++ [e] := by
      conv_lhs => rw [hsplit]
      rw [List.filter_append, List.filter_cons_of_pos (by simpa using hkey), hafter]
    rw [hfilter, List.getLast?_concat]
    simp [h.assemblies_getElem?, he]

/-- An index over keys that all differ leads from a key to the entry with it. -/
theorem lookup_eq_some_iff {κ : Type} [BEq κ] [Hashable κ] {map : Std.HashMap κ Nat}
    {key : Entry → κ} (h : Holds set entries) (hmap : IndexesLast map (entries.map key))
    (hnodup : (entries.map key).Nodup) (k : κ) :
    (do let i ← map[k]?; let a ← set.assemblies[i]?; return a.manifest) = some manifest ↔
      ∃ e ∈ entries, key e = k ∧ e.manifest = manifest := by
  simp only [Option.bind_eq_bind, Option.bind_eq_some_iff, h.assemblies_getElem?,
    hmap.getElem?_eq_some_iff hnodup, List.getElem?_map, Option.map_eq_some_iff,
    List.mem_iff_getElem?]
  constructor
  · rintro ⟨i, ⟨e, he, hkey⟩, a, ⟨e', he', rfl⟩, ha⟩
    obtain rfl := Option.some.inj (he.symm.trans he')
    exact ⟨e, ⟨i, he⟩, hkey, Option.some.inj ha⟩
  · rintro ⟨e, ⟨i, he⟩, hkey, rfl⟩
    exact ⟨i, ⟨e, he, hkey⟩, e.toAssembly, ⟨e, he, rfl⟩, rfl⟩

/-- A short name leads to the entry with that name, if there is one. -/
theorem getByName?_eq_some_iff (h : Holds set entries) :
    set.getByName? name = some manifest ↔
      ∃ e ∈ entries, foldName e.name = foldName name ∧ e.manifest = manifest :=
  h.lookup_eq_some_iff h.byName h.names_nodup (foldName name)

/-- Where no two entries are at one place, a path leads to the entry there, if there is one. -/
theorem get?_eq_some_iff (h : Holds set entries)
    (hnodup : (entries.map (·.path.components)).Nodup) :
    set.get? path = some manifest ↔
      ∃ e ∈ entries, e.path.components = path.components ∧ e.manifest = manifest :=
  h.lookup_eq_some_iff h.byPath hnodup path.components

end Holds
end AssemblySet
end ScriptBackend
