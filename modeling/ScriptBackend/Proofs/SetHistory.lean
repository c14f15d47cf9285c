import Mathlib.Data.List.Induction
import ScriptBackend.Proofs.SetIndex

/-! # What a set tells of its history

A set is filled by calls, each with an assembly and a short name.  A call whose name is taken is
refused and changes nothing; any other is accepted.  The accepted calls in their order are all
that a set knows: they are the entries that it holds (`AssemblySet.holds_ofCalls`), so that each
question to the set is answered from that list.  No two of them have one folded name.  Several may
lead to one place, and then the last one counts.
-/
namespace ScriptBackend
namespace AssemblySet

/-- A set and the calls that it has accepted. -/
structure History where
  set : AssemblySet := {}
  /-- The accepted calls, in their order. -/
  accepted : List Entry := []

namespace History

/-- One more call.  It is refused if its short name is taken. -/
def call (h : History) (e : Entry) : History :=
  match h.set.add? e.path e.name e.manifest with
  | some set => ⟨set, h.accepted ++ [e]⟩
  | none => h

/-- The history of a new set after some calls. -/
def ofCalls (calls : List Entry) : History :=
  calls.foldl call {}

end History

variable {set : AssemblySet} {entries : List Entry} {path : Path} {name : String}
  {manifest : Manifest}

/-- A call is refused exactly if its short name is taken. -/
theorem add?_eq_none_iff :
    set.add? path name manifest = none ↔ set.isReferenced name = true := by
  by_cases h : set.isReferenced name = true <;> simp [add?, h]

/-- A call whose short name is free puts its assembly behind the others. -/
theorem add?_of_not_isReferenced (path : Path) (manifest : Manifest)
    (h : set.isReferenced name = false) : ∃ next, set.add? path name manifest = some next ∧
      next.assemblies = set.assemblies.push ⟨path, manifest⟩ := by
  simp [add?, h]

/-- A call that is accepted is one more entry, and one that is refused changes nothing. -/
theorem Holds.call {h : History} (hh : h.set.Holds h.accepted) (e : Entry) :
    (h.call e).set.Holds (h.call e).accepted := by
  unfold History.call
  cases hadd : h.set.add? e.path e.name e.manifest with
  | none => exact hh
  | some next => exact hh.add hadd

/-- **A set holds the calls that it has accepted.** -/
theorem holds_ofCalls (calls : List Entry) :
    (History.ofCalls calls).set.Holds (History.ofCalls calls).accepted := by
  have hrun : ∀ h : History, h.set.Holds h.accepted →
      (calls.foldl History.call h).set.Holds (calls.foldl History.call h).accepted := by
    induction calls with
    | nil => exact fun h hh => hh
    | cons e calls ih => exact fun h hh => ih (h.call e) (hh.call e)
  exact hrun {} holds_empty

/-- Calls whose folded names all differ are all accepted. -/
theorem accepted_ofCalls {calls : List Entry} (hnodup : (calls.map (foldName ·.name)).Nodup) :
    (History.ofCalls calls).accepted = calls := by
  induction calls using List.reverseRecOn with
  | nil => rfl
  | append_singleton calls e ih =>
    rw [List.map_append, List.map_singleton, List.nodup_append] at hnodup
    obtain ⟨hcalls, -, hnew⟩ := hnodup
    have hholds := holds_ofCalls calls
    rw [ih hcalls] at hholds
    have hfree : (History.ofCalls calls).set.isReferenced e.name = false := by
      refine Bool.eq_false_iff.mpr fun htaken => ?_
      exact hnew _ (hholds.isReferenced_iff.mp htaken) _ (List.mem_singleton_self _) rfl
    obtain ⟨next, hadd, -⟩ := add?_of_not_isReferenced e.path e.manifest hfree
    rw [History.ofCalls, List.foldl_append, ← History.ofCalls, List.foldl_cons, List.foldl_nil,
      History.call, hadd, ih hcalls]

namespace Holds

/-- No index leads beyond the assemblies. -/
theorem index_lt_size {κ : Type} [BEq κ] [Hashable κ] {map : Std.HashMap κ Nat} {key : Entry → κ}
    (h : Holds set entries) (hmap : IndexesLast map (entries.map key)) {k : κ} {i : Nat}
    (hi : map[k]? = some i) : i < set.size := by
  have hlt := hmap.lt_length hi
  rwa [List.length_map, ← h.size_eq] at hlt

/-- At most one entry has a folded name. -/
theorem filter_name_cases (h : Holds set entries) (name : String) :
    entries.filter (foldName ·.name = foldName name) = [] ∨
      ∃ e, entries.filter (foldName ·.name = foldName name) = [e] := by
  have hnodup : ((entries.filter (foldName ·.name = foldName name)).map (foldName ·.name)).Nodup :=
    h.names_nodup.sublist (List.filter_sublist.map _)
  have hname : ∀ e ∈ entries.filter (foldName ·.name = foldName name),
      foldName e.name = foldName name := by
    intro e he
    simpa using (List.mem_filter.mp he).2
  cases hfilter : entries.filter (foldName ·.name = foldName name) with
  | nil => exact Or.inl rfl
  | cons e rest =>
    rw [hfilter] at hnodup hname
    cases rest with
    | nil => exact Or.inr ⟨e, rfl⟩
    | cons e' rest =>
      -- a second entry would have the name of the first
      have hsame : foldName e.name = foldName e'.name :=
        (hname e List.mem_cons_self).trans
          (hname e' (List.mem_cons_of_mem e List.mem_cons_self)).symm
      rw [List.map_cons, List.map_cons, List.nodup_cons, hsame] at hnodup
      exact absurd List.mem_cons_self hnodup.1

end Holds

/-- **Every question to a set is answered by the calls that it has accepted**, whatever calls there
were.  A call is refused exactly if its short name is taken, and then changes nothing.  The set
has the assemblies of the accepted calls in their order.  A short name is taken if an accepted
call has it, up to case; it leads to the manifest of that one call, and a path to the manifest of
the last accepted call to its place.  No index leads beyond the assemblies. -/
theorem ofCalls_answers_from_accepted (calls : List Entry) :
    let h := History.ofCalls calls
    (∀ e : Entry, (h.set.add? e.path e.name e.manifest = none ↔ h.set.isReferenced e.name = true) ∧
        (h.set.isReferenced e.name = true → h.call e = h)) ∧
      h.set.size = h.accepted.length ∧
      h.set.assemblies.toList = h.accepted.map (·.toAssembly) ∧
      (∀ name, h.set.isReferenced name = true ↔
        ∃ e ∈ h.accepted, foldName e.name = foldName name) ∧
      (∀ name,
        (∃ e, h.accepted.filter (foldName ·.name = foldName name) = [e] ∧
          h.set.getByName? name = some e.manifest) ∨
        h.accepted.filter (foldName ·.name = foldName name) = [] ∧ h.set.getByName? name = none) ∧
      (∀ path, h.set.get? path =
        (h.accepted.filter (·.path.components = path.components)).getLast?.map (·.manifest)) ∧
      (∀ (key : List Path.Component) i, h.set.byPath[key]? = some i → i < h.set.size) ∧
      ∀ (key : String) i, h.set.byName[key]? = some i → i < h.set.size := by
  intro h
  have hh : h.set.Holds h.accepted := holds_ofCalls calls
  refine ⟨fun e => ⟨add?_eq_none_iff, fun htaken => ?_⟩, hh.size_eq, hh.assemblies, fun name => ?_,
    fun name => ?_, fun path => hh.lookup_eq_getLast? hh.byPath path.components,
    fun _ _ => hh.index_lt_size hh.byPath, fun _ _ => hh.index_lt_size hh.byName⟩
  · rw [History.call, add?_eq_none_iff.mpr htaken]
  · rw [hh.isReferenced_iff, List.mem_map]
  · have hlookup : h.set.getByName? name =
        (h.accepted.filter (foldName ·.name = foldName name)).getLast?.map (·.manifest) :=
      hh.lookup_eq_getLast? hh.byName (foldName name)
    rcases hh.filter_name_cases name with hnone | ⟨e, hone⟩
    · exact Or.inr ⟨hnone, by rw [hlookup, hnone]; rfl⟩
    · exact Or.inl ⟨e, hone, by rw [hlookup, hone]; rfl⟩

end AssemblySet
end ScriptBackend
