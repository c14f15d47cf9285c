import ScriptBackend.Proofs.WalkOrder
import ScriptBackend.Reference.Set

/-! # Dependencies come first

An assembly of a set depends on another one if it refers to its full name, and no assembly
that was accepted later has the same full name (`AssemblySet.DependsOn`).  The order of the
set lists each assembly once, and after everything it depends on, except where two
assemblies depend on each other, directly or through others.
-/
namespace ScriptBackend

/-- Where a function gives something for each member of a list, no member is left out. -/
theorem map_some_filterMap {α β : Type} {f : α → Option β} {l : List α}
    (h : ∀ a ∈ l, (f a).isSome = true) : (l.filterMap f).map some = l.map f := by
  induction l with
  | nil => rfl
  | cons a l ih =>
    obtain ⟨b, hb⟩ := Option.isSome_iff_exists.mp (h a List.mem_cons_self)
    rw [List.filterMap_cons_some hb, List.map_cons, List.map_cons, hb,
      ih fun a' ha' => h a' (List.mem_cons_of_mem a ha')]

namespace AssemblySet

variable {set : AssemblySet}

/-- The assembly at position `u` depends on the one at position `v`: it refers to the full
name of that one, and `v` is the last position with this name. -/
def DependsOn (set : AssemblySet) (u v : Nat) : Prop :=
  ∃ a b, set.assemblies[u]? = some a ∧ set.assemblies[v]? = some b ∧
    b.manifest.fullName ∈ a.manifest.references ∧
    ∀ k c, v < k → set.assemblies[k]? = some c → c.manifest.fullName ≠ b.manifest.fullName

/-- The path of the assembly at a position. -/
def pathAt? (set : AssemblySet) (index : Nat) : Option Path :=
  set.assemblies[index]?.map (·.path)

/-! ### Where a name leads -/

theorem lastPosition?_eq_none_iff {name : String} {names : List String} :
    lastPosition? name names = none ↔ name ∉ names := by
  induction names with
  | nil => simp [lastPosition?]
  | cons first rest ih =>
    rw [lastPosition?, List.mem_cons, not_or, ← ih]
    cases lastPosition? name rest with
    | some i => simp
    | none => simp [eq_comm]

theorem lastPosition?_eq_some_iff {name : String} {names : List String} {i : Nat} :
    lastPosition? name names = some i ↔
      names[i]? = some name ∧ ∀ k, i < k → names[k]? ≠ some name := by
  induction names generalizing i with
  | nil => simp [lastPosition?]
  | cons first rest ih =>
    rw [lastPosition?]
    cases hrest : lastPosition? name rest with
    | some j =>
      obtain ⟨hj, hlast⟩ := ih.mp hrest
      constructor
      · intro h
        obtain rfl := Option.some.inj h
        refine ⟨hj, fun k hk => ?_⟩
        obtain ⟨k, rfl⟩ := Nat.exists_eq_add_one_of_ne_zero (Nat.ne_zero_of_lt hk)
        exact hlast k (Nat.lt_of_succ_lt_succ hk)
      · rintro ⟨hi, hafter⟩
        -- a later position of the name excludes the first place, so `i` is one of the rest
        cases i with
        | zero => exact absurd hj (hafter (j + 1) (Nat.succ_pos j))
        | succ i =>
          have hi' := ih.mpr ⟨hi, fun k hk => hafter (k + 1) (Nat.succ_lt_succ hk)⟩
          rw [hrest] at hi'
          rw [Option.some.inj hi']
    | none =>
      have hnot : name ∉ rest := lastPosition?_eq_none_iff.mp hrest
      constructor
      · intro h
        by_cases hfirst : first = name
        · simp only [hfirst, if_true] at h
          obtain rfl := Option.some.inj h
          refine ⟨by simp [hfirst], fun k hk => ?_⟩
          obtain ⟨k, rfl⟩ := Nat.exists_eq_add_one_of_ne_zero (Nat.ne_zero_of_lt hk)
          exact fun h => hnot (List.mem_of_getElem? h)
        · simp only [hfirst, if_false] at h
          exact absurd h (by simp)
      · rintro ⟨hi, -⟩
        cases i with
        | zero =>
          have hfirst : first = name := by simpa using hi
          simp [hfirst]
        | succ i =>
          rw [List.getElem?_cons_succ] at hi
          exact absurd (List.mem_of_getElem? hi) hnot

/-- A name behind the others is the last of its kind. -/
theorem lastPosition?_concat (name last : String) (names : List String) :
    lastPosition? name (names ++ [last]) =
      if last = name then some names.length else lastPosition? name names := by
  induction names with
  | nil => rfl
  | cons first rest ih =>
    rw [List.cons_append, lastPosition?, lastPosition?, ih]
    by_cases hlast : last = name
    · rw [if_pos hlast, if_pos hlast, List.length_cons]
    · rw [if_neg hlast, if_neg hlast]

theorem fullNames_getElem? (set : AssemblySet) (i : Nat) :
    set.fullNames[i]? = set.assemblies[i]?.map (·.manifest.fullName) := by
  rw [fullNames, List.getElem?_map, Array.getElem?_toList]

/-- The dependencies that are computed are those that the assembly has. -/
theorem mem_dependencies_iff {u v : Nat} : v ∈ set.dependencies u ↔ set.DependsOn u v := by
  rw [dependencies]
  cases hu : set.assemblies[u]? with
  | none => simp [DependsOn, hu]
  | some a =>
    simp only [List.mem_filterMap, lastPosition?_eq_some_iff, fullNames_getElem?, DependsOn, hu]
    constructor
    · rintro ⟨name, hname, hv, hlast⟩
      obtain ⟨b, hb, rfl⟩ := Option.map_eq_some_iff.mp hv
      refine ⟨a, b, rfl, hb, hname, fun k c hk hc heq => hlast k hk ?_⟩
      rw [hc, Option.map_some, heq]
    · rintro ⟨a', b, ha, hb, hname, hlast⟩
      obtain rfl := Option.some.inj ha
      refine ⟨b.manifest.fullName, hname, by rw [hb, Option.map_some], fun k hk heq => ?_⟩
      obtain ⟨c, hc, hcb⟩ := Option.map_eq_some_iff.mp heq
      exact hlast k c hk hc hcb

theorem DependsOn.lt_size {u v : Nat} (h : set.DependsOn u v) : u < set.size ∧ v < set.size := by
  obtain ⟨a, b, hu, hv, -⟩ := h
  exact ⟨(Array.getElem?_eq_some_iff.mp hu).1, (Array.getElem?_eq_some_iff.mp hv).1⟩

theorem edge_dependencies (set : AssemblySet) : Walk.Edge set.dependencies = set.DependsOn := by
  funext u v
  exact propext mem_dependencies_iff

theorem closed_dependencies (set : AssemblySet) : Walk.Closed set.size set.dependencies :=
  fun _ _ _ hb => (mem_dependencies_iff.mp hb).lt_size.2

/-! ### The order of a set -/

theorem dependencies_congr {other : AssemblySet} (h : set.assemblies = other.assemblies) :
    set.dependencies = other.dependencies := by
  funext index
  simp only [dependencies, fullNames, h]

/-- The order of a set depends on its assemblies only. -/
theorem ordered_congr {other : AssemblySet} (h : set.assemblies = other.assemblies) :
    set.ordered = other.ordered := by
  simp only [ordered, size, dependencies_congr h, h]

/-- The positions of the assemblies in the order of the set. -/
def positions (set : AssemblySet) : List Nat :=
  (Walk.ofGraph set.size set.dependencies).finished

theorem positions_perm (set : AssemblySet) : set.positions.Perm (List.range set.size) :=
  Walk.finished_perm set.closed_dependencies

theorem ordered_paths (set : AssemblySet) :
    set.ordered.paths.map some = set.positions.map set.pathAt? := by
  refine map_some_filterMap fun i hi => ?_
  have hlt : i < set.assemblies.size := List.mem_range.mp (set.positions_perm.mem_iff.mp hi)
  simp [hlt]

/-- The order is known from the paths at its positions. -/
theorem ordered_paths_eq {paths : List Path}
    (h : set.positions.map set.pathAt? = paths.map some) : set.ordered.paths = paths :=
  List.map_injective_iff.mpr (fun _ _ => Option.some.inj) (set.ordered_paths.trans h)

/-- The paths at all positions, one after another. -/
theorem map_pathAt?_range (set : AssemblySet) :
    (List.range set.size).map set.pathAt? = (set.assemblies.toList.map (·.path)).map some := by
  refine List.ext_getElem? fun i => ?_
  rcases Nat.lt_or_ge i set.assemblies.size with hlt | hge
  · simp [pathAt?, size, hlt]
  · simp [size, hge]

/-- The order has the paths of all assemblies. -/
theorem ordered_paths_perm (set : AssemblySet) :
    set.ordered.paths.Perm (set.assemblies.toList.map (·.path)) := by
  have hperm := set.positions_perm.map set.pathAt?
  rw [← set.ordered_paths, map_pathAt?_range] at hperm
  simpa using hperm.filterMap id

theorem positions_idxOf_lt {u v : Nat} (h : set.DependsOn u v)
    (hback : ¬ Relation.ReflTransGen set.DependsOn v u) :
    set.positions.idxOf v < set.positions.idxOf u := by
  refine Walk.idxOf_finished_lt set.closed_dependencies h.lt_size.1 (mem_dependencies_iff.mpr h) ?_
  rwa [Walk.Reaches, edge_dependencies]

/-- **The order of a set lists each assembly exactly once, and after everything that it
depends on without being needed by it in turn.**  This holds of every set, whatever cycles,
repeated names and unknown names the references have.  As several assemblies may have one
path, the places in the order are those of positions. -/
theorem ordered_lists_dependencies_first (set : AssemblySet) :
    ∃ order : List Nat, order.Perm (List.range set.size) ∧
      set.ordered.paths.map some = order.map set.pathAt? ∧
      ∀ u v, set.DependsOn u v → ¬ Relation.ReflTransGen set.DependsOn v u →
        order.idxOf v < order.idxOf u :=
  ⟨set.positions, set.positions_perm, set.ordered_paths, fun _ _ => positions_idxOf_lt⟩

end AssemblySet
end ScriptBackend
