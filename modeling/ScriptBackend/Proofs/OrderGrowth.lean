import ScriptBackend.Proofs.DependencyCycle
import ScriptBackend.Proofs.PostOrder
import ScriptBackend.Proofs.SetHistory

/-! # How the order grows

An assembly to which no assembly of a set refers can be added without a change to the order so
far: it comes last.  As nothing leads to its node, the walk of the larger graph first does what
the walk of the smaller one did, with the new node among the fresh ones all the time
(`Walk.run_extend`).  When the walk is started at the new node all others are finished, so that
nothing is pushed and the node is finished at once (`Walk.run_last`).

A graph in which each node leads to earlier ones only is built up in this way from nothing, so
its nodes are listed as they are numbered (`Walk.finished_of_earlier`).

Nor is the new assembly on a cycle, unless it refers to itself, and the others are on the cycles
on which they were (`AssemblySet.hasCycle_push`).
-/
namespace ScriptBackend
namespace Walk

variable {size : Nat} {successors larger : Nat → List Nat} {w : Walk} {stack : List Nat}
  {node : Nat}

/-- The walk with one more node that is still fresh. -/
def extend (w : Walk) (new : Nat) : Walk :=
  { w with fresh := w.fresh ++ [new] }

theorem mem_fresh_extend (h : node < size) : node ∈ (w.extend size).fresh ↔ node ∈ w.fresh := by
  have hne : node ≠ size := Nat.ne_of_lt h
  simp [extend, hne]

/-- A node below the new one is discovered as it would be without it. -/
theorem discover_extend (hn : node ∈ w.fresh) :
    (w.extend size).discover node = (w.discover node).extend size := by
  have hfresh : ((w.extend size).discover node).fresh = ((w.discover node).extend size).fresh :=
    List.erase_append_left _ hn
  exact (Walk.mk.injEq ..).mpr ⟨hfresh, rfl⟩

/-- **Where nothing leads to the new node, the walk does not come across it.** -/
theorem run_extend (hsame : ∀ a < size, larger a = successors a) (closed : Closed size successors)
    (hstack : ∀ x ∈ stack, x < size) :
    (w.extend size).run larger stack = (w.run successors stack).extend size := by
  fun_induction Walk.run successors w stack with
  | case1 w => rw [run]
  | case2 w node below hn next ih =>
    have hnode : node < size := hstack node List.mem_cons_self
    have hpushed : (larger node).filter ((next.extend size).fresh.contains ·) =
        (successors node).filter (next.fresh.contains ·) := by
      rw [hsame node hnode]
      refine List.filter_congr fun s hs => ?_
      rw [Bool.eq_iff_iff, List.contains_iff_mem, List.contains_iff_mem,
        mem_fresh_extend (closed node hnode s hs)]
    rw [push_neighbours] at ih ⊢
    rw [run_of_fresh ((mem_fresh_extend hnode).mpr hn), discover_extend hn, hpushed]
    refine ih fun x hx => ?_
    rcases List.mem_append.mp hx with hx | hx
    · exact closed node hnode x (List.mem_filter.mp hx).1
    · exact hstack x hx
  | case3 w node below hn hfin ih =>
    have hnode : node < size := hstack node List.mem_cons_self
    rw [run_of_finished (mt (mem_fresh_extend hnode).mp hn) hfin]
    exact ih fun x hx => hstack x (List.mem_cons_of_mem node hx)
  | case4 w node below hn hfin ih =>
    have hnode : node < size := hstack node List.mem_cons_self
    rw [run_of_open (mt (mem_fresh_extend hnode).mp hn) hfin]
    exact ih fun x hx => hstack x (List.mem_cons_of_mem node hx)

theorem startAll_extend (hsame : ∀ a < size, larger a = successors a)
    (closed : Closed size successors) {roots : List Nat} (hroots : ∀ x ∈ roots, x < size) :
    (w.extend size).startAll larger roots = (w.startAll successors roots).extend size := by
  induction roots generalizing w with
  | nil => rfl
  | cons root roots ih =>
    have hroot : root < size := hroots root List.mem_cons_self
    have hlater : ∀ x ∈ roots, x < size := fun x hx => hroots x (List.mem_cons_of_mem root hx)
    rw [startAll, startAll, List.foldl_cons, List.foldl_cons, ← startAll, ← startAll,
      ← ih hlater]
    by_cases hfresh : root ∈ w.fresh
    · rw [if_pos hfresh, if_pos ((mem_fresh_extend hroot).mpr hfresh),
        run_extend hsame closed fun x hx => List.mem_singleton.mp hx ▸ hroot]
    · rw [if_neg hfresh, if_neg (mt (mem_fresh_extend hroot).mp hfresh)]

/-- The last node of a graph, started at when all others are finished. -/
theorem run_last (hfresh : w.fresh = [node]) (hfin : node ∉ w.finished) :
    w.run successors [node] = { fresh := [], finished := w.finished ++ [node] } := by
  have hnone : (w.discover node).fresh = [] := by
    show w.fresh.erase node = []
    rw [hfresh, List.erase_cons_head]
  have hpushed : (successors node).filter ((w.discover node).fresh.contains ·) = [] := by
    rw [hnone]
    exact List.filter_eq_nil_iff.mpr fun s _ => by simp
  have hopen : node ∉ (w.discover node).fresh := by
    rw [hnone]
    exact List.not_mem_nil
  have hfin' : node ∉ (w.discover node).finished := hfin
  rw [run_of_fresh (by rw [hfresh]; exact List.mem_singleton_self node), hpushed, List.nil_append,
    run_of_open hopen hfin', run]
  exact (Walk.mk.injEq ..).mpr ⟨hnone, rfl⟩

/-- **A new node to which no other node leads is listed last.** -/
theorem ofGraph_succ (hsame : ∀ a < size, larger a = successors a)
    (closed : Closed size successors) :
    ofGraph (size + 1) larger =
      { fresh := [], finished := (ofGraph size successors).finished ++ [size] } := by
  have hperm := finished_perm closed
  have hfresh : ((ofGraph size successors).extend size).fresh = [size] := by
    rw [extend, fresh_ofGraph closed, List.nil_append]
  have hfirst : startAll larger { fresh := List.range (size + 1) } (List.range size) =
      (ofGraph size successors).extend size := by
    rw [List.range_succ]
    exact startAll_extend (w := { fresh := List.range size }) hsame closed
      fun x hx => List.mem_range.mp hx
  have hlast : ofGraph (size + 1) larger =
      startAll larger ((ofGraph size successors).extend size) [size] := by
    rw [← hfirst, startAll, startAll, ← List.foldl_append, ← List.range_succ]
    rfl
  rw [hlast, startAll, List.foldl_cons, List.foldl_nil,
    if_pos (by rw [hfresh]; exact List.mem_singleton_self size)]
  refine run_last hfresh fun h => ?_
  exact Nat.lt_irrefl size (List.mem_range.mp (hperm.mem_iff.mp h))

/-- Where each node leads to earlier ones only, the nodes are listed as they are numbered. -/
theorem finished_of_earlier (h : ∀ a < size, ∀ b ∈ successors a, b < a) :
    (ofGraph size successors).finished = List.range size := by
  induction size with
  | zero => rfl
  | succ size ih =>
    have hbelow : ∀ a < size, ∀ b ∈ successors a, b < a :=
      fun a ha => h a (Nat.lt_succ_of_lt ha)
    have closed : Closed size successors :=
      fun a ha b hb => Nat.lt_trans (hbelow a ha b hb) ha
    rw [ofGraph_succ (fun _ _ => rfl) closed, ih hbelow, List.range_succ]

end Walk

namespace AssemblySet

variable {set next : AssemblySet} {new : Assembly} {u : Nat}

section Push

variable (hnext : next.assemblies = set.assemblies.push new)
include hnext

theorem size_push : next.size = set.size + 1 := by
  rw [size, size, hnext, Array.size_push]

theorem assemblies_push_of_lt (hu : u < set.size) :
    next.assemblies[u]? = set.assemblies[u]? := by
  have hne : u ≠ set.assemblies.size := Nat.ne_of_lt hu
  rw [hnext, Array.getElem?_push, if_neg hne]

theorem assemblies_push_size : next.assemblies[set.size]? = some new := by
  rw [hnext, size, Array.getElem?_push_size]

theorem fullNames_push : next.fullNames = set.fullNames ++ [new.manifest.fullName] := by
  rw [fullNames, fullNames, hnext, Array.toList_push, List.map_append, List.map_singleton]

/-- The new assembly depends on itself if it refers to its own name. -/
theorem dependsOn_push_size :
    next.DependsOn set.size set.size ↔ new.manifest.fullName ∈ new.manifest.references := by
  have hnew := assemblies_push_size hnext
  constructor
  · rintro ⟨a, b, ha, hb, hname, -⟩
    obtain rfl := Option.some.inj (hnew.symm.trans ha)
    obtain rfl := Option.some.inj (hnew.symm.trans hb)
    exact hname
  · intro hname
    refine ⟨new, new, hnew, hnew, hname, fun k c hk hc => ?_⟩
    -- no position comes after the new one
    have hlt : k < next.size := (Array.getElem?_eq_some_iff.mp hc).1
    rw [size_push hnext] at hlt
    omega

variable (hfree : ∀ a ∈ set.assemblies, new.manifest.fullName ∉ a.manifest.references)
include hfree

/-- Where no assembly refers to the new one, all keep their dependencies. -/
theorem dependencies_push_of_lt (hu : u < set.size) :
    next.dependencies u = set.dependencies u := by
  rw [dependencies, dependencies, assemblies_push_of_lt hnext hu]
  cases ha : set.assemblies[u]? with
  | none => rfl
  | some a =>
    refine List.filterMap_congr fun name hname => ?_
    have hne : new.manifest.fullName ≠ name := by
      rintro rfl
      exact hfree a (Array.mem_of_getElem? ha) hname
    rw [fullNames_push hnext, lastPosition?_concat, if_neg hne]

/-- Other assemblies depend on what they depended on before. -/
theorem dependsOn_push_of_lt (hu : u < set.size) {v : Nat} :
    next.DependsOn u v ↔ set.DependsOn u v := by
  rw [← mem_dependencies_iff, ← mem_dependencies_iff, dependencies_push_of_lt hnext hfree hu]

/-- What leads from an assembly to others does so without the new one. -/
theorem transGen_push (hu : u < set.size) {v : Nat} (h : Relation.TransGen next.DependsOn u v) :
    v < set.size ∧ Relation.TransGen set.DependsOn u v := by
  induction h with
  | single hedge =>
    have hold := (dependsOn_push_of_lt hnext hfree hu).mp hedge
    exact ⟨hold.lt_size.2, .single hold⟩
  | tail _ hedge ih =>
    have hold := (dependsOn_push_of_lt hnext hfree ih.1).mp hedge
    exact ⟨hold.lt_size.2, ih.2.tail hold⟩

/-- The new assembly is on a cycle only if it depends on itself. -/
theorem dependsOn_of_transGen_push (h : Relation.TransGen next.DependsOn set.size set.size) :
    next.DependsOn set.size set.size := by
  obtain ⟨u, -, hedge⟩ := Relation.TransGen.tail'_iff.mp h
  have hu : u < set.size + 1 := size_push hnext ▸ hedge.lt_size.1
  rcases Nat.lt_succ_iff_lt_or_eq.mp hu with hlt | rfl
  · have hold := (dependsOn_push_of_lt hnext hfree hlt).mp hedge
    exact absurd hold.lt_size.2 (Nat.lt_irrefl _)
  · exact hedge

/-- The order is marked as it was, or because the new assembly refers to itself. -/
theorem hasCycle_push :
    next.ordered.hasCycle = true ↔
      set.ordered.hasCycle = true ∨ new.manifest.fullName ∈ new.manifest.references := by
  rw [← dependsOn_push_size hnext]
  constructor
  · intro hmark
    obtain ⟨u, hu, hback⟩ := hasCycle_iff.mp hmark
    rw [size_push hnext] at hu
    rcases Nat.lt_succ_iff_lt_or_eq.mp hu with hlt | rfl
    · exact Or.inl (hasCycle_of_transGen (transGen_push hnext hfree hlt hback).2)
    · exact Or.inr (dependsOn_of_transGen_push hnext hfree hback)
  · rintro (hmark | hself)
    · exact hasCycle_mono
        (fun u v huv => (dependsOn_push_of_lt hnext hfree huv.lt_size.1).mpr huv) hmark
    · exact hasCycle_of_transGen (.single hself)

/-- **A new assembly to which no other refers comes last in the order.** -/
theorem ordered_paths_push : next.ordered.paths = set.ordered.paths ++ [new.path] := by
  have hpositions : next.positions = set.positions ++ [set.size] := by
    rw [positions, size_push hnext,
      Walk.ofGraph_succ (fun _ => dependencies_push_of_lt hnext hfree) set.closed_dependencies]
    rfl
  have hold : set.positions.map next.pathAt? = set.positions.map set.pathAt? := by
    refine List.map_congr_left fun u hu => ?_
    have hlt : u < set.size := List.mem_range.mp (set.positions_perm.mem_iff.mp hu)
    rw [pathAt?, pathAt?, assemblies_push_of_lt hnext hlt]
  have hnew : next.pathAt? set.size = some new.path := by
    rw [pathAt?, assemblies_push_size hnext, Option.map_some]
  refine ordered_paths_eq ?_
  rw [hpositions, List.map_append, hold, List.map_append, set.ordered_paths,
    List.map_singleton, List.map_singleton, hnew]

end Push

/-- Where each assembly depends on earlier ones only, the order is that of acceptance. -/
theorem ordered_paths_of_earlier (h : ∀ u v, set.DependsOn u v → v < u) :
    set.ordered.paths = set.assemblies.toList.map (·.path) := by
  have hpositions : set.positions = List.range set.size :=
    Walk.finished_of_earlier fun u _ v hv => h u v (mem_dependencies_iff.mp hv)
  exact ordered_paths_eq (by rw [hpositions, map_pathAt?_range])

/-- **An assembly to which no other refers leaves the order so far as it is.**  If its short name
is free, it is added, and comes last in the order; and the order is marked as before, or because
the new assembly refers to its own full name.  Thus, where each assembly depends only on such that
were accepted before it, the order is that of acceptance. -/
theorem ordered_add_appends (set : AssemblySet) (path : Path) (name : String)
    (manifest : Manifest) :
    (set.isReferenced name = false →
      (∀ a ∈ set.assemblies, manifest.fullName ∉ a.manifest.references) →
      ∃ next, set.add? path name manifest = some next ∧
        next.ordered.paths = set.ordered.paths ++ [path] ∧
        next.ordered.hasCycle =
          (set.ordered.hasCycle || decide (manifest.fullName ∈ manifest.references))) ∧
      ((∀ u v, set.DependsOn u v → v < u) →
        set.ordered.paths = set.assemblies.toList.map (·.path)) := by
  refine ⟨fun hname hfree => ?_, ordered_paths_of_earlier⟩
  obtain ⟨next, hadd, hnext⟩ := add?_of_not_isReferenced path manifest hname
  refine ⟨next, hadd, ordered_paths_push hnext hfree, ?_⟩
  rw [Bool.eq_iff_iff, hasCycle_push hnext hfree, Bool.or_eq_true, decide_eq_true_iff]

namespace Toolbox

/-- The call that adds an assembly under the name of its file. -/
def entry (name fullName : String) (references : List String) : Entry :=
  ⟨⟨⟨name ++ ".toml"⟩, { fullName, references }⟩, name⟩

/-- A library, a tool that needs it, and a program that needs both. -/
def calls : List Entry :=
  [entry "Base" "Base" [], entry "Tool" "Tool" ["Base", "Base"],
    entry "App" "App" ["Missing", "Tool", "Base"]]

/-- Another program with the same full name, to which it refers. -/
def program : Entry :=
  entry "App2" "App" ["Base", "App"]

theorem holds_calls : (History.ofCalls calls).set.Holds calls := by
  have hholds := holds_ofCalls calls
  rwa [accepted_ofCalls (by decide +kernel)] at hholds

/-- The assemblies without the indices. -/
def assemblies : AssemblySet where
  assemblies := (calls.map (·.toAssembly)).toArray

theorem assemblies_ofCalls : (History.ofCalls calls).set.assemblies = assemblies.assemblies := by
  rw [assemblies, ← holds_calls.assemblies, Array.toArray_toList]

theorem dependencies_earlier {u v : Nat} (h : (History.ofCalls calls).set.DependsOn u v) :
    v < u := by
  have hall : ∀ u < assemblies.size, ∀ v ∈ assemblies.dependencies u, v < u := by decide +kernel
  have hsize : (History.ofCalls calls).set.size = assemblies.size := by
    rw [size, size, assemblies_ofCalls]
  have hv := mem_dependencies_iff.mpr h
  rw [dependencies_congr assemblies_ofCalls] at hv
  exact hall u (hsize ▸ h.lt_size.1) v hv

end Toolbox

/-- Tools are in order already, and a program that refers to itself comes last. -/
theorem ordered_add_appends_program :
    let set := (History.ofCalls Toolbox.calls).set
    let new := Toolbox.program
    set.isReferenced new.name = false ∧
      (∀ a ∈ set.assemblies, new.manifest.fullName ∉ a.manifest.references) ∧
      (∀ u v, set.DependsOn u v → v < u) ∧
      set.ordered.paths = [⟨"Base.toml"⟩, ⟨"Tool.toml"⟩, ⟨"App.toml"⟩] ∧
      set.ordered.hasCycle = false ∧
      ∃ next, set.add? new.path new.name new.manifest = some next ∧
        next.ordered.paths = [⟨"Base.toml"⟩, ⟨"Tool.toml"⟩, ⟨"App.toml"⟩, ⟨"App2.toml"⟩] ∧
        next.ordered.hasCycle = true := by
  intro set new
  have hname : set.isReferenced new.name = false := by
    rw [Bool.eq_false_iff, ne_eq, Toolbox.holds_calls.isReferenced_iff]
    decide +kernel
  have hfree : ∀ a ∈ set.assemblies, new.manifest.fullName ∉ a.manifest.references := by
    rw [Toolbox.assemblies_ofCalls]
    decide +kernel
  have hearlier : ∀ u v, set.DependsOn u v → v < u := fun _ _ => Toolbox.dependencies_earlier
  have hmark : set.ordered.hasCycle = false := by
    rw [ordered_congr Toolbox.assemblies_ofCalls]
    cbv
  obtain ⟨hadd, hpaths⟩ := ordered_add_appends set new.path new.name new.manifest
  obtain ⟨next, hnext, hlast, hcycle⟩ := hadd hname hfree
  have htools : set.ordered.paths = [⟨"Base.toml"⟩, ⟨"Tool.toml"⟩, ⟨"App.toml"⟩] := by
    rw [hpaths hearlier, Toolbox.assemblies_ofCalls]
    decide +kernel
  rw [htools] at hlast
  rw [hmark] at hcycle
  exact ⟨hname, hfree, hearlier, htools, hmark, next, hnext, hlast, hcycle.trans (by decide)⟩

end AssemblySet
end ScriptBackend
