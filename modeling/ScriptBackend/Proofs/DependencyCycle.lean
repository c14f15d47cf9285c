import ScriptBackend.Proofs.CycleSearch
import ScriptBackend.Proofs.DependencyOrder

/-! # What the mark of a cycle means

The order of a set is marked if some assembly depends on itself, directly or through others.
The mark says just as well whether the order is a complete one: without it every assembly
comes after everything that it depends on, and with it no order can do that.

The mark and the order come from two traversals that know nothing of each other.  They agree
because both are about cycles: the search finds an edge that leads back exactly if there is one
(`Walk.findsCycle_iff`), and the walk lists a node before one of its successors only if the
successor leads back to the node (`Walk.idxOf_finished_lt`).
-/
namespace ScriptBackend
namespace AssemblySet

variable {set : AssemblySet}

/-- **An order is marked exactly if some assembly depends on itself**, directly or through
others. -/
theorem hasCycle_iff :
    set.ordered.hasCycle = true ↔ ∃ u < set.size, Relation.TransGen set.DependsOn u u := by
  rw [← edge_dependencies]
  exact Walk.findsCycle_iff set.closed_dependencies

/-- An assembly that depends on itself is marked. -/
theorem hasCycle_of_transGen {u : Nat} (h : Relation.TransGen set.DependsOn u u) :
    set.ordered.hasCycle = true := by
  obtain ⟨v, hedge, -⟩ := Relation.TransGen.head'_iff.mp h
  exact hasCycle_iff.mpr ⟨u, hedge.lt_size.1, h⟩

/-- In an order that is not marked, each assembly comes after what it depends on. -/
theorem positions_idxOf_lt_of_not_hasCycle (h : set.ordered.hasCycle = false) {u v : Nat}
    (huv : set.DependsOn u v) : set.positions.idxOf v < set.positions.idxOf u := by
  refine positions_idxOf_lt huv fun hback => ?_
  have hmark : set.ordered.hasCycle = true :=
    hasCycle_of_transGen (Relation.TransGen.head' huv hback)
  exact Bool.false_ne_true (h.symm.trans hmark)

/-- Where some order lists each assembly after what it depends on, there is no mark. -/
theorem not_hasCycle_of_idxOf_lt {order : List Nat}
    (h : ∀ u v, set.DependsOn u v → order.idxOf v < order.idxOf u) :
    set.ordered.hasCycle = false := by
  refine Bool.eq_false_iff.mpr fun hmark => ?_
  obtain ⟨u, hu, hback⟩ := hasCycle_iff.mp hmark
  rw [← edge_dependencies] at hback
  exact Walk.not_transGen_self set.closed_dependencies
    (fun u _ v hv => h u v (mem_dependencies_iff.mp hv)) hu hback

/-- More dependencies do not take a mark away. -/
theorem hasCycle_mono {other : AssemblySet} (h : ∀ u v, set.DependsOn u v → other.DependsOn u v)
    (hmark : set.ordered.hasCycle = true) : other.ordered.hasCycle = true := by
  obtain ⟨u, -, hu⟩ := hasCycle_iff.mp hmark
  exact hasCycle_of_transGen (Relation.TransGen.mono h u u hu)

/-- **The order is marked exactly if some assembly depends on itself, directly or through
others, and it is not marked exactly if every assembly comes after all that it depends on.**
As several assemblies may have one path, the places in the order are those of positions. -/
theorem ordered_hasCycle_iff (set : AssemblySet) :
    (set.ordered.hasCycle = true ↔ ∃ u < set.size, Relation.TransGen set.DependsOn u u) ∧
      ∃ order : List Nat, order.Perm (List.range set.size) ∧
        set.ordered.paths.map some = order.map set.pathAt? ∧
        (set.ordered.hasCycle = false ↔
          ∀ u v, set.DependsOn u v → order.idxOf v < order.idxOf u) :=
  ⟨hasCycle_iff, set.positions, set.positions_perm, set.ordered_paths,
    fun h _ _ => positions_idxOf_lt_of_not_hasCycle h, not_hasCycle_of_idxOf_lt⟩

end AssemblySet
end ScriptBackend
