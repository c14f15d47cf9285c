import Mathlib.Data.Finset.Sort
import ScriptBackend.Proofs.SelectedTypes

/-! # The one sorted list

Types are sorted by rank, that is by the ordinal of the kind and then by the depth.  Which list
sorting gives is said in three ways (`TypeSymbol.sort_arranges_stably`).

* It is the only list that has the types in order and leaves those that tie as they were.  A type
  can occur more than once, so occurrences are told apart by their places in the unsorted list
  (`ArrangesStably`).
* It consists of the groups of types that tie: the classes by depth, and then the other kinds
  one after the other (`grouped`).
* A class stands in front of all classes of greater depth.

By `stablySorts_iff` there is only one list in order that has each group of ties as it was, so for
the first two it is enough to look at order and ties.
-/
namespace ScriptBackend.TypeSymbol

/-- Exchanging two types turns their order around. -/
theorem order_swap (x y : TypeSymbol) : y.order x = (x.order y).swap := by
  rw [order_eq_compare, order_eq_compare, Ordering.swap_then, Nat.compare_swap, Nat.compare_swap]

theorem order_eq_gt_iff {x y : TypeSymbol} : x.order y = .gt ↔ y.order x = .lt := by
  rw [order_swap x y, Ordering.swap_eq_lt]

/-! ### Occurrences with their places -/

/-- The types in the order in which they are written.  Each occurrence has the place with it that
it comes from, and of two that the order does not tell apart, the one from the earlier place
is the first. -/
structure ArrangesStably (types sorted : List TypeSymbol) (placed : List (TypeSymbol × Nat)) :
    Prop where
  perm : placed.Perm types.zipIdx
  types_eq : placed.map Prod.fst = sorted
  ordered : sorted.Pairwise fun x y => y.order x ≠ .lt
  stable : placed.Pairwise fun p q => p.1.order q.1 = .eq → p.2 < q.2

theorem pairwise_place_zipIdx (types : List TypeSymbol) :
    types.zipIdx.Pairwise fun p q => p.2 < q.2 := by
  have hplaces : (types.zipIdx.map Prod.snd).Pairwise (· < ·) := by
    rw [List.zipIdx_map_snd]
    exact List.pairwise_lt_range' 1
  exact List.pairwise_map.mp hplaces

namespace ArrangesStably

variable {types sorted : List TypeSymbol} {placed : List (TypeSymbol × Nat)}

/-- Types that tie are in the order of their places, in the sorted list as in the unsorted one. -/
theorem filter_ties (h : ArrangesStably types sorted placed) (x : TypeSymbol) :
    placed.filter (x.Ties ·.1) = types.zipIdx.filter (x.Ties ·.1) := by
  have hplaced : (placed.filter (x.Ties ·.1)).Pairwise fun p q => p.2 < q.2 := by
    rw [List.pairwise_filter]
    refine h.stable.imp fun {p q} hpq hp hq => hpq ?_
    -- both tie with `x`, and so with each other
    have hxp : x.Ties p.1 := of_decide_eq_true hp
    have hxq : x.Ties q.1 := of_decide_eq_true hq
    rw [ties_iff] at hxp hxq
    exact ties_iff.mpr ⟨hxp.1.symm.trans hxq.1, hxp.2.symm.trans hxq.2⟩
  have hplain : (types.zipIdx.filter (x.Ties ·.1)).Pairwise fun p q => p.2 < q.2 :=
    (pairwise_place_zipIdx types).filter _
  exact List.Perm.eq_of_pairwise (fun p q _ _ hpq hqp => absurd hpq (by omega)) hplaced hplain
    (h.perm.filter _)

theorem stablySorts (h : ArrangesStably types sorted placed) : StablySorts types sorted where
  ordered := h.ordered.imp fun hxy hgt => hxy (order_eq_gt_iff.mp hgt)
  ties x := by
    calc sorted.filter (x.Ties ·)
        = (placed.filter (x.Ties ·.1)).map Prod.fst := by
          rw [← h.types_eq, List.filter_map]
          rfl
      _ = (types.zipIdx.filter (x.Ties ·.1)).map Prod.fst := by rw [h.filter_ties]
      _ = types.filter (x.Ties ·) := by
          conv_rhs => rw [← List.zipIdx_map_fst 0 types, List.filter_map]
          rfl

end ArrangesStably

/-- Occurrences that are sorted by the order, and by their places where they tie. -/
theorem arrangesStably_sort (types : List TypeSymbol) :
    ArrangesStably types (sort types) (types.zipIdx.mergeSort (List.zipIdxLE precedes)) where
  perm := List.mergeSort_perm _ _
  types_eq := List.mergeSort_zipIdx
  ordered := (stablySorts_sort types).ordered.imp fun hxy hlt => hxy (order_eq_gt_iff.mpr hlt)
  stable := by
    have hsorted := List.pairwise_mergeSort (List.zipIdxLE_trans precedes_trans)
      (List.zipIdxLE_total precedes_total) types.zipIdx
    have hplaces : (types.zipIdx.mergeSort (List.zipIdxLE precedes)).Pairwise
        fun p q => p.2 ≠ q.2 :=
      ((List.mergeSort_perm _ _).pairwise_iff fun h => h.symm).mpr
        ((pairwise_place_zipIdx types).imp Nat.ne_of_lt)
    refine (hsorted.and hplaces).imp fun {p q} ⟨hle, hne⟩ htie => ?_
    obtain ⟨hpq, hqp⟩ := ties_iff_precedes.mp htie
    simp only [List.zipIdxLE, hpq, hqp, if_true, decide_eq_true_eq] at hle
    omega

/-! ### The groups of types that tie -/

/-- What the order looks at. -/
def rank (t : TypeSymbol) : Nat × Nat :=
  (t.kind.ordinal, t.kind.depth)

theorem ties_iff_rank {x y : TypeSymbol} : x.Ties y ↔ y.rank = x.rank := by
  rw [ties_iff, rank, rank, Prod.mk.injEq]
  exact and_congr eq_comm eq_comm

/-- In a group of one rank, all types tie with a type of that rank and none with others. -/
theorem filter_rank_ties (types : List TypeSymbol) (r : Nat × Nat) (x : TypeSymbol) :
    (types.filter (·.rank = r)).filter (x.Ties ·) =
      if r = x.rank then types.filter (x.Ties ·) else [] := by
  by_cases hr : r = x.rank
  · subst hr
    simp [List.filter_filter, ties_iff_rank]
  · rw [if_neg hr, List.filter_filter]
    refine List.filter_eq_nil_iff.mpr fun t _ => ?_
    simp only [ties_iff_rank, Bool.and_eq_true, decide_eq_true_eq, not_and]
    exact fun htx htr => hr (htr.symm.trans htx)

/-- From groups that are told apart by their keys, one key picks one group. -/
theorem flatMap_pick {ranks : List (Nat × Nat)} (hnodup : ranks.Nodup) (r : Nat × Nat)
    (group : List TypeSymbol) :
    (ranks.flatMap fun s => if s = r then group else []) = if r ∈ ranks then group else [] := by
  induction ranks with
  | nil => rfl
  | cons s ranks ih =>
    obtain ⟨hs, hnodup⟩ := List.nodup_cons.mp hnodup
    rw [List.flatMap_cons, ih hnodup]
    by_cases hsr : s = r
    · subst hsr
      simp [hs]
    · simp [hsr, Ne.symm hsr]

/-- **Groups of one rank each, by ascending rank, are sorted.** -/
theorem stablySorts_flatMap {types : List TypeSymbol} {ranks : List (Nat × Nat)}
    (hascending : ranks.Pairwise fun r s => r.1 < s.1 ∨ r.1 = s.1 ∧ r.2 < s.2)
    (hall : ∀ t ∈ types, t.rank ∈ ranks) :
    StablySorts types (ranks.flatMap fun r => types.filter (·.rank = r)) where
  ordered := by
    have hprecedes {x y : TypeSymbol} {r s : Nat × Nat} (hrs : r.1 < s.1 ∨ r.1 = s.1 ∧ r.2 ≤ s.2)
        (hx : x ∈ types.filter (·.rank = r)) (hy : y ∈ types.filter (·.rank = s)) :
        x.order y ≠ .gt := by
      have hxr : x.rank = r := of_decide_eq_true (List.mem_filter.mp hx).2
      have hys : y.rank = s := of_decide_eq_true (List.mem_filter.mp hy).2
      subst hxr hys
      exact precedes_iff_order.mp (precedes_iff.mpr hrs)
    refine List.pairwise_flatMap.mpr ⟨fun r _ => ?_, hascending.imp fun {r s} hrs => ?_⟩
    · exact List.pairwise_of_forall_mem_list fun x hx y hy =>
        hprecedes (Or.inr ⟨rfl, le_refl _⟩) hx hy
    · exact fun x hx y hy => hprecedes (hrs.imp_right fun h => ⟨h.1, h.2.le⟩) hx hy
  ties x := by
    have hnodup : ranks.Nodup := hascending.imp fun {r s} hrs heq => by
      subst heq
      omega
    simp only [List.filter_flatMap, filter_rank_ties]
    rw [flatMap_pick hnodup]
    by_cases hx : x.rank ∈ ranks
    · rw [if_pos hx]
    · rw [if_neg hx]
      refine (List.filter_eq_nil_iff.mpr fun t ht htie => hx ?_).symm
      rw [← ties_iff_rank.mp (of_decide_eq_true htie)]
      exact hall t ht

/-- The depths of the classes among the types, each once and ascending. -/
def depths (types : List TypeSymbol) : List Nat :=
  (types.filterMap (·.kind.depth?)).toFinset.sort

/-- The kinds other than classes, in the order in which they are written. -/
def otherKinds : List TypeKind :=
  [.interfaceType, .enumeration, .delegate, .record]

/-- The classes by ascending depth and then the other kinds, each group as it is in the list. -/
def grouped (types : List TypeSymbol) : List TypeSymbol :=
  ((depths types).flatMap fun depth => types.filter (·.kind.depth? = some depth)) ++
    otherKinds.flatMap fun k => types.filter (·.kind = k)

theorem mem_depths {types : List TypeSymbol} {depth : Nat} :
    depth ∈ depths types ↔ ∃ t ∈ types, t.kind.depth? = some depth := by
  rw [depths, Finset.mem_sort, List.mem_toFinset, List.mem_filterMap]

theorem rank_eq_class_iff {t : TypeSymbol} {depth : Nat} :
    t.rank = (0, depth) ↔ t.kind.depth? = some depth := by
  unfold rank
  cases t.kind <;> simp [TypeKind.ordinal, TypeKind.depth, TypeKind.depth?]

theorem rank_eq_iff {t : TypeSymbol} {k : TypeKind} (hk : k ∈ otherKinds) :
    t.rank = (k.ordinal, 0) ↔ t.kind = k := by
  unfold rank
  cases k with
  | classType depth globalMethods => exact absurd hk (by simp [otherKinds])
  | interfaceType | enumeration | delegate | record =>
    cases t.kind <;> simp [TypeKind.ordinal, TypeKind.depth, TypeKind.depth?]

theorem mem_otherKinds {k : TypeKind} (hk : k.depth? = none) : k ∈ otherKinds := by
  cases k with
  | classType depth globalMethods => exact absurd hk (by simp [TypeKind.depth?])
  | interfaceType | enumeration | delegate | record => decide

/-- The ranks of a list of types: one for each depth of a class, and one for each other kind. -/
def ranks (types : List TypeSymbol) : List (Nat × Nat) :=
  (depths types).map (0, ·) ++ otherKinds.map (·.ordinal, 0)

theorem ranks_ascending (types : List TypeSymbol) :
    (ranks types).Pairwise fun r s => r.1 < s.1 ∨ r.1 = s.1 ∧ r.2 < s.2 := by
  have hdepths : (depths types).Pairwise (· < ·) := (Finset.sortedLT_sort _).pairwise
  have hlater : ∀ k ∈ otherKinds, 0 < k.ordinal := by decide
  refine List.pairwise_append.mpr ⟨?_, by decide, ?_⟩
  · exact List.pairwise_map.mpr (hdepths.imp fun h => Or.inr ⟨rfl, h⟩)
  · intro r hr s hs
    obtain ⟨depth, -, rfl⟩ := List.mem_map.mp hr
    obtain ⟨k, hk, rfl⟩ := List.mem_map.mp hs
    exact Or.inl (hlater k hk)

theorem rank_mem_ranks {types : List TypeSymbol} {t : TypeSymbol} (ht : t ∈ types) :
    t.rank ∈ ranks types := by
  rcases hdepth : t.kind.depth? with _ | depth
  · have hkind : t.kind ∈ otherKinds := mem_otherKinds hdepth
    exact List.mem_append_right _
      (List.mem_map.mpr ⟨t.kind, hkind, ((rank_eq_iff hkind).mpr rfl).symm⟩)
  · exact List.mem_append_left _ (List.mem_map.mpr
      ⟨depth, mem_depths.mpr ⟨t, ht, hdepth⟩, (rank_eq_class_iff.mpr hdepth).symm⟩)

theorem grouped_eq (types : List TypeSymbol) :
    grouped types = (ranks types).flatMap fun r => types.filter (·.rank = r) := by
  rw [grouped, ranks, List.flatMap_append, List.flatMap_map, List.flatMap_map]
  congr 1
  · simp only [rank_eq_class_iff]
  · refine List.flatMap_congr fun k hk => ?_
    simp only [rank_eq_iff hk]

/-- **Sorting gives the groups of types that tie, one after the other.** -/
theorem sort_eq_grouped (types : List TypeSymbol) : sort types = grouped types := by
  rw [grouped_eq]
  exact (stablySorts_iff.mp
    (stablySorts_flatMap (ranks_ascending types) fun _ => rank_mem_ranks)).symm

/-! ### What sorting gives -/

/-- In order, a class of smaller depth stands in front. -/
theorem place_lt_of_depth_lt {sorted : List TypeSymbol}
    (hordered : sorted.Pairwise fun x y => x.order y ≠ .gt) {i j : Nat} {x y : TypeSymbol}
    {m n : Nat} (hx : sorted[i]? = some x) (hy : sorted[j]? = some y)
    (hm : x.kind.depth? = some m) (hn : y.kind.depth? = some n) (hmn : m < n) : i < j := by
  obtain ⟨hi, rfl⟩ := List.getElem?_eq_some_iff.mp hx
  obtain ⟨hj, rfl⟩ := List.getElem?_eq_some_iff.mp hy
  by_contra hij
  rcases Nat.lt_or_eq_of_le (Nat.le_of_not_lt hij) with hlt | heq
  · have horder := List.pairwise_iff_getElem.mp hordered j i hj hi hlt
    have hrank := precedes_iff.mp (precedes_iff_order.mpr horder)
    have hxrank := rank_eq_class_iff.mpr hm
    have hyrank := rank_eq_class_iff.mpr hn
    simp only [rank, Prod.mk.injEq] at hxrank hyrank
    omega
  · subst heq
    rw [hm] at hn
    exact absurd (Option.some.inj hn) (by omega)

/-- **Sorting arranges the types by a total preorder, stably.**  The order turns around when two
types are exchanged, and that a type does not come after another carries over.  The sorted list is
the only one that has each occurrence of a type once, has no type behind one that it comes
before, and leaves occurrences that tie in the order of their places.  It has the classes by
ascending depth and then the other kinds, each group as it was, and so of two classes the one of
smaller depth is in front. -/
theorem sort_arranges_stably :
    (∀ x y : TypeSymbol, y.order x = (x.order y).swap) ∧
      (∀ x y z : TypeSymbol, x.order y ≠ .gt → y.order z ≠ .gt → x.order z ≠ .gt) ∧
      ∀ types,
        (∀ sorted, (∃ placed, ArrangesStably types sorted placed) ↔ sorted = sort types) ∧
        sort types = grouped types ∧
        ∀ (i j m n : Nat) (x y : TypeSymbol), (sort types)[i]? = some x →
          (sort types)[j]? = some y → x.kind.depth? = some m → y.kind.depth? = some n →
          m < n → i < j := by
  refine ⟨order_swap, ?_, fun types => ⟨fun sorted => ⟨?_, ?_⟩, sort_eq_grouped types, ?_⟩⟩
  · intro x y z hxy hyz
    rw [← precedes_iff_order] at *
    exact precedes_trans x y z hxy hyz
  · rintro ⟨placed, harranges⟩
    exact stablySorts_iff.mp harranges.stablySorts
  · rintro rfl
    exact ⟨_, arrangesStably_sort types⟩
  · intro i j m n x y
    exact place_lt_of_depth_lt (stablySorts_sort types).ordered

end ScriptBackend.TypeSymbol
