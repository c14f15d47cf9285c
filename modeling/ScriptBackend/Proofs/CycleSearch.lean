import ScriptBackend.Proofs.WalkOrder
import ScriptBackend.Reference.Search

/-! # What a search finds

A search comes across an edge that leads back exactly if the graph has a cycle
(`Walk.findsCycle_iff`).

While the edges of a node are followed, the *open* nodes, which are discovered but not finished,
are the node itself and those from which the search came to it.  All of them lead to the node, so
an edge from it to one of them closes a cycle (`Walk.exists_cycle_of_explore`).

A search that comes to its end has met no such edge.  Then all successors of a node were finished
when the node was (`Walk.Explores`), and in the list of finished nodes every edge leads to an
earlier place (`Walk.Sorted`), so that no way leads back (`Walk.not_transGen_self`).
-/
namespace ScriptBackend
namespace Walk

variable {size : Nat} {successors : Nat → List Nat} {w after : Walk} {targets others : List Nat}
  {target node : Nat}

/-! ### What following an edge does -/

theorem mem_neighbours {x : Nat} : x ∈ neighbours successors node ↔ Edge successors node x :=
  List.mem_reverse

/-- With a node that is discovered, no other becomes open. -/
theorem eq_or_open_of_discover {x : Nat} (h : x ∉ (w.discover node).fresh) :
    x = node ∨ x ∉ w.fresh := by
  by_cases hx : x = node
  · exact Or.inl hx
  · exact Or.inr fun hmem => h ((List.mem_erase_of_ne hx).mpr hmem)

theorem explore_nil : explore successors [] w = some w := by
  rw [explore, exploreBounded, Option.map_some]

/-- An edge to a fresh node is followed on along the edges of that node, which is then finished. -/
theorem explore_cons_of_fresh (h : target ∈ w.fresh) :
    explore successors (target :: others) w =
      (explore successors (neighbours successors target) (w.discover target)).bind
        fun inner => explore successors others (inner.finish target) := by
  unfold explore
  rw [exploreBounded, dif_pos h, Option.bind_map]
  cases exploreBounded successors (neighbours successors target) (w.discover target) with
  | none => rfl
  | some inner =>
    show Option.map _ ((exploreBounded successors others (inner.1.finish target)).bind _) =
      (exploreBounded successors others (inner.1.finish target)).map _
    cases exploreBounded successors others (inner.1.finish target) with
    | none | some => rfl

theorem explore_cons_of_finished (hfresh : target ∉ w.fresh) (h : target ∈ w.finished) :
    explore successors (target :: others) w = explore successors others w := by
  rw [explore, exploreBounded, dif_neg hfresh, if_pos h, explore]

theorem explore_cons_of_open (hfresh : target ∉ w.fresh) (h : target ∉ w.finished) :
    explore successors (target :: others) w = none := by
  rw [explore, exploreBounded, dif_neg hfresh, if_neg h, Option.map_none]

/-- Induction along a search: an edge to a fresh node is followed before the edges behind it. -/
theorem explore_induction {motive : List Nat → Walk → Prop} (successors : Nat → List Nat)
    (nil : ∀ w, motive [] w)
    (fresh : ∀ w target others, target ∈ w.fresh →
      motive (neighbours successors target) (w.discover target) →
      (∀ inner, explore successors (neighbours successors target) (w.discover target) = some inner →
        motive others (inner.finish target)) → motive (target :: others) w)
    (finished : ∀ w target others, target ∉ w.fresh → target ∈ w.finished → motive others w →
      motive (target :: others) w)
    (opened : ∀ w target others, target ∉ w.fresh → target ∉ w.finished →
      motive (target :: others) w)
    (targets : List Nat) (w : Walk) : motive targets w := by
  induction targets, w using exploreBounded.induct successors with
  | case1 w => exact nil w
  | case2 w target others h ihinner ihouter =>
    refine fresh w target others h ihinner fun inner hinner => ?_
    obtain ⟨bounded, -, rfl⟩ := Option.map_eq_some_iff.mp hinner
    exact ihouter bounded
  | case3 w target others hfresh h ih => exact finished w target others hfresh h ih
  | case4 w target others hfresh h => exact opened w target others hfresh h

/-! ### A search that comes to its end -/

/-- In the list, each node comes after all its successors. -/
def Sorted (successors : Nat → List Nat) (order : List Nat) : Prop :=
  ∀ x ∈ order, ∀ y ∈ successors x, order.idxOf y < order.idxOf x

/-- A node can be put behind its successors. -/
theorem Sorted.concat {order : List Nat} (h : Sorted successors order)
    (hnode : ∀ y ∈ successors node, y ∈ order) : Sorted successors (order ++ [node]) := by
  intro x hx y hy
  by_cases hmem : x ∈ order
  · have hlt := h x hmem y hy
    have hymem : y ∈ order :=
      List.idxOf_lt_length_iff.mp (Nat.lt_trans hlt (List.idxOf_lt_length_of_mem hmem))
    rwa [List.idxOf_append_of_mem hymem, List.idxOf_append_of_mem hmem]
  · obtain rfl : x = node :=
      List.mem_singleton.mp ((List.mem_append.mp hx).resolve_left hmem)
    exact idxOf_lt_append (hnode y hy) hmem

/-- What a search does to the account while it follows edges to some targets. -/
structure Explores (successors : Nat → List Nat) (targets : List Nat) (w after : Walk) :
    Prop where
  /-- What is finished stays so. -/
  grows : w.finished <+: after.finished
  /-- The open nodes stay the same. -/
  mem_iff : ∀ x, x ∈ after.fresh ∨ x ∈ after.finished ↔ x ∈ w.fresh ∨ x ∈ w.finished
  /-- All targets are finished. -/
  reached : ∀ x ∈ targets, x ∈ after.finished
  sorted : Sorted successors w.finished → Sorted successors after.finished

/-- A fresh node is finished after all its successors. -/
theorem Explores.finish {inner : Walk} (h : target ∈ w.fresh)
    (hinner : Explores successors (neighbours successors target) (w.discover target) inner) :
    Explores successors [target] w (inner.finish target) where
  grows := hinner.grows.trans (List.prefix_append _ _)
  mem_iff x := by
    have hiff : x ∈ inner.fresh ∨ x ∈ inner.finished ↔
        x ∈ w.fresh.erase target ∨ x ∈ w.finished := hinner.mem_iff x
    rw [fresh_finish, finished_finish, List.mem_append, List.mem_singleton, ← or_assoc, hiff]
    by_cases hx : x = target
    · simp [hx, h]
    · simp [hx, List.mem_erase_of_ne hx]
  reached x hx := List.mem_append_right _ hx
  sorted hsorted :=
    (hinner.sorted hsorted).concat fun y hy => hinner.reached y (mem_neighbours.mpr hy)

theorem Explores.nil : Explores successors [] w w where
  grows := List.prefix_refl _
  mem_iff _ := Iff.rfl
  reached := nofun
  sorted hsorted := hsorted

theorem Explores.cons {mid : Walk} (h : Explores successors [target] w mid)
    (h' : Explores successors others mid after) :
    Explores successors (target :: others) w after where
  grows := h.grows.trans h'.grows
  mem_iff x := (h'.mem_iff x).trans (h.mem_iff x)
  reached := List.forall_mem_cons.mpr
    ⟨h'.grows.subset (h.reached target (List.mem_singleton_self target)), h'.reached⟩
  sorted hsorted := h'.sorted (h.sorted hsorted)

/-- Nothing is done for a node that is finished. -/
theorem explores_of_finished (h : target ∈ w.finished) : Explores successors [target] w w where
  grows := List.prefix_refl _
  mem_iff _ := Iff.rfl
  reached _ hx := List.mem_singleton.mp hx ▸ h
  sorted hsorted := hsorted

theorem explores_of_explore (h : explore successors targets w = some after) :
    Explores successors targets w after := by
  induction targets, w using explore_induction successors generalizing after with
  | nil w =>
    rw [explore_nil] at h
    obtain rfl := Option.some.inj h
    exact .nil
  | fresh w target others hfresh ihinner ihouter =>
    rw [explore_cons_of_fresh hfresh] at h
    obtain ⟨inner, hinner, houter⟩ := Option.bind_eq_some_iff.mp h
    exact ((ihinner hinner).finish hfresh).cons (ihouter inner hinner houter)
  | finished w target others hfresh hfin ih =>
    rw [explore_cons_of_finished hfresh hfin] at h
    exact (explores_of_finished hfin).cons (ih h)
  | opened w target others hfresh hfin =>
    rw [explore_cons_of_open hfresh hfin] at h
    cases h

/-! ### An edge that leads back -/

/-- **An edge that leads back closes a cycle.**  The edges that are followed are those of a node
to which all open nodes lead. -/
theorem exists_cycle_of_explore (closed : Closed size successors) (hnode : node < size)
    (hedges : ∀ x ∈ targets, Edge successors node x)
    (hopen : ∀ x < size, x ∉ w.fresh → x ∉ w.finished → Reaches successors x node)
    (h : explore successors targets w = none) :
    ∃ x < size, Relation.TransGen (Edge successors) x x := by
  induction targets, w using explore_induction successors generalizing node with
  | nil w =>
    rw [explore_nil] at h
    cases h
  | fresh w target others hfresh ihinner ihouter =>
    obtain ⟨hedge, hothers⟩ := List.forall_mem_cons.mp hedges
    have htarget : target < size := closed node hnode target hedge
    rw [explore_cons_of_fresh hfresh] at h
    cases hinner : explore successors (neighbours successors target) (w.discover target) with
    | none =>
      -- one node more is open, and the others lead to it through the node before
      refine ihinner htarget (fun x => mem_neighbours.mp) (fun x hx hxfresh hxfin => ?_) hinner
      rcases eq_or_open_of_discover hxfresh with rfl | hxopen
      · exact Relation.ReflTransGen.refl
      · exact (hopen x hx hxopen hxfin).tail hedge
    | some inner =>
      rw [hinner, Option.bind_some] at h
      have hexplores := (explores_of_explore hinner).finish hfresh
      refine ihouter inner hinner hnode hothers (fun x hx hxfresh hxfin => ?_) h
      have hnot := mt (hexplores.mem_iff x).mpr (not_or.mpr ⟨hxfresh, hxfin⟩)
      exact hopen x hx (not_or.mp hnot).1 (not_or.mp hnot).2
  | finished w target others hfresh hfin ih =>
    rw [explore_cons_of_finished hfresh hfin] at h
    exact ih hnode (List.forall_mem_cons.mp hedges).2 hopen h
  | opened w target others hfresh hfin =>
    have hedge : Edge successors node target := hedges target List.mem_cons_self
    have htarget : target < size := closed node hnode target hedge
    exact ⟨target, htarget, Relation.TransGen.tail' (hopen target htarget hfresh hfin) hedge⟩

/-! ### Whole searches -/

/-- Between two starts no node is open.  A search started at a node finds a cycle, or finishes the
node. -/
theorem exploreFrom_cases (closed : Closed size successors) {root : Nat} (hroot : root < size)
    (hnone : ∀ x < size, x ∈ w.fresh ∨ x ∈ w.finished) :
    (exploreFrom successors w root = none ∧ ∃ x < size, Relation.TransGen (Edge successors) x x) ∨
      ∃ after, exploreFrom successors w root = some after ∧ Explores successors [root] w after := by
  unfold exploreFrom
  by_cases hfresh : root ∈ w.fresh
  · rw [if_pos hfresh]
    cases hexplore : explore successors [root] w with
    | some after => exact Or.inr ⟨after, rfl, explores_of_explore hexplore⟩
    | none =>
      refine Or.inl ⟨rfl, ?_⟩
      rw [explore_cons_of_fresh hfresh] at hexplore
      have hinner : explore successors (neighbours successors root) (w.discover root) = none := by
        cases hinner : explore successors (neighbours successors root) (w.discover root) with
        | none => rfl
        | some inner =>
          rw [hinner, Option.bind_some, explore_nil] at hexplore
          cases hexplore
      refine exists_cycle_of_explore closed hroot (fun x => mem_neighbours.mp) ?_ hinner
      -- the node is the only one that is open now
      intro x hx hxfresh hxfin
      rcases eq_or_open_of_discover hxfresh with rfl | hxopen
      · exact Relation.ReflTransGen.refl
      · exact absurd ((hnone x hx).resolve_right hxfin) hxopen
  · rw [if_neg hfresh]
    exact Or.inr ⟨w, rfl, explores_of_finished ((hnone root hroot).resolve_left hfresh)⟩

/-- Started at some nodes in turn, a search finds a cycle, or finishes them all. -/
theorem foldlM_exploreFrom_cases (closed : Closed size successors) {roots : List Nat}
    (hroots : ∀ x ∈ roots, x < size) (hnone : ∀ x < size, x ∈ w.fresh ∨ x ∈ w.finished) :
    (roots.foldlM (exploreFrom successors) w = none ∧
        ∃ x < size, Relation.TransGen (Edge successors) x x) ∨
      ∃ after, roots.foldlM (exploreFrom successors) w = some after ∧
        Explores successors roots w after := by
  induction roots generalizing w with
  | nil => exact Or.inr ⟨w, rfl, .nil⟩
  | cons root roots ih =>
    obtain ⟨hroot, hlater⟩ := List.forall_mem_cons.mp hroots
    rw [List.foldlM_cons]
    rcases exploreFrom_cases closed hroot hnone with ⟨hfrom, hcycle⟩ | ⟨mid, hfrom, hmid⟩
    · rw [hfrom]
      exact Or.inl ⟨rfl, hcycle⟩
    · rw [hfrom]
      refine (ih hlater fun x hx => (hmid.mem_iff x).mpr (hnone x hx)).imp_right ?_
      rintro ⟨after, hafter, hexplores⟩
      exact ⟨after, hafter, hmid.cons hexplores⟩

/-- Where each edge leads to an earlier place in a list, nothing leads back to itself. -/
theorem not_transGen_self (closed : Closed size successors) {order : List Nat}
    (h : ∀ u < size, ∀ v ∈ successors u, order.idxOf v < order.idxOf u) {u : Nat} (hu : u < size) :
    ¬ Relation.TransGen (Edge successors) u u := by
  have hearlier : ∀ v, Relation.TransGen (Edge successors) u v →
      v < size ∧ order.idxOf v < order.idxOf u := by
    intro v hv
    induction hv with
    | single hedge => exact ⟨closed _ hu _ hedge, h _ hu _ hedge⟩
    | tail _ hedge ih => exact ⟨closed _ ih.1 _ hedge, Nat.lt_trans (h _ ih.1 _ hedge) ih.2⟩
  exact fun hback => Nat.lt_irrefl _ (hearlier u hback).2

/-- **A search comes across an edge that leads back exactly if there is a cycle.** -/
theorem findsCycle_iff (closed : Closed size successors) :
    findsCycle size successors = true ↔ ∃ x < size, Relation.TransGen (Edge successors) x x := by
  have hroots : ∀ x ∈ List.range size, x < size := fun x => List.mem_range.mp
  have hfresh : ∀ x < size, x ∈ ({ fresh := List.range size } : Walk).fresh ∨
      x ∈ ({ fresh := List.range size } : Walk).finished :=
    fun x hx => Or.inl (List.mem_range.mpr hx)
  unfold findsCycle
  rcases foldlM_exploreFrom_cases closed hroots hfresh with ⟨hsearch, hcycle⟩ |
    ⟨after, hsearch, hexplores⟩
  · rw [hsearch]
    exact iff_of_true rfl hcycle
  · rw [hsearch]
    refine iff_of_false Bool.false_ne_true ?_
    rintro ⟨u, hu, hback⟩
    have hsorted : Sorted successors after.finished := hexplores.sorted nofun
    refine not_transGen_self closed (fun x hx => hsorted x ?_) hu hback
    exact hexplores.reached x (List.mem_range.mpr hx)

end Walk
end ScriptBackend
