import Mathlib.Data.List.Induction
import ScriptBackend.Proofs.DependencyOrder

/-! # A walk lists what recursion lists

The textbook way to list the nodes of a graph in post-order is a recursive one: a node that was
not visited is marked, its successors are visited in their order, and then the node is listed.
A walk does the same with a stack, on which a node can lie several times.

The two are compared while a recursive call is under way.  What lies on the stack above some
point are nodes that the recursion has yet to visit, less those that were discovered when their
siblings were pushed.  None of them is *open*, which means marked but not listed, and a visit
leaves the open nodes as they are (`Listing.mem_visitAll_iff`).  So when such a node comes to
the top, it is fresh, and the recursion visits it too, or it is finished, and both go on to the
next (`Walk.run_visitAll`).

For a set of assemblies the recursion goes along the references themselves
(`AssemblySet.visitNames`): each full name leads to the assembly that was accepted last of those
that have it, and a name that none has is skipped.  It visits what the recursion on the graph
visits (`AssemblySet.visitNames_eq`).
-/
namespace ScriptBackend

/-- How far a recursive listing has come. -/
structure Listing where
  /-- The nodes that are not marked as visited. -/
  unvisited : List Nat
  /-- The nodes that are listed. -/
  listed : List Nat := []
  deriving DecidableEq, Repr

namespace Listing

variable {successors : Nat → List Nat} {l : Listing} {node : Nat}

/-- The node is marked as visited. -/
def mark (l : Listing) (node : Nat) : Listing :=
  { l with unvisited := l.unvisited.erase node }

/-- The node is listed. -/
def emit (l : Listing) (node : Nat) : Listing :=
  { l with listed := l.listed ++ [node] }

theorem length_mark_lt (h : node ∈ l.unvisited) :
    (l.mark node).unvisited.length < l.unvisited.length := by
  have hpos : 0 < l.unvisited.length := List.length_pos_of_mem h
  show (l.unvisited.erase node).length < l.unvisited.length
  rw [List.length_erase_of_mem h]
  omega

/-- Visits some nodes one after another.  A node that is visited already is skipped; any other
is marked, its successors are visited, and then it is listed.  No visit takes a mark away. -/
def visitAll (successors : Nat → List Nat) (nodes : List Nat) (l : Listing) :
    { after : Listing // after.unvisited.length ≤ l.unvisited.length } :=
  match nodes with
  | [] => ⟨l, Nat.le_refl _⟩
  | node :: later =>
    if h : node ∈ l.unvisited then
      let inner := visitAll successors (successors node) (l.mark node)
      have hinner : inner.1.unvisited.length < l.unvisited.length :=
        Nat.lt_of_le_of_lt inner.2 (length_mark_lt h)
      let outer := visitAll successors later (inner.1.emit node)
      ⟨outer.1, Nat.le_trans outer.2 (Nat.le_of_lt hinner)⟩
    else visitAll successors later l
termination_by (l.unvisited.length, nodes.length)
decreasing_by
  · exact Prod.Lex.left _ _ (length_mark_lt h)
  · exact Prod.Lex.left _ _ hinner
  · exact Prod.Lex.right _ (Nat.lt_succ_self _)

/-- The nodes below `size`, each after its successors, as recursion lists them from each node in
turn. -/
def postOrder (size : Nat) (successors : Nat → List Nat) : List Nat :=
  (visitAll successors (List.range size) { unvisited := List.range size }).1.listed

/-! ### What a visit does -/

theorem visitAll_nil : (visitAll successors [] l).1 = l := by
  rw [visitAll]

theorem visitAll_cons_of_mem {later : List Nat} (h : node ∈ l.unvisited) :
    (visitAll successors (node :: later) l).1 =
      (visitAll successors later
        ((visitAll successors (successors node) (l.mark node)).1.emit node)).1 := by
  rw [visitAll, dif_pos h]

theorem visitAll_cons_of_not_mem {later : List Nat} (h : node ∉ l.unvisited) :
    (visitAll successors (node :: later) l).1 = (visitAll successors later l).1 := by
  rw [visitAll, dif_neg h]

/-- Visiting the first node and then the others is visiting all. -/
theorem visitAll_cons (node : Nat) (later : List Nat) :
    (visitAll successors (node :: later) l).1 =
      (visitAll successors later (visitAll successors [node] l).1).1 := by
  by_cases h : node ∈ l.unvisited
  · rw [visitAll_cons_of_mem h, visitAll_cons_of_mem h, visitAll_nil]
  · rw [visitAll_cons_of_not_mem h, visitAll_cons_of_not_mem h, visitAll_nil]

theorem unvisited_visitAll_sublist (nodes : List Nat) :
    ((visitAll successors nodes l).1.unvisited).Sublist l.unvisited := by
  induction nodes, l using visitAll.induct successors with
  | case1 l =>
    rw [visitAll_nil]
  | case2 l node later h inner hinner ihinner ihouter =>
    rw [visitAll_cons_of_mem h]
    exact (ihouter.trans ihinner).trans List.erase_sublist
  | case3 l node later h ih =>
    rw [visitAll_cons_of_not_mem h]
    exact ih

/-- The open nodes stay the same: a node that gets marked is listed too. -/
theorem mem_visitAll_iff (nodes : List Nat) (x : Nat) :
    x ∈ (visitAll successors nodes l).1.unvisited ∨ x ∈ (visitAll successors nodes l).1.listed ↔
      x ∈ l.unvisited ∨ x ∈ l.listed := by
  induction nodes, l using visitAll.induct successors with
  | case1 l =>
    rw [visitAll_nil]
  | case2 l node later h inner hinner ihinner ihouter =>
    rw [visitAll_cons_of_mem h]
    refine ihouter.trans ?_
    have hinner : x ∈ inner.1.unvisited ∨ x ∈ inner.1.listed ↔
        x ∈ l.unvisited.erase node ∨ x ∈ l.listed := ihinner
    show x ∈ inner.1.unvisited ∨ x ∈ inner.1.listed ++ [node] ↔ _
    rw [List.mem_append, List.mem_singleton, ← or_assoc, hinner]
    by_cases hx : x = node
    · simp [hx, h]
    · simp [hx, List.mem_erase_of_ne hx]
  | case3 l node later h ih =>
    rw [visitAll_cons_of_not_mem h]
    exact ih

/-- What holds of a listing at any time. -/
structure Separate (l : Listing) : Prop where
  nodup : l.unvisited.Nodup
  /-- What is listed was visited. -/
  listed : ∀ x ∈ l.listed, x ∉ l.unvisited

namespace Separate

/-- A node that is marked has lost its place among the unvisited and has none in the list. -/
theorem mark (h : l.Separate) (hn : node ∈ l.unvisited) :
    (l.mark node).Separate ∧ ¬ (node ∈ (l.mark node).unvisited ∨ node ∈ (l.mark node).listed) := by
  refine ⟨⟨h.nodup.erase node, fun x hx hmem => h.listed x hx (List.mem_of_mem_erase hmem)⟩, ?_⟩
  rintro (hmem | hmem)
  · exact (h.nodup.mem_erase_iff.mp hmem).1 rfl
  · exact h.listed node hmem hn

theorem emit (h : l.Separate) (hn : node ∉ l.unvisited) : (l.emit node).Separate := by
  refine ⟨h.nodup, fun x hx => ?_⟩
  rcases List.mem_append.mp hx with hx | hx
  · exact h.listed x hx
  · exact List.mem_singleton.mp hx ▸ hn

theorem visitAll (h : l.Separate) (nodes : List Nat) :
    (Listing.visitAll successors nodes l).1.Separate := by
  induction nodes, l using visitAll.induct successors with
  | case1 l =>
    rw [visitAll_nil]
    exact h
  | case2 l node later hn inner hinner ihinner ihouter =>
    rw [visitAll_cons_of_mem hn]
    obtain ⟨hmark, hnode⟩ := h.mark hn
    refine ihouter ((ihinner hmark).emit fun hmem => hnode (Or.inl ?_))
    exact (unvisited_visitAll_sublist _).subset hmem
  | case3 l node later hn ih =>
    rw [visitAll_cons_of_not_mem hn]
    exact ih h

/-- While its successors are visited a node is open, and no other node becomes open. -/
theorem visitSuccessors (successors : Nat → List Nat) (h : l.Separate)
    (hn : node ∈ l.unvisited) :
    let inner := (Listing.visitAll successors (successors node) (l.mark node)).1
    inner.Separate ∧ inner.unvisited ⊆ l.unvisited ∧
      ∀ x, x ∈ inner.unvisited ∨ x ∈ inner.listed ↔
        x ≠ node ∧ (x ∈ l.unvisited ∨ x ∈ l.listed) := by
  intro inner
  obtain ⟨hmark, hnode⟩ := h.mark hn
  refine ⟨hmark.visitAll (successors node), ?_, fun x => ?_⟩
  · exact ((unvisited_visitAll_sublist _).trans List.erase_sublist).subset
  · refine (mem_visitAll_iff (successors node) x).trans ?_
    by_cases hx : x = node
    · subst hx
      exact ⟨fun hmem => absurd hmem hnode, fun hmem => absurd rfl hmem.1⟩
    · show x ∈ l.unvisited.erase node ∨ x ∈ l.listed ↔ _
      rw [List.mem_erase_of_ne hx]
      exact (and_iff_right hx).symm

end Separate
end Listing

/-! ### The walk beside the recursion -/

namespace Walk

variable {successors : Nat → List Nat} {w : Walk}

/-- How far the listing has come that the walk makes. -/
def listing (w : Walk) : Listing :=
  { unvisited := w.fresh, listed := w.finished }

/-- A fresh node on top of the stack is discovered. -/
theorem run_of_fresh {node : Nat} {below : List Nat} (h : node ∈ w.fresh) :
    w.run successors (node :: below) = (w.discover node).run successors
      ((successors node).filter ((w.discover node).fresh.contains ·) ++ node :: below) := by
  rw [run, dif_pos h]
  exact congrArg _ (push_neighbours successors _ node (node :: below))

/-- A finished node on top of the stack is dropped. -/
theorem run_of_finished {node : Nat} {below : List Nat} (hfresh : node ∉ w.fresh)
    (h : node ∈ w.finished) : w.run successors (node :: below) = w.run successors below := by
  rw [run, dif_neg hfresh, if_pos h]

/-- An open node on top of the stack is finished. -/
theorem run_of_open {node : Nat} {below : List Nat} (hfresh : node ∉ w.fresh)
    (h : node ∉ w.finished) : w.run successors (node :: below) =
      (w.finish node).run successors below := by
  rw [run, dif_neg hfresh, if_neg h]

/-- **What lies on the stack is what the recursion has yet to visit.**  Of the nodes to visit, at
least the fresh ones were pushed, and none that was pushed is open.  Then the walk comes to what
lies below them just when the recursion has visited them all. -/
theorem run_visitAll (successors : Nat → List Nat) (nodes below : List Nat) (pushed : Nat → Bool)
    (hsep : w.listing.Separate) (hfresh : ∀ x ∈ w.fresh, pushed x = true)
    (hopen : ∀ x ∈ nodes, pushed x = true → x ∈ w.fresh ∨ x ∈ w.finished) :
    ∃ after : Walk, after.listing = (Listing.visitAll successors nodes w.listing).1 ∧
      w.run successors (nodes.filter pushed ++ below) = after.run successors below := by
  generalize hl : w.listing = l at hsep
  induction nodes, l using Listing.visitAll.induct successors generalizing w below pushed with
  | case1 l =>
    rw [Listing.visitAll_nil]
    exact ⟨w, hl, rfl⟩
  | case2 l node later hn inner hinner ihinner ihouter =>
    subst hl
    have hnode : node ∈ w.fresh := hn
    rw [Listing.visitAll_cons_of_mem hn, List.filter_cons_of_pos (hfresh node hnode),
      List.cons_append, run_of_fresh hnode]
    -- the successors lie above the node, which stays on the stack
    obtain ⟨middle, hmiddle, hrun⟩ := ihinner (w := w.discover node)
      (node :: (later.filter pushed ++ below)) ((w.discover node).fresh.contains ·)
      (fun x hx => List.contains_iff_mem.mpr hx)
      (fun x _ hx => Or.inl (List.contains_iff_mem.mp hx)) rfl (hsep.mark hn).1
    obtain ⟨hmiddleSep, hless, hknown⟩ := hsep.visitSuccessors successors hn
    rw [← hmiddle] at hmiddleSep hless hknown
    -- when they are done it is still open, and gets finished
    have hstill : ¬ (node ∈ middle.fresh ∨ node ∈ middle.finished) :=
      fun h => ((hknown node).mp h).1 rfl
    rw [not_or] at hstill
    rw [hrun, run_of_open hstill.1 hstill.2]
    have hlisting : (middle.finish node).listing = inner.1.emit node := by
      show middle.listing.emit node = inner.1.emit node
      rw [hmiddle]
    refine ihouter _ pushed ?_ ?_ hlisting (hlisting ▸ hmiddleSep.emit hstill.1)
    · exact fun x hx => hfresh x (hless hx)
    · intro x hx hpushed
      rw [fresh_finish, finished_finish, List.mem_append, List.mem_singleton, ← or_assoc]
      by_cases hxn : x = node
      · exact Or.inr hxn
      · exact Or.inl ((hknown x).mpr ⟨hxn, hopen x (List.mem_cons_of_mem node hx) hpushed⟩)
  | case3 l node later hn ih =>
    subst hl
    have hnode : node ∉ w.fresh := hn
    rw [Listing.visitAll_cons_of_not_mem hn]
    have hlater : ∀ x ∈ later, pushed x = true → x ∈ w.fresh ∨ x ∈ w.finished :=
      fun x hx => hopen x (List.mem_cons_of_mem node hx)
    obtain ⟨after, hafter, hrun⟩ := ih below pushed hfresh hlater rfl hsep
    refine ⟨after, hafter, ?_⟩
    by_cases hpushed : pushed node = true
    · have hfinished : node ∈ w.finished :=
        (hopen node List.mem_cons_self hpushed).resolve_left hnode
      rw [List.filter_cons_of_pos hpushed, List.cons_append, run_of_finished hnode hfinished, hrun]
    · rw [List.filter_cons_of_neg hpushed, hrun]

/-- Starting at each of some nodes lists what the recursion lists when it visits them. -/
theorem listing_startAll (successors : Nat → List Nat) (roots : List Nat)
    (hsep : w.listing.Separate) :
    (w.startAll successors roots).listing = (Listing.visitAll successors roots w.listing).1 := by
  induction roots generalizing w with
  | nil =>
    rw [Listing.visitAll_nil]
    rfl
  | cons root roots ih =>
    rw [startAll, List.foldl_cons, ← startAll]
    by_cases hroot : root ∈ w.fresh
    · obtain ⟨after, hafter, hrun⟩ := run_visitAll successors [root] [] (fun _ => true) hsep
        (fun _ _ => rfl) (fun x hx _ => Or.inl (List.mem_singleton.mp hx ▸ hroot))
      have hstart : w.run successors [root] = after := by
        rw [run] at hrun
        exact hrun
      rw [if_pos hroot, hstart, Listing.visitAll_cons, ← hafter]
      exact ih (hafter ▸ hsep.visitAll [root])
    · rw [if_neg hroot, Listing.visitAll_cons_of_not_mem hroot]
      exact ih hsep

/-- **A walk lists the nodes as recursion does.** -/
theorem finished_eq_postOrder (size : Nat) (successors : Nat → List Nat) :
    (ofGraph size successors).finished = Listing.postOrder size successors := by
  have hsep : (listing { fresh := List.range size }).Separate := ⟨List.nodup_range, nofun⟩
  have hlisting := listing_startAll successors (List.range size) hsep
  exact congrArg Listing.listed hlisting

/-- While 1 is visited, 2 lies on the stack as a successor of 0 and, above it, of 1. -/
example : (ofGraph 3 fun n => [[1, 2], [2, 0], [1]].getD n []).finished = [2, 1, 0] := by
  cbv

end Walk

/-! ### Along the references of a set -/

namespace AssemblySet

variable {set : AssemblySet}

/-- The position of the assembly that was accepted last of those with a full name. -/
def lastNamed? (set : AssemblySet) (name : String) : Option Nat :=
  ((List.range set.size).filter fun i =>
    set.assemblies[i]?.map (·.manifest.fullName) = some name).getLast?

/-- The full names that the assembly at a position refers to. -/
def referencesAt (set : AssemblySet) (index : Nat) : List String :=
  (set.assemblies[index]?.map (·.manifest.references)).getD []

/-- Visits the assemblies that some full names lead to, one after another.  A name that leads
nowhere is skipped, and so is an assembly that is visited already; any other is marked, its own
references are followed, and then it is listed. -/
def visitNames (set : AssemblySet) (names : List String) (l : Listing) :
    { after : Listing // after.unvisited.length ≤ l.unvisited.length } :=
  match names with
  | [] => ⟨l, Nat.le_refl _⟩
  | name :: later =>
    match set.lastNamed? name with
    | none => visitNames set later l
    | some node =>
      if h : node ∈ l.unvisited then
        let inner := visitNames set (set.referencesAt node) (l.mark node)
        have hinner : inner.1.unvisited.length < l.unvisited.length :=
          Nat.lt_of_le_of_lt inner.2 (Listing.length_mark_lt h)
        let outer := visitNames set later (inner.1.emit node)
        ⟨outer.1, Nat.le_trans outer.2 (Nat.le_of_lt hinner)⟩
      else visitNames set later l
termination_by (l.unvisited.length, names.length)
decreasing_by
  · exact Prod.Lex.right _ (Nat.lt_succ_self _)
  · exact Prod.Lex.left _ _ (Listing.length_mark_lt h)
  · exact Prod.Lex.left _ _ hinner
  · exact Prod.Lex.right _ (Nat.lt_succ_self _)

/-- Visits the assembly at a position, unless it is visited already. -/
def visit (set : AssemblySet) (l : Listing) (node : Nat) : Listing :=
  if node ∈ l.unvisited then
    (set.visitNames (set.referencesAt node) (l.mark node)).1.emit node
  else l

/-- The positions of the assemblies as recursion lists them, visited as they were accepted. -/
def postOrder (set : AssemblySet) : List Nat :=
  ((List.range set.size).foldl set.visit { unvisited := List.range set.size }).listed

theorem getLast?_filter_range (name : String) (names : List String) :
    ((List.range names.length).filter fun i => names[i]? = some name).getLast? =
      lastPosition? name names := by
  induction names using List.reverseRecOn with
  | nil => rfl
  | append_singleton names last ih =>
    have hold : ((List.range names.length).filter fun i => (names ++ [last])[i]? = some name) =
        (List.range names.length).filter fun i => names[i]? = some name := by
      refine List.filter_congr fun i hi => ?_
      rw [List.getElem?_append_left (List.mem_range.mp hi)]
    rw [lastPosition?_concat, ← ih, List.length_append, List.length_singleton, List.range_succ,
      List.filter_append, hold, List.getLast?_append]
    by_cases hlast : last = name
    · simp [hlast]
    · simp [hlast]

theorem lastNamed?_eq (name : String) :
    set.lastNamed? name = lastPosition? name set.fullNames := by
  have hlength : set.fullNames.length = set.size := by
    rw [fullNames, List.length_map, Array.length_toList, size]
  rw [← getLast?_filter_range, hlength, lastNamed?]
  simp only [fullNames_getElem?]

/-- The dependencies of an assembly are what its references lead to. -/
theorem dependencies_eq_filterMap (u : Nat) :
    set.dependencies u = (set.referencesAt u).filterMap set.lastNamed? := by
  rw [dependencies, referencesAt, funext set.lastNamed?_eq]
  cases set.assemblies[u]? with
  | none | some => rfl

theorem visitNames_cons_of_unknown {name : String} {later : List String} {l : Listing}
    (h : set.lastNamed? name = none) :
    (set.visitNames (name :: later) l).1 = (set.visitNames later l).1 := by
  rw [visitNames]
  split
  case h_1 => rfl
  case h_2 hfound => cases h.symm.trans hfound

theorem visitNames_cons_of_known {name : String} {later : List String} {l : Listing} {node : Nat}
    (h : set.lastNamed? name = some node) :
    (set.visitNames (name :: later) l).1 = (set.visitNames later (set.visit l node)).1 := by
  rw [visitNames, visit]
  split
  case h_1 hnone => cases h.symm.trans hnone
  case h_2 found hfound =>
    obtain rfl := Option.some.inj (h.symm.trans hfound)
    by_cases hn : node ∈ l.unvisited
    · rw [dif_pos hn, if_pos hn]
    · rw [dif_neg hn, if_neg hn]

/-- **Following names is visiting what they lead to.** -/
theorem visitNames_eq (names : List String) (l : Listing) :
    (set.visitNames names l).1 =
      (Listing.visitAll set.dependencies (names.filterMap set.lastNamed?) l).1 := by
  induction names, l using visitNames.induct set with
  | case1 l =>
    rw [visitNames, List.filterMap_nil, Listing.visitAll_nil]
  | case2 l name later hname ih =>
    rw [visitNames_cons_of_unknown hname, List.filterMap_cons_none hname, ih]
  | case3 l name later node hname hn inner hinner ihinner ihouter =>
    rw [visitNames_cons_of_known hname, visit, if_pos hn, List.filterMap_cons_some hname,
      Listing.visitAll_cons_of_mem hn, dependencies_eq_filterMap node, ← ihinner]
    exact ihouter
  | case4 l name later node hname hn ih =>
    rw [visitNames_cons_of_known hname, visit, if_neg hn, List.filterMap_cons_some hname,
      Listing.visitAll_cons_of_not_mem hn, ih]

theorem visit_eq (l : Listing) (node : Nat) :
    set.visit l node = (Listing.visitAll set.dependencies [node] l).1 := by
  rw [visit]
  by_cases hn : node ∈ l.unvisited
  · rw [if_pos hn, Listing.visitAll_cons_of_mem hn, Listing.visitAll_nil, visitNames_eq,
      dependencies_eq_filterMap]
  · rw [if_neg hn, Listing.visitAll_cons_of_not_mem hn, Listing.visitAll_nil]

theorem foldl_visit (roots : List Nat) (l : Listing) :
    roots.foldl set.visit l = (Listing.visitAll set.dependencies roots l).1 := by
  induction roots generalizing l with
  | nil => rw [List.foldl_nil, Listing.visitAll_nil]
  | cons root roots ih => rw [List.foldl_cons, ih, visit_eq, ← Listing.visitAll_cons]

/-- The recursion along the references lists what the recursion on the graph lists. -/
theorem postOrder_eq (set : AssemblySet) :
    set.postOrder = Listing.postOrder set.size set.dependencies := by
  rw [postOrder, foldl_visit, Listing.postOrder]

/-- **The order of a set is the one that plain recursion gives**, whatever cycles and repeated
names the references have.  It visits the assemblies as they were accepted.  One that was visited
already is skipped; any other is marked, its references are gone through in their order, and then
it is listed.  A reference leads to the assembly that was accepted last under this full name, and
is skipped if there is none.  The recursion on the graph of dependencies gives the same.  As
several assemblies may have one path, the recursion lists positions. -/
theorem ordered_lists_postOrder (set : AssemblySet) :
    set.ordered.paths.map some = set.postOrder.map set.pathAt? ∧
      set.postOrder = Listing.postOrder set.size set.dependencies := by
  rw [ordered_paths, positions, Walk.finished_eq_postOrder, postOrder_eq]
  exact ⟨rfl, rfl⟩

end AssemblySet
end ScriptBackend
