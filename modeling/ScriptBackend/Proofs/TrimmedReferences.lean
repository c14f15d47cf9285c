import ScriptBackend.Proofs.DependencyCycle
import ScriptBackend.Proofs.PostOrder

/-! # References that do not count

A reference leads nowhere if no assembly of the set has that full name, and one that repeats an
earlier one of the same assembly leads where that one led.  Without such references the order of a
set is the same.

Unknown names lead to no position, so that they leave no trace in the graph; repeated names give
repeated successors (`AssemblySet.dependencies_trimmed`).  On the stack of a walk a repeated
successor lies several times, but in the recursion that lists the same nodes it is skipped, as it
was visited when it came first (`Listing.visitAll_eraseDups`).  The mark of a cycle is known from
which assemblies depend on which, and repetitions do not change that.
-/
namespace ScriptBackend

section EraseDups

variable {α β : Type} [BEq α] [BEq β]

/-- Induction along the removal of repetitions: the first member stays, and the others that equal
it go. -/
theorem eraseDups_induction {motive : List α → Prop} (nil : motive [])
    (cons : ∀ a l, motive (l.filter fun b => !b == a) → motive (a :: l)) (l : List α) :
    motive l :=
  match l with
  | [] => nil
  | a :: l => cons a l (eraseDups_induction nil cons (l.filter fun b => !b == a))
termination_by l.length
decreasing_by exact Nat.lt_succ_of_le (List.length_filter_le _ _)

/-- Repetitions can be removed before or after a function that tells the members apart. -/
theorem filterMap_eraseDups [LawfulBEq α] [LawfulBEq β] {f : α → Option β}
    (hinj : ∀ a b c, f a = some c → f b = some c → a = b) (l : List α) :
    l.eraseDups.filterMap f = (l.filterMap f).eraseDups := by
  induction l using eraseDups_induction with
  | nil => rfl
  | cons a l ih =>
    rw [List.eraseDups_cons]
    cases ha : f a with
    | none =>
      rw [List.filterMap_cons_none ha, List.filterMap_cons_none ha, ih, List.filterMap_filter]
      congr 1
      refine List.filterMap_congr fun b _ => ?_
      by_cases hb : b = a
      · simp [hb, ha]
      · simp [hb]
    | some c =>
      rw [List.filterMap_cons_some ha, List.filterMap_cons_some ha, List.eraseDups_cons, ih]
      congr 2
      rw [List.filterMap_filter, List.filter_filterMap]
      refine List.filterMap_congr fun b _ => ?_
      -- of the other members none has the image of the first one
      by_cases hb : b = a
      · simp [hb, ha, Option.filter_some]
      · cases hfb : f b with
        | none => simp
        | some d =>
          have hd : d ≠ c := fun h => hb (hinj b a c (h ▸ hfb) ha)
          simp [hb, hd, Option.filter_some]

end EraseDups

namespace Listing

variable {successors fewer : Nat → List Nat} {l : Listing} {node : Nat}

/-- A node that was visited can be left out. -/
theorem visitAll_filter_ne (h : node ∉ l.unvisited) (nodes : List Nat) :
    (visitAll successors (nodes.filter fun b => !b == node) l).1 =
      (visitAll successors nodes l).1 := by
  induction nodes generalizing l with
  | nil => rfl
  | cons first later ih =>
    by_cases hfirst : first = node
    · subst hfirst
      rw [List.filter_cons_of_neg (by simp), visitAll_cons_of_not_mem h, ih h]
    · rw [List.filter_cons_of_pos (by simpa using hfirst), visitAll_cons,
        visitAll_cons first later]
      exact ih fun hmem => h ((unvisited_visitAll_sublist [first]).subset hmem)

/-- A node is not left unvisited by a visit. -/
theorem Separate.not_mem_unvisited (hsep : l.Separate) (node : Nat) :
    node ∉ (Listing.visitAll successors [node] l).1.unvisited := by
  by_cases hn : node ∈ l.unvisited
  · obtain ⟨-, -, hknown⟩ := hsep.visitSuccessors successors hn
    rw [visitAll_cons_of_mem hn, visitAll_nil]
    exact fun hmem => ((hknown node).mp (Or.inl hmem)).1 rfl
  · rwa [visitAll_cons_of_not_mem hn, visitAll_nil]

/-- Repeated nodes can be left out. -/
theorem visitAll_eraseDups (hsep : l.Separate) (nodes : List Nat) :
    (visitAll successors nodes.eraseDups l).1 = (visitAll successors nodes l).1 := by
  induction nodes using eraseDups_induction generalizing l with
  | nil => rfl
  | cons node later ih =>
    rw [List.eraseDups_cons, visitAll_cons, visitAll_cons node later, ih (hsep.visitAll [node]),
      visitAll_filter_ne (hsep.not_mem_unvisited node)]

/-- **Repeated successors can be left out.** -/
theorem visitAll_eraseDups_successors (hsep : l.Separate) (nodes : List Nat) :
    (visitAll (fun a => (successors a).eraseDups) nodes l).1 = (visitAll successors nodes l).1 := by
  induction nodes, l using visitAll.induct successors with
  | case1 l => rw [visitAll_nil, visitAll_nil]
  | case2 l node later hn inner hinner ihinner ihouter =>
    obtain ⟨hmark, -⟩ := hsep.mark hn
    have hvisit : (visitAll successors [node] l).1.Separate := hsep.visitAll [node]
    rw [visitAll_cons_of_mem hn, visitAll_nil] at hvisit
    have hsame : (visitAll (fun a => (successors a).eraseDups) (successors node).eraseDups
        (l.mark node)).1 = inner.1 :=
      (visitAll_eraseDups hmark _).trans (ihinner hmark)
    rw [visitAll_cons_of_mem hn, visitAll_cons_of_mem hn, hsame, ihouter hvisit]
  | case3 l node later hn ih =>
    rw [visitAll_cons_of_not_mem hn, visitAll_cons_of_not_mem hn, ih hsep]

theorem postOrder_eraseDups (size : Nat) (successors : Nat → List Nat) :
    postOrder size (fun a => (successors a).eraseDups) = postOrder size successors := by
  have hsep : Separate { unvisited := List.range size } := ⟨List.nodup_range, nofun⟩
  rw [postOrder, visitAll_eraseDups_successors hsep, ← postOrder]

end Listing

/-- The manifest without the references that are unknown or repeat an earlier one. -/
def Manifest.trim (known : List String) (m : Manifest) : Manifest :=
  { m with references := (m.references.filter (· ∈ known)).eraseDups }

example : (Manifest.trim ["A", "B"] ⟨"C", ["B", "mscorlib", "A", "B"], []⟩).references =
    ["B", "A"] := by
  decide

namespace AssemblySet

/-- The set with trimmed manifests: known are the full names of its assemblies. -/
def trimmed (set : AssemblySet) : AssemblySet :=
  { set with assemblies :=
      set.assemblies.map fun a => { a with manifest := a.manifest.trim set.fullNames } }

/-- One name leads to one position only. -/
theorem lastPosition?_inj {names : List String} {a b : String} {i : Nat}
    (ha : lastPosition? a names = some i) (hb : lastPosition? b names = some i) : a = b := by
  have ha' := (lastPosition?_eq_some_iff.mp ha).1
  have hb' := (lastPosition?_eq_some_iff.mp hb).1
  exact Option.some.inj (ha'.symm.trans hb')

/-- Unknown references lead nowhere. -/
theorem filterMap_lastPosition?_filter (names references : List String) :
    (references.filter (· ∈ names)).filterMap (lastPosition? · names) =
      references.filterMap (lastPosition? · names) := by
  rw [List.filterMap_filter]
  refine List.filterMap_congr fun name _ => ?_
  by_cases hname : name ∈ names
  · simp [hname]
  · simp [hname, lastPosition?_eq_none_iff.mpr hname]

theorem fullNames_trimmed (set : AssemblySet) : set.trimmed.fullNames = set.fullNames := by
  rw [fullNames, trimmed, Array.toList_map, List.map_map]
  rfl

theorem pathAt?_trimmed (set : AssemblySet) : set.trimmed.pathAt? = set.pathAt? := by
  funext i
  rw [pathAt?, trimmed, Array.getElem?_map, Option.map_map]
  rfl

/-- The references that count keep their order. -/
theorem dependencies_trimmed (set : AssemblySet) (u : Nat) :
    set.trimmed.dependencies u = (set.dependencies u).eraseDups := by
  rw [dependencies, dependencies, fullNames_trimmed]
  have hget : set.trimmed.assemblies[u]? = set.assemblies[u]?.map fun a =>
      { a with manifest := a.manifest.trim set.fullNames } := Array.getElem?_map
  cases ha : set.assemblies[u]? with
  | none =>
    rw [hget, ha]
    rfl
  | some a =>
    rw [hget, ha]
    show ((a.manifest.references.filter (· ∈ set.fullNames)).eraseDups).filterMap
      (lastPosition? · set.fullNames) = _
    rw [filterMap_eraseDups fun _ _ _ => lastPosition?_inj, filterMap_lastPosition?_filter]

/-- **References that are unknown or repeat earlier ones do not change the order of a set**, nor
the mark of a cycle.  The references that stay are the names that some assembly of the set has as
its full name, each at the place where it came first. -/
theorem ordered_trimmed (set : AssemblySet) : set.trimmed.ordered = set.ordered := by
  have hdependencies : set.trimmed.dependencies = fun u => (set.dependencies u).eraseDups :=
    funext set.dependencies_trimmed
  have hsize : set.trimmed.size = set.size := Array.size_map
  have hpositions : set.trimmed.positions = set.positions := by
    rw [positions, positions, Walk.finished_eq_postOrder, Walk.finished_eq_postOrder, hsize,
      hdependencies, Listing.postOrder_eraseDups]
  have hpaths : set.trimmed.ordered.paths = set.ordered.paths := by
    refine ordered_paths_eq ?_
    rw [hpositions, pathAt?_trimmed, ← ordered_paths]
  have hcycle : set.trimmed.ordered.hasCycle = set.ordered.hasCycle := by
    have hdepends : ∀ u v, set.trimmed.DependsOn u v ↔ set.DependsOn u v := by
      intro u v
      rw [← mem_dependencies_iff, ← mem_dependencies_iff, dependencies_trimmed, List.mem_eraseDups]
    rw [Bool.eq_iff_iff]
    exact ⟨hasCycle_mono fun u v => (hdepends u v).mp, hasCycle_mono fun u v => (hdepends u v).mpr⟩
  exact (AssemblyOrder.mk.injEq ..).mpr ⟨hpaths, hcycle⟩

end AssemblySet
end ScriptBackend
