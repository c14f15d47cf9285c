import Mathlib.Data.List.Basic
import Mathlib.Logic.Relation
import ScriptBackend.Reference.Walk

/-! # The order of a walk

A walk lists every node once, and each node after its successors, except where a successor
leads back to the node.

The argument is about the *schedule* of a walk under way: the finished nodes followed by the
stack from its top.  Finishing a node leaves the schedule as it is, dropping a node that is
finished already takes away a repetition, and discovering a node puts successors right
before it.  So once a discovered node has a successor before it in the schedule, this stays,
and in the end the schedule is the list of finished nodes.

What remains are the successors that are *open* when their node is discovered, which means
discovered but not finished.  An open node stays on the stack, and everything above it there
was found from it (`Invariant.leads`), so the node is reached from such a successor.
-/
namespace ScriptBackend
namespace Walk

variable {size : Nat} {successors : Nat → List Nat} {w : Walk} {stack below : List Nat} {node : Nat}

/-- There is an edge from `a` to `b`. -/
def Edge (successors : Nat → List Nat) (a b : Nat) : Prop :=
  b ∈ successors a

/-- `b` is reached from `a` along edges. -/
def Reaches (successors : Nat → List Nat) : Nat → Nat → Prop :=
  Relation.ReflTransGen (Edge successors)

/-- The edges of the graph stay among the nodes below `size`. -/
def Closed (size : Nat) (successors : Nat → List Nat) : Prop :=
  ∀ a < size, ∀ b ∈ successors a, b < size

/-- The nodes in the order in which they are finished next, with repetitions. -/
def schedule (w : Walk) (stack : List Nat) : List Nat :=
  w.finished ++ stack

/-- What holds of a walk and its stack at any time. -/
structure Invariant (size : Nat) (successors : Nat → List Nat) (w : Walk) (stack : List Nat) :
    Prop where
  fresh_nodup : w.fresh.Nodup
  finished_nodup : w.finished.Nodup
  /-- A finished node is not fresh. -/
  finished_not_fresh : ∀ x ∈ w.finished, x ∉ w.fresh
  /-- Every node is still fresh or has its place in the schedule. -/
  mem_iff : ∀ x, x < size ↔ x ∈ w.fresh ∨ x ∈ w.schedule stack
  /-- An open node leads to everything above it on the stack. -/
  leads : ∀ x ∈ stack, x ∉ w.fresh → x ∉ w.finished →
    ∀ y, stack.idxOf y < stack.idxOf x → Reaches successors x y
  /-- A successor of a discovered node comes before it, or leads back to it. -/
  settled : ∀ x < size, x ∉ w.fresh → ∀ y ∈ successors x,
    (w.schedule stack).idxOf y < (w.schedule stack).idxOf x ∨ Reaches successors y x

/-! ### Places in a list -/

/-- What stands after the first part of a list comes later than what is in it. -/
theorem idxOf_lt_append {l r : List Nat} {a b : Nat} (ha : a ∈ l) (hb : b ∉ l) :
    (l ++ r).idxOf a < (l ++ r).idxOf b := by
  have hlt : l.idxOf a < l.length := List.idxOf_lt_length_of_mem ha
  rw [List.idxOf_append_of_mem ha, List.idxOf_append_of_notMem hb]
  omega

/-- What comes before a member of the first part is in it too. -/
theorem mem_of_idxOf_lt {l r : List Nat} {a b : Nat} (hb : b ∈ l)
    (h : (l ++ r).idxOf a < (l ++ r).idxOf b) : a ∈ l := by
  by_contra ha
  exact Nat.lt_asymm h (idxOf_lt_append hb ha)

/-- Without the first part the order stays for all that is not in it. -/
theorem idxOf_append_lt_iff {l r : List Nat} {a b : Nat} (ha : a ∉ l) (hb : b ∉ l) :
    (l ++ r).idxOf a < (l ++ r).idxOf b ↔ r.idxOf a < r.idxOf b := by
  rw [List.idxOf_append_of_notMem ha, List.idxOf_append_of_notMem hb]
  omega

/-- The order of what stands after `l` can change only if that part of the list changes. -/
theorem idxOf_lt_of_tail {l r r' : List Nat} {a b : Nat}
    (h : (l ++ r).idxOf a < (l ++ r).idxOf b)
    (tail : a ∉ l → b ∉ l → r.idxOf a < r.idxOf b → r'.idxOf a < r'.idxOf b) :
    (l ++ r').idxOf a < (l ++ r').idxOf b := by
  by_cases hb : b ∈ l
  · have ha : a ∈ l := mem_of_idxOf_lt hb h
    rw [List.idxOf_append_of_mem ha, List.idxOf_append_of_mem hb] at h ⊢
    exact h
  · by_cases ha : a ∈ l
    · exact idxOf_lt_append ha hb
    · exact (idxOf_append_lt_iff ha hb).mpr (tail ha hb ((idxOf_append_lt_iff ha hb).mp h))

/-- What is put on top keeps the order, if it does not repeat the later of the two. -/
theorem idxOf_lt_push {m r : List Nat} {a b : Nat} (hb : b ∉ m) (h : r.idxOf a < r.idxOf b) :
    (m ++ r).idxOf a < (m ++ r).idxOf b := by
  by_cases ha : a ∈ m
  · exact idxOf_lt_append ha hb
  · exact (idxOf_append_lt_iff ha hb).mpr h

/-- What is taken from the top keeps the order of the rest. -/
theorem idxOf_lt_pop {r : List Nat} {a b c : Nat} (ha : a ≠ c) (hb : b ≠ c) :
    (c :: r).idxOf a < (c :: r).idxOf b ↔ r.idxOf a < r.idxOf b := by
  rw [List.idxOf_cons_ne r ha.symm, List.idxOf_cons_ne r hb.symm, Nat.succ_lt_succ_iff]

/-! ### What one step does -/

theorem mem_fresh_discover (inv : Invariant size successors w stack) {x : Nat} :
    x ∈ (w.discover node).fresh ↔ x ≠ node ∧ x ∈ w.fresh :=
  inv.fresh_nodup.mem_erase_iff

/-- Pushed one by one from the newest edge on, the successors that are fresh lie on the stack in
their order. -/
theorem push_neighbours (successors : Nat → List Nat) (w : Walk) (node : Nat) (stack : List Nat) :
    w.push (neighbours successors node) stack =
      (successors node).filter (w.fresh.contains ·) ++ stack := by
  rw [push, neighbours, List.foldl_reverse]
  induction successors node with
  | nil => rfl
  | cons first others ih =>
    rw [List.foldr_cons, ih]
    by_cases hfirst : first ∈ w.fresh
    · rw [if_pos hfirst, List.filter_cons_of_pos (List.contains_iff_mem.mpr hfirst),
        List.cons_append]
    · rw [if_neg hfirst, List.filter_cons_of_neg (by simpa using hfirst)]

/-- The successors that go on the stack when their node is discovered. -/
theorem mem_pushed {x : Nat} :
    x ∈ (successors node).filter ((w.discover node).fresh.contains ·) ↔
      x ∈ successors node ∧ x ∈ (w.discover node).fresh := by
  simp only [List.mem_filter, List.contains_iff_mem]

/-- An open successor of the node on top of the stack leads back to it. -/
theorem Invariant.reaches_top (closed : Closed size successors)
    (inv : Invariant size successors w (node :: below)) (hn : node ∈ w.fresh) {y : Nat}
    (hy : y ∈ successors node) (hfresh : y ∉ (w.discover node).fresh)
    (hfin : y ∉ w.finished) : Reaches successors y node := by
  by_cases hyn : y = node
  · subst hyn
    exact Relation.ReflTransGen.refl
  · have hnode : node < size := (inv.mem_iff node).mpr (Or.inl hn)
    have hyfresh : y ∉ w.fresh := fun h => hfresh ((mem_fresh_discover inv).mpr ⟨hyn, h⟩)
    have hstack : y ∈ node :: below := by
      rcases (inv.mem_iff y).mp (closed node hnode y hy) with h | h
      · exact absurd h hyfresh
      · exact (List.mem_append.mp h).resolve_left hfin
    refine inv.leads y hstack hyfresh hfin node ?_
    rw [List.idxOf_cons_self, List.idxOf_cons_ne below (Ne.symm hyn)]
    exact Nat.succ_pos _

theorem Invariant.discover (closed : Closed size successors)
    (inv : Invariant size successors w (node :: below)) (hn : node ∈ w.fresh) :
    Invariant size successors (w.discover node)
      ((successors node).filter ((w.discover node).fresh.contains ·) ++ node :: below) := by
  have hnfin : node ∉ w.finished := fun h => inv.finished_not_fresh node h hn
  have hold {x : Nat} (hx : x ∉ (w.discover node).fresh) (hxn : x ≠ node) :
      x ∉ w.fresh := fun h => hx ((mem_fresh_discover inv).mpr ⟨hxn, h⟩)
  have hpushed {x : Nat} (hx : x ∉ (w.discover node).fresh) :
      x ∉ (successors node).filter ((w.discover node).fresh.contains ·) :=
    fun h => hx (mem_pushed.mp h).2
  have hnpushed := hpushed (x := node) fun h => ((mem_fresh_discover inv).mp h).1 rfl
  constructor
  case fresh_nodup => exact inv.fresh_nodup.erase node
  case finished_nodup => exact inv.finished_nodup
  case finished_not_fresh =>
    intro x hx h
    exact inv.finished_not_fresh x hx ((mem_fresh_discover inv).mp h).2
  case mem_iff =>
    intro x
    rw [inv.mem_iff x, mem_fresh_discover inv]
    simp only [schedule, List.mem_append, List.mem_cons, mem_pushed, mem_fresh_discover inv]
    by_cases hxn : x = node
    · simp [hxn]
    · simp only [hxn, ne_eq, not_false_eq_true, true_and, false_or]
      tauto
  case leads =>
    intro x hx hxfresh hxfin y hlt
    have hxpushed := hpushed hxfresh
    have hxstack : x ∈ node :: below := (List.mem_append.mp hx).resolve_left hxpushed
    by_cases hxn : x = node
    · -- above the node itself there are only its successors
      subst hxn
      have hy : y ∈ (successors x).filter ((w.discover x).fresh.contains ·) := by
        by_contra hy
        rw [idxOf_append_lt_iff hy hxpushed, List.idxOf_cons_self] at hlt
        exact Nat.not_lt_zero _ hlt
      exact Relation.ReflTransGen.single (mem_pushed.mp hy).1
    · have hleads := inv.leads x hxstack (hold hxfresh hxn) hxfin
      by_cases hy : y ∈ (successors node).filter ((w.discover node).fresh.contains ·)
      · -- what was pushed is found from the node, which stood above `x` before
        refine (hleads node ?_).tail (mem_pushed.mp hy).1
        rw [List.idxOf_cons_self, List.idxOf_cons_ne below (Ne.symm hxn)]
        exact Nat.succ_pos _
      · exact hleads y ((idxOf_append_lt_iff hy hxpushed).mp hlt)
  case settled =>
    intro x hx hxfresh y hy
    by_cases hxn : x = node
    · -- a successor is pushed if it is fresh, and if it is finished it comes first anyway
      subst hxn
      by_cases hsched : y ∈ (w.discover x).fresh ∨ y ∈ w.finished
      · left
        rw [schedule, ← List.append_assoc]
        refine idxOf_lt_append ?_ ?_
        · rcases hsched with h | h
          · exact List.mem_append_right _ (mem_pushed.mpr ⟨hy, h⟩)
          · exact List.mem_append_left _ h
        · rw [List.mem_append, not_or]
          exact ⟨hnfin, hnpushed⟩
      · rw [not_or] at hsched
        exact Or.inr (inv.reaches_top closed hn hy hsched.1 hsched.2)
    · -- for a node discovered before, nothing that is pushed repeats it
      refine (inv.settled x hx (hold hxfresh hxn) y hy).imp_left fun h => ?_
      exact idxOf_lt_of_tail h fun _ _ => idxOf_lt_push (hpushed hxfresh)

/-- What an open node leads to does not depend on a node above it that leaves the stack. -/
theorem Invariant.leads_below (inv : Invariant size successors w (node :: below)) {x : Nat}
    (hx : x ∈ below) (hxn : x ≠ node) (hfresh : x ∉ w.fresh) (hfin : x ∉ w.finished) {y : Nat}
    (hlt : below.idxOf y < below.idxOf x) : Reaches successors x y := by
  refine inv.leads x (List.mem_cons_of_mem node hx) hfresh hfin y ?_
  by_cases hyn : y = node
  · subst hyn
    rw [List.idxOf_cons_self, List.idxOf_cons_ne below (Ne.symm hxn)]
    exact Nat.succ_pos _
  · exact (idxOf_lt_pop hyn hxn).mpr hlt

/-- A finished node on top of the stack is dropped. -/
theorem Invariant.drop (inv : Invariant size successors w (node :: below))
    (hfin : node ∈ w.finished) : Invariant size successors w below where
  fresh_nodup := inv.fresh_nodup
  finished_nodup := inv.finished_nodup
  finished_not_fresh := inv.finished_not_fresh
  mem_iff x := by
    rw [inv.mem_iff x]
    simp only [schedule, List.mem_append, List.mem_cons]
    constructor
    · rintro (h | h | rfl | h)
      · exact Or.inl h
      · exact Or.inr (Or.inl h)
      · exact Or.inr (Or.inl hfin)
      · exact Or.inr (Or.inr h)
    · rintro (h | h | h)
      · exact Or.inl h
      · exact Or.inr (Or.inl h)
      · exact Or.inr (Or.inr (Or.inr h))
  leads x hx hxfresh hxfin y hlt :=
    inv.leads_below hx (fun h => hxfin (h ▸ hfin)) hxfresh hxfin hlt
  settled x hx hxfresh y hy := by
    refine (inv.settled x hx hxfresh y hy).imp_left fun h => idxOf_lt_of_tail h ?_
    intro hyfin hxfin
    have hyn : y ≠ node := fun h => hyfin (h ▸ hfin)
    have hxn : x ≠ node := fun h => hxfin (h ▸ hfin)
    exact (idxOf_lt_pop hyn hxn).mp

/-- An open node on top of the stack is finished. -/
theorem Invariant.finish (inv : Invariant size successors w (node :: below))
    (hfresh : node ∉ w.fresh) (hfin : node ∉ w.finished) :
    Invariant size successors (w.finish node) below := by
  -- the node only moves across the border between the two parts of the schedule
  have hschedule : (w.finish node).schedule below = w.schedule (node :: below) := by
    simp [schedule]
  constructor
  case fresh_nodup => exact inv.fresh_nodup
  case finished_nodup =>
    refine List.nodup_append.mpr ⟨inv.finished_nodup, List.pairwise_singleton _ node, ?_⟩
    intro x hx y hy hxy
    rw [List.mem_singleton] at hy
    exact hfin (hy ▸ hxy ▸ hx)
  case finished_not_fresh =>
    intro x hx
    rcases List.mem_append.mp hx with h | h
    · exact inv.finished_not_fresh x h
    · exact List.mem_singleton.mp h ▸ hfresh
  case mem_iff =>
    intro x
    rw [hschedule]
    exact inv.mem_iff x
  case leads =>
    intro x hx hxfresh hxfin y hlt
    rw [finished_finish, List.mem_append, not_or, List.mem_singleton] at hxfin
    exact inv.leads_below hx hxfin.2 hxfresh hxfin.1 hlt
  case settled =>
    intro x hx hxfresh y hy
    rw [hschedule]
    exact inv.settled x hx hxfresh y hy

/-- A fresh node is put on the empty stack. -/
theorem Invariant.root (inv : Invariant size successors w []) (hn : node ∈ w.fresh) :
    Invariant size successors w [node] := by
  have hnfin : node ∉ w.finished := fun h => inv.finished_not_fresh node h hn
  constructor
  case fresh_nodup => exact inv.fresh_nodup
  case finished_nodup => exact inv.finished_nodup
  case finished_not_fresh => exact inv.finished_not_fresh
  case mem_iff =>
    intro x
    rw [inv.mem_iff x]
    simp only [schedule, List.append_nil, List.mem_append, List.mem_singleton]
    by_cases hxn : x = node
    · simp [hxn, hn]
    · simp [hxn]
  case leads =>
    intro x hx hxfresh
    exact absurd hn (List.mem_singleton.mp hx ▸ hxfresh)
  case settled =>
    intro x hx hxfresh y hy
    refine (inv.settled x hx hxfresh y hy).imp_left fun h => ?_
    have hxfin : x ∈ w.finished ++ [] := ((inv.mem_iff x).mp hx).resolve_left hxfresh
    rw [List.append_nil] at hxfin
    refine idxOf_lt_of_tail h fun _ hxfin' => absurd hxfin hxfin'

/-! ### Whole walks -/

theorem Invariant.run (closed : Closed size successors)
    (inv : Invariant size successors w stack) :
    Invariant size successors (w.run successors stack) [] := by
  fun_induction Walk.run successors w stack with
  | case1 w => exact inv
  | case2 w node below hn next ih =>
    rw [push_neighbours] at ih ⊢
    exact ih (inv.discover closed hn)
  | case3 w node below hn hfin ih => exact ih (inv.drop hfin)
  | case4 w node below hn hfin ih => exact ih (inv.finish hn hfin)

/-- Nothing becomes fresh again. -/
theorem fresh_run_subset (successors : Nat → List Nat) (w : Walk) (stack : List Nat) :
    (w.run successors stack).fresh ⊆ w.fresh := by
  fun_induction Walk.run successors w stack with
  | case1 w => exact List.Subset.refl _
  | case2 w node below hn next =>
    rename_i ih
    exact List.Subset.trans ih List.erase_subset
  | case3 w node below hn hfin ih => exact ih
  | case4 w node below hn hfin ih => exact ih

/-- Everything on the stack gets discovered. -/
theorem not_mem_fresh_run (inv : Invariant size successors w stack)
    (closed : Closed size successors) : ∀ x ∈ stack, x ∉ (w.run successors stack).fresh := by
  fun_induction Walk.run successors w stack with
  | case1 w => exact fun x hx => absurd hx List.not_mem_nil
  | case2 w node below hn next ih =>
    rw [push_neighbours] at ih ⊢
    exact fun x hx => ih (inv.discover closed hn) x (List.mem_append_right _ hx)
  | case3 w node below hn hfin ih =>
    intro x hx
    rcases List.mem_cons.mp hx with rfl | hx
    · exact fun h => hn (fresh_run_subset successors w below h)
    · exact ih (inv.drop hfin) x hx
  | case4 w node below hn hfin ih =>
    intro x hx
    rcases List.mem_cons.mp hx with rfl | hx
    · exact fun h => hn (fresh_run_subset successors (w.finish x) below h)
    · exact ih (inv.finish hn hfin) x hx

/-- The walk after it was started at each of some nodes that was still fresh. -/
def startAll (successors : Nat → List Nat) (w : Walk) (roots : List Nat) : Walk :=
  roots.foldl (fun w root => if root ∈ w.fresh then w.run successors [root] else w) w

/-- Starting at more nodes keeps the invariant, and leaves none of them fresh. -/
theorem Invariant.startAll (closed : Closed size successors) (roots : List Nat)
    (inv : Invariant size successors w []) :
    Invariant size successors (w.startAll successors roots) [] ∧
      ∀ x ∈ (w.startAll successors roots).fresh, x ∈ w.fresh ∧ x ∉ roots := by
  induction roots generalizing w with
  | nil => exact ⟨inv, fun x hx => ⟨hx, List.not_mem_nil⟩⟩
  | cons root roots ih =>
    rw [Walk.startAll, List.foldl_cons, ← Walk.startAll]
    by_cases hroot : root ∈ w.fresh
    · rw [if_pos hroot]
      have inv' := inv.root hroot
      obtain ⟨hinv, hfresh⟩ := ih (inv'.run closed)
      refine ⟨hinv, fun x hx => ?_⟩
      obtain ⟨hx, hxroots⟩ := hfresh x hx
      refine ⟨fresh_run_subset successors w [root] hx, ?_⟩
      rintro (_ | ⟨_, h⟩)
      · exact not_mem_fresh_run inv' closed root (List.mem_singleton_self root) hx
      · exact hxroots h
    · rw [if_neg hroot]
      obtain ⟨hinv, hfresh⟩ := ih inv
      refine ⟨hinv, fun x hx => ?_⟩
      obtain ⟨hx, hxroots⟩ := hfresh x hx
      refine ⟨hx, ?_⟩
      rintro (_ | ⟨_, h⟩)
      · exact hroot hx
      · exact hxroots h

theorem invariant_initial : Invariant size successors { fresh := List.range size } [] where
  fresh_nodup := List.nodup_range
  finished_nodup := List.Pairwise.nil
  finished_not_fresh x hx := absurd hx List.not_mem_nil
  mem_iff x := by simp [schedule]
  leads x hx := absurd hx List.not_mem_nil
  settled x hx hfresh := absurd (List.mem_range.mpr hx) hfresh

theorem invariant_ofGraph (closed : Closed size successors) :
    Invariant size successors (ofGraph size successors) [] :=
  (invariant_initial.startAll closed (List.range size)).1

theorem fresh_ofGraph (closed : Closed size successors) : (ofGraph size successors).fresh = [] := by
  refine List.eq_nil_iff_forall_not_mem.mpr fun x hx => ?_
  obtain ⟨h, hroots⟩ := (invariant_initial.startAll closed (List.range size)).2 x hx
  exact hroots h

/-- **Each node is listed exactly once.** -/
theorem finished_perm (closed : Closed size successors) :
    (ofGraph size successors).finished.Perm (List.range size) := by
  have inv := invariant_ofGraph closed
  refine (List.perm_ext_iff_of_nodup inv.finished_nodup List.nodup_range).mpr fun x => ?_
  rw [List.mem_range, inv.mem_iff x, fresh_ofGraph closed, schedule, List.append_nil]
  simp

/-- **A successor is listed before its node, unless the node is reached from it.** -/
theorem idxOf_finished_lt (closed : Closed size successors) {x y : Nat} (hx : x < size)
    (hy : y ∈ successors x) (hback : ¬ Reaches successors y x) :
    (ofGraph size successors).finished.idxOf y < (ofGraph size successors).finished.idxOf x := by
  have hfresh : x ∉ (ofGraph size successors).fresh := by
    rw [fresh_ofGraph closed]
    exact List.not_mem_nil
  have hsettled := (invariant_ofGraph closed).settled x hx hfresh y hy
  rw [schedule, List.append_nil] at hsettled
  exact hsettled.resolve_right hback

end Walk
end ScriptBackend
