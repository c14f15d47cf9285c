import Mathlib.Data.List.Basic
import ScriptBackend.Selection

/-! # Selecting and sorting types

Types are compared by the ordinal of their kind and by their depth, which only classes have.
Sorting puts each type in front of the first that it precedes (`TypeSymbol.sort_cons`).  So it
does not matter whether types are sorted before or after some of them are picked
(`TypeSymbol.sort_filter`), and the lists of a selection are parts of one sorted list.

The sorted list is pinned down by two facts (`TypeSymbol.stablySorts_iff`): it is in order, and
from each group of types that tie it has the same part as the list it was made from.
-/
namespace ScriptBackend

/-- The depth of a class, and zero for the other kinds. -/
def TypeKind.depth (k : TypeKind) : Nat :=
  k.depth?.getD 0

namespace TypeSymbol

/-- Whether a type may be written before another. -/
def precedes (x y : TypeSymbol) : Bool :=
  x.order y != .gt

theorem sort_eq (types : List TypeSymbol) : sort types = types.mergeSort precedes := rfl

theorem precedes_iff_order {x y : TypeSymbol} : x.precedes y = true ↔ x.order y ≠ .gt := by
  simp [precedes]

/-- The order compares ordinals, and then depths. -/
theorem order_eq_compare (x y : TypeSymbol) :
    x.order y =
      (compare x.kind.ordinal y.kind.ordinal).then (compare x.kind.depth y.kind.depth) := by
  -- kinds of one ordinal are either both classes or have no depth
  unfold order
  cases x.kind <;> cases y.kind <;> rfl

/-- The kind decides, and among classes the depth. -/
theorem precedes_iff {x y : TypeSymbol} :
    x.precedes y = true ↔ x.kind.ordinal < y.kind.ordinal ∨
      x.kind.ordinal = y.kind.ordinal ∧ x.kind.depth ≤ y.kind.depth := by
  rw [precedes_iff_order, order_eq_compare, ne_eq, Ordering.then_eq_gt, Nat.compare_eq_gt,
    Nat.compare_eq_eq, Nat.compare_eq_gt]
  omega

theorem precedes_trans (x y z : TypeSymbol) (hxy : x.precedes y = true)
    (hyz : y.precedes z = true) : x.precedes z = true := by
  rw [precedes_iff] at *
  omega

theorem precedes_total (x y : TypeSymbol) : (x.precedes y || y.precedes x) = true := by
  rw [Bool.or_eq_true, precedes_iff, precedes_iff]
  omega

theorem sort_perm (types : List TypeSymbol) : (sort types).Perm types :=
  List.mergeSort_perm types precedes

/-- In a sorted list, the types that `t` precedes stand after those that it does not, and `t`
is sorted in between. -/
theorem sort_cons (t : TypeSymbol) (types : List TypeSymbol) :
    sort types = (sort types).filter (!t.precedes ·) ++ (sort types).filter (t.precedes ·) ∧
      sort (t :: types) =
        (sort types).filter (!t.precedes ·) ++ t :: (sort types).filter (t.precedes ·) := by
  obtain ⟨before, after, hcons, hrest, hbefore⟩ :=
    List.mergeSort_cons precedes_trans precedes_total t types
  have hsorted := List.pairwise_mergeSort precedes_trans precedes_total (t :: types)
  rw [hcons, List.pairwise_append, List.pairwise_cons] at hsorted
  have hafter : ∀ x ∈ after, t.precedes x = true := hsorted.2.1.1
  have hnot : (before ++ after).filter (!t.precedes ·) = before := by
    rw [List.filter_append, List.filter_eq_self.mpr hbefore,
      List.filter_eq_nil_iff.mpr fun x hx => by simp [hafter x hx], List.append_nil]
  have hpos : (before ++ after).filter (t.precedes ·) = after := by
    rw [List.filter_append, List.filter_eq_self.mpr hafter,
      List.filter_eq_nil_iff.mpr fun x hx => by simpa using hbefore x hx, List.nil_append]
  simp only [sort_eq, hcons, hrest, hnot, hpos, and_self]

/-- **Picking some of the types and sorting can be done in either order.** -/
theorem sort_filter (p : TypeSymbol → Bool) (types : List TypeSymbol) :
    sort (types.filter p) = (sort types).filter p := by
  induction types with
  | nil => simp [sort_eq]
  | cons t types ih =>
    obtain ⟨hsplit, hcons⟩ := sort_cons t types
    by_cases ht : p t = true
    · rw [List.filter_cons_of_pos ht, (sort_cons t (types.filter p)).2, ih, hcons,
        List.filter_append, List.filter_cons_of_pos ht, List.filter_filter, List.filter_filter,
        List.filter_filter, List.filter_filter]
      simp only [Bool.and_comm]
    · rw [List.filter_cons_of_neg ht, ih, hcons, List.filter_append, List.filter_cons_of_neg ht,
        ← List.filter_append, ← hsplit]

/-! ### The one sorted list -/

/-- The order does not tell two types apart. -/
def Ties (x y : TypeSymbol) : Prop :=
  x.order y = .eq

instance (x y : TypeSymbol) : Decidable (x.Ties y) :=
  inferInstanceAs (Decidable (x.order y = .eq))

theorem ties_iff {x y : TypeSymbol} :
    x.Ties y ↔ x.kind.ordinal = y.kind.ordinal ∧ x.kind.depth = y.kind.depth := by
  rw [Ties, order_eq_compare, Ordering.then_eq_eq, Nat.compare_eq_eq, Nat.compare_eq_eq]

theorem ties_self (x : TypeSymbol) : x.Ties x :=
  ties_iff.mpr ⟨rfl, rfl⟩

/-- Types that tie may stand in either order. -/
theorem ties_iff_precedes {x y : TypeSymbol} :
    x.Ties y ↔ x.precedes y = true ∧ y.precedes x = true := by
  rw [ties_iff, precedes_iff, precedes_iff]
  omega

/-- The types in the order in which they are written: none stands behind one that has to come
after it, and each group of types that tie is as it was.  Every type is in a group, so none is
lost or added. -/
structure StablySorts (types sorted : List TypeSymbol) : Prop where
  ordered : sorted.Pairwise fun x y => x.order y ≠ .gt
  ties : ∀ x : TypeSymbol, sorted.filter (x.Ties ·) = types.filter (x.Ties ·)

/-- **Sorting puts the types in order and is stable.** -/
theorem stablySorts_sort (types : List TypeSymbol) : StablySorts types (sort types) where
  ordered :=
    (List.pairwise_mergeSort precedes_trans precedes_total types).imp precedes_iff_order.mp
  ties x := by
    rw [← sort_filter, sort_eq]
    refine List.mergeSort_of_pairwise (List.pairwise_of_forall_mem_list fun y hy z hz => ?_)
    have hxy : x.Ties y := by simpa using (List.mem_filter.mp hy).2
    have hxz : x.Ties z := by simpa using (List.mem_filter.mp hz).2
    exact precedes_trans y x z (ties_iff_precedes.mp hxy).2 (ties_iff_precedes.mp hxz).1

/-- The first of the types in order precedes them all. -/
theorem precedes_of_mem {x y : TypeSymbol} {types : List TypeSymbol}
    (h : (x :: types).Pairwise fun x y => x.order y ≠ .gt) (hy : y ∈ x :: types) :
    x.precedes y = true := by
  rcases List.mem_cons.mp hy with rfl | hy
  · exact (ties_iff_precedes.mp y.ties_self).1
  · exact precedes_iff_order.mpr ((List.pairwise_cons.mp h).1 y hy)

theorem mem_of_ties {a b : List TypeSymbol}
    (h : ∀ x : TypeSymbol, a.filter (x.Ties ·) = b.filter (x.Ties ·)) {x : TypeSymbol}
    (hx : x ∈ a) : x ∈ b := by
  have hgroup : x ∈ a.filter (x.Ties ·) :=
    List.mem_filter.mpr ⟨hx, decide_eq_true x.ties_self⟩
  rw [h x] at hgroup
  exact (List.mem_filter.mp hgroup).1

/-- Lists in order with the same ties are one. -/
theorem eq_of_ties {a b : List TypeSymbol} (ha : a.Pairwise fun x y => x.order y ≠ .gt)
    (hb : b.Pairwise fun x y => x.order y ≠ .gt)
    (h : ∀ x : TypeSymbol, a.filter (x.Ties ·) = b.filter (x.Ties ·)) : a = b := by
  induction a generalizing b with
  | nil =>
    refine (List.eq_nil_iff_forall_not_mem.mpr fun x hx => ?_).symm
    exact List.not_mem_nil (mem_of_ties (fun x => (h x).symm) hx)
  | cons x a ih =>
    cases b with
    | nil => exact absurd (mem_of_ties h List.mem_cons_self) List.not_mem_nil
    | cons y b =>
      -- each list has the first type of the other, so the two tie and begin the same group
      have hxy : x.Ties y := ties_iff_precedes.mpr
        ⟨precedes_of_mem ha (mem_of_ties (fun x => (h x).symm) List.mem_cons_self),
          precedes_of_mem hb (mem_of_ties h List.mem_cons_self)⟩
      have hgroup := h x
      rw [List.filter_cons_of_pos (by simpa using x.ties_self),
        List.filter_cons_of_pos (by simpa using hxy)] at hgroup
      obtain rfl := (List.cons.inj hgroup).1
      have hrest : ∀ z : TypeSymbol, a.filter (z.Ties ·) = b.filter (z.Ties ·) := by
        intro z
        have hz := h z
        by_cases hzx : z.Ties x
        · rw [List.filter_cons_of_pos (by simpa using hzx),
            List.filter_cons_of_pos (by simpa using hzx)] at hz
          exact (List.cons.inj hz).2
        · rwa [List.filter_cons_of_neg (by simpa using hzx),
            List.filter_cons_of_neg (by simpa using hzx)] at hz
      rw [ih ha.of_cons hb.of_cons hrest]

/-- **Sorting gives the one list that is in order and keeps the ties as they were.** -/
theorem stablySorts_iff {types sorted : List TypeSymbol} :
    StablySorts types sorted ↔ sorted = sort types := by
  constructor
  · intro h
    have hsort := stablySorts_sort types
    exact eq_of_ties h.ordered hsort.ordered fun x => (h.ties x).trans (hsort.ties x).symm
  · rintro rfl
    exact stablySorts_sort types

/-! ### What is selected -/

/-- A type that is picked is picked as often as it is there. -/
theorem count_filter (types : List TypeSymbol) (p : TypeSymbol → Bool) (t : TypeSymbol) :
    (types.filter p).count t = if p t then types.count t else 0 := by
  by_cases ht : p t = true
  · rw [List.count_filter ht, if_pos ht]
  · rw [if_neg ht]
    exact List.count_eq_zero.mpr fun hmem => ht (List.mem_filter.mp hmem).2

/-- A type gets code if it is part of the application and no delegate, does not belong to tests
that are left out, and is no internal enumeration. -/
def Selectable (includeTests : Bool) (t : TypeSymbol) : Prop :=
  t.isApplication = true ∧ t.kind ≠ .delegate ∧ (t.isTest = true → includeTests = true) ∧
    ¬ (t.kind = .enumeration ∧ t.isPublic = false)

instance (includeTests : Bool) (t : TypeSymbol) : Decidable (t.Selectable includeTests) :=
  inferInstanceAs (Decidable (_ ∧ _ ∧ _ ∧ _))

theorem isSelected_iff {includeTests : Bool} {t : TypeSymbol} :
    t.isSelected includeTests = true ↔ t.Selectable includeTests := by
  unfold isSelected Selectable
  cases t.isTest <;> cases t.isPublic <;> simp [and_assoc]

theorem isApplication_of_isSelected {includeTests : Bool} {t : TypeSymbol}
    (h : t.isSelected includeTests = true) : t.isApplication = true :=
  (isSelected_iff.mp h).1

end TypeSymbol

/-- A namespace without application types would have no selected types anyway. -/
theorem SymbolSet.selected_eq (symbols : SymbolSet) (includeTests : Bool) :
    symbols.selected includeTests =
      (symbols.namespaces.flatMap (·.types)).filter (·.isSelected includeTests) := by
  rw [selected, List.filter_flatMap]
  induction symbols.namespaces with
  | nil => rfl
  | cons n namespaces ih =>
    by_cases hn : n.hasApplicationTypes = true
    · rw [List.filter_cons_of_pos hn, List.flatMap_cons, List.flatMap_cons, ih]
    · have hnone : n.types.filter (·.isSelected includeTests) = [] := by
        refine List.filter_eq_nil_iff.mpr fun t ht hsel => hn ?_
        exact List.any_eq_true.mpr ⟨t, ht, TypeSymbol.isApplication_of_isSelected hsel⟩
      rw [List.filter_cons_of_neg hn, List.flatMap_cons, ih, hnone, List.nil_append]

/-- **A selection has the types that get code, sorted, once as a whole and once divided by
visibility.**  Those types are picked from all namespaces, whether these have application types or
not.  Sorting is stable, the public and the internal types are in the same order as all of them,
and each type is as often in the list of its visibility as it was picked, and not in the other. -/
theorem SymbolSet.selection_sorts_selectable (symbols : SymbolSet) (includeTests : Bool) :
    let chosen := (symbols.namespaces.flatMap (·.types)).filter (·.Selectable includeTests)
    let selection := symbols.selection includeTests
    symbols.selected includeTests = chosen ∧
      (∀ sorted, TypeSymbol.StablySorts chosen sorted ↔ sorted = selection.types) ∧
      selection.publicTypes = selection.types.filter (·.isPublic) ∧
      selection.internalTypes = selection.types.filter (!·.isPublic) ∧
      ∀ t, selection.types.count t = chosen.count t ∧
        selection.publicTypes.count t = (if t.isPublic then chosen.count t else 0) ∧
        selection.internalTypes.count t = (if t.isPublic then 0 else chosen.count t) := by
  intro chosen selection
  have hchosen : symbols.selected includeTests = chosen := by
    rw [selected_eq]
    refine List.filter_congr fun t _ => ?_
    rw [Bool.eq_iff_iff, TypeSymbol.isSelected_iff, decide_eq_true_iff]
  have htypes : selection.types = TypeSymbol.sort chosen := by
    rw [← hchosen]
    rfl
  have hpublic : selection.publicTypes = selection.types.filter (·.isPublic) :=
    TypeSymbol.sort_filter _ _
  have hinternal : selection.internalTypes = selection.types.filter (!·.isPublic) :=
    TypeSymbol.sort_filter _ _
  have hcount : ∀ t, selection.types.count t = chosen.count t := by
    intro t
    rw [htypes]
    exact (TypeSymbol.sort_perm chosen).count_eq t
  refine ⟨hchosen, fun sorted => htypes ▸ TypeSymbol.stablySorts_iff, hpublic, hinternal,
    fun t => ⟨hcount t, ?_, ?_⟩⟩
  · rw [hpublic, TypeSymbol.count_filter selection.types, hcount t]
  · rw [hinternal, TypeSymbol.count_filter selection.types, hcount t]
    cases t.isPublic <;> rfl

end ScriptBackend
