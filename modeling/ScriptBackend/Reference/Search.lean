import ScriptBackend.Reference.Walk

/-! # Searching for cycles

A search follows the edges of a graph depth first and gives up at the first one that leads
back, which is an edge to a node that is discovered but not finished.  It keeps the account
of a walk, but no stack: a node is finished when all its edges have been followed.
-/
namespace ScriptBackend
namespace Walk

/-- Edges to some targets are followed one after another, each as far as it leads.  There is
no result if one leads back.  Nothing becomes fresh again. -/
def exploreBounded (successors : Nat → List Nat) (targets : List Nat) (w : Walk) :
    Option { after : Walk // after.fresh.length ≤ w.fresh.length } :=
  match targets with
  | [] => some ⟨w, Nat.le_refl _⟩
  | target :: others =>
    if h : target ∈ w.fresh then do
      let inner ← exploreBounded successors (neighbours successors target) (w.discover target)
      have hinner : inner.1.fresh.length < w.fresh.length :=
        Nat.lt_of_le_of_lt inner.2 (length_fresh_discover_lt h)
      let outer ← exploreBounded successors others (inner.1.finish target)
      return ⟨outer.1, Nat.le_trans outer.2 (Nat.le_of_lt hinner)⟩
    else if target ∈ w.finished then exploreBounded successors others w
    else none
termination_by (w.fresh.length, targets.length)
decreasing_by
  · exact Prod.Lex.left _ _ (length_fresh_discover_lt h)
  · exact Prod.Lex.left _ _ hinner
  · exact Prod.Lex.right _ (Nat.lt_succ_self _)

/-- The search after edges to some targets were followed, unless one leads back. -/
def explore (successors : Nat → List Nat) (targets : List Nat) (w : Walk) : Option Walk :=
  (exploreBounded successors targets w).map (·.1)

/-- The search after it was started at a node, which is skipped if it is discovered already. -/
def exploreFrom (successors : Nat → List Nat) (w : Walk) (root : Nat) : Option Walk :=
  if root ∈ w.fresh then explore successors [root] w else some w

/-- Whether a search of the graph with the nodes below `size`, started at each node in turn,
comes across an edge that leads back. -/
def findsCycle (size : Nat) (successors : Nat → List Nat) : Bool :=
  match (List.range size).foldlM (exploreFrom successors) { fresh := List.range size } with
  | some _ => false
  | none => true

end Walk
end ScriptBackend
