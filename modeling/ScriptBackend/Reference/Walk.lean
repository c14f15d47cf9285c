/-! # Depth-first walks

A walk visits the nodes of a finite graph depth first and lists each node after its
successors, as far as cycles allow.  It keeps a stack.  A node that comes to its top for the
first time is discovered: it stays there, and its neighbours are pushed one after another,
except those that are discovered already.  When it comes to the top again, it is finished,
and leaves the stack.

The edges of a node are gone through from the newest to the oldest (`neighbours`), so the
successor that was added first is pushed last and lies uppermost.
-/
namespace ScriptBackend

/-- The successors of a node, that of the newest edge first. -/
def neighbours (successors : Nat → List Nat) (node : Nat) : List Nat :=
  (successors node).reverse

/-- How far a walk has come. -/
structure Walk where
  /-- The nodes that are not discovered yet. -/
  fresh : List Nat
  /-- The finished nodes, in the order in which they were. -/
  finished : List Nat := []
  deriving DecidableEq, Repr

namespace Walk

/-- The walk after a node is discovered. -/
def discover (w : Walk) (node : Nat) : Walk :=
  { w with fresh := w.fresh.erase node }

/-- The walk after a node is finished. -/
def finish (w : Walk) (node : Nat) : Walk :=
  { w with finished := w.finished ++ [node] }

@[simp]
theorem finished_discover (w : Walk) (node : Nat) : (w.discover node).finished = w.finished := rfl

@[simp]
theorem fresh_finish (w : Walk) (node : Nat) : (w.finish node).fresh = w.fresh := rfl

@[simp]
theorem finished_finish (w : Walk) (node : Nat) :
    (w.finish node).finished = w.finished ++ [node] := rfl

theorem length_fresh_discover_lt {w : Walk} {node : Nat} (h : node ∈ w.fresh) :
    (w.discover node).fresh.length < w.fresh.length := by
  have hpos : 0 < w.fresh.length := List.length_pos_of_mem h
  show (w.fresh.erase node).length < w.fresh.length
  rw [List.length_erase_of_mem h]
  omega

/-- The stack after some nodes were pushed one after another, except those that are
discovered. -/
def push (w : Walk) (nodes stack : List Nat) : List Nat :=
  nodes.foldl (fun stack node => if node ∈ w.fresh then node :: stack else stack) stack

/-- The walk after everything on the stack is finished. -/
def run (successors : Nat → List Nat) (w : Walk) (stack : List Nat) : Walk :=
  match stack with
  | [] => w
  | node :: below =>
    if _h : node ∈ w.fresh then
      let next := w.discover node
      next.run successors (next.push (neighbours successors node) (node :: below))
    else if node ∈ w.finished then w.run successors below
    else (w.finish node).run successors below
termination_by (w.fresh.length, stack.length)
decreasing_by
  · exact Prod.Lex.left _ _ (length_fresh_discover_lt _h)
  · exact Prod.Lex.right _ (Nat.lt_succ_self _)
  · exact Prod.Lex.right _ (Nat.lt_succ_self _)

/-- The walk of the graph with the nodes below `size`, started at each node in turn. -/
def ofGraph (size : Nat) (successors : Nat → List Nat) : Walk :=
  (List.range size).foldl (fun w root => if root ∈ w.fresh then w.run successors [root] else w)
    { fresh := List.range size }

end Walk

end ScriptBackend
