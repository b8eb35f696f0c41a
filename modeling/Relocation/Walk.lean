set_option autoImplicit false

/-!
Depth-first walks over graphs given by a successor function.

A walk visits each node once, in the order of a recursive descent: a node, then everything new
below its first successor, then everything new below the second, and so on. `depth` bounds the
length of a path of new nodes, so the number of nodes that have successors, plus one, lets every
walk run to its end, through cycles too.
-/

namespace Relocation.Walk

variable {α : Type} [DecidableEq α]

/-- Adds a node and all that is new below it to the nodes seen so far, newest first. -/
def visit (next : α → List α) : Nat → List α → α → List α
  | 0, seen, _ => seen
  | depth + 1, seen, node =>
    if node ∈ seen then seen
    else (next node).foldl (visit next depth) (node :: seen)

/-- All nodes reachable from the starting nodes, in the order in which the walk finds them. -/
def reachable (next : α → List α) (depth : Nat) (starts : List α) : List α :=
  (starts.foldl (visit next depth) []).reverse

end Relocation.Walk
