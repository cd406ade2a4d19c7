import Mathlib.Algebra.BigOperators.Group.List.Basic
import Mathlib.Data.List.Flatten
import Mathlib.Data.List.Perm.Basic

/-!
# Walking a tree

A breadth-first walk with a queue meets the nodes that a depth-first one meets, in another
order.
-/

namespace PqcScan
namespace Library

variable {α : Type}

/-- The nodes taken from a queue; the children of each go to its end. -/
def breadthFirst (children : α → List α) : Nat → List α → List α
  | 0, _ => []
  | _ + 1, [] => []
  | fuel + 1, node :: queue => node :: breadthFirst children fuel (queue ++ children node)

section Trees

variable {children nodes : α → List α}

/-- Enough fuel for all nodes that are reached. -/
theorem breadthFirst_perm
      (unfolds : ∀ node, nodes node = node :: (children node).flatMap nodes)
    {fuel : Nat} {queue : List α} (enough : (queue.flatMap nodes).length ≤ fuel) :
    (breadthFirst children fuel queue).Perm (queue.flatMap nodes) := by
  induction fuel generalizing queue with
  | zero =>
      rw [List.length_eq_zero_iff.mp (Nat.le_zero.mp enough)]
      exact List.Perm.nil
  | succ fuel inductionHypothesis =>
      cases queue with
      | nil => exact List.Perm.nil
      | cons node queue =>
          rw [List.flatMap_cons, unfolds, List.cons_append] at enough ⊢
          have later : ((queue ++ children node).flatMap nodes).Perm
              ((children node).flatMap nodes ++ queue.flatMap nodes) := by
            rw [List.flatMap_append]
            exact List.perm_append_comm
          rw [List.length_cons, ← later.length_eq] at enough
          exact ((inductionHypothesis (Nat.le_of_succ_le_succ enough)).trans later).cons
            node

end Trees

end Library
end PqcScan
