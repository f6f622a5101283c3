/-!
# Reaching a node of a graph

A search from nodes still to do to a node that is wanted. It goes on from each node once: what
has not been seen becomes less or what is to do becomes less, so the search ends on every graph.
-/

namespace Backwire.Package

variable {α : Type} [DecidableEq α]

/-- Whether `wanted` is one of the nodes to do or can be reached from one of them by way of
unseen nodes. -/
def reachesFrom (next : α → List α) (wanted : α) (unseen : List α) : List α → Bool
  | [] => false
  | a :: todo =>
    if a = wanted then true
    else if a ∈ unseen then reachesFrom next wanted (unseen.erase a) (next a ++ todo)
    else reachesFrom next wanted unseen todo
  termination_by todo => (unseen.length, todo.length)
  decreasing_by
    · next h =>
      have := List.length_erase_of_mem h
      have := List.length_pos_of_mem h
      exact Prod.Lex.left _ _ (by omega)
    · exact Prod.Lex.right _ (Nat.lt_succ_self _)

end Backwire.Package
