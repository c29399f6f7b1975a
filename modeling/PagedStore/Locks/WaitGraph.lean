import PagedStore.Identity

/-!
Who waits for whom, and a depth-first search for a cycle of waits through one transaction.
-/
namespace PagedStore

abbrev WaitGraph := Std.ExtTreeMap TxnId (List TxnId)

namespace WaitGraph

/-- A transaction on the path searched, with those it waits for that are still to be tried. -/
structure Visit where
  txn : TxnId
  untried : List TxnId
deriving DecidableEq

def effort : List Visit → Nat
  | [] => 0
  | visit :: path => visit.untried.length + 1 + effort path

/-- Searches on from a path, its last transaction in front, for a wait that leads back to the start.
A transaction leaves the unexplored ones when the path first reaches it. -/
def search (start : TxnId) (unexplored : WaitGraph) (path : List Visit) : Option (List TxnId) :=
  match path with
  | [] => none
  | ⟨_, []⟩ :: path => search start unexplored path
  | ⟨txn, next :: untried⟩ :: path =>
    if next = start then some (txn :: path.map Visit.txn).reverse
    else
      match _found : unexplored[next]? with
      | none => search start unexplored (⟨txn, untried⟩ :: path)
      | some onward =>
        search start (unexplored.erase next) (⟨next, onward⟩ :: ⟨txn, untried⟩ :: path)
termination_by (unexplored.size, effort path)
decreasing_by
  · exact Prod.Lex.right _ (by simp only [effort, List.length_nil]; omega)
  · exact Prod.Lex.right _ (by simp only [effort, List.length_cons]; omega)
  · apply Prod.Lex.left
    have present : next ∈ unexplored :=
      Std.ExtTreeMap.mem_iff_isSome_getElem?.2 (by rw [_found]; rfl)
    have some_left : unexplored.size ≠ 0 := fun none_left => by
      simp [Std.ExtTreeMap.eq_empty_iff_size_eq_zero.2 none_left] at present
    rw [Std.ExtTreeMap.size_erase, if_pos (Std.ExtTreeMap.mem_iff_contains.1 present)]
    omega

def cycle? (graph : WaitGraph) (start : TxnId) : Option (List TxnId) :=
  search start graph [⟨start, graph[start]?.getD []⟩]

end WaitGraph

end PagedStore
