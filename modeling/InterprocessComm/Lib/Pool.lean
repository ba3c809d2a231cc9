import Mathlib.Data.List.Perm.Basic

/-!
# Pools of processes

Processes that are started in the course of a run are kept in a list, in the order of their
starts.  When one of them goes on the others stay where they are.
-/

namespace Verification

variable {loc : Type _} {pool : List loc} {i : Nat} {x : loc}

theorem pool_split (h : pool[i]? = some x) :
    exists others, pool.Perm (x :: others) ∧ forall y, (pool.set i y).Perm (y :: others) := by
  rcases List.getElem?_eq_some_iff.mp h with ⟨hlt, hx⟩
  refine ⟨pool.eraseIdx i, ?_, ?_⟩
  · rw [← hx]
    exact (List.getElem_cons_eraseIdx_perm hlt).symm
  · intro y
    exact List.set_perm_cons_eraseIdx hlt y

end Verification
