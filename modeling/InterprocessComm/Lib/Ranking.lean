import InterprocessComm.Lib.Transition

/-!
# Ranked systems

A rank that every step lowers bounds the length of the runs, so every run goes on to a state
where no action is possible.
-/

namespace Verification

variable {state action event ghost : Type _} {Init : state -> Prop}
  {step : state -> action -> Option (state × event)}

def Stuck (step : state -> action -> Option (state × event)) (s : state) : Prop :=
  forall a, step s a = none

theorem exists_step_of_not_stuck {s : state} (h : ¬ Stuck step s) :
    exists a t o, step s a = some (t, o) := by
  by_contra hnone
  apply h
  intro a
  cases hstep : step s a with
  | none => rfl
  | some r => exact absurd ⟨a, r.1, r.2, hstep⟩ hnone

theorem run_append {s t : state} {tr more : List (Transition state action event)}
    (h : Run Init step tr s) (hmore : Path step s more t) : Run Init step (tr ++ more) t := by
  rcases h with ⟨s0, hinit, hpath⟩
  exact ⟨s0, hinit, path_append hpath hmore⟩

section Ranked

variable (observe : ghost -> event -> ghost) (g0 : ghost) (I : ghost -> state -> Prop)
  (rank : ghost -> state -> Nat) {bound : Nat}

/-- The length of a run and the rank of its end together are at most the first rank. -/
theorem run_length_add_rank_le (hinit : forall s, Init s -> I g0 s ∧ rank g0 s ≤ bound)
    (hstep : forall g s a o t, I g s -> step s a = some (t, o) ->
      I (observe g o) t ∧ rank (observe g o) t < rank g s)
    {tr : List (Transition state action event)} {s : state} (h : Run Init step tr s) :
    tr.length + rank (observed observe g0 tr) s ≤ bound := by
  have hrun : I (observed observe g0 tr) s ∧
      tr.length + rank (observed observe g0 tr) s ≤ bound := by
    apply run_induction (I := fun tr s => I (observed observe g0 tr) s ∧
      tr.length + rank (observed observe g0 tr) s ≤ bound) ?_ ?_ h
    · intro s hs
      rcases hinit s hs with ⟨hinv, hle⟩
      exact ⟨hinv, by simpa [observed] using hle⟩
    · rintro tr s a o t _ ⟨hinv, hle⟩ hlast
      rcases hstep _ s a o t hinv hlast with ⟨hnext, hlt⟩
      rw [observed_snoc, List.length_append, List.length_singleton]
      exact ⟨hnext, by lia⟩
  exact hrun.2

/-- Runs of bounded length go on until no action is possible. -/
theorem run_to_stuck (hbound : forall tr s, Run Init step tr s -> tr.length ≤ bound)
    {tr : List (Transition state action event)} {s : state} (h : Run Init step tr s) :
    exists more t, Path step s more t ∧ Stuck step t := by
  have key : forall n, forall tr s, Run Init step tr s -> bound - tr.length ≤ n ->
      exists more t, Path step s more t ∧ Stuck step t := by
    intro n
    induction n with
    | zero =>
        intro tr s hrun hleft
        by_cases hstuck : Stuck step s
        · exact ⟨[], s, Path.nil, hstuck⟩
        · rcases exists_step_of_not_stuck hstuck with ⟨a, t, o, hlast⟩
          have hlong := hbound _ _ (run_append hrun (Path.snoc Path.nil hlast))
          rw [List.length_append] at hlong
          simp only [List.nil_append, List.length_singleton] at hlong
          lia
    | succ n ih =>
        intro tr s hrun hleft
        by_cases hstuck : Stuck step s
        · exact ⟨[], s, Path.nil, hstuck⟩
        · rcases exists_step_of_not_stuck hstuck with ⟨a, t, o, hlast⟩
          have hfirst : Path step s [⟨s, a, o, t⟩] t := path_cons hlast Path.nil
          rcases ih _ t (run_append hrun hfirst) (by simp; lia) with ⟨more, u, hmore, hu⟩
          exact ⟨_, u, path_append hfirst hmore, hu⟩
  exact key _ tr s h (Nat.le_refl _)

end Ranked

end Verification
