import InterprocessComm.RwLock.Wakeups

/-!
# Writers that give up

A reader sleeps merely because a writer waits.  A writer whose wait fails leaves
without passing through the unlock that would wake the readers up.
-/

namespace InterprocessComm
namespace RwLock

open Verification

section FailedWriters

variable {tid : Type}

/-- With no woken thread on its way back to a free mutex, readers wait only for a lock
that a writer holds or waits for. -/
def NoStrandedReader (s : RwState tid) : Prop :=
  s.locked = false -> (forall u, (s.phase u).isSignalled = false) ->
    forall t, (s.phase t).sleepsOn RwCond.condreaders = true ->
      s.rw.rw_refcount < 0 ∨ s.rw.rw_nwaitwriters > 0

def writerWaitFails (e : RwTransition tid) : Bool :=
  match e.action with
  | RwAction.resume t (some _) => (e.source.phase t).blockedOn RwCond.condwriters
  | _ => false

/-- A failing writer leaves the lock with a writer, leaves another writer that waits, or
leaves no reader asleep. -/
def FailsWithoutHarm (e : RwTransition tid) : Prop :=
  writerWaitFails e = true ->
    e.source.rw.rw_refcount < 0 ∨ e.source.rw.rw_nwaitwriters > 1 ∨
      forall u, (e.source.phase u).sleepsOn RwCond.condreaders = false

theorem ReadersHaveReason.noStrandedReader {s : RwState tid} (h : ReadersHaveReason s) :
    NoStrandedReader s :=
  fun _ _ => h

variable [Fintype tid] [DecidableEq tid] {s s' : RwState tid}

instance (e : RwTransition tid) : Decidable (FailsWithoutHarm e) :=
  inferInstanceAs (Decidable (_ -> _))

omit [Fintype tid] [DecidableEq tid] in
theorem RwRan.writerWaitFails {a : RwAction tid} {t : tid} {c : RwCall} {r : RwStretch}
    {o : Option RwEvent} (h : RwRan s a t c (some RwCond.condwriters) r)
    (herror : a.waitError ≠ none) : RwLock.writerWaitFails ⟨s, a, o, s'⟩ = true := by
  cases h with
  | resumes result woken resume =>
      cases result with
      | none => exact absurd rfl herror
      | some x =>
          show (s.phase t).blockedOn RwCond.condwriters = true
          rw [woken]
          rfl

theorem readersHaveReason_step {a : RwAction tid} {o : Option RwEvent} (hinv : RwInv s)
    (hreaders : ReadersHaveReason s) (hguard : FailsWithoutHarm ⟨s, a, o, s'⟩)
    (h : rwStep s a = some (s', o)) : ReadersHaveReason s' := by
  rcases rw_step_cases h with hidle | ⟨t, c, d, r, wake, hran, hfin⟩
  · intro u hu
    rw [hidle.rw]
    rcases hidle.phase u with hsame | hwoken
    · rw [hsame] at hu
      exact hreaders u hu
    · rw [hwoken, Phase.sleepsOn_wake] at hu
      cases hu
  · refine readers_step hinv hreaders hran hfin ?_
    intro herror hd
    subst hd
    exact hguard (hran.writerWaitFails herror)

/-- No reader is stranded in a run in which no failing writer is the only reason for a
reader that sleeps. -/
theorem failed_writers_strand_no_reader {tr : List (RwTransition tid)}
    (h : Run RwInit rwStep tr s) (hguard : forall e, e ∈ tr -> FailsWithoutHarm e) :
    NoStrandedReader s := by
  apply ReadersHaveReason.noStrandedReader
  refine run_guarded_invariant (I := ReadersHaveReason) (G := FailsWithoutHarm)
    (fun s hinit => (wakeup_init hinit).readers) ?_ h hguard
  intro s a o s' hreach hreaders hharmless hstep
  exact readersHaveReason_step (reachable_inv hreach) hreaders hharmless hstep

end FailedWriters

/-- Two writers and a reader wait for a reader; one of the writers gives up. -/
theorem failed_writers_strand_no_reader_fourThreads :
    exists (tr : List (RwTransition (Fin 4))) (s : RwState (Fin 4)),
      tr.any writerWaitFails = true ∧ s.locked = false ∧
        (forall u, (s.phase u).isSignalled = false) ∧
        (s.phase 3).sleepsOn RwCond.condreaders = true ∧
        (s.rw.rw_refcount < 0 ∨ s.rw.rw_nwaitwriters > 0) := by
  have hreplay : exists tr, exists s : RwState (Fin 4), Run RwInit rwStep tr s ∧
      decide ((forall e, e ∈ tr -> FailsWithoutHarm e) ∧ tr.any writerWaitFails = true ∧
        s.locked = false ∧ (forall u, (s.phase u).isSignalled = false) ∧
        (s.phase 3).sleepsOn RwCond.condreaders = true) = true :=
    run_of_replay
      [RwAction.call 0 RwCall.rdlock none, RwAction.call 1 RwCall.wrlock none,
        RwAction.call 2 RwCall.wrlock none, RwAction.call 3 RwCall.rdlock none,
        RwAction.spurious 1, RwAction.resume 1 (some Errno.EINVAL)]
      init_freshLock (by decide +kernel)
  rcases hreplay with ⟨tr, s, hrun, htest⟩
  rcases of_decide_eq_true htest with ⟨hguard, hfails, hunlocked, hsettled, hasleep⟩
  have hreason := failed_writers_strand_no_reader hrun hguard hunlocked hsettled 3 hasleep
  exact ⟨tr, s, hfails, hunlocked, hsettled, hasleep, hreason⟩

/-- A reader holds the lock, a writer waits for it and a second reader for the writer; the
first reader unlocks, and the signalled writer comes back with an error.  Nobody holds
the lock, nobody is on its way, and the second reader sleeps. -/
theorem stranded_reader_threeThreads :
    exists (tr : List (RwTransition (Fin 3))) (s : RwState (Fin 3)),
      Run RwInit rwStep tr s ∧ s.rw.rw_refcount = 0 ∧
        (forall u, s.phase u = Phase.outside ∨ u = 2) ∧
        (s.phase 2).sleepsOn RwCond.condreaders = true ∧ ¬ NoStrandedReader s := by
  have hreplay : exists tr, exists s : RwState (Fin 3), Run RwInit rwStep tr s ∧
      decide (s.rw.rw_refcount = 0 ∧ s.rw.rw_nwaitwriters = 0 ∧ s.locked = false ∧
        (forall u, (s.phase u).isSignalled = false) ∧
        (forall u, s.phase u = Phase.outside ∨ u = 2) ∧
        (s.phase 2).sleepsOn RwCond.condreaders = true) = true :=
    run_of_replay
      [RwAction.call 0 RwCall.rdlock none, RwAction.call 1 RwCall.wrlock none,
        RwAction.call 2 RwCall.rdlock none, RwAction.call 0 RwCall.unlock (some 1),
        RwAction.resume 1 (some Errno.EINVAL)]
      init_freshLock (by decide +kernel)
  rcases hreplay with ⟨tr, s, hrun, htest⟩
  rcases of_decide_eq_true htest with ⟨hcount, hwriters, hfree, hnobody, hout, hasleep⟩
  refine ⟨tr, s, hrun, hcount, hout, hasleep, ?_⟩
  intro hlaw
  have hthen := hlaw hfree hnobody 2 hasleep
  lia

end RwLock
end InterprocessComm
