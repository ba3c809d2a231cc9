import InterprocessComm.RwLock.Exclusion

/-!
# Destroying the lock

`pthread_rwlock_destroy` takes no mutex and looks at three members of the lock.  The
third is `rw_condwriters`, the condition variable, where `rw_nwaitwriters` counts the
writers that wait; what the comparison of a condition variable with 0 sees is left open.
-/

namespace InterprocessComm
namespace RwLock

open Verification

/-- The lock after the call; the mutex and the condition variables may be destroyed. -/
structure RwDestruction where
  rw : PthreadRwlock
  destroyed : Bool
  result : RwResult
deriving DecidableEq

/-- `rw_condwriters` is what the comparison of that member with 0 sees. -/
def pthreadRwlockDestroy (rw : PthreadRwlock) (rw_condwriters : Int) : RwDestruction :=
  if rw.rw_magic ≠ RW_MAGIC then
    { rw := rw, destroyed := false, result := RwResult.error Errno.EINVAL }
  else if rw.rw_refcount ≠ 0 ∨ rw.rw_nwaitreaders ≠ 0 ∨ rw_condwriters ≠ 0 then
    { rw := rw, destroyed := false, result := RwResult.error Errno.EBUSY }
  else
    { rw := { rw with rw_magic := 0 }, destroyed := true, result := RwResult.zero }

def RwDestruction.IsBusy (x : RwDestruction) (rw : PthreadRwlock) : Prop :=
  x = { rw := rw, destroyed := false, result := RwResult.error Errno.EBUSY }

section Destruction

variable {tid : Type}

/-- No thread holds the lock and none is in a wait, a woken one that has not come back to
the mutex included. -/
def NobodyAtLock (s : RwState tid) : Prop :=
  (forall t, s.reads t = 0 ∧ s.writes t = 0) ∧
    forall t d, (s.phase t).blockedOn d = false

/-- The lock is destroyed only when nobody is at it, and is left alone otherwise. -/
structure DestroyLaw (s : RwState tid) (x : RwDestruction) : Prop where
  destroys : x.result = RwResult.zero -> NobodyAtLock s
  refuses : ¬ NobodyAtLock s -> x.IsBusy s.rw
  otherwise : x.result ≠ RwResult.zero -> x.IsBusy s.rw

theorem destroy_cases {rw : PthreadRwlock} (hmagic : rw.rw_magic = RW_MAGIC)
    (rw_condwriters : Int) :
    (rw.rw_refcount = 0 ∧ rw.rw_nwaitreaders = 0 ∧ rw_condwriters = 0) ∧
        (pthreadRwlockDestroy rw rw_condwriters).result = RwResult.zero ∨
      (rw.rw_refcount ≠ 0 ∨ rw.rw_nwaitreaders ≠ 0 ∨ rw_condwriters ≠ 0) ∧
        (pthreadRwlockDestroy rw rw_condwriters).IsBusy rw := by
  unfold RwDestruction.IsBusy pthreadRwlockDestroy
  rw [if_neg (not_not.mpr hmagic)]
  by_cases hbusy : rw.rw_refcount ≠ 0 ∨ rw.rw_nwaitreaders ≠ 0 ∨ rw_condwriters ≠ 0
  · right
    rw [if_pos hbusy]
    exact ⟨hbusy, rfl⟩
  · left
    rw [if_neg hbusy]
    exact ⟨by lia, rfl⟩

variable [Fintype tid] [DecidableEq tid] {s : RwState tid}

omit [DecidableEq tid] in
theorem nobodyAtLock_iff (hinv : RwInv s) :
    NobodyAtLock s <->
      s.rw.rw_refcount = 0 ∧ s.rw.rw_nwaitreaders = 0 ∧ s.rw.rw_nwaitwriters = 0 := by
  have hreaders : s.rw.rw_nwaitreaders = waiting s RwCond.condreaders :=
    hinv.counted RwCond.condreaders
  have hwriters : s.rw.rw_nwaitwriters = waiting s RwCond.condwriters :=
    hinv.counted RwCond.condwriters
  constructor
  · rintro ⟨hfree, hnone⟩
    have hnoReads : readHolds s = 0 := total_eq_zero_iff.mpr fun t => (hfree t).left
    have hnoWrites : writeHolds s = 0 := total_eq_zero_iff.mpr fun t => (hfree t).right
    have hnobody : forall d, waiting s d = 0 :=
      fun d => countThreads_eq_zero_iff.mpr fun t => hnone t d
    rw [hreaders, hwriters, hnobody, hnobody]
    refine ⟨?_, rfl, rfl⟩
    rcases hinv.excludes with ⟨_, hone, _⟩ | ⟨_, hcount, _⟩
    · lia
    · lia
  · rintro ⟨hcount, hnoReader, hnoWriter⟩
    rcases hinv.excludes with ⟨hheld, _, _⟩ | ⟨_, hreads, hwrites⟩
    · lia
    · have hnoReads : readHolds s = 0 := by lia
      refine ⟨fun t => ⟨total_eq_zero_iff.mp hnoReads t, total_eq_zero_iff.mp hwrites t⟩, ?_⟩
      intro t d
      have hzero : waiting s d = 0 := by
        cases d with
        | condreaders => lia
        | condwriters => lia
      exact countThreads_eq_zero_iff.mp hzero t

/-- In a reachable state the lock is destroyed only when nobody is at it, and is left
alone otherwise, exactly where one of the three tests fails or no writer waits. -/
theorem rwlock_destroy_law_iff (h : Reachable RwInit rwStep s) (rw_condwriters : Int) :
    DestroyLaw s (pthreadRwlockDestroy s.rw rw_condwriters) <->
      s.rw.rw_refcount ≠ 0 ∨ s.rw.rw_nwaitreaders ≠ 0 ∨ rw_condwriters ≠ 0 ∨
        s.rw.rw_nwaitwriters = 0 := by
  have hinv := reachable_inv h
  have hnobody := nobodyAtLock_iff hinv
  rcases destroy_cases hinv.magic rw_condwriters with ⟨⟨hcount, hreaders, hcond⟩, hzero⟩ |
      ⟨hbusy, hrefused⟩
  · constructor
    · intro hlaw
      have hwriters := (hnobody.mp (hlaw.destroys hzero)).right.right
      exact Or.inr (Or.inr (Or.inr hwriters))
    · intro hthen
      have hfree : NobodyAtLock s := hnobody.mpr ⟨hcount, hreaders, by lia⟩
      exact ⟨fun _ => hfree, fun hsome => absurd hfree hsome, fun hne => absurd hzero hne⟩
  · constructor
    · intro _
      lia
    · intro _
      refine ⟨?_, fun _ => hrefused, fun _ => hrefused⟩
      intro hzero
      unfold RwDestruction.IsBusy at hrefused
      rw [hrefused] at hzero
      cases hzero

end Destruction

/-- A reader that waits keeps the lock from being destroyed once the writer has left. -/
theorem rwlock_destroy_law_iff_twoThreads :
    exists s : RwState (Fin 2), ¬ NobodyAtLock s ∧
      (DestroyLaw s (pthreadRwlockDestroy s.rw 0) <->
        s.rw.rw_refcount ≠ 0 ∨ s.rw.rw_nwaitreaders ≠ 0 ∨ (0 : Int) ≠ 0 ∨
          s.rw.rw_nwaitwriters = 0) := by
  have hreplay : exists tr, exists s : RwState (Fin 2), Run RwInit rwStep tr s ∧
      decide ((s.phase 1).blockedOn RwCond.condreaders = true) = true :=
    run_of_replay
      [RwAction.call 0 RwCall.wrlock none, RwAction.call 1 RwCall.rdlock none,
        RwAction.call 0 RwCall.unlock none]
      init_freshLock (by decide +kernel)
  rcases hreplay with ⟨tr, s, hrun, htest⟩
  refine ⟨s, ?_, rwlock_destroy_law_iff ⟨tr, hrun⟩ 0⟩
  rintro ⟨_, hnone⟩
  have hblocked := of_decide_eq_true htest
  rw [hnone] at hblocked
  cases hblocked

/-- A writer unlocks and signals another; before that one has the mutex again the lock is
destroyed under it. -/
theorem destroyed_under_writer_twoThreads :
    exists s : RwState (Fin 2), Reachable RwInit rwStep s ∧
      s.phase 1 = Phase.woken true RwCond.condwriters () ∧
      (pthreadRwlockDestroy s.rw 0).result = RwResult.zero ∧
      ¬ DestroyLaw s (pthreadRwlockDestroy s.rw 0) := by
  have hreplay : exists tr, exists s : RwState (Fin 2), Run RwInit rwStep tr s ∧
      decide (s.phase 1 = Phase.woken true RwCond.condwriters () ∧
        (pthreadRwlockDestroy s.rw 0).result = RwResult.zero) = true :=
    run_of_replay
      [RwAction.call 0 RwCall.wrlock none, RwAction.call 1 RwCall.wrlock none,
        RwAction.call 0 RwCall.unlock (some 1)]
      init_freshLock (by decide +kernel)
  rcases hreplay with ⟨tr, s, hrun, htest⟩
  rcases of_decide_eq_true htest with ⟨hwoken, hzero⟩
  refine ⟨s, ⟨tr, hrun⟩, hwoken, hzero, ?_⟩
  intro hlaw
  have hblocked := (hlaw.destroys hzero).right 1 RwCond.condwriters
  rw [hwoken] at hblocked
  cases hblocked

end RwLock
end InterprocessComm
