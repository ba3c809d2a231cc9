import InterprocessComm.RwLock.Exclusion

/-!
# Calls that fail

One call is followed from its entry to its return, whatever the other threads do to
the lock while it waits.  A call that fails gives the mutex back and leaves the counters
to the others, except for the unlock of a lock that nobody holds.
-/

namespace InterprocessComm
namespace RwLock

/-- What the other threads add to the counters during one wait of a call. -/
structure RwChange where
  nwaitreaders : Int
  nwaitwriters : Int
  refcount : Int

def RwChange.on (x : RwChange) (rw : PthreadRwlock) : PthreadRwlock :=
  { rw with rw_nwaitreaders := rw.rw_nwaitreaders + x.nwaitreaders,
            rw_nwaitwriters := rw.rw_nwaitwriters + x.nwaitwriters,
            rw_refcount := rw.rw_refcount + x.refcount }

def withoutCall (rw : PthreadRwlock) (changes : List RwChange) : PthreadRwlock :=
  changes.foldl (fun rw x => x.on rw) rw

/-- A call of `c` that has found the lock `rw` and taken its mutex, up to the end of its
stretch `r`; the list holds the changes of the others during its waits. -/
inductive RwCallRun (c : RwCall) (rw : PthreadRwlock) : List RwChange -> RwStretch -> Prop where
  | enters {r : RwStretch} (enter : c.enter rw = some r) : RwCallRun c rw [] r
  | resumes {changes : List RwChange} {r r' : RwStretch} {d : RwCond} (x : RwChange)
      (result : Option Errno) (before : RwCallRun c rw changes r)
      (waits : r.outcome = RwOutcome.waits) (cond : c.cond = some d)
      (resume : d.resume (x.on r.rw) result = some r') :
      RwCallRun c rw (changes ++ [x]) r'

def RwOutcome.Fails : RwOutcome -> Prop
  | returns result => result ≠ RwResult.zero
  | returnsLocked result => result ≠ RwResult.zero
  | waits => False

/-- No counter is at the end of its range. -/
def CountsFit (rw : PthreadRwlock) : Prop :=
  rw.rw_nwaitreaders < INT_MAX ∧ rw.rw_nwaitwriters < INT_MAX ∧ rw.rw_refcount < INT_MAX

/-- The call goes on while it is let, never stops with the mutex taken, and leaves no
trace in the counters when it fails. -/
structure RwCallLaw (c : RwCall) (rw : PthreadRwlock) : Prop where
  begins : CountsFit rw -> exists r, RwCallRun c rw [] r
  continues : forall changes r (x : RwChange) (result : Option Errno),
    RwCallRun c rw changes r ->
    r.outcome = RwOutcome.waits -> CountsFit (x.on r.rw) ->
    exists d r', c.cond = some d ∧ d.resume (x.on r.rw) result = some r'
  releases : forall changes r, RwCallRun c rw changes r -> r.outcome.keepsMutex = false
  restores : forall changes r, RwCallRun c rw changes r -> r.outcome.Fails ->
    r.rw = withoutCall rw changes

/-!
## Stretches
-/

section Stretches

variable {rw : PthreadRwlock} {c : RwCall} {r : RwStretch}

theorem increment_of_lt {n : Int} (h : n < INT_MAX) : increment n = some (n + 1) :=
  if_pos h

theorem rdlockLoop_isSome (hreaders : rw.rw_nwaitreaders < INT_MAX)
    (hcount : rw.rw_refcount < INT_MAX) : exists r, rdlockLoop rw = some r := by
  unfold rdlockLoop
  rw [increment_of_lt hreaders, increment_of_lt hcount]
  split
  · exact ⟨_, rfl⟩
  · exact ⟨_, rfl⟩

theorem wrlockLoop_isSome (hwriters : rw.rw_nwaitwriters < INT_MAX) :
    exists r, wrlockLoop rw = some r := by
  unfold wrlockLoop
  rw [increment_of_lt hwriters]
  split
  · exact ⟨_, rfl⟩
  · exact ⟨_, rfl⟩

theorem enter_isSome (hmagic : rw.rw_magic = RW_MAGIC) (hfit : CountsFit rw) (c : RwCall) :
    exists r, c.enter rw = some r := by
  rcases hfit with ⟨hreaders, hwriters, hcount⟩
  cases c with
  | rdlock =>
      show exists r, pthreadRwlockRdlock rw = some r
      unfold pthreadRwlockRdlock
      rw [if_neg (not_not.mpr hmagic)]
      exact rdlockLoop_isSome hreaders hcount
  | wrlock =>
      show exists r, pthreadRwlockWrlock rw = some r
      unfold pthreadRwlockWrlock
      rw [if_neg (not_not.mpr hmagic)]
      exact wrlockLoop_isSome hwriters
  | tryrdlock =>
      show exists r, pthreadRwlockTryrdlock rw = some r
      unfold pthreadRwlockTryrdlock
      rw [if_neg (not_not.mpr hmagic), increment_of_lt hcount]
      split
      · exact ⟨_, rfl⟩
      · exact ⟨_, rfl⟩
  | trywrlock =>
      show exists r, pthreadRwlockTrywrlock rw = some r
      unfold pthreadRwlockTrywrlock
      rw [if_neg (not_not.mpr hmagic)]
      split
      · exact ⟨_, rfl⟩
      · exact ⟨_, rfl⟩
  | unlock =>
      show exists r, pthreadRwlockUnlock rw = some r
      unfold pthreadRwlockUnlock
      rw [if_neg (not_not.mpr hmagic)]
      by_cases hreader : rw.rw_refcount > 0
      · rw [if_pos hreader]
        exact ⟨_, rfl⟩
      · rw [if_neg hreader]
        split
        · exact ⟨_, rfl⟩
        · exact ⟨_, rfl⟩

theorem resume_isSome (hfit : CountsFit rw) (d : RwCond) (result : Option Errno) :
    exists r, d.resume rw result = some r := by
  rcases hfit with ⟨hreaders, hwriters, hcount⟩
  cases result with
  | some e =>
      cases d with
      | condreaders => exact ⟨_, rfl⟩
      | condwriters => exact ⟨_, rfl⟩
  | none =>
      cases d with
      | condreaders => exact rdlockLoop_isSome (by simp only; lia) hcount
      | condwriters => exact wrlockLoop_isSome (by simp only; lia)

theorem RwEffects.of_fails (h : RwEffects rw c r) (hfails : r.outcome.Fails) : r.rw = rw := by
  cases h with
  | fails c e => rfl
  | readerWaits busy => exact hfails.elim
  | writerWaits busy => exact hfails.elim
  | readerAcquires reader free => exact absurd rfl hfails
  | writerAcquires writer free => exact absurd rfl hfails
  | readerReleases held => exact absurd rfl hfails
  | writerReleases held => exact absurd rfl hfails
  | notHeld free => rfl

theorem RwEffects.of_waits (h : RwEffects rw c r) (hwaits : r.outcome = RwOutcome.waits) :
    exists d, c.cond = some d ∧ r.rw.leave (some d) = rw := by
  cases h with
  | fails c e => cases hwaits
  | readerWaits busy =>
      exact ⟨RwCond.condreaders, rfl, by simp [RwStretch.wait, PthreadRwlock.leave]⟩
  | writerWaits busy =>
      exact ⟨RwCond.condwriters, rfl, by simp [RwStretch.wait, PthreadRwlock.leave]⟩
  | readerAcquires reader free => cases hwaits
  | writerAcquires writer free => cases hwaits
  | readerReleases held => cases hwaits
  | writerReleases held => cases hwaits
  | notHeld free => cases hwaits

/-- The mutex stays taken only in the unlock of a lock that is not held. -/
theorem RwEffects.keepsMutex (h : RwEffects rw c r) (hkeeps : r.outcome.keepsMutex = true) :
    c = RwCall.unlock ∧ (rw.rw_refcount = 0 ∨ rw.rw_refcount < -1) := by
  cases h with
  | fails c e => cases hkeeps
  | readerWaits busy => cases hkeeps
  | writerWaits busy => cases hkeeps
  | readerAcquires reader free => cases hkeeps
  | writerAcquires writer free => cases hkeeps
  | readerReleases held => cases hkeeps
  | writerReleases held => cases hkeeps
  | notHeld free => exact ⟨rfl, free⟩

theorem unlock_not_held (hmagic : rw.rw_magic = RW_MAGIC) (hcount : rw.rw_refcount ≤ 0)
    (hnone : rw.rw_refcount ≠ -1) :
    RwCall.unlock.enter rw =
      some { rw := rw, outcome := RwOutcome.returnsLocked RwResult.minusOne,
             notice := RwNotice.nothing } := by
  show pthreadRwlockUnlock rw = _
  unfold pthreadRwlockUnlock
  rw [if_neg (not_not.mpr hmagic), if_neg (by lia), if_neg hnone]

end Stretches

/-!
## Whole calls
-/

section Calls

variable {rw : PthreadRwlock} {c : RwCall}

theorem RwChange.leave_on (x : RwChange) (rw : PthreadRwlock) (d : RwCond) :
    (x.on rw).leave (some d) = x.on (rw.leave (some d)) := by
  cases d with
  | condreaders =>
      simp only [RwChange.on, PthreadRwlock.leave, PthreadRwlock.mk.injEq]
      lia
  | condwriters =>
      simp only [RwChange.on, PthreadRwlock.leave, PthreadRwlock.mk.injEq]
      lia

theorem RwCallRun.effects {changes : List RwChange} {r : RwStretch}
    (h : RwCallRun c rw changes r) : RwEffects (withoutCall rw changes) c r := by
  induction h with
  | enters enter => exact enter_effects enter
  | resumes x result before waits cond resume ih =>
      rename_i changes r r' d
      rcases ih.of_waits waits with ⟨e, hcond, hleave⟩
      rw [cond] at hcond
      cases hcond
      have hcall : d.call = c := by
        cases c <;> cases cond <;> rfl
      have hstretch := resume_effects resume
      rw [x.leave_on, hleave, hcall] at hstretch
      have hsnoc : withoutCall rw (changes ++ [x]) = x.on (withoutCall rw changes) := by
        simp [withoutCall]
      rw [hsnoc]
      exact hstretch

theorem RwCallRun.keepsMutex {changes : List RwChange} {r : RwStretch}
    (h : RwCallRun c rw changes r) (hkeeps : r.outcome.keepsMutex = true) :
    c = RwCall.unlock ∧ (rw.rw_refcount = 0 ∨ rw.rw_refcount < -1) := by
  have hthen := h.effects.keepsMutex hkeeps
  cases h with
  | enters enter => exact hthen
  | resumes x result before waits cond resume =>
      rw [hthen.left] at cond
      cases cond

/-- A call that takes the mutex gives it back and, when it fails, leaves the counters as
they would be without it, exactly where it is not the unlock of a lock not held. -/
theorem rwlock_call_law_iff (hmagic : rw.rw_magic = RW_MAGIC) :
    RwCallLaw c rw <->
      ¬ (c = RwCall.unlock ∧ rw.rw_refcount ≤ 0 ∧ rw.rw_refcount ≠ -1) := by
  constructor
  · rintro hlaw ⟨rfl, hcount, hnone⟩
    have hrun := RwCallRun.enters (unlock_not_held hmagic hcount hnone)
    have hreleased := hlaw.releases [] _ hrun
    cases hreleased
  · intro hheld
    constructor
    · intro hfit
      rcases enter_isSome hmagic hfit c with ⟨r, henter⟩
      exact ⟨r, RwCallRun.enters henter⟩
    · intro changes r x result hrun hwaits hfit
      rcases hrun.effects.of_waits hwaits with ⟨d, hcond, _⟩
      rcases resume_isSome hfit d result with ⟨r', hresume⟩
      exact ⟨d, r', hcond, hresume⟩
    · intro changes r hrun
      by_contra hkeeps
      rw [Bool.not_eq_false] at hkeeps
      rcases hrun.keepsMutex hkeeps with ⟨hcall, hcount⟩
      exact hheld ⟨hcall, by lia, by lia⟩
    · intro changes r hrun hfails
      exact hrun.effects.of_fails hfails

end Calls

/-- A writer waits for a reader, which unlocks meanwhile, and the wait fails. -/
theorem rwlock_call_law_iff_failedWait :
    exists (rw : PthreadRwlock) (x : RwChange) (r : RwStretch),
      (RwCallRun RwCall.wrlock rw [x] r ∧ r.outcome.Fails) ∧
        (RwCallLaw RwCall.wrlock rw <->
          ¬ (RwCall.wrlock = RwCall.unlock ∧ rw.rw_refcount ≤ 0 ∧ rw.rw_refcount ≠ -1)) := by
  refine ⟨{ rw_magic := RW_MAGIC, rw_nwaitreaders := 0, rw_nwaitwriters := 0,
            rw_refcount := 1 },
    { nwaitreaders := 0, nwaitwriters := 0, refcount := -1 },
    RwStretch.ret { rw_magic := RW_MAGIC, rw_nwaitreaders := 0, rw_nwaitwriters := 0,
                    rw_refcount := 0 } (RwResult.error Errno.EINVAL),
    ⟨?_, ?_⟩, rwlock_call_law_iff rfl⟩
  · have hfirst : RwCallRun RwCall.wrlock
        { rw_magic := RW_MAGIC, rw_nwaitreaders := 0, rw_nwaitwriters := 0, rw_refcount := 1 }
        [] _ := RwCallRun.enters rfl
    exact RwCallRun.resumes _ (some Errno.EINVAL) hfirst rfl rfl rfl
  · intro heq
    cases heq

/-- The unlock of a lock nobody holds returns -1 and keeps the mutex. -/
theorem unlock_keeps_mutex_notHeld :
    exists (rw : PthreadRwlock) (r : RwStretch), rw.rw_magic = RW_MAGIC ∧
      rw.rw_refcount = 0 ∧ RwCallRun RwCall.unlock rw [] r ∧
      r.outcome = RwOutcome.returnsLocked RwResult.minusOne ∧ ¬ RwCallLaw RwCall.unlock rw := by
  have hrun : RwCallRun RwCall.unlock
      { rw_magic := RW_MAGIC, rw_nwaitreaders := 0, rw_nwaitwriters := 0, rw_refcount := 0 } []
      _ := RwCallRun.enters rfl
  refine ⟨_, _, rfl, rfl, hrun, rfl, ?_⟩
  intro hlaw
  cases hlaw.releases [] _ hrun

end RwLock
end InterprocessComm
