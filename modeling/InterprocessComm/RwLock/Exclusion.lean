import InterprocessComm.RwLock.System

/-!
# Exclusion

In every reachable state the reference count says who holds the lock, and the two
other counters say how many threads wait.
-/

namespace InterprocessComm
namespace RwLock

open Verification

/-!
## What a stretch does
-/

def PthreadRwlock.nwait (rw : PthreadRwlock) : RwCond -> Int
  | RwCond.condreaders => rw.rw_nwaitreaders
  | RwCond.condwriters => rw.rw_nwaitwriters

def PthreadRwlock.leave (rw : PthreadRwlock) : Option RwCond -> PthreadRwlock
  | none => rw
  | some RwCond.condreaders => { rw with rw_nwaitreaders := rw.rw_nwaitreaders - 1 }
  | some RwCond.condwriters => { rw with rw_nwaitwriters := rw.rw_nwaitwriters - 1 }

inductive RwEffects (rw : PthreadRwlock) : RwCall -> RwStretch -> Prop where
  | fails (c : RwCall) (e : Errno) : RwEffects rw c (RwStretch.ret rw (RwResult.error e))
  | readerWaits (busy : rw.rw_refcount < 0 ∨ rw.rw_nwaitwriters > 0) :
      RwEffects rw RwCall.rdlock
        (RwStretch.wait { rw with rw_nwaitreaders := rw.rw_nwaitreaders + 1 })
  | writerWaits (busy : rw.rw_refcount ≠ 0) :
      RwEffects rw RwCall.wrlock
        (RwStretch.wait { rw with rw_nwaitwriters := rw.rw_nwaitwriters + 1 })
  | readerAcquires {c : RwCall} (reader : c = RwCall.rdlock ∨ c = RwCall.tryrdlock)
      (free : 0 ≤ rw.rw_refcount ∧ rw.rw_nwaitwriters ≤ 0) :
      RwEffects rw c
        (RwStretch.ret { rw with rw_refcount := rw.rw_refcount + 1 } RwResult.zero)
  | writerAcquires {c : RwCall} (writer : c = RwCall.wrlock ∨ c = RwCall.trywrlock)
      (free : rw.rw_refcount = 0) :
      RwEffects rw c (RwStretch.ret { rw with rw_refcount := -1 } RwResult.zero)
  | readerReleases (held : 0 < rw.rw_refcount) :
      RwEffects rw RwCall.unlock
        { rw := { rw with rw_refcount := rw.rw_refcount - 1 },
          outcome := RwOutcome.returns RwResult.zero,
          notice := unlockNotice { rw with rw_refcount := rw.rw_refcount - 1 } }
  | writerReleases (held : rw.rw_refcount = -1) :
      RwEffects rw RwCall.unlock
        { rw := { rw with rw_refcount := 0 },
          outcome := RwOutcome.returns RwResult.zero,
          notice := unlockNotice { rw with rw_refcount := 0 } }
  | notHeld (free : rw.rw_refcount = 0 ∨ rw.rw_refcount < -1) :
      RwEffects rw RwCall.unlock
        { rw := rw, outcome := RwOutcome.returnsLocked RwResult.minusOne,
          notice := RwNotice.nothing }

section Cases

variable {rw : PthreadRwlock} {r : RwStretch}

theorem rdlockLoop_effects (h : rdlockLoop rw = some r) : RwEffects rw RwCall.rdlock r := by
  unfold rdlockLoop at h
  by_cases hbusy : rw.rw_refcount < 0 ∨ rw.rw_nwaitwriters > 0
  · rw [if_pos hbusy] at h
    rcases Option.map_eq_some_iff.mp h with ⟨n, hn, rfl⟩
    rw [increment_eq hn]
    exact RwEffects.readerWaits hbusy
  · rw [if_neg hbusy] at h
    rcases Option.map_eq_some_iff.mp h with ⟨n, hn, rfl⟩
    rw [increment_eq hn]
    exact RwEffects.readerAcquires (Or.inl rfl) (by lia)

theorem wrlockLoop_effects (h : wrlockLoop rw = some r) : RwEffects rw RwCall.wrlock r := by
  unfold wrlockLoop at h
  by_cases hbusy : rw.rw_refcount ≠ 0
  · rw [if_pos hbusy] at h
    rcases Option.map_eq_some_iff.mp h with ⟨n, hn, rfl⟩
    rw [increment_eq hn]
    exact RwEffects.writerWaits hbusy
  · rw [if_neg hbusy] at h
    cases h
    exact RwEffects.writerAcquires (Or.inl rfl) (by lia)

theorem tryrdlock_effects (h : pthreadRwlockTryrdlock rw = some r) :
    RwEffects rw RwCall.tryrdlock r := by
  unfold pthreadRwlockTryrdlock at h
  split at h
  · cases h
    exact RwEffects.fails _ _
  · by_cases hbusy : rw.rw_refcount < 0 ∨ rw.rw_nwaitwriters > 0
    · rw [if_pos hbusy] at h
      cases h
      exact RwEffects.fails _ _
    · rw [if_neg hbusy] at h
      rcases Option.map_eq_some_iff.mp h with ⟨n, hn, rfl⟩
      rw [increment_eq hn]
      exact RwEffects.readerAcquires (Or.inr rfl) (by lia)

theorem trywrlock_effects (h : pthreadRwlockTrywrlock rw = some r) :
    RwEffects rw RwCall.trywrlock r := by
  unfold pthreadRwlockTrywrlock at h
  split at h
  · cases h
    exact RwEffects.fails _ _
  · by_cases hbusy : rw.rw_refcount ≠ 0
    · rw [if_pos hbusy] at h
      cases h
      exact RwEffects.fails _ _
    · rw [if_neg hbusy] at h
      cases h
      exact RwEffects.writerAcquires (Or.inr rfl) (by lia)

theorem unlock_effects (h : pthreadRwlockUnlock rw = some r) :
    RwEffects rw RwCall.unlock r := by
  unfold pthreadRwlockUnlock at h
  split at h
  · cases h
    exact RwEffects.fails _ _
  · by_cases hreader : rw.rw_refcount > 0
    · rw [if_pos hreader] at h
      cases h
      exact RwEffects.readerReleases hreader
    · rw [if_neg hreader] at h
      by_cases hwriter : rw.rw_refcount = -1
      · rw [if_pos hwriter] at h
        cases h
        exact RwEffects.writerReleases hwriter
      · rw [if_neg hwriter] at h
        cases h
        exact RwEffects.notHeld (by lia)

theorem enter_effects {c : RwCall} (h : c.enter rw = some r) : RwEffects rw c r := by
  cases c with
  | rdlock =>
      have henter : pthreadRwlockRdlock rw = some r := h
      unfold pthreadRwlockRdlock at henter
      split at henter
      · cases henter
        exact RwEffects.fails _ _
      · exact rdlockLoop_effects henter
  | wrlock =>
      have henter : pthreadRwlockWrlock rw = some r := h
      unfold pthreadRwlockWrlock at henter
      split at henter
      · cases henter
        exact RwEffects.fails _ _
      · exact wrlockLoop_effects henter
  | tryrdlock => exact tryrdlock_effects h
  | trywrlock => exact trywrlock_effects h
  | unlock => exact unlock_effects h

theorem resume_effects {d : RwCond} {result : Option Errno}
    (h : d.resume rw result = some r) : RwEffects (rw.leave (some d)) d.call r := by
  cases d with
  | condreaders =>
      cases result with
      | none => exact rdlockLoop_effects h
      | some e =>
          cases h
          exact RwEffects.fails _ _
  | condwriters =>
      cases result with
      | none => exact wrlockLoop_effects h
      | some e =>
          cases h
          exact RwEffects.fails _ _

end Cases

/-!
## Steps
-/

section Steps

variable {tid : Type} [Fintype tid] [DecidableEq tid] {s s' : RwState tid}

structure RwFinished (s : RwState tid) (t : tid) (c : RwCall) (r : RwStretch)
    (wake : Option tid) (s' : RwState tid) (o : Option RwEvent) : Prop where
  rw : s'.rw = r.rw
  reads : s'.reads = readsAfter s t c r.outcome
  writes : s'.writes = writesAfter s t c r.outcome
  locked : s'.locked = r.outcome.keepsMutex
  event : o = some { call := c, outcome := r.outcome }
  phase : r.notice.give (Function.update s.phase t (rwPhaseAfter c r.outcome)) wake =
    some s'.phase

theorem finished_of_rwFinish {t : tid} {c : RwCall} {r : RwStretch} {wake : Option tid}
    {o : Option RwEvent} (h : rwFinish s t c r wake = some (s', o)) :
    RwFinished s t c r wake s' o := by
  unfold rwFinish at h
  rcases Option.map_eq_some_iff.mp h with ⟨phase, hphase, heq⟩
  simp only [Prod.mk.injEq] at heq
  rcases heq with ⟨rfl, rfl⟩
  exact ⟨rfl, rfl, rfl, rfl, rfl, hphase⟩

structure RwIdle (s s' : RwState tid) (o : Option RwEvent) : Prop where
  rw : s'.rw = s.rw
  reads : s'.reads = s.reads
  writes : s'.writes = s.writes
  locked : s'.locked = s.locked
  event : o = none ∨ exists c e,
    o = some { call := c, outcome := RwOutcome.returns (RwResult.error e) }
  phase : forall u, s'.phase u = s.phase u ∨ s'.phase u = (s.phase u).wake false

inductive RwRan (s : RwState tid) : RwAction tid -> tid -> RwCall -> Option RwCond ->
    RwStretch -> Prop where
  | enters {t : tid} {c : RwCall} {r : RwStretch} (wake : Option tid)
      (may : RwMayCall s t c) (enter : c.enter s.rw = some r) :
      RwRan s (RwAction.call t c wake) t c none r
  | resumes {t : tid} {b : Bool} {d : RwCond} {r : RwStretch} (result : Option Errno)
      (woken : s.phase t = Phase.woken b d ()) (resume : d.resume s.rw result = some r) :
      RwRan s (RwAction.resume t result) t d.call (some d) r

theorem rw_step_cases {a : RwAction tid} {o : Option RwEvent}
    (h : rwStep s a = some (s', o)) :
    RwIdle s s' o ∨ exists t c d r wake,
      RwRan s a t c d r ∧ RwFinished s t c r wake s' o := by
  cases a with
  | call t c wake =>
      simp only [rwStep] at h
      by_cases hmay : s.locked = false ∧ RwMayCall s t c
      · rw [if_pos hmay] at h
        cases henter : c.enter s.rw with
        | none => simp [henter] at h
        | some r =>
            rw [henter] at h
            exact Or.inr ⟨t, c, none, r, wake, RwRan.enters wake hmay.right henter,
              finished_of_rwFinish h⟩
      · rw [if_neg hmay] at h
        cases h
  | lockFails t c e =>
      simp only [rwStep] at h
      by_cases hmay : RwMayCall s t c
      · rw [if_pos hmay] at h
        cases h
        exact Or.inl ⟨rfl, rfl, rfl, rfl, Or.inr ⟨c, e, rfl⟩, fun _ => Or.inl rfl⟩
      · rw [if_neg hmay] at h
        cases h
  | resume t result =>
      cases hphase : s.phase t with
      | outside => simp [rwStep, hphase] at h
      | asleep d k => simp [rwStep, hphase] at h
      | woken b d k =>
          simp only [rwStep, hphase] at h
          by_cases hfree : s.locked = false
          · rw [if_pos hfree] at h
            cases hresume : d.resume s.rw result with
            | none => simp [hresume] at h
            | some r =>
                rw [hresume] at h
                exact Or.inr ⟨t, d.call, some d, r, none,
                  RwRan.resumes result hphase hresume, finished_of_rwFinish h⟩
          · rw [if_neg hfree] at h
            cases h
  | spurious t =>
      cases hphase : s.phase t with
      | outside => simp [rwStep, hphase] at h
      | woken b d k => simp [rwStep, hphase] at h
      | asleep d k =>
          simp only [rwStep, hphase] at h
          cases h
          refine Or.inl ⟨rfl, rfl, rfl, rfl, Or.inl rfl, ?_⟩
          intro u
          by_cases hut : u = t
          · subst hut
            simp [hphase]
          · simp [Function.update_of_ne hut]

omit [Fintype tid] [DecidableEq tid] in
theorem RwRan.effects {a : RwAction tid} {t : tid} {c : RwCall} {d : Option RwCond}
    {r : RwStretch} (h : RwRan s a t c d r) : RwEffects (s.rw.leave d) c r := by
  cases h with
  | enters wake may enter => exact enter_effects enter
  | resumes result woken resume => exact resume_effects resume

/-!
## Counting the waiting threads
-/

/-- The number of threads in a wait on `d`, woken ones that are not back included. -/
def waiting (s : RwState tid) (d : RwCond) : Nat :=
  countThreads (Phase.blockedOn d) s.phase

omit [Fintype tid] [DecidableEq tid] in
theorem RwRan.blockedOn {a : RwAction tid} {t : tid} {c : RwCall} {d : Option RwCond}
    {r : RwStretch} (h : RwRan s a t c d r) (d' : RwCond) :
    (s.phase t).blockedOn d' = decide (d = some d') := by
  cases h with
  | enters wake may enter =>
      rw [may.left]
      simp
  | resumes result woken resume =>
      rw [woken]
      simp

theorem give_blockedOn {notice : RwNotice} {phase phase' : tid -> Phase RwCond Unit}
    {wake : Option tid} (h : notice.give phase wake = some phase') (d : RwCond) (u : tid) :
    (phase' u).blockedOn d = (phase u).blockedOn d := by
  cases notice with
  | nothing =>
      cases h
      rfl
  | signalWriters => exact signal_blockedOn h u
  | broadcastReaders =>
      cases h
      exact broadcast_blockedOn _ d phase u

theorem RwFinished.waiting {t : tid} {c : RwCall} {r : RwStretch} {wake : Option tid}
    {o : Option RwEvent} (h : RwFinished s t c r wake s' o) (d : RwCond) :
    waiting s' d + (if (s.phase t).blockedOn d then 1 else 0) =
      waiting s d + (if (rwPhaseAfter c r.outcome).blockedOn d then 1 else 0) := by
  have hupdate := countThreads_update (Phase.blockedOn d) s.phase t (rwPhaseAfter c r.outcome)
  have hgive : RwLock.waiting s' d = countThreads (Phase.blockedOn d)
      (Function.update s.phase t (rwPhaseAfter c r.outcome)) :=
    countThreads_congr fun u => give_blockedOn h.phase d u
  rw [hgive]
  exact hupdate

theorem RwEffects.nwait {rw : PthreadRwlock} {c : RwCall} {r : RwStretch}
    (h : RwEffects rw c r) (d : RwCond) :
    r.rw.nwait d =
      rw.nwait d + (if (rwPhaseAfter c r.outcome).blockedOn d then 1 else 0) := by
  cases h with
  | fails c e => cases c <;> cases d <;> simp [rwPhaseAfter, RwStretch.ret]
  | readerWaits busy =>
      cases d with
      | condreaders => simp [rwPhaseAfter, RwStretch.wait, RwCall.cond, PthreadRwlock.nwait]
      | condwriters => simp [rwPhaseAfter, RwStretch.wait, RwCall.cond, PthreadRwlock.nwait]
  | writerWaits busy =>
      cases d with
      | condreaders => simp [rwPhaseAfter, RwStretch.wait, RwCall.cond, PthreadRwlock.nwait]
      | condwriters => simp [rwPhaseAfter, RwStretch.wait, RwCall.cond, PthreadRwlock.nwait]
  | readerAcquires reader free =>
      cases d with
      | condreaders => simp [rwPhaseAfter, RwStretch.ret, PthreadRwlock.nwait]
      | condwriters => simp [rwPhaseAfter, RwStretch.ret, PthreadRwlock.nwait]
  | writerAcquires writer free =>
      cases d with
      | condreaders => simp [rwPhaseAfter, RwStretch.ret, PthreadRwlock.nwait]
      | condwriters => simp [rwPhaseAfter, RwStretch.ret, PthreadRwlock.nwait]
  | readerReleases held =>
      cases d with
      | condreaders => simp [rwPhaseAfter, PthreadRwlock.nwait]
      | condwriters => simp [rwPhaseAfter, PthreadRwlock.nwait]
  | writerReleases held =>
      cases d with
      | condreaders => simp [rwPhaseAfter, PthreadRwlock.nwait]
      | condwriters => simp [rwPhaseAfter, PthreadRwlock.nwait]
  | notHeld free => simp [rwPhaseAfter]

theorem waiting_step {a : RwAction tid} {t : tid} {c : RwCall} {d : Option RwCond}
    {r : RwStretch} {wake : Option tid} {o : Option RwEvent} (hran : RwRan s a t c d r)
    (hfin : RwFinished s t c r wake s' o)
    (hcount : forall d, s.rw.nwait d = waiting s d) (d' : RwCond) :
    s'.rw.nwait d' = waiting s' d' := by
  have hwaiting := hfin.waiting d'
  have hleave : (s.rw.leave d).nwait d' =
      waiting s d' - (if (s.phase t).blockedOn d' then 1 else 0) := by
    rw [hran.blockedOn, ← hcount]
    cases d with
    | none => simp [PthreadRwlock.leave]
    | some e => cases e <;> cases d' <;> simp [PthreadRwlock.leave, PthreadRwlock.nwait]
  rw [hfin.rw, hran.effects.nwait d', hleave]
  split at hwaiting
  · split at hwaiting
    · lia
    · lia
  · split at hwaiting
    · lia
    · lia

/-!
## Counting the holds
-/

def readHolds (s : RwState tid) : Nat := total id s.reads

def writeHolds (s : RwState tid) : Nat := total id s.writes

/-- One writer and no reader holds the lock, or as many readers as counted. -/
def Excludes (s : RwState tid) : Prop :=
  s.rw.rw_refcount = -1 ∧ writeHolds s = 1 ∧ readHolds s = 0 ∨
    0 ≤ s.rw.rw_refcount ∧ (readHolds s : Int) = s.rw.rw_refcount ∧ writeHolds s = 0

omit [DecidableEq tid] in
theorem reads_le_readHolds (s : RwState tid) (t : tid) : s.reads t ≤ readHolds s :=
  weight_le_total id s.reads t

omit [DecidableEq tid] in
theorem writes_le_writeHolds (s : RwState tid) (t : tid) : s.writes t ≤ writeHolds s :=
  weight_le_total id s.writes t

omit [Fintype tid] [DecidableEq tid] in
theorem leave_refcount (rw : PthreadRwlock) (d : Option RwCond) :
    (rw.leave d).rw_refcount = rw.rw_refcount := by
  cases d with
  | none => rfl
  | some d =>
      cases d with
      | condreaders => rfl
      | condwriters => rfl

omit [Fintype tid] in
theorem holds_of_ne_zero (s : RwState tid) (t : tid) (c : RwCall) {x : RwOutcome}
    (hx : x ≠ RwOutcome.returns RwResult.zero) :
    readsAfter s t c x = s.reads ∧ writesAfter s t c x = s.writes := by
  constructor
  · unfold readsAfter
    split <;> first | rfl | exact absurd rfl hx
  · unfold writesAfter
    split <;> first | rfl | exact absurd rfl hx

omit [Fintype tid] in
theorem holds_of_reader (s : RwState tid) (t : tid) {c : RwCall}
    (h : c = RwCall.rdlock ∨ c = RwCall.tryrdlock) :
    readsAfter s t c (RwOutcome.returns RwResult.zero) =
        Function.update s.reads t (s.reads t + 1) ∧
      writesAfter s t c (RwOutcome.returns RwResult.zero) = s.writes := by
  rcases h with rfl | rfl
  · exact ⟨rfl, rfl⟩
  · exact ⟨rfl, rfl⟩

omit [Fintype tid] in
theorem holds_of_writer (s : RwState tid) (t : tid) {c : RwCall}
    (h : c = RwCall.wrlock ∨ c = RwCall.trywrlock) :
    readsAfter s t c (RwOutcome.returns RwResult.zero) = s.reads ∧
      writesAfter s t c (RwOutcome.returns RwResult.zero) =
        Function.update s.writes t (s.writes t + 1) := by
  rcases h with rfl | rfl
  · exact ⟨rfl, rfl⟩
  · exact ⟨rfl, rfl⟩

omit [Fintype tid] in
theorem holds_of_unlock (s : RwState tid) (t : tid) :
    (s.writes t = 0 ->
      readsAfter s t RwCall.unlock (RwOutcome.returns RwResult.zero) =
          Function.update s.reads t (s.reads t - 1) ∧
        writesAfter s t RwCall.unlock (RwOutcome.returns RwResult.zero) = s.writes) ∧
    (s.writes t ≠ 0 ->
      readsAfter s t RwCall.unlock (RwOutcome.returns RwResult.zero) = s.reads ∧
        writesAfter s t RwCall.unlock (RwOutcome.returns RwResult.zero) =
          Function.update s.writes t (s.writes t - 1)) := by
  constructor
  · intro hnone
    exact ⟨if_pos hnone, if_pos hnone⟩
  · intro hsome
    exact ⟨if_neg hsome, if_neg hsome⟩

theorem total_put (f : tid -> Nat) (t : tid) :
    total id (Function.update f t (f t + 1)) = total id f + 1 := by
  have hupdate := total_update id f t (f t + 1)
  simp only [id_eq] at hupdate
  lia

theorem total_drop {f : tid -> Nat} {t : tid} (h : 0 < f t) :
    total id (Function.update f t (f t - 1)) + 1 = total id f := by
  have hupdate := total_update id f t (f t - 1)
  simp only [id_eq] at hupdate
  lia

theorem excludes_unchanged {t : tid} {c : RwCall} {r : RwStretch} {wake : Option tid}
    {o : Option RwEvent} (hfin : RwFinished s t c r wake s' o) (hexcludes : Excludes s)
    (hx : r.outcome ≠ RwOutcome.returns RwResult.zero)
    (hcount : r.rw.rw_refcount = s.rw.rw_refcount) : Excludes s' := by
  rcases holds_of_ne_zero s t c hx with ⟨hreads, hwrites⟩
  unfold Excludes readHolds writeHolds at *
  rw [hfin.rw, hcount, hfin.reads.trans hreads, hfin.writes.trans hwrites]
  exact hexcludes

theorem excludes_step {t : tid} {c : RwCall} {r : RwStretch} {wake : Option tid}
    {o : Option RwEvent} {rw : PthreadRwlock} (hrw : rw.rw_refcount = s.rw.rw_refcount)
    (heffects : RwEffects rw c r) (hfin : RwFinished s t c r wake s' o)
    (hmay : c = RwCall.unlock -> 0 < s.reads t + s.writes t) (hexcludes : Excludes s) :
    Excludes s' ∧ s'.locked = false := by
  have hreads := hfin.reads
  have hwrites := hfin.writes
  have hcount := hfin.rw
  have hlocked := hfin.locked
  have hreadBound := reads_le_readHolds s t
  have hwriteBound := writes_le_writeHolds s t
  have hunchanged := excludes_unchanged hfin hexcludes
  unfold Excludes readHolds writeHolds at *
  rw [hlocked]
  cases heffects with
  | fails c e => exact ⟨hunchanged (by simp [RwStretch.ret]) hrw, rfl⟩
  | readerWaits busy => exact ⟨hunchanged (by simp [RwStretch.wait]) hrw, rfl⟩
  | writerWaits busy => exact ⟨hunchanged (by simp [RwStretch.wait]) hrw, rfl⟩
  | readerAcquires reader free =>
      rcases holds_of_reader s t reader with ⟨hr, hw⟩
      rw [hcount, hreads.trans hr, hwrites.trans hw, total_put]
      refine ⟨?_, rfl⟩
      simp only [RwStretch.ret]
      lia
  | writerAcquires writer free =>
      rcases holds_of_writer s t writer with ⟨hr, hw⟩
      rw [hcount, hreads.trans hr, hwrites.trans hw, total_put]
      refine ⟨?_, rfl⟩
      simp only [RwStretch.ret]
      lia
  | readerReleases held =>
      have hmine := hmay rfl
      have hnone : s.writes t = 0 := by lia
      rcases (holds_of_unlock s t).left hnone with ⟨hr, hw⟩
      have hdrop := total_drop (f := s.reads) (t := t) (by lia)
      rw [hcount, hreads.trans hr, hwrites.trans hw]
      refine ⟨?_, rfl⟩
      simp only
      lia
  | writerReleases held =>
      have hmine := hmay rfl
      have hsome : s.writes t ≠ 0 := by lia
      rcases (holds_of_unlock s t).right hsome with ⟨hr, hw⟩
      have hdrop := total_drop (f := s.writes) (t := t) (by lia)
      rw [hcount, hreads.trans hr, hwrites.trans hw]
      refine ⟨?_, rfl⟩
      simp only
      lia
  | notHeld free =>
      have hmine := hmay rfl
      lia

/-!
## The invariant
-/

structure RwInv (s : RwState tid) : Prop where
  magic : s.rw.rw_magic = RW_MAGIC
  unlocked : s.locked = false
  excludes : Excludes s
  counted : forall d, s.rw.nwait d = waiting s d

omit [DecidableEq tid] in
theorem init_inv (h : RwInit s) : RwInv s := by
  have hrw : s.rw = { rw_magic := RW_MAGIC, rw_nwaitreaders := 0, rw_nwaitwriters := 0,
                      rw_refcount := 0 } := (Except.ok.inj h.rw).symm
  have hreads : readHolds s = 0 := total_eq_zero_iff.mpr h.reads
  have hwrites : writeHolds s = 0 := total_eq_zero_iff.mpr h.writes
  have hwaiting : forall d, waiting s d = 0 := by
    intro d
    apply countThreads_eq_zero_iff.mpr
    intro t
    rw [h.phase t]
    rfl
  constructor
  · rw [hrw]
  · exact h.unlocked
  · right
    rw [hreads, hwrites, hrw]
    exact ⟨le_refl 0, rfl, rfl⟩
  · intro d
    rw [hwaiting, hrw]
    cases d with
    | condreaders => rfl
    | condwriters => rfl

omit [Fintype tid] [DecidableEq tid] in
theorem RwEffects.magic {rw : PthreadRwlock} {c : RwCall} {r : RwStretch}
    (h : RwEffects rw c r) : r.rw.rw_magic = rw.rw_magic := by
  cases h with
  | fails c e => rfl
  | readerWaits busy => rfl
  | writerWaits busy => rfl
  | readerAcquires reader free => rfl
  | writerAcquires writer free => rfl
  | readerReleases held => rfl
  | writerReleases held => rfl
  | notHeld free => rfl

omit [Fintype tid] [DecidableEq tid] in
theorem leave_magic (rw : PthreadRwlock) (d : Option RwCond) :
    (rw.leave d).rw_magic = rw.rw_magic := by
  cases d with
  | none => rfl
  | some d =>
      cases d with
      | condreaders => rfl
      | condwriters => rfl

omit [Fintype tid] [DecidableEq tid] in
theorem RwRan.may {a : RwAction tid} {t : tid} {c : RwCall} {d : Option RwCond}
    {r : RwStretch} (h : RwRan s a t c d r) :
    c = RwCall.unlock -> 0 < s.reads t + s.writes t := by
  cases h with
  | enters wake may enter => exact may.right
  | resumes result woken resume =>
      rename_i b d
      intro hunlock
      cases d with
      | condreaders => cases hunlock
      | condwriters => cases hunlock

omit [DecidableEq tid] in
theorem idle_waiting {o : Option RwEvent} (h : RwIdle s s' o) (d : RwCond) :
    waiting s' d = waiting s d := by
  apply countThreads_congr
  intro u
  rcases h.phase u with hsame | hwake
  · rw [hsame]
  · rw [hwake]
    exact Phase.blockedOn_wake d false (s.phase u)

theorem step_inv {a : RwAction tid} {o : Option RwEvent} (hinv : RwInv s)
    (h : rwStep s a = some (s', o)) : RwInv s' := by
  rcases rw_step_cases h with hidle | ⟨t, c, d, r, wake, hran, hfin⟩
  · constructor
    · rw [hidle.rw]
      exact hinv.magic
    · rw [hidle.locked]
      exact hinv.unlocked
    · have hexcludes := hinv.excludes
      unfold Excludes readHolds writeHolds at *
      rw [hidle.rw, hidle.reads, hidle.writes]
      exact hexcludes
    · intro d
      rw [hidle.rw, idle_waiting hidle]
      exact hinv.counted d
  · have hstep := excludes_step (leave_refcount s.rw d) hran.effects hfin hran.may hinv.excludes
    constructor
    · rw [hfin.rw, hran.effects.magic, leave_magic]
      exact hinv.magic
    · exact hstep.right
    · exact hstep.left
    · exact waiting_step hran hfin hinv.counted

theorem reachable_inv (h : Reachable RwInit rwStep s) : RwInv s :=
  reachable_invariant (fun _ hinit => init_inv hinit)
    (fun _ _ _ _ hinv hstep => step_inv hinv hstep) h

/-- In every reachable state the lock is held by exactly one writer and no reader, or
by as many readers as counted and no writer, and the waiting threads are counted. -/
theorem rwlock_exclusion (h : Reachable RwInit rwStep s) :
    (s.rw.rw_refcount = -1 ∧
          (exists t, s.writes t = 1 ∧ forall u, u ≠ t -> s.writes u = 0) ∧
          (forall u, s.reads u = 0) ∨
        0 ≤ s.rw.rw_refcount ∧ (readHolds s : Int) = s.rw.rw_refcount ∧
          forall u, s.writes u = 0) ∧
      s.rw.rw_nwaitreaders = waiting s RwCond.condreaders ∧
      s.rw.rw_nwaitwriters = waiting s RwCond.condwriters := by
  have hinv := reachable_inv h
  refine ⟨?_, hinv.counted RwCond.condreaders, hinv.counted RwCond.condwriters⟩
  rcases hinv.excludes with ⟨hcount, hwrites, hreads⟩ | ⟨hcount, hreads, hwrites⟩
  · left
    exact ⟨hcount, exists_of_total_eq_one hwrites, total_eq_zero_iff.mp hreads⟩
  · right
    exact ⟨hcount, hreads, total_eq_zero_iff.mp hwrites⟩

end Steps

/-!
## A small lock
-/

def freshLock {n : Nat} : RwState (Fin n) where
  rw := { rw_magic := RW_MAGIC, rw_nwaitreaders := 0, rw_nwaitwriters := 0, rw_refcount := 0 }
  phase := fun _ => Phase.outside
  reads := fun _ => 0
  writes := fun _ => 0
  locked := false

theorem init_freshLock {n : Nat} : RwInit (freshLock (n := n)) :=
  ⟨rfl, fun _ => rfl, fun _ => rfl, fun _ => rfl, rfl⟩

theorem rwlock_exclusion_twoReaders :
    exists s : RwState (Fin 3), s.rw.rw_refcount = 2 ∧ s.rw.rw_nwaitwriters = 1 ∧
      (s.rw.rw_refcount = -1 ∧
            (exists t, s.writes t = 1 ∧ forall u, u ≠ t -> s.writes u = 0) ∧
            (forall u, s.reads u = 0) ∨
          0 ≤ s.rw.rw_refcount ∧ (readHolds s : Int) = s.rw.rw_refcount ∧
            forall u, s.writes u = 0) ∧
        s.rw.rw_nwaitreaders = waiting s RwCond.condreaders ∧
        s.rw.rw_nwaitwriters = waiting s RwCond.condwriters := by
  have hreplay : exists tr, exists s : RwState (Fin 3), Run RwInit rwStep tr s ∧
      decide (s.rw.rw_refcount = 2 ∧ s.rw.rw_nwaitwriters = 1) = true :=
    run_of_replay
      [RwAction.call 0 RwCall.rdlock none, RwAction.call 1 RwCall.rdlock none,
        RwAction.call 2 RwCall.wrlock none]
      init_freshLock (by decide +kernel)
  rcases hreplay with ⟨tr, s, hrun, htest⟩
  rcases of_decide_eq_true htest with ⟨hcount, hwriters⟩
  exact ⟨s, hcount, hwriters, rwlock_exclusion ⟨tr, hrun⟩⟩

end RwLock
end InterprocessComm
