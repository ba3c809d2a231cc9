import InterprocessComm.RwLock.Exclusion

/-!
# Wakeups at the lock

A waiting writer sleeps only while the lock is held or a signalled writer is on its
way to it; a waiting reader sleeps only while a writer holds the lock or waits.
-/

namespace InterprocessComm
namespace RwLock

open Verification

section Wakeups

variable {tid : Type}

abbrev RwTransition (tid : Type) : Type :=
  Transition (RwState tid) (RwAction tid) (Option RwEvent)

def RwAction.waitError : RwAction tid -> Option Errno
  | resume _ result => result
  | _ => none

/-- With no woken thread on its way back to a free mutex, writers wait only for a
lock that is held, and readers only for one that a writer holds or waits for. -/
def NoLostWakeup (s : RwState tid) : Prop :=
  s.locked = false -> (forall u, (s.phase u).isSignalled = false) ->
    forall t,
      ((s.phase t).sleepsOn RwCond.condwriters = true -> s.rw.rw_refcount ≠ 0) ∧
        ((s.phase t).sleepsOn RwCond.condreaders = true ->
          s.rw.rw_refcount < 0 ∨ s.rw.rw_nwaitwriters > 0)

def WaitReturnsZero (e : RwTransition tid) : Prop :=
  e.action.waitError = none

instance (e : RwTransition tid) : Decidable (WaitReturnsZero e) :=
  inferInstanceAs (Decidable (_ = none))

def onItsWay (d : RwCond) (p : Phase RwCond Unit) : Bool :=
  p.isSignalled && p.blockedOn d

/-- Somebody sleeps only where the lock, or a thread coming for it, gives a reason. -/
structure RwWakeupInv (s : RwState tid) : Prop where
  writers : forall t, (s.phase t).sleepsOn RwCond.condwriters = true ->
    s.rw.rw_refcount ≠ 0 ∨ exists u, onItsWay RwCond.condwriters (s.phase u) = true
  readers : forall t, (s.phase t).sleepsOn RwCond.condreaders = true ->
    s.rw.rw_refcount < 0 ∨ s.rw.rw_nwaitwriters > 0

/-- Readers sleep only while a writer holds the lock or waits for it. -/
def ReadersHaveReason (s : RwState tid) : Prop :=
  forall t, (s.phase t).sleepsOn RwCond.condreaders = true ->
    s.rw.rw_refcount < 0 ∨ s.rw.rw_nwaitwriters > 0

theorem RwWakeupInv.noLostWakeup {s : RwState tid} (h : RwWakeupInv s) : NoLostWakeup s := by
  intro _ hnobody t
  constructor
  · intro ht
    rcases h.writers t ht with hheld | ⟨u, hu⟩
    · exact hheld
    · unfold onItsWay at hu
      rw [hnobody u] at hu
      cases hu
  · exact h.readers t

theorem wakeup_init {s : RwState tid} (h : RwInit s) : RwWakeupInv s := by
  constructor
  · intro t ht
    rw [h.phase t] at ht
    cases ht
  · intro t ht
    rw [h.phase t] at ht
    cases ht

/-!
## Notices
-/

variable [Fintype tid] [DecidableEq tid] {s s' : RwState tid}

theorem give_sleepsOn {notice : RwNotice} {phase phase' : tid -> Phase RwCond Unit}
    {wake : Option tid} (h : notice.give phase wake = some phase') {d : RwCond} {u : tid}
    (hu : (phase' u).sleepsOn d = true) : phase' u = phase u := by
  cases notice with
  | nothing =>
      cases h
      rfl
  | signalWriters => exact (signal_sleepsOn h hu).right
  | broadcastReaders =>
      cases h
      unfold broadcast at hu ⊢
      split
      · rename_i hslept
        rw [if_pos hslept, Phase.sleepsOn_wake] at hu
        cases hu
      · rfl

theorem give_onItsWay {notice : RwNotice} {phase phase' : tid -> Phase RwCond Unit}
    {wake : Option tid} (h : notice.give phase wake = some phase') {d : RwCond} {u : tid}
    (hu : onItsWay d (phase u) = true) : onItsWay d (phase' u) = true := by
  have hsignalled : (phase u).isSignalled = true := (Bool.and_eq_true_iff.mp hu).left
  have hsame : phase' u = phase u := by
    cases notice with
    | nothing =>
        cases h
        rfl
    | signalWriters => exact signal_isSignalled h hsignalled
    | broadcastReaders =>
        cases h
        apply broadcast_of_not_sleepsOn
        cases hphase : phase u with
        | outside => rfl
        | asleep c k => simp [hphase] at hsignalled
        | woken b c k => rfl
  rw [hsame]
  exact hu

theorem RwFinished.sleepsOn {t : tid} {c : RwCall} {r : RwStretch} {wake : Option tid}
    {o : Option RwEvent} (h : RwFinished s t c r wake s' o) {d : RwCond} {u : tid}
    (hu : (s'.phase u).sleepsOn d = true) :
    u ≠ t ∧ (s.phase u).sleepsOn d = true ∨
      r.outcome = RwOutcome.waits ∧ c.cond = some d := by
  have hsame := give_sleepsOn h.phase hu
  rw [hsame] at hu
  by_cases hut : u = t
  · right
    subst hut
    rw [Function.update_self] at hu
    unfold rwPhaseAfter at hu
    cases houtcome : r.outcome with
    | returns result => simp [houtcome] at hu
    | returnsLocked result => simp [houtcome] at hu
    | waits =>
        cases hcond : c.cond with
        | none => simp [houtcome, hcond] at hu
        | some d' =>
            have heq : d' = d := by simpa [houtcome, hcond] using hu
            rw [heq]
            exact ⟨rfl, rfl⟩
  · left
    rw [Function.update_of_ne hut] at hu
    exact ⟨hut, hu⟩

theorem RwFinished.slept {t : tid} {c : RwCall} {r : RwStretch} {wake : Option tid}
    {o : Option RwEvent} (h : RwFinished s t c r wake s' o) {d : RwCond} {u : tid}
    (hu : (s'.phase u).sleepsOn d = true)
    (hother : r.outcome ≠ RwOutcome.waits ∨ c.cond ≠ some d) :
    u ≠ t ∧ (s.phase u).sleepsOn d = true := by
  rcases h.sleepsOn hu with hbefore | ⟨hwaits, hcond⟩
  · exact hbefore
  · rcases hother with hout | hcall
    · exact absurd hwaits hout
    · exact absurd hcond hcall

theorem RwFinished.onItsWay {t u : tid} {c : RwCall} {r : RwStretch} {wake : Option tid}
    {o : Option RwEvent} (h : RwFinished s t c r wake s' o) {d : RwCond} (hut : u ≠ t)
    (hu : onItsWay d (s.phase u) = true) : RwLock.onItsWay d (s'.phase u) = true := by
  apply give_onItsWay h.phase
  rw [Function.update_of_ne hut]
  exact hu

omit [Fintype tid] [DecidableEq tid] in
theorem RwRan.of_error {a : RwAction tid} {t : tid} {c : RwCall} {d : Option RwCond}
    {r : RwStretch} (h : RwRan s a t c d r) {e : Errno}
    (hret : r.outcome = RwOutcome.returns (RwResult.error e)) :
    d = none ∨ exists x, a = RwAction.resume t (some x) := by
  cases h with
  | enters wake may enter => exact Or.inl rfl
  | resumes result woken resume =>
      rename_i b d
      right
      cases result with
      | some x => exact ⟨x, rfl⟩
      | none =>
          exfalso
          cases d with
          | condreaders =>
              have hloop : rdlockLoop _ = some r := resume
              unfold rdlockLoop at hloop
              split at hloop
              · rcases Option.map_eq_some_iff.mp hloop with ⟨n, _, rfl⟩
                cases hret
              · rcases Option.map_eq_some_iff.mp hloop with ⟨n, _, rfl⟩
                cases hret
          | condwriters =>
              have hloop : wrlockLoop _ = some r := resume
              unfold wrlockLoop at hloop
              split at hloop
              · rcases Option.map_eq_some_iff.mp hloop with ⟨n, _, rfl⟩
                cases hret
              · cases hloop
                cases hret

omit [Fintype tid] [DecidableEq tid] in
theorem RwRan.cond {a : RwAction tid} {t : tid} {c : RwCall} {d : Option RwCond}
    {r : RwStretch} (h : RwRan s a t c d r) : d = none ∨ exists e, d = some e ∧ c = e.call := by
  cases h with
  | enters wake may enter => exact Or.inl rfl
  | resumes result woken resume => exact Or.inr ⟨_, rfl, rfl⟩

theorem RwRan.onItsWay {a : RwAction tid} {t u : tid} {c : RwCall} {d : Option RwCond}
    {r : RwStretch} {wake : Option tid} {o : Option RwEvent} (h : RwRan s a t c d r)
    (hfin : RwFinished s t c r wake s' o) {d' : RwCond} (hd : d ≠ some d')
    (hu : RwLock.onItsWay d' (s.phase u) = true) :
    RwLock.onItsWay d' (s'.phase u) = true := by
  refine hfin.onItsWay ?_ hu
  intro hut
  subst hut
  have hblocked : (s.phase u).blockedOn d' = true := (Bool.and_eq_true_iff.mp hu).right
  rw [h.blockedOn] at hblocked
  exact hd (of_decide_eq_true hblocked)

omit [DecidableEq tid] in
theorem waiting_pos {d : RwCond} {u : tid} (h : (s.phase u).sleepsOn d = true) :
    0 < waiting s d :=
  countThreads_pos (Phase.blockedOn_of_sleepsOn h)

omit [Fintype tid] [DecidableEq tid] in
/-- A call that reads and does not come back from the writers' wait sees their count. -/
theorem leave_nwaitwriters {rw : PthreadRwlock} {d : Option RwCond}
    (hd : d ≠ some RwCond.condwriters) :
    (rw.leave d).rw_nwaitwriters = rw.rw_nwaitwriters := by
  cases d with
  | none => rfl
  | some d =>
      cases d with
      | condreaders => rfl
      | condwriters => exact absurd rfl hd

omit [Fintype tid] [DecidableEq tid] in
theorem RwRan.not_condwriters {a : RwAction tid} {t : tid} {c : RwCall} {d : Option RwCond}
    {r : RwStretch} (h : RwRan s a t c d r) (hc : c ≠ RwCall.wrlock) :
    d ≠ some RwCond.condwriters := by
  rcases h.cond with hnone | ⟨e, hsome, hcall⟩
  · rw [hnone]
    intro heq
    cases heq
  · intro heq
    rw [hsome] at heq
    cases heq
    exact hc hcall

omit [Fintype tid] [DecidableEq tid] in
theorem RwRan.unlock_enters {a : RwAction tid} {t : tid} {d : Option RwCond}
    {r : RwStretch} (h : RwRan s a t RwCall.unlock d r) : d = none := by
  rcases h.cond with hnone | ⟨e, _, hcall⟩
  · exact hnone
  · cases e with
    | condreaders => cases hcall
    | condwriters => cases hcall

/-!
## The invariant
-/

theorem release_signals {t u : tid} {r : RwStretch} {wake : Option tid} {o : Option RwEvent}
    {rw : PthreadRwlock} (hfin : RwFinished s t RwCall.unlock r wake s' o)
    (hnotice : r.notice = unlockNotice rw) (hfree : rw.rw_refcount = 0)
    (hcount : 0 < rw.rw_nwaitwriters) (hut : u ≠ t)
    (hu : (s.phase u).sleepsOn RwCond.condwriters = true) :
    exists v, onItsWay RwCond.condwriters (s'.phase v) = true := by
  have hphase := hfin.phase
  have hsignal : r.notice = RwNotice.signalWriters := by
    rw [hnotice]
    unfold unlockNotice
    rw [if_pos hcount, if_pos hfree]
  rw [hsignal] at hphase
  rcases signal_cases hphase with ⟨_, _, hnobody⟩ | ⟨v, k, _, hv, hafter⟩
  · have hasleep := hnobody u
    rw [Function.update_of_ne hut] at hasleep
    rw [hasleep] at hu
    cases hu
  · refine ⟨v, ?_⟩
    rw [hafter, Function.update_self]
    rfl

theorem writers_step {a : RwAction tid} {t : tid} {c : RwCall} {d : Option RwCond}
    {r : RwStretch} {wake : Option tid} {o : Option RwEvent} (hinv : RwInv s)
    (hwakeup : RwWakeupInv s) (hran : RwRan s a t c d r) (hfin : RwFinished s t c r wake s' o)
    (hguard : a.waitError = none) {u : tid}
    (hu : (s'.phase u).sleepsOn RwCond.condwriters = true) :
    s'.rw.rw_refcount ≠ 0 ∨ exists v, onItsWay RwCond.condwriters (s'.phase v) = true := by
  have hcount := leave_refcount s.rw d
  have hcounted := hinv.counted RwCond.condwriters
  have heffects := hran.effects
  rw [hfin.rw]
  have hslept := hfin.slept hu
  have hwaiting : (s.phase u).sleepsOn RwCond.condwriters = true ->
      0 < (s.rw.leave none).rw_nwaitwriters := by
    intro hbefore
    have hpos := waiting_pos hbefore
    show 0 < s.rw.nwait RwCond.condwriters
    lia
  -- what the invariant said before still holds where the lock is not touched
  have hkeep : d ≠ some RwCond.condwriters ->
      (s.phase u).sleepsOn RwCond.condwriters = true ->
      (s.rw.leave d).rw_refcount ≠ 0 ∨
        exists v, onItsWay RwCond.condwriters (s'.phase v) = true := by
    intro hd hbefore
    rcases hwakeup.writers u hbefore with hheld | ⟨v, hv⟩
    · left
      rw [hcount]
      exact hheld
    · right
      exact ⟨v, hran.onItsWay hfin hd hv⟩
  generalize hrw : s.rw.leave d = rw at *
  cases heffects with
  | fails c e =>
      rcases hran.of_error rfl with hd | ⟨x, ha⟩
      · exact hkeep (by simp [hd]) (hslept (Or.inl (by intro heq; cases heq))).right
      · rw [ha] at hguard
        cases hguard
  | readerWaits busy =>
      have hd := hran.not_condwriters (by intro heq; cases heq)
      exact hkeep hd (hslept (Or.inr (by simp [RwCall.cond]))).right
  | writerWaits busy => exact Or.inl busy
  | readerAcquires reader free =>
      left
      simp only [RwStretch.ret]
      lia
  | writerAcquires writer free =>
      left
      simp only [RwStretch.ret]
      lia
  | readerReleases held =>
      have hd := hran.unlock_enters
      subst hd
      rcases hslept (Or.inl (by intro heq; cases heq)) with ⟨hut, hbefore⟩
      by_cases hfree : rw.rw_refcount - 1 = 0
      · right
        refine release_signals hfin rfl hfree ?_ hut hbefore
        rw [← hrw]
        exact hwaiting hbefore
      · exact Or.inl hfree
  | writerReleases held =>
      have hd := hran.unlock_enters
      subst hd
      rcases hslept (Or.inl (by intro heq; cases heq)) with ⟨hut, hbefore⟩
      right
      refine release_signals hfin rfl rfl ?_ hut hbefore
      rw [← hrw]
      exact hwaiting hbefore
  | notHeld free =>
      have hd := hran.unlock_enters
      exact hkeep (by simp [hd]) (hslept (Or.inl (by intro heq; cases heq))).right

/-- The readers keep their reason unless the last writer of those that wait leaves with an
error. -/
theorem readers_step {a : RwAction tid} {t : tid} {c : RwCall} {d : Option RwCond}
    {r : RwStretch} {wake : Option tid} {o : Option RwEvent} (hinv : RwInv s)
    (hreaders : ReadersHaveReason s) (hran : RwRan s a t c d r)
    (hfin : RwFinished s t c r wake s' o)
    (hguard : a.waitError ≠ none -> d = some RwCond.condwriters ->
      s.rw.rw_refcount < 0 ∨ s.rw.rw_nwaitwriters > 1 ∨
        forall u, (s.phase u).sleepsOn RwCond.condreaders = false) :
    ReadersHaveReason s' := by
  intro u hu
  have hcount := leave_refcount s.rw d
  have hcounted := hinv.counted RwCond.condreaders
  have heffects := hran.effects
  rw [hfin.rw]
  have hbefore : r.outcome ≠ RwOutcome.waits ∨ c.cond ≠ some RwCond.condreaders ->
      s.rw.rw_refcount < 0 ∨ s.rw.rw_nwaitwriters > 0 :=
    fun hother => hreaders u (hfin.slept hu hother).right
  cases heffects with
  | fails c e =>
      have hslept := (hfin.slept hu (Or.inl (by intro heq; cases heq))).right
      have hthen := hreaders u hslept
      show (s.rw.leave d).rw_refcount < 0 ∨ (s.rw.leave d).rw_nwaitwriters > 0
      rw [hcount]
      by_cases hd : d = some RwCond.condwriters
      · subst hd
        rcases hran.of_error rfl with hnone | ⟨x, ha⟩
        · cases hnone
        · rcases hguard (by simp [ha, RwAction.waitError]) rfl with hheld | hmore | hnobody
          · exact Or.inl hheld
          · right
            simp only [PthreadRwlock.leave]
            lia
          · rw [hnobody u] at hslept
            cases hslept
      · rw [leave_nwaitwriters hd]
        exact hthen
  | readerWaits busy => exact busy
  | writerWaits busy =>
      have hthen := hbefore (Or.inr (by intro heq; cases heq))
      simp only [RwStretch.wait]
      rw [hcount]
      cases d with
      | none =>
          simp only [PthreadRwlock.leave]
          lia
      | some d =>
          cases d with
          | condreaders =>
              simp only [PthreadRwlock.leave]
              lia
          | condwriters =>
              simp only [PthreadRwlock.leave]
              lia
  | readerAcquires reader free =>
      have hthen := hbefore (Or.inl (by intro heq; cases heq))
      have hd := hran.not_condwriters (by
        intro heq
        rcases reader with hc | hc
        · rw [hc] at heq
          cases heq
        · rw [hc] at heq
          cases heq)
      rw [leave_nwaitwriters hd, hcount] at free
      lia
  | writerAcquires writer free =>
      left
      simp only [RwStretch.ret]
      lia
  | readerReleases held =>
      have hd := hran.unlock_enters
      subst hd
      have hthen := hbefore (Or.inl (by intro heq; cases heq))
      simp only [PthreadRwlock.leave] at held ⊢
      lia
  | writerReleases held =>
      have hd := hran.unlock_enters
      subst hd
      simp only [PthreadRwlock.leave]
      right
      by_contra hnone
      -- with no writer waiting the broadcast has left no reader asleep
      rcases hfin.slept hu (Or.inl (by intro heq; cases heq)) with ⟨_, hslept⟩
      have hpos := waiting_pos hslept
      have hreaders : s.rw.rw_nwaitreaders > 0 := by
        show s.rw.nwait RwCond.condreaders > 0
        lia
      have hphase := hfin.phase
      have hnotice : unlockNotice { s.rw with rw_refcount := 0 } =
          RwNotice.broadcastReaders := by
        unfold unlockNotice
        rw [if_neg hnone, if_pos hreaders]
      simp only [PthreadRwlock.leave] at hphase
      rw [hnotice] at hphase
      have hafter := (Option.some.inj hphase).symm
      rw [hafter, broadcast_sleepsOn_self] at hu
      cases hu
  | notHeld free =>
      have hd := hran.unlock_enters
      subst hd
      exact hbefore (Or.inl (by intro heq; cases heq))

theorem wakeup_step {a : RwAction tid} {o : Option RwEvent} (hinv : RwInv s)
    (hwakeup : RwWakeupInv s) (hguard : WaitReturnsZero ⟨s, a, o, s'⟩)
    (h : rwStep s a = some (s', o)) : RwWakeupInv s' := by
  rcases rw_step_cases h with hidle | ⟨t, c, d, r, wake, hran, hfin⟩
  · have hslept : forall u d, (s'.phase u).sleepsOn d = true ->
        (s.phase u).sleepsOn d = true := by
      intro u d hu
      rcases hidle.phase u with hsame | hwoken
      · rw [← hsame]
        exact hu
      · rw [hwoken, Phase.sleepsOn_wake] at hu
        cases hu
    have hcoming : forall u d, onItsWay d (s.phase u) = true ->
        onItsWay d (s'.phase u) = true := by
      intro u d hu
      rcases hidle.phase u with hsame | hwoken
      · rw [hsame]
        exact hu
      · rw [hwoken]
        cases hphase : s.phase u with
        | outside => simp [hphase, onItsWay] at hu
        | asleep e k => simp [hphase, onItsWay] at hu
        | woken b e k =>
            rw [hphase] at hu
            exact hu
    constructor
    · intro u hu
      rw [hidle.rw]
      rcases hwakeup.writers u (hslept u _ hu) with hheld | ⟨v, hv⟩
      · exact Or.inl hheld
      · exact Or.inr ⟨v, hcoming v _ hv⟩
    · intro u hu
      rw [hidle.rw]
      exact hwakeup.readers u (hslept u _ hu)
  · constructor
    · intro u hu
      exact writers_step hinv hwakeup hran hfin hguard hu
    · exact readers_step hinv hwakeup.readers hran hfin fun hfails => absurd hguard hfails

/-- No wakeup is lost in a run whose waits return 0. -/
theorem rwlock_no_lost_wakeup {tr : List (RwTransition tid)} (h : Run RwInit rwStep tr s)
    (hguard : forall e, e ∈ tr -> WaitReturnsZero e) : NoLostWakeup s := by
  apply RwWakeupInv.noLostWakeup
  refine run_guarded_invariant (I := RwWakeupInv) (G := WaitReturnsZero)
    (fun s hinit => wakeup_init hinit) ?_ h hguard
  intro s a o s' hreach hwakeup hzero hstep
  exact wakeup_step (reachable_inv hreach) hwakeup hzero hstep

end Wakeups

/-- A reader and a writer wait for a writer that unlocks, and the woken writer takes the
lock again while the reader sleeps on. -/
theorem rwlock_no_lost_wakeup_threeThreads :
    exists s : RwState (Fin 3), s.locked = false ∧ (forall u, (s.phase u).isSignalled = false) ∧
      (s.phase 2).sleepsOn RwCond.condreaders = true ∧
      (s.rw.rw_refcount < 0 ∨ s.rw.rw_nwaitwriters > 0) := by
  have hreplay : exists tr, exists s : RwState (Fin 3), Run RwInit rwStep tr s ∧
      decide ((forall e, e ∈ tr -> WaitReturnsZero e) ∧ s.locked = false ∧
        (forall u, (s.phase u).isSignalled = false) ∧
        (s.phase 2).sleepsOn RwCond.condreaders = true) = true :=
    run_of_replay
      [RwAction.call 0 RwCall.wrlock none, RwAction.call 1 RwCall.wrlock none,
        RwAction.call 2 RwCall.rdlock none, RwAction.call 0 RwCall.unlock (some 1),
        RwAction.resume 1 none]
      init_freshLock (by decide +kernel)
  rcases hreplay with ⟨tr, s, hrun, htest⟩
  rcases of_decide_eq_true htest with ⟨hguard, hunlocked, hsettled, hasleep⟩
  have hwaits := rwlock_no_lost_wakeup hrun hguard hunlocked hsettled 2
  exact ⟨s, hunlocked, hsettled, hasleep, hwaits.2 hasleep⟩

end RwLock
end InterprocessComm
