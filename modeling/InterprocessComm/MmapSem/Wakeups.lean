import InterprocessComm.MmapSem.Counting

/-!
# Wakeups at the semaphore

A post signals one waiter, and only when it finds the count at zero.  Where the count
is not incremented, a waiter that was woken goes back to sleep; where it is, a second
post before the first waiter is back signals nobody.
-/

namespace InterprocessComm
namespace MmapSem

open Verification

section Wakeups

variable {tid : Type}

/-- With no signalled thread on its way back to the mutex, nobody waits while the posts
and the initial value exceed the waits. -/
def NoLostWakeup (value : UInt32) (s : SemState tid) : Prop :=
  (forall u, (s.phase u).isSignalled = false) -> 0 < number value s ->
    forall t, (s.phase t).sleepsOn () = false

/-- The condition on a step under which no wakeup is lost. As written, the count is found
at zero by `sem_wait` only before the first post; with the increment on the count, a
post past a sleeping thread finds it at zero, and no post wraps it. -/
def WakesInTime (e : SemTransition tid) : PostReading -> Prop
  | PostReading.asWritten =>
      e.action.stretch = some SemCall.wait -> e.source.sem.sem_count.toNat = 0 ->
        e.source.posts = 0
  | PostReading.semCount =>
      e.action.stretch = some SemCall.post ->
        NoWrap PostReading.semCount e.source ∧
          ((exists u, (e.source.phase u).sleepsOn () = true) ->
            e.source.sem.sem_count.toNat = 0)

instance (reading : PostReading) (s : SemState tid) : Decidable (NoWrap reading s) :=
  inferInstanceAs (Decidable (_ < _))

instance [Fintype tid] (e : SemTransition tid) (reading : PostReading) :
    Decidable (WakesInTime e reading) :=
  match reading with
  | PostReading.asWritten => inferInstanceAs (Decidable (_ -> _ -> _))
  | PostReading.semCount => inferInstanceAs (Decidable (_ -> _ ∧ (_ -> _)))

variable [Fintype tid]

def signalled (s : SemState tid) : Nat :=
  countThreads Phase.isSignalled s.phase

/-- What lets a thread sleep: nothing has been posted since the count was at zero, or
the signalled threads will use up what there is. -/
def SleepReason (s : SemState tid) : PostReading -> Prop
  | PostReading.asWritten =>
      s.sem.sem_count.toNat = 0 ∧
        (s.posts = 0 ∨ exists u, (s.phase u).isSignalled = true)
  | PostReading.semCount => s.sem.sem_count.toNat ≤ signalled s

structure SemWakeupInv (reading : PostReading) (value : UInt32) (s : SemState tid) : Prop where
  counted : Counted reading value s
  asleep : forall t, (s.phase t).sleepsOn () = true -> SleepReason s reading

variable {reading : PostReading} {value : UInt32} {s s' : SemState tid}

theorem SemWakeupInv.noLostWakeup (h : SemWakeupInv reading value s) : NoLostWakeup value s := by
  intro hnobody hpos t
  by_contra hsleep
  have hreason := h.asleep t (by simpa using hsleep)
  have hcount := h.counted
  unfold Counted at hcount
  unfold number at hpos
  cases reading with
  | asWritten =>
      rcases hreason with ⟨hzero, hposts | ⟨u, hu⟩⟩
      · unfold PostReading.adds at hcount
        lia
      · rw [hnobody u] at hu
        cases hu
  | semCount =>
      have hreason : s.sem.sem_count.toNat ≤ signalled s := hreason
      have hnone : signalled s = 0 := countThreads_eq_zero_iff.mpr hnobody
      unfold PostReading.adds at hcount
      lia

theorem wakeup_init (h : SemInit value s) : SemWakeupInv reading value s := by
  constructor
  · exact init_counted h
  · intro t ht
    rw [h.phase t] at ht
    cases ht

/-!
## Stretches
-/

variable [DecidableEq tid] {a : SemAction tid} {o : Option SemEvent} {t u : tid}
variable {c : SemCall} {r : SemStretch}

theorem SemFinished.sleepsOn (h : SemFinished s t c r s' o)
    (hu : (s'.phase u).sleepsOn () = true) :
    (u = t ∧ r.outcome = SemOutcome.waits) ∨ (u ≠ t ∧ (s.phase u).sleepsOn () = true) := by
  have hbefore : ((Function.update s.phase t (semPhaseAfter r.outcome)) u).sleepsOn () = true := by
    cases hsignals : r.signals with
    | false =>
        rw [h.rests hsignals] at hu
        exact hu
    | true =>
        rcases h.signals hsignals with ⟨wake, hsignal⟩
        exact (signal_sleepsOn hsignal hu).left
  by_cases hut : u = t
  · subst hut
    rw [Function.update_self] at hbefore
    cases houtcome : r.outcome with
    | waits => exact Or.inl ⟨rfl, rfl⟩
    | returns result => simp [houtcome, semPhaseAfter] at hbefore
  · rw [Function.update_of_ne hut] at hbefore
    exact Or.inr ⟨hut, hbefore⟩

theorem SemFinished.woke (h : SemFinished s t c r s' o) (hsignals : r.signals = true)
    (hu : (s'.phase u).sleepsOn () = true) :
    exists v, (s'.phase v).isSignalled = true := by
  rcases h.signals hsignals with ⟨wake, hsignal⟩
  rcases signal_cases hsignal with ⟨_, hsame, hnobody⟩ | ⟨v, k, _, _, hafter⟩
  · rw [hsame, hnobody u] at hu
    cases hu
  · refine ⟨v, ?_⟩
    rw [hafter, Function.update_self]
    rfl

theorem SemFinished.signalled (h : SemFinished s t c r s' o) (hrests : r.signals = false) :
    signalled s' + (if (s.phase t).isSignalled then 1 else 0) = signalled s := by
  have hmove := countThreads_update Phase.isSignalled s.phase t (semPhaseAfter r.outcome)
  have hout : (semPhaseAfter r.outcome).isSignalled = false := by
    cases r.outcome with
    | waits => rfl
    | returns result => rfl
  rw [<- h.rests hrests, hout] at hmove
  exact hmove

omit [Fintype tid] [DecidableEq tid] in
/-- Only a post can add to the count; a thread that was signalled uses one up, unless
there is none. -/
theorem SemRan.spends (h : SemRan reading s a t c r) (hc : c ≠ SemCall.post) :
    r.sem.sem_count.toNat = 0 ∨
      r.sem.sem_count.toNat + (if (s.phase t).isSignalled then 1 else 0) ≤
        s.sem.sem_count.toNat := by
  cases hsignalled : (s.phase t).isSignalled with
  | true =>
      rw [(h.woken hsignalled).right]
      unfold semWaitLoop
      split
      · rename_i hzero
        exact Or.inl (count_eq_zero_iff.mp hzero)
      · rename_i hpos
        right
        exact Nat.le_of_eq (count_take (Nat.pos_of_ne_zero (mt count_eq_zero_iff.mpr hpos)))
  | false =>
      right
      cases h.effects with
      | fails c e => exact Nat.le_refl _
      | posts => exact absurd rfl hc
      | waits empty => exact Nat.le_refl _
      | takes taker some =>
          have htake := count_take some
          show (s.sem.sem_count - 1).toNat ≤ s.sem.sem_count.toNat
          lia
      | reports => exact Nat.le_refl _

omit [Fintype tid] [DecidableEq tid] in
theorem SemRan.rests (h : SemRan reading s a t c r) (hc : c ≠ SemCall.post) :
    r.signals = false := by
  cases h.effects with
  | fails c e => rfl
  | posts => exact absurd rfl hc
  | waits empty => rfl
  | takes taker some => rfl
  | reports => rfl

omit [Fintype tid] [DecidableEq tid] in
theorem SemRan.waits (h : SemRan reading s a t c r) (hwaits : r.outcome = SemOutcome.waits) :
    c = SemCall.wait ∧ r.sem = s.sem ∧ s.sem.sem_count.toNat = 0 := by
  cases h.effects with
  | fails c e => cases hwaits
  | posts => cases hwaits
  | waits empty => exact ⟨rfl, rfl, empty⟩
  | takes taker some => cases hwaits
  | reports => cases hwaits

/-!
## The invariant
-/

theorem asWritten_step (hran : SemRan PostReading.asWritten s a t c r)
    (hfin : SemFinished s t c r s' o) (hguard : WakesInTime ⟨s, a, o, s'⟩ PostReading.asWritten)
    (hasleep : forall u, (s.phase u).sleepsOn () = true -> SleepReason s PostReading.asWritten)
    (hu : (s'.phase u).sleepsOn () = true) : SleepReason s' PostReading.asWritten := by
  -- a thread that finds the count at zero does so before the first post
  have hfirst : c = SemCall.wait -> s.sem.sem_count.toNat = 0 -> s'.posts = 0 := by
    intro hc hzero
    have hposts : s.posts = 0 := hguard (by rw [<- hc]; exact hran.stretch) hzero
    rw [hfin.posts, hposts, hc]
    rfl
  rcases hfin.sleepsOn hu with ⟨_, hwaits⟩ | ⟨hut, hslept⟩
  · rcases hran.waits hwaits with ⟨hc, hsem, hzero⟩
    constructor
    · rw [hfin.sem, hsem]
      exact hzero
    · exact Or.inl (hfirst hc hzero)
  · rcases hasleep u hslept with ⟨hzero, hreason⟩
    have hcount : r.sem.sem_count.toNat = 0 := by
      by_cases hc : c = SemCall.post
      · cases hran.effects with
        | posts => exact hzero
        | fails c e => exact hzero
        | waits empty => exact hzero
        | takes taker some => lia
        | reports => exact hzero
      · rcases hran.spends hc with hnone | hless
        · exact hnone
        · lia
    constructor
    · rw [hfin.sem]
      exact hcount
    · cases hsignals : r.signals with
      | true => exact Or.inr (hfin.woke hsignals hu)
      | false =>
          have hposts : s'.posts = s.posts := by
            rw [hfin.posts]
            cases hran.effects with
            | posts =>
                have hzero : s.sem.sem_count = 0 := count_eq_zero_iff.mpr hzero
                rw [semPost, hzero] at hsignals
                cases hsignals
            | fails c e => cases c <;> rfl
            | waits empty => rfl
            | takes taker some => rcases taker with rfl | rfl <;> rfl
            | reports => rfl
          rcases hreason with hnone | ⟨v, hv⟩
          · left
            rw [hposts]
            exact hnone
          · by_cases hvt : v = t
            · subst hvt
              exact Or.inl (hfirst (hran.woken hv).left hzero)
            · right
              refine ⟨v, ?_⟩
              rw [hfin.rests hsignals, Function.update_of_ne hvt]
              exact hv

theorem semCount_step (hran : SemRan PostReading.semCount s a t c r)
    (hfin : SemFinished s t c r s' o) (hguard : WakesInTime ⟨s, a, o, s'⟩ PostReading.semCount)
    (hasleep : forall u, (s.phase u).sleepsOn () = true -> SleepReason s PostReading.semCount)
    (hu : (s'.phase u).sleepsOn () = true) : SleepReason s' PostReading.semCount := by
  show s'.sem.sem_count.toNat ≤ signalled s'
  rw [hfin.sem]
  rcases hfin.sleepsOn hu with ⟨_, hwaits⟩ | ⟨hut, hslept⟩
  · rcases hran.waits hwaits with ⟨_, hsem, hzero⟩
    rw [hsem, hzero]
    exact Nat.zero_le _
  · have hreason : s.sem.sem_count.toNat ≤ signalled s := hasleep u hslept
    by_cases hc : c = SemCall.post
    · subst hc
      rcases hguard hran.stretch with ⟨hwrap, hempty⟩
      have hzero : s.sem.sem_count.toNat = 0 := hempty ⟨u, hslept⟩
      cases heffects : hran.effects with
      | fails c e =>
          show s.sem.sem_count.toNat ≤ signalled s'
          rw [hzero]
          exact Nat.zero_le _
      | takes taker some => rcases taker with h | h <;> cases h
      | posts =>
          have hsignals : (semPost PostReading.semCount s.sem).signals = true := by
            rw [semPost, count_eq_zero_iff.mpr hzero]
            rfl
          rcases hfin.woke hsignals hu with ⟨v, hv⟩
          have hpos : 0 < signalled s' := countThreads_pos hv
          have hone := count_increment hwrap
          rw [hzero] at hone
          show (s.sem.increment PostReading.semCount).sem_count.toNat ≤ signalled s'
          rw [hone]
          exact hpos
    · have hmove := hfin.signalled (hran.rests hc)
      rcases hran.spends hc with hnone | hless
      · rw [hnone]
        exact Nat.zero_le _
      · lia

theorem wakeup_step (hinv : SemWakeupInv reading value s)
    (hguard : WakesInTime ⟨s, a, o, s'⟩ reading) (h : semStep reading s a = some (s', o)) :
    SemWakeupInv reading value s' := by
  have hwrap : a.stretch = some SemCall.post -> NoWrap reading s := by
    intro hpost
    cases reading with
    | asWritten => exact noWrap_asWritten
    | semCount => exact (hguard hpost).left
  constructor
  · exact step_counted hinv.counted hwrap h
  · intro u hu
    rcases semStep_cases h with hidle | ⟨t, c, r, hran, hfin⟩
    · have hslept : (s.phase u).sleepsOn () = true := by
        rcases hidle.phase u with hsame | hwoken
        · rw [<- hsame]
          exact hu
        · rw [hwoken, Phase.sleepsOn_wake] at hu
          cases hu
      have hsame : forall v, (s'.phase v).isSignalled = (s.phase v).isSignalled := by
        intro v
        rcases hidle.phase v with hv | hv
        · rw [hv]
        · rw [hv]
          cases hphase : s.phase v with
          | outside => rfl
          | asleep d k => rfl
          | woken b d k => rfl
      have hreason := hinv.asleep u hslept
      cases reading with
      | asWritten =>
          unfold SleepReason at *
          simp only [hidle.sem, hidle.posts, hsame]
          exact hreason
      | semCount =>
          have hcount : signalled s' = signalled s := countThreads_congr hsame
          unfold SleepReason at *
          rw [hidle.sem, hcount]
          exact hreason
    · cases reading with
      | asWritten => exact asWritten_step hran hfin hguard hinv.asleep hu
      | semCount => exact semCount_step hran hfin hguard hinv.asleep hu

/-- No wakeup is lost in a run whose steps all wake in time, with the increment of
`sem_post` where it is written and with the increment on the count. -/
theorem no_lost_wakeup_of_wakesInTime {tr : List (SemTransition tid)}
    (h : Run (SemInit value) (semStep reading) tr s)
    (hguard : forall e, e ∈ tr -> WakesInTime e reading) : NoLostWakeup value s := by
  have hinv : SemWakeupInv reading value s := by
    apply run_guarded_invariant (I := SemWakeupInv reading value)
      (G := fun e => WakesInTime e reading) (fun s hinit => wakeup_init hinit) _ h hguard
    intro s a o s' _ hinv hwakes hstep
    exact wakeup_step hinv hwakes hstep
  exact hinv.noLostWakeup

end Wakeups

/-- Both runs end with a unit left and nobody asleep; in the second one a thread has slept. -/
theorem no_lost_wakeup_of_wakesInTime_twoThreads :
    (exists s : SemState (Fin 2), number 2 s = 2 ∧ s.posts = 1 ∧
      forall t, (s.phase t).sleepsOn () = false) ∧
    (exists s : SemState (Fin 2), number 0 s = 1 ∧ s.posts = 2 ∧
      forall t, (s.phase t).sleepsOn () = false) := by
  constructor
  · have hreplay : exists (tr : List (SemTransition (Fin 2))) (s : SemState (Fin 2)),
        Run (SemInit 2) (semStep PostReading.asWritten) tr s ∧
          decide ((forall e, e ∈ tr -> WakesInTime e PostReading.asWritten) ∧
            (forall u, (s.phase u).isSignalled = false) ∧ number 2 s = 2 ∧ s.posts = 1) = true :=
      run_of_replay [SemAction.call 0 SemCall.wait none, SemAction.call 1 SemCall.post none]
        (init_freshSem (by decide)) (by decide +kernel)
    rcases hreplay with ⟨tr, s, hrun, htest⟩
    rcases of_decide_eq_true htest with ⟨hguard, hnobody, hnumber, hposts⟩
    have hunits : 0 < number 2 s := by lia
    exact ⟨s, hnumber, hposts, no_lost_wakeup_of_wakesInTime hrun hguard hnobody hunits⟩
  · have hreplay : exists (tr : List (SemTransition (Fin 2))) (s : SemState (Fin 2)),
        Run (SemInit 0) (semStep PostReading.semCount) tr s ∧
          decide ((forall e, e ∈ tr -> WakesInTime e PostReading.semCount) ∧
            (forall u, (s.phase u).isSignalled = false) ∧ number 0 s = 1 ∧ s.posts = 2) = true :=
      run_of_replay
        [SemAction.call 0 SemCall.wait none, SemAction.call 1 SemCall.post (some 0),
          SemAction.resume 0, SemAction.call 1 SemCall.post none]
        (init_freshSem (by decide)) (by decide +kernel)
    rcases hreplay with ⟨tr, s, hrun, htest⟩
    rcases of_decide_eq_true htest with ⟨hguard, hnobody, hnumber, hposts⟩
    have hunits : 0 < number 0 s := by lia
    exact ⟨s, hnumber, hposts, no_lost_wakeup_of_wakesInTime hrun hguard hnobody hunits⟩

/-- As written, the waiter that a post has woken finds the count at zero and sleeps again;
with the increment on the count, the second of two posts past two waiters signals
nobody. -/
theorem lost_wakeup_threeThreads :
    (exists (tr : List (SemTransition (Fin 3))) (s : SemState (Fin 3)),
      Run (SemInit 0) (semStep PostReading.asWritten) tr s ∧ ¬ NoLostWakeup 0 s) ∧
    (exists (tr : List (SemTransition (Fin 3))) (s : SemState (Fin 3)),
      Run (SemInit 0) (semStep PostReading.semCount) tr s ∧ ¬ NoLostWakeup 0 s) := by
  have key : forall reading acts,
      (replay (semStep reading) (freshSem (Fin 3) 0) acts).any (fun r =>
        decide ((forall u, (r.2.phase u).isSignalled = false) ∧ 0 < number 0 r.2 ∧
          (r.2.phase 1).sleepsOn () = true)) = true ->
      exists (tr : List (SemTransition (Fin 3))) (s : SemState (Fin 3)),
        Run (SemInit 0) (semStep reading) tr s ∧ ¬ NoLostWakeup 0 s := by
    intro reading acts htest
    have hreplay : exists (tr : List (SemTransition (Fin 3))) (s : SemState (Fin 3)),
        Run (SemInit 0) (semStep reading) tr s ∧
          decide ((forall u, (s.phase u).isSignalled = false) ∧ 0 < number 0 s ∧
            (s.phase 1).sleepsOn () = true) = true :=
      run_of_replay acts (init_freshSem (by decide)) htest
    rcases hreplay with ⟨tr, s, hrun, hlost⟩
    rcases of_decide_eq_true hlost with ⟨hnobody, hpos, hasleep⟩
    refine ⟨tr, s, hrun, ?_⟩
    intro hlaw
    rw [hlaw hnobody hpos 1] at hasleep
    cases hasleep
  constructor
  · exact key PostReading.asWritten
      [SemAction.call 1 SemCall.wait none, SemAction.call 2 SemCall.post (some 1),
        SemAction.resume 1] (by decide +kernel)
  · exact key PostReading.semCount
      [SemAction.call 0 SemCall.wait none, SemAction.call 1 SemCall.wait none,
        SemAction.call 2 SemCall.post (some 0), SemAction.call 2 SemCall.post none,
        SemAction.resume 0] (by decide +kernel)

end MmapSem
end InterprocessComm
