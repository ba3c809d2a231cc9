import InterprocessComm.MmapSem.Operations

/-!
# The counting law

A semaphore should stand at its initial value plus the posts minus the waits.  With the
increment where `sem_post` has it, the count only ever goes down, and the law holds as
long as nobody has posted; with the increment on the count it always holds.
-/

namespace InterprocessComm
namespace MmapSem

open Verification

/-!
## What a stretch does
-/

inductive SemEffects (reading : PostReading) (sem : SemT) : SemCall -> SemStretch -> Prop where
  | fails (c : SemCall) (e : Errno) :
      SemEffects reading sem c (SemStretch.ret sem (SemReturn.error e))
  | posts : SemEffects reading sem SemCall.post (semPost reading sem)
  | waits (empty : sem.sem_count.toNat = 0) :
      SemEffects reading sem SemCall.wait
        { sem := sem, outcome := SemOutcome.waits, signals := false }
  | takes {c : SemCall} (taker : c = SemCall.wait ∨ c = SemCall.trywait)
      (some : 0 < sem.sem_count.toNat) :
      SemEffects reading sem c
        (SemStretch.ret { sem with sem_count := sem.sem_count - 1 } SemReturn.zero)
  | reports : SemEffects reading sem SemCall.getvalue (semGetvalue sem)

section Cases

variable {reading : PostReading} {sem : SemT}

theorem count_eq_zero_iff : sem.sem_count = 0 <-> sem.sem_count.toNat = 0 := by
  rw [<- UInt32.toNat_inj]
  rfl

theorem semWaitLoop_effects : SemEffects reading sem SemCall.wait (semWaitLoop sem) := by
  unfold semWaitLoop
  split
  · rename_i hzero
    exact SemEffects.waits (count_eq_zero_iff.mp hzero)
  · rename_i hpos
    exact SemEffects.takes (Or.inl rfl) (Nat.pos_of_ne_zero (mt count_eq_zero_iff.mpr hpos))

theorem enter_effects (c : SemCall) : SemEffects reading sem c (c.enter reading sem) := by
  unfold SemCall.enter
  split
  · exact SemEffects.fails c _
  · cases c with
    | post => exact SemEffects.posts
    | wait => exact semWaitLoop_effects
    | getvalue => exact SemEffects.reports
    | trywait =>
        show SemEffects reading sem SemCall.trywait (semTrywait sem)
        unfold semTrywait
        split
        · rename_i hpos
          exact SemEffects.takes (Or.inr rfl) (UInt32.lt_iff_toNat_lt.mp hpos)
        · exact SemEffects.fails _ _

theorem count_take (h : 0 < sem.sem_count.toNat) :
    (sem.sem_count - 1).toNat + 1 = sem.sem_count.toNat := by
  have hle : (1 : UInt32) ≤ sem.sem_count := UInt32.le_iff_toNat_le.mpr h
  rw [UInt32.toNat_sub_of_le _ _ hle]
  exact Nat.sub_add_cancel h

theorem int_of_count {n : Nat} (h : n < 2 ^ 31) : Int.bmod n (2 ^ 32) = n := by
  rw [Int.bmod_def, Int.emod_eq_of_lt (by lia) (by lia)]
  apply if_pos
  lia

def PostReading.adds : PostReading -> Nat
  | asWritten => 0
  | semCount => 1

theorem count_increment (h : reading.adds + sem.sem_count.toNat < 2 ^ 32) :
    (sem.increment reading).sem_count.toNat = sem.sem_count.toNat + reading.adds := by
  cases reading with
  | asWritten => rfl
  | semCount =>
      show (sem.sem_count + 1).toNat = sem.sem_count.toNat + 1
      rw [UInt32.toNat_add]
      apply Nat.mod_eq_of_lt
      unfold PostReading.adds at h
      simpa [Nat.add_comm] using h

end Cases

/-!
## Steps
-/

section Steps

variable {tid : Type} [Fintype tid] [DecidableEq tid] {s s' : SemState tid}
variable {reading : PostReading} {value : UInt32}

structure SemFinished (s : SemState tid) (t : tid) (c : SemCall) (r : SemStretch)
    (s' : SemState tid) (o : Option SemEvent) : Prop where
  sem : s'.sem = r.sem
  posts : s'.posts = s.posts + completedPosts c r.outcome
  waits : s'.waits = s.waits + completedWaits c r.outcome
  event : o = some { call := c, outcome := r.outcome }
  rests : r.signals = false ->
    s'.phase = Function.update s.phase t (semPhaseAfter r.outcome)
  signals : r.signals = true -> exists wake,
    signal () wake (Function.update s.phase t (semPhaseAfter r.outcome)) = some s'.phase

theorem finished_of_semFinish {t : tid} {c : SemCall} {r : SemStretch} {wake : Option tid}
    {o : Option SemEvent} (h : semFinish s t c r wake = some (s', o)) :
    SemFinished s t c r s' o := by
  unfold semFinish at h
  rcases Option.map_eq_some_iff.mp h with ⟨phase, hphase, heq⟩
  simp only [Prod.mk.injEq] at heq
  rcases heq with ⟨rfl, rfl⟩
  constructor
  · rfl
  · rfl
  · rfl
  · rfl
  · intro hrests
    rw [hrests] at hphase
    simp only [Bool.false_eq_true, if_false] at hphase
    split at hphase
    · exact (Option.some.inj hphase).symm
    · cases hphase
  · intro hsignals
    rw [hsignals] at hphase
    exact ⟨wake, hphase⟩

structure SemIdle (s s' : SemState tid) (o : Option SemEvent) : Prop where
  sem : s'.sem = s.sem
  posts : s'.posts = s.posts
  waits : s'.waits = s.waits
  event : forall c v, o ≠ some { call := c, outcome := SemOutcome.returns (SemReturn.value v) }
  phase : forall u, s'.phase u = s.phase u ∨ s'.phase u = (s.phase u).wake false

def SemAction.stretch : SemAction tid -> Option SemCall
  | call _ c _ => some c
  | resume _ => some SemCall.wait
  | _ => none

/-- Thread `t` runs the stretch `r` of the call `c`; a woken thread tests the count. -/
structure SemRan (reading : PostReading) (s : SemState tid) (a : SemAction tid) (t : tid)
    (c : SemCall) (r : SemStretch) : Prop where
  effects : SemEffects reading s.sem c r
  stretch : a.stretch = some c
  awake : (s.phase t).sleepsOn () = false
  woken : (s.phase t).isSignalled = true -> c = SemCall.wait ∧ r = semWaitLoop s.sem

theorem semStep_cases {a : SemAction tid} {o : Option SemEvent}
    (h : semStep reading s a = some (s', o)) :
    SemIdle s s' o ∨ exists t c r, SemRan reading s a t c r ∧ SemFinished s t c r s' o := by
  cases a with
  | call t c wake =>
      simp only [semStep] at h
      by_cases hout : s.phase t = Phase.outside
      · rw [if_pos hout] at h
        refine Or.inr ⟨t, c, _, ⟨enter_effects c, rfl, ?_, ?_⟩, finished_of_semFinish h⟩
        · rw [hout]
          rfl
        · rw [hout]
          intro hsignalled
          cases hsignalled
      · rw [if_neg hout] at h
        cases h
  | lockFails t c e =>
      simp only [semStep] at h
      by_cases hout : s.phase t = Phase.outside
      · rw [if_pos hout] at h
        cases h
        refine Or.inl ⟨rfl, rfl, rfl, ?_, fun _ => Or.inl rfl⟩
        intro d v heq
        cases heq
      · rw [if_neg hout] at h
        cases h
  | resume t =>
      cases hphase : s.phase t with
      | outside => simp [semStep, hphase] at h
      | asleep d k => simp [semStep, hphase] at h
      | woken b d k =>
          simp only [semStep, hphase] at h
          refine Or.inr ⟨t, SemCall.wait, _, ⟨semWaitLoop_effects, rfl, ?_, ?_⟩,
            finished_of_semFinish h⟩
          · rw [hphase]
            rfl
          · intro _
            exact ⟨rfl, rfl⟩
  | spurious t =>
      cases hphase : s.phase t with
      | outside => simp [semStep, hphase] at h
      | woken b d k => simp [semStep, hphase] at h
      | asleep d k =>
          simp only [semStep, hphase] at h
          cases h
          refine Or.inl ⟨rfl, rfl, rfl, ?_, ?_⟩
          · intro c v heq
            cases heq
          · intro u
            by_cases hut : u = t
            · subst hut
              simp [hphase]
            · simp [Function.update_of_ne hut]

/-!
## The count
-/

/-- The count and the waits together are the initial value and what the posts added. -/
def Counted (reading : PostReading) (value : UInt32) (s : SemState tid) : Prop :=
  s.sem.sem_count.toNat + s.waits = value.toNat + s.posts * reading.adds

def NoWrap (reading : PostReading) (s : SemState tid) : Prop :=
  reading.adds + s.sem.sem_count.toNat < 2 ^ 32

omit [Fintype tid] [DecidableEq tid] in
theorem init_counted (h : SemInit value s) : Counted reading value s := by
  have hsem := h.sem
  unfold semOpenCreate at hsem
  split at hsem
  · cases hsem
  · unfold Counted
    rw [h.posts, h.waits, <- Except.ok.inj hsem]
    simp

theorem step_counted {a : SemAction tid} {o : Option SemEvent} (hcount : Counted reading value s)
    (hwrap : a.stretch = some SemCall.post -> NoWrap reading s)
    (h : semStep reading s a = some (s', o)) : Counted reading value s' := by
  unfold Counted at *
  rcases semStep_cases h with hidle | ⟨t, c, r, ⟨heffects, hstretch, _, _⟩, hfin⟩
  · rw [hidle.sem, hidle.waits, hidle.posts]
    exact hcount
  · rw [hfin.sem, hfin.waits, hfin.posts]
    cases heffects with
    | fails c e => cases c <;> exact hcount
    | posts =>
        show (s.sem.increment reading).sem_count.toNat + s.waits =
          value.toNat + (s.posts + 1) * reading.adds
        rw [count_increment (hwrap hstretch), Nat.add_mul]
        lia
    | waits empty => exact hcount
    | takes taker some =>
        have htake := count_take some
        rcases taker with rfl | rfl
        · show (s.sem.sem_count - 1).toNat + (s.waits + 1) = value.toNat + s.posts * reading.adds
          lia
        · show (s.sem.sem_count - 1).toNat + (s.waits + 1) = value.toNat + s.posts * reading.adds
          lia
    | reports => exact hcount

omit [Fintype tid] [DecidableEq tid] in
theorem noWrap_asWritten : NoWrap PostReading.asWritten s := by
  show 0 + s.sem.sem_count.toNat < 2 ^ 32
  have hlt := s.sem.sem_count.toNat_lt
  lia

/-!
## The law along a run
-/

/-- As long as the number fits an `unsigned int`, the count is the number. -/
def CountingLaw (value : UInt32) (s : SemState tid) : Prop :=
  number value s < 2 ^ 32 -> (s.sem.sem_count.toNat : Int) = number value s

def ReportsNumber (value : UInt32) (e : SemTransition tid) : Prop :=
  forall c v, e.event = some { call := c, outcome := SemOutcome.returns (SemReturn.value v) } ->
    v = number value e.source

def LawAlong (value : UInt32) (tr : List (SemTransition tid)) : Prop :=
  forall e, e ∈ tr -> CountingLaw value e.source ∧ CountingLaw value e.target ∧
    ReportsNumber value e

theorem step_posts {a : SemAction tid} {o : Option SemEvent}
    (h : semStep reading s a = some (s', o)) : s'.posts = s.posts ∨ s'.posts = s.posts + 1 := by
  rcases semStep_cases h with hidle | ⟨t, c, r, _, hfin⟩
  · exact Or.inl hidle.posts
  · rw [hfin.posts]
    unfold completedPosts
    split
    · exact Or.inr rfl
    · exact Or.inl rfl

omit [Fintype tid] [DecidableEq tid] in
theorem law_of_no_posts (hcount : Counted PostReading.asWritten value s) (hposts : s.posts = 0) :
    (s.sem.sem_count.toNat : Int) = number value s := by
  unfold Counted PostReading.adds at hcount
  unfold number
  lia

theorem reports_of_no_posts {a : SemAction tid} {o : Option SemEvent}
    (hmax : (value.toNat : Int) ≤ SEM_VALUE_MAX) (hcount : Counted PostReading.asWritten value s)
    (hposts : s.posts = 0) (h : semStep PostReading.asWritten s a = some (s', o)) :
    ReportsNumber value ⟨s, a, o, s'⟩ := by
  intro c v hevent
  have hevent : o = some ⟨c, SemOutcome.returns (SemReturn.value v)⟩ := hevent
  rcases semStep_cases h with hidle | ⟨t, d, r, ⟨heffects, _, _, _⟩, hfin⟩
  · exact absurd hevent (hidle.event c v)
  · rw [hfin.event] at hevent
    have houtcome := congrArg SemEvent.outcome (Option.some.inj hevent)
    cases heffects with
    | fails d e => cases houtcome
    | posts => cases houtcome
    | waits empty => cases houtcome
    | takes taker some => cases houtcome
    | reports =>
        have hbmod : Int.bmod s.sem.sem_count.toNat (2 ^ 32) = v :=
          SemReturn.value.inj (SemOutcome.returns.inj houtcome)
        have hlaw := law_of_no_posts hcount hposts
        unfold Counted PostReading.adds at hcount
        unfold SEM_VALUE_MAX INT_MAX at hmax
        calc
          v = Int.bmod s.sem.sem_count.toNat (2 ^ 32) := hbmod.symm
          _ = s.sem.sem_count.toNat := int_of_count (by lia)
          _ = number value s := hlaw

omit [Fintype tid] [DecidableEq tid] in
theorem no_law_after_post (hmax : (value.toNat : Int) ≤ SEM_VALUE_MAX)
    (hcount : Counted PostReading.asWritten value s) (hposts : s.posts = 1) :
    ¬ CountingLaw value s := by
  intro hlaw
  unfold Counted PostReading.adds at hcount
  unfold SEM_VALUE_MAX INT_MAX at hmax
  unfold CountingLaw number at hlaw
  have hcounts := hlaw (by lia)
  lia

end Steps

/-!
## Runs
-/

section Runs

variable {tid : Type} [Fintype tid] [DecidableEq tid]

omit [Fintype tid] [DecidableEq tid] in
theorem accepted_value {value : UInt32} {s : SemState tid} (h : SemInit value s) :
    (value.toNat : Int) ≤ SEM_VALUE_MAX := by
  have hsem := h.sem
  unfold semOpenCreate at hsem
  split at hsem
  · cases hsem
  · lia

theorem reachable_counted {value : UInt32} {s : SemState tid}
    (h : Reachable (SemInit value) (semStep PostReading.asWritten) s) :
    Counted PostReading.asWritten value s := by
  apply reachable_invariant (I := Counted PostReading.asWritten value)
    (fun s hinit => init_counted hinit) _ h
  intro s a o t hcount hstep
  exact step_counted hcount (fun _ => noWrap_asWritten) hstep

/-- The semaphore stands at its number, and reports it, in exactly the runs in which no
`sem_post` has completed. -/
theorem mmapSem_counting_law_iff {value : UInt32} {tr : List (SemTransition tid)} {s : SemState tid}
    (h : Run (SemInit value) (semStep PostReading.asWritten) tr s) :
    LawAlong value tr <-> s.posts = 0 := by
  have hmax : (value.toNat : Int) ≤ SEM_VALUE_MAX := by
    rcases h with ⟨s0, hinit, _⟩
    exact accepted_value hinit
  have key : (s.posts = 0 -> LawAlong value tr) ∧
      (s.posts ≠ 0 -> exists e, e ∈ tr ∧ ¬ CountingLaw value e.target) := by
    apply run_induction (I := fun tr s => (s.posts = 0 -> LawAlong value tr) ∧
      (s.posts ≠ 0 -> exists e, e ∈ tr ∧ ¬ CountingLaw value e.target)) _ _ h
    · intro s hinit
      constructor
      · intro _ e he
        cases he
      · intro hposts
        exact absurd hinit.posts hposts
    · intro tr s a o t hrun ih hstep
      have hcount := reachable_counted ⟨tr, hrun⟩
      have hnext := step_counted hcount (fun _ => noWrap_asWritten) hstep
      have hmono := step_posts hstep
      constructor
      · intro hposts e he
        have hbefore : s.posts = 0 := by lia
        rcases List.mem_append.mp he with hold | hnew
        · exact ih.left hbefore e hold
        · rw [List.mem_singleton] at hnew
          subst hnew
          exact ⟨fun _ => law_of_no_posts hcount hbefore, fun _ => law_of_no_posts hnext hposts,
            reports_of_no_posts hmax hcount hbefore hstep⟩
      · intro hposts
        by_cases hbefore : s.posts = 0
        · exact ⟨⟨s, a, o, t⟩, by simp, no_law_after_post hmax hnext (by lia)⟩
        · rcases ih.right hbefore with ⟨e, he, hbroken⟩
          exact ⟨e, List.mem_append.mpr (Or.inl he), hbroken⟩
  constructor
  · intro hlaw
    by_contra hposts
    rcases key.right hposts with ⟨e, he, hbroken⟩
    exact hbroken (hlaw e he).right.left
  · exact key.left

end Runs

def freshSem (tid : Type) (value : UInt32) : SemState tid :=
  { sem := { sem_cond := 0, sem_count := value, sem_magic := SEM_MAGIC },
    phase := fun _ => Phase.outside, posts := 0, waits := 0 }

theorem init_freshSem {tid : Type} {value : UInt32} (h : (value.toNat : Int) ≤ SEM_VALUE_MAX) :
    SemInit value (freshSem tid value) := by
  constructor
  · unfold semOpenCreate
    rw [if_neg (by lia)]
    rfl
  · intro t
    rfl
  · rfl
  · rfl

/-- One thread takes the only token, and another finds none and reads the value 0. -/
theorem mmapSem_counting_law_iff_twoThreads :
    exists (tr : List (SemTransition (Fin 2))) (s : SemState (Fin 2)),
      Run (SemInit 1) (semStep PostReading.asWritten) tr s ∧ s.waits = 1 ∧ LawAlong 1 tr := by
  have hreplay : exists (tr : List (SemTransition (Fin 2))) (s : SemState (Fin 2)),
      Run (SemInit 1) (semStep PostReading.asWritten) tr s ∧
        decide (s.waits = 1 ∧ s.posts = 0) = true :=
    run_of_replay
      [SemAction.call 0 SemCall.wait none, SemAction.call 1 SemCall.trywait none,
        SemAction.call 1 SemCall.getvalue none]
      (init_freshSem (by decide)) (by decide +kernel)
  rcases hreplay with ⟨tr, s, hrun, htest⟩
  rcases of_decide_eq_true htest with ⟨hwaits, hposts⟩
  exact ⟨tr, s, hrun, hwaits, (mmapSem_counting_law_iff hrun).mpr hposts⟩

/-- After one post on a semaphore with the value 0 its count is still 0. -/
theorem uncounted_post_oneThread :
    exists (tr : List (SemTransition (Fin 1))) (s : SemState (Fin 1)),
      Run (SemInit 0) (semStep PostReading.asWritten) tr s ∧ s.posts = 1 ∧ s.waits = 0 ∧
        s.sem.sem_count = 0 ∧ ¬ CountingLaw 0 s := by
  have hreplay : exists (tr : List (SemTransition (Fin 1))) (s : SemState (Fin 1)),
      Run (SemInit 0) (semStep PostReading.asWritten) tr s ∧
        decide (s.posts = 1 ∧ s.waits = 0 ∧ s.sem.sem_count = 0) = true :=
    run_of_replay [SemAction.call 0 SemCall.post none]
      (init_freshSem (by decide)) (by decide +kernel)
  rcases hreplay with ⟨tr, s, hrun, htest⟩
  rcases of_decide_eq_true htest with ⟨hposts, hwaits, hcount⟩
  exact ⟨tr, s, hrun, hposts, hwaits, hcount,
    no_law_after_post (by decide) (reachable_counted ⟨tr, hrun⟩) hposts⟩

end MmapSem
end InterprocessComm
