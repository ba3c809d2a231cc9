import InterprocessComm.MessageQueue.Failures
import InterprocessComm.MessageQueue.Notification

/-!
# The life of a registration

A registration begins with a successful `mq_notify` and is kept in `mqh_pid` alone.
The history of a run says whose registration is the latest and whether a signal has
been queued for it; the field agrees with the history.
-/

namespace InterprocessComm
namespace MessageQueue

open Verification

/-- The latest successful `mq_notify` with a notification, and whether `sigqueue` has been
called since. -/
structure Registrations where
  latest : Option Pid
  signalled : Bool

section History

variable {tid : Type}

def registers (procOf : tid -> Pid) (e : MqTransition tid) : Option Pid :=
  match e.action, e.event with
  | MqAction.call t _ (MqCall.notify (some _)) _,
      some { outcome := Outcome.returns MqReturn.done, .. } => some (procOf t)
  | _, _ => none

def Registrations.extend (procOf : tid -> Pid) (g : Registrations) (e : MqTransition tid) :
    Registrations :=
  match registers procOf e, queuedSignal e with
  | some p, _ => { latest := some p, signalled := false }
  | none, some _ => { g with signalled := true }
  | none, none => g

def registrationsOf (procOf : tid -> Pid) (tr : List (MqTransition tid)) : Registrations :=
  tr.foldl (Registrations.extend procOf) { latest := none, signalled := false }

theorem registrationsOf_snoc (procOf : tid -> Pid) (tr : List (MqTransition tid))
    (e : MqTransition tid) :
    registrationsOf procOf (tr ++ [e]) = (registrationsOf procOf tr).extend procOf e := by
  simp [registrationsOf]

def SendsToEmpty (e : MqTransition tid) : Prop :=
  (sent e).isSome = true ∧ mqhHead e.source.mem = 0

def GivesUp (procOf : tid -> Pid) (p : Pid) (e : MqTransition tid) : Prop :=
  exists t d wake, procOf t = p ∧
    (e.action = MqAction.call t d (MqCall.notify none) wake ∨
      exists munmap, e.action = MqAction.call t d (MqCall.close munmap) wake)

/-- A signal goes to the process of the latest registration and is the first since, and
the registration of a process that exists ends only by a send to an empty queue or by the
process itself. -/
structure RegistrationLaw (procOf : tid -> Pid) (g : Registrations) (e : MqTransition tid) :
    Prop where
  begins : forall p, registers procOf e = some p -> mqhPid e.target.mem = p.val
  holds : mqhPid e.source.mem ≠ 0 -> exists p, g.latest = some p ∧ mqhPid e.source.mem = p.val
  signals : forall sig, queuedSignal e = some sig ->
    (exists p, g.latest = some p ∧ sig.pid = p.val) ∧ g.signalled = false
  ends : forall p : Pid, mqhPid e.source.mem = p.val -> e.source.alive p.val = true ->
    mqhPid e.target.mem ≠ p.val -> SendsToEmpty e ∨ GivesUp procOf p e

inductive RegistrationStep (procOf : tid -> Pid) (e : MqTransition tid) : Prop where
  | stays (pid : mqhPid e.target.mem = mqhPid e.source.mem)
      (registers : registers procOf e = none) (quiet : queuedSignal e = none)
  | consumed (sends : SendsToEmpty e) (registered : mqhPid e.source.mem ≠ 0)
      (pid : mqhPid e.target.mem = 0) (registers : registers procOf e = none)
      (signal : queuedSignal e = registeredSignal e.source.mem)
  | givenUp (p : Pid) (owner : mqhPid e.source.mem = p.val) (gives : GivesUp procOf p e)
      (pid : mqhPid e.target.mem = 0) (registers : registers procOf e = none)
      (quiet : queuedSignal e = none)
  | registered (p : Pid)
      (free : mqhPid e.source.mem = 0 ∨ e.source.alive (mqhPid e.source.mem) = false)
      (pid : mqhPid e.target.mem = p.val) (registers : registers procOf e = some p)
      (quiet : queuedSignal e = none)

end History

/-!
## Calls that neither send nor receive
-/

theorem fits_pid (p : Pid) : FitsInt 4 p.val := by
  have hpos := p.2.left
  have hlt := p.2.right
  show FitsInt 4 p.1
  constructor
  · lia
  · lia

theorem pid_ne_zero (p : Pid) : p.val ≠ 0 := by
  have hpos := p.2.left
  show p.1 ≠ 0
  lia

theorem mqhPid_unregister (m : Mem) : mqhPid (putInt m offMqhPid 0) = 0 :=
  getInt_putInt (by lia)

theorem mqhPid_register (m : Mem) (p : Pid) (ev : Sigevent) :
    mqhPid (putMqhEvent (putInt m offMqhPid p.val) ev) = p.val := by
  have hevent : mqhPid (putMqhEvent (putInt m offMqhPid p.val) ev) =
      mqhPid (putInt m offMqhPid p.val) := by
    apply getInt_congr
    intro x hx
    unfold putMqhEvent
    rw [putInt_outside (by lia), putInt_outside (by lia), putLong_outside (by lia)]
  rw [hevent]
  exact getInt_putInt (fits_pid p)

theorem mqNotify_none (m : Mem) (p : Pid) (kill : Int -> Option Errno) :
    (mqNotify m p.val kill none).sigqueue = none ∧
      (mqhPid m = p.val ∧ mqhPid (mqNotify m p.val kill none).mem = 0 ∨
        mqhPid (mqNotify m p.val kill none).mem = mqhPid m) := by
  unfold mqNotify
  simp only [Stretch.ret, true_and]
  split
  · rename_i howner
    exact Or.inl ⟨howner, mqhPid_unregister m⟩
  · exact Or.inr rfl

theorem mqNotify_some (m : Mem) (p : Pid) (alive : Int -> Bool) (ev : Sigevent) :
    mqNotify m p.val (killZero alive) (some ev) = Stretch.fail m Errno.EBUSY ∨
      (mqhPid m = 0 ∨ alive (mqhPid m) = false) ∧
        mqNotify m p.val (killZero alive) (some ev) =
          Stretch.ret (putMqhEvent (putInt m offMqhPid p.val) ev) MqReturn.done := by
  unfold mqNotify
  by_cases hbusy : mqhPid m ≠ 0 ∧ killZero alive (mqhPid m) ≠ some Errno.ESRCH
  · left
    simp only [if_pos hbusy]
  · right
    simp only [if_neg hbusy, and_true]
    by_cases hzero : mqhPid m = 0
    · exact Or.inl hzero
    · right
      cases halive : alive (mqhPid m) with
      | false => rfl
      | true => exact absurd ⟨hzero, by simp [killZero, halive]⟩ hbusy

section Receives

variable {sz : QueueSizes} {m : Mem} {used free : List Int}

theorem mqhPid_counted (entering : Bool) (m : Mem) : mqhPid (counted entering m) = mqhPid m := by
  cases entering with
  | true => rfl
  | false => exact getInt_putLong_disjoint (by lia)

theorem Effects.receiver_registration {entering : Bool} {maxlen : Nat} {priop : Bool}
    {r : Stretch} (h : Effects sz m used free entering (Role.receiver maxlen priop) r)
    (hlinked : WellLinked sz m used free) : mqhPid r.mem = mqhPid m ∧ r.sigqueue = none := by
  generalize hrole : Role.receiver maxlen priop = role at h
  cases h with
  | fails role e => exact ⟨rfl, rfl⟩
  | header same outcome plain signals sigqueue => cases hrole
  | sendWaits fits full => cases hrole
  | receiveWaits fits empty =>
      refine ⟨?_, rfl⟩
      cases entering with
      | true => exact getInt_putLong_disjoint (by lia)
      | false => rfl
  | links fits slot linked => cases hrole
  | takes fits first unlinked =>
      refine ⟨?_, rfl⟩
      subst first
      rw [← mqhPid_counted entering m]
      have hstart := hlinked.congr (sameChains_counted entering m)
      exact getInt_congr fun x hx => unlinked.outside_header hstart (by lia) (by lia)

end Receives

/-!
## Steps
-/

section Runs

variable {tid : Type} [Fintype tid] [DecidableEq tid] {procOf : tid -> Pid}
variable {sz : QueueSizes} {s s' : MqState tid}

theorem sender_registration {a : MqAction tid} {o : Option Effect} {t : tid}
    {entering : Bool} {buf : List UInt8} {prio : UInt32} (hinv : QueueInv sz s)
    (h : mqStep procOf s a = some (s', o))
    (hacts : a.acts s = some (t, entering, Role.sender buf prio))
    (hnone : registers procOf ⟨s, a, o, s'⟩ = none) :
    RegistrationStep procOf ⟨s, a, o, s'⟩ := by
  rcases hinv.linked with ⟨used, free, hlinked⟩
  rcases step_registration hinv hlinked h hacts with
    ⟨hsent, hpid, hsig⟩ | ⟨_, hpid, hsig, _⟩
  · by_cases hnotifies : Notifies entering s.mem used
    · rcases notified_of_notifies hnotifies with ⟨hzero, hregistered⟩
      have hempty : mqhHead s.mem = 0 := hlinked.head_eq_zero_iff.mpr hnotifies.right.left
      exact RegistrationStep.consumed ⟨hsent, hempty⟩ hnotifies.right.right.left
        (hpid.trans hzero) hnone (hsig.trans hregistered)
    · rw [notified_of_not_notifies hnotifies] at hpid hsig
      exact RegistrationStep.stays hpid hnone hsig
  · exact RegistrationStep.stays hpid hnone hsig

theorem receiver_registration {a : MqAction tid} {o : Option Effect} {t : tid}
    {entering : Bool} {maxlen : Nat} {priop : Bool} (hinv : QueueInv sz s)
    (h : mqStep procOf s a = some (s', o))
    (hacts : a.acts s = some (t, entering, Role.receiver maxlen priop))
    (hnone : registers procOf ⟨s, a, o, s'⟩ = none) :
    RegistrationStep procOf ⟨s, a, o, s'⟩ := by
  rcases hinv.linked with ⟨used, free, hlinked⟩
  rcases step_cases h with hidle | ⟨t', entering', role, r, k, hran, hfin⟩
  · rw [hidle.acts] at hacts
    cases hacts
  · have hsame := hran.acts
    rw [hacts] at hsame
    cases hsame
    rcases (hran.effects hinv.blocked hlinked).receiver_registration hlinked with ⟨hpid, hsig⟩
    refine RegistrationStep.stays ?_ hnone ?_
    · show mqhPid s'.mem = mqhPid s.mem
      rw [hfin.mem]
      exact hpid
    · show queuedSignal ⟨s, a, o, s'⟩ = none
      rw [hfin.effect]
      exact hsig

/-- A call that neither sends nor receives ends at once; it changes the registration only
in `mq_notify` and `mq_close`. -/
theorem other_registration {t : tid} {d : Nat} {c : MqCall} {wake : Option tid}
    {o : Option Effect} {info : MqInfo} {k : Option BlockedCall} {s₀ : MqState tid}
    (howner : info.owner = procOf t) (hrole : c.role = Role.other)
    (h : Finished s₀ t k (c.enter s.alive s.mem info) wake s' o) :
    RegistrationStep procOf ⟨s, MqAction.call t d c wake, o, s'⟩ := by
  have hfile := h.mem
  have heffect := h.effect
  have hstays : forall r : Stretch, s'.mem = r.mem -> o = some r.effect ->
      mqhPid r.mem = mqhPid s.mem -> r.sigqueue = none ->
      registers procOf ⟨s, MqAction.call t d c wake, o, s'⟩ = none ->
      RegistrationStep procOf ⟨s, MqAction.call t d c wake, o, s'⟩ := by
    intro r hr ho hpid hsig hnone
    refine RegistrationStep.stays ?_ hnone ?_
    · show mqhPid s'.mem = mqhPid s.mem
      rw [hr]
      exact hpid
    · rw [ho]
      exact hsig
  unfold MqCall.enter at hfile heffect
  by_cases hmagic : info.mqi_magic ≠ MQI_MAGIC
  · rw [if_pos hmagic] at hfile heffect
    subst heffect
    refine hstays _ hfile rfl rfl rfl ?_
    cases c with
    | notify notification => cases notification <;> rfl
    | send buf prio => cases hrole
    | receive maxlen priop => cases hrole
    | getattr => rfl
    | setattr flags omqstat => rfl
    | close munmap => rfl
  · rw [if_neg hmagic] at hfile heffect
    cases c with
    | send buf prio => cases hrole
    | receive maxlen priop => cases hrole
    | getattr => exact hstays _ hfile heffect rfl rfl rfl
    | setattr flags omqstat => exact hstays _ hfile heffect rfl rfl rfl
    | close munmap =>
        rcases mqNotify_none s.mem info.owner (killZero s.alive) with ⟨hsig, hpid⟩
        simp only at hfile heffect
        generalize mqNotify s.mem info.owner.val (killZero s.alive) none = r at *
        rcases hpid with ⟨hpid, hzero⟩ | hsame
        · refine RegistrationStep.givenUp info.owner hpid
            ⟨t, d, wake, howner.symm, Or.inr ⟨munmap, rfl⟩⟩ ?_ rfl ?_
          · show mqhPid s'.mem = 0
            rw [hfile]
            exact hzero
          · rw [heffect]
            exact hsig
        · refine RegistrationStep.stays ?_ rfl ?_
          · show mqhPid s'.mem = mqhPid s.mem
            rw [hfile]
            exact hsame
          · rw [heffect]
            exact hsig
    | notify notification =>
        cases notification with
        | none =>
            rcases mqNotify_none s.mem info.owner (killZero s.alive) with
              ⟨hsig, ⟨hpid, hzero⟩ | hsame⟩
            · refine RegistrationStep.givenUp info.owner hpid
                ⟨t, d, wake, howner.symm, Or.inl rfl⟩ ?_ rfl ?_
              · show mqhPid s'.mem = 0
                rw [hfile]
                exact hzero
              · rw [heffect]
                exact hsig
            · exact hstays _ hfile heffect hsame hsig rfl
        | some ev =>
            simp only at hfile heffect
            rcases mqNotify_some s.mem info.owner s.alive ev with hbusy | ⟨hfree, hdone⟩
            · rw [hbusy] at hfile heffect
              subst heffect
              exact hstays _ hfile rfl rfl rfl rfl
            · rw [hdone] at hfile heffect
              subst heffect
              refine RegistrationStep.registered info.owner hfree ?_ ?_ rfl
              · show mqhPid s'.mem = info.owner.val
                rw [hfile]
                exact mqhPid_register s.mem info.owner ev
              · rw [howner]
                rfl

theorem registration_step {a : MqAction tid} {o : Option Effect} (hinv : QueueInv sz s)
    (h : mqStep procOf s a = some (s', o)) : RegistrationStep procOf ⟨s, a, o, s'⟩ := by
  have hidle : Idle s a s' o -> RegistrationStep procOf ⟨s, a, o, s'⟩ := by
    intro hidle
    have hquiet := hidle.effect
    subst hquiet
    refine RegistrationStep.stays ?_ ?_ rfl
    · show mqhPid s'.mem = mqhPid s.mem
      rw [hidle.mem]
    · unfold registers
      split
      · rename_i heq
        cases heq
      · rfl
  cases a with
  | call t d c wake =>
      cases hdesc : s.descs d with
      | none => simp [mqStep, hdesc] at h
      | some info =>
          rcases call_step hdesc h with ⟨hmay, hfinish⟩
          have hother : c.role = Role.other ->
              RegistrationStep procOf ⟨s, MqAction.call t d c wake, o, s'⟩ :=
            fun hrole => other_registration hmay.2.2.2 hrole (finished_of_finish hfinish)
          cases c with
          | send buf prio => exact sender_registration hinv h rfl rfl
          | receive maxlen priop => exact receiver_registration hinv h rfl rfl
          | notify notification => exact hother rfl
          | getattr => exact hother rfl
          | setattr flags omqstat => exact hother rfl
          | close munmap => exact hother rfl
  | resume t wake =>
      rcases step_cases h with hrest | ⟨t', entering, role, r, k, hran, hfin⟩
      · exact hidle hrest
      · have hacts := hran.acts
        cases hran with
        | resumes wake woken =>
            rename_i b k
            cases k with
            | send d buf prio => exact sender_registration hinv h hacts rfl
            | receive d maxlen priop => exact receiver_registration hinv h hacts rfl
  | lockFails t d c e =>
      rcases step_cases h with hrest | ⟨t', entering, role, r, k, hran, hfin⟩
      · exact hidle hrest
      · cases hran
  | spurious t =>
      rcases step_cases h with hrest | ⟨t', entering, role, r, k, hran, hfin⟩
      · exact hidle hrest
      · cases hran
  | opens t d oflag =>
      rcases step_cases h with hrest | ⟨t', entering, role, r, k, hran, hfin⟩
      · exact hidle hrest
      · cases hran
  | exits p =>
      rcases step_cases h with hrest | ⟨t', entering, role, r, k, hran, hfin⟩
      · exact hidle hrest
      · cases hran

/-!
## Runs
-/

/-- The field names nobody, or the process of the latest registration, for which no signal
has been queued. -/
def FieldAgrees (g : Registrations) (s : MqState tid) : Prop :=
  mqhPid s.mem ≠ 0 -> (exists p, g.latest = some p ∧ mqhPid s.mem = p.val) ∧ g.signalled = false

omit [Fintype tid] [DecidableEq tid] in
theorem registeredSignal_pid {m : Mem} {sig : Sigqueue} (h : registeredSignal m = some sig) :
    sig.pid = mqhPid m := by
  unfold registeredSignal at h
  split at h
  · rw [← Option.some.inj h]
  · cases h

omit [Fintype tid] [DecidableEq tid] in
theorem RegistrationStep.agrees {e : MqTransition tid} {g : Registrations}
    (h : RegistrationStep procOf e) (hagrees : FieldAgrees g e.source) :
    FieldAgrees (g.extend procOf e) e.target := by
  intro hsome
  cases h with
  | stays pid registers quiet =>
      unfold Registrations.extend
      rw [registers, quiet]
      rw [pid] at hsome ⊢
      exact hagrees hsome
  | consumed sends registered pid registers signal => exact absurd pid hsome
  | givenUp p owner gives pid registers quiet => exact absurd pid hsome
  | registered p free pid registers quiet =>
      unfold Registrations.extend
      rw [registers]
      exact ⟨⟨p, rfl, pid⟩, rfl⟩

omit [Fintype tid] [DecidableEq tid] in
theorem RegistrationStep.law {e : MqTransition tid} {g : Registrations}
    (h : RegistrationStep procOf e) (hagrees : FieldAgrees g e.source) :
    RegistrationLaw procOf g e := by
  have hholds : mqhPid e.source.mem ≠ 0 ->
      exists p, g.latest = some p ∧ mqhPid e.source.mem = p.val :=
    fun hsome => (hagrees hsome).left
  cases h with
  | stays pid registers quiet =>
      refine ⟨?_, hholds, ?_, ?_⟩
      · intro p hp
        rw [registers] at hp
        cases hp
      · intro sig hsig
        rw [quiet] at hsig
        cases hsig
      · intro p hp _ hends
        exact absurd (pid.trans hp) hends
  | consumed sends registered pid registers signal =>
      refine ⟨?_, hholds, ?_, ?_⟩
      · intro p hp
        rw [registers] at hp
        cases hp
      · intro sig hsig
        rw [signal] at hsig
        rcases hagrees registered with ⟨⟨p, hlatest, hpid⟩, hfirst⟩
        exact ⟨⟨p, hlatest, (registeredSignal_pid hsig).trans hpid⟩, hfirst⟩
      · intro p _ _ _
        exact Or.inl sends
  | givenUp p owner gives pid registers quiet =>
      refine ⟨?_, hholds, ?_, ?_⟩
      · intro q hq
        rw [registers] at hq
        cases hq
      · intro sig hsig
        rw [quiet] at hsig
        cases hsig
      · intro q hq _ _
        have hsame : p = q := Subtype.ext (owner.symm.trans hq)
        rw [← hsame]
        exact Or.inr gives
  | registered p free pid registers quiet =>
      refine ⟨?_, hholds, ?_, ?_⟩
      · intro q hq
        rw [registers] at hq
        cases hq
        exact pid
      · intro sig hsig
        rw [quiet] at hsig
        cases hsig
      · intro q hq halive _
        -- the process named by the field exists, so nobody else registers
        rcases free with hzero | hdead
        · exact absurd (hq.symm.trans hzero) (pid_ne_zero q)
        · rw [hq, halive] at hdead
          cases hdead

/-- In every run a signal goes to the process of the latest registration, at most one for
each, and a registration whose process exists ends only by a send to an empty queue or by
its own process. -/
theorem registration_life_cycle {tr : List (MqTransition tid)}
    (h : Run (MqInit sz) (mqStep procOf) tr s) :
    forall tr₁ e tr₂, tr = tr₁ ++ e :: tr₂ ->
      RegistrationLaw procOf (registrationsOf procOf tr₁) e := by
  have hagrees : forall tr s, Run (MqInit sz) (mqStep procOf) tr s ->
      FieldAgrees (registrationsOf procOf tr) s := by
    intro tr s hrun
    refine run_induction
      (I := fun tr s => FieldAgrees (registrationsOf procOf tr) s) ?_ ?_ hrun
    · intro s hinit hsome
      exact absurd (mqOpenCreate_wellLinked hinit.created).right.right hsome
    · intro tr s a o t hprior ih hstep
      rw [registrationsOf_snoc]
      exact (registration_step (reachable_inv ⟨tr, hprior⟩) hstep).agrees ih
  intro tr₁ e tr₂ heq
  subst heq
  rcases run_split h with ⟨hprior, hvalid, _⟩
  exact (registration_step (reachable_inv ⟨tr₁, hprior⟩) hvalid).law (hagrees tr₁ e.source hprior)

end Runs

theorem twoProcesses_isPid (t : Fin 2) :
    0 < (t.val : Int) + 1 ∧ (t.val : Int) + 1 < 2 ^ 31 := by
  have hlt := t.isLt
  constructor
  · lia
  · lia

def twoProcesses (t : Fin 2) : Pid := ⟨(t.val : Int) + 1, twoProcesses_isPid t⟩

/-- The first process registers, the second cannot and closes, and a message is sent. -/
theorem registration_life_cycle_twoProcesses :
    exists (tr : List (MqTransition (Fin 2))),
      (exists e, e ∈ tr ∧ (queuedSignal e).isSome = true) ∧
        forall tr₁ e tr₂, tr = tr₁ ++ e :: tr₂ ->
          RegistrationLaw twoProcesses (registrationsOf twoProcesses tr₁) e := by
  have hreplay : exists tr, exists s : MqState (Fin 2),
      Run (MqInit threeSlots) (mqStep twoProcesses) tr s ∧
        decide (exists e, e ∈ tr ∧ (queuedSignal e).isSome = true) = true :=
    run_of_replay
      [MqAction.opens 0 0 0, MqAction.opens 1 1 0,
        MqAction.call 0 0
          (MqCall.notify (some { sigev_value := 0, sigev_signo := 10, sigev_notify := 0 })) none,
        MqAction.call 1 1
          (MqCall.notify (some { sigev_value := 0, sigev_signo := 12, sigev_notify := 0 })) none,
        MqAction.call 1 1 (MqCall.close none) none, MqAction.call 0 0 (MqCall.send [1] 1) none]
      (init_fresh threeSlots_created) (by decide +kernel)
  rcases hreplay with ⟨tr, s, hrun, htest⟩
  exact ⟨tr, of_decide_eq_true htest, registration_life_cycle hrun⟩

end MessageQueue
end InterprocessComm
