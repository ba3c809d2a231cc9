import InterprocessComm.MessageQueue.PriorityQueue

/-!
# Notification of a registered process

A send is to use up the registration of `mq_notify` when it puts its message on an
empty queue while nobody is counted as waiting in `mq_receive`.  The code looks
at the queue once, on entry.
-/

namespace InterprocessComm
namespace MessageQueue

open Verification

section

variable {tid : Type}

def ShouldNotify (e : MqTransition tid) : Prop :=
  (sent e).isSome = true ∧ mqhHead e.source.mem = 0 ∧ mqhPid e.source.mem ≠ 0 ∧
    mqhNwait e.source.mem = 0

def queuedSignal (e : MqTransition tid) : Option Sigqueue :=
  match e.event with
  | some x => x.sigqueue
  | none => none

/-- A stretch of `mq_send` uses up the registration exactly when it should. -/
def NotifyLaw (e : MqTransition tid) : Prop :=
  forall t entering buf prio,
    e.action.acts e.source = some (t, entering, Role.sender buf prio) ->
      (ShouldNotify e -> mqhPid e.target.mem = 0 ∧
        queuedSignal e = registeredSignal e.source.mem) ∧
      (¬ ShouldNotify e -> mqhPid e.target.mem = mqhPid e.source.mem ∧
        queuedSignal e = none)

def sendsLate (e : MqTransition tid) : Bool :=
  match e.action.acts e.source with
  | some (_, false, Role.sender _ _) => true
  | _ => false

/-- A send that waited for room comes back to an empty queue, with a process
registered and no thread counted in `mqh_nwait`. -/
def LateOnEmpty (e : MqTransition tid) : Prop :=
  sendsLate e = true ∧ mqhHead e.source.mem = 0 ∧ mqhPid e.source.mem ≠ 0 ∧
    mqhNwait e.source.mem = 0

instance (e : MqTransition tid) : Decidable (LateOnEmpty e) :=
  inferInstanceAs (Decidable (_ ∧ _ ∧ _ ∧ _))

theorem sendsLate_of_acts {e : MqTransition tid} {t : tid} {entering : Bool}
    {buf : List UInt8} {prio : UInt32}
    (h : e.action.acts e.source = some (t, entering, Role.sender buf prio)) :
    sendsLate e = !entering := by
  unfold sendsLate
  rw [h]
  cases entering with
  | false => rfl
  | true => rfl

theorem acts_of_sendsLate {e : MqTransition tid} (h : sendsLate e = true) :
    exists t buf prio, e.action.acts e.source = some (t, false, Role.sender buf prio) := by
  unfold sendsLate at h
  cases hacts : e.action.acts e.source with
  | none => simp [hacts] at h
  | some who =>
      rcases who with ⟨t, entering, role⟩
      cases entering with
      | true => simp [hacts] at h
      | false =>
          cases role with
          | sender buf prio => exact ⟨t, buf, prio, rfl⟩
          | receiver maxlen priop => simp [hacts] at h
          | other => simp [hacts] at h

end

/-!
## The registration in a stretch of `mq_send`
-/

section Stretches

variable {sz : QueueSizes} {m : Mem} {used free : List Int}

def Notifies (entering : Bool) (m : Mem) (used : List Int) : Prop :=
  entering = true ∧ used = [] ∧ mqhPid m ≠ 0 ∧ mqhNwait m = 0

theorem notified_of_notifies {entering : Bool} (h : Notifies entering m used) :
    mqhPid (notified entering m used).1 = 0 ∧
      (notified entering m used).2 = registeredSignal m := by
  rcases h with ⟨hentering, hempty, hregistered⟩
  have hpid : mqhPid (putInt m offMqhPid 0) = 0 := getInt_putInt (by lia)
  have heq : notified entering m used = (putInt m offMqhPid 0, registeredSignal m) := by
    unfold notified mqSendNotify
    rw [if_pos ⟨hentering, hempty⟩, if_pos hregistered]
  have hfile : (notified entering m used).1 = putInt m offMqhPid 0 := by rw [heq]
  have hsignal : (notified entering m used).2 = registeredSignal m := by rw [heq]
  rw [hfile]
  exact ⟨hpid, hsignal⟩

theorem notified_of_not_notifies {entering : Bool} (h : ¬ Notifies entering m used) :
    notified entering m used = (m, none) := by
  unfold notified
  split
  · rename_i hempty
    unfold mqSendNotify
    exact if_neg fun hregistered => h ⟨hempty.left, hempty.right, hregistered⟩
  · rfl

theorem Effects.registration {entering : Bool} {buf : List UInt8} {prio : UInt32}
    {r : Stretch} (h : Effects sz m used free entering (Role.sender buf prio) r)
    (hlinked : WellLinked sz m used free) :
    r.outcome = Outcome.returns MqReturn.sent ∧
        mqhPid r.mem = mqhPid (notified entering m used).1 ∧
        r.sigqueue = (notified entering m used).2 ∨
      r.outcome ≠ Outcome.returns MqReturn.sent ∧ r.mem = m ∧ r.sigqueue = none ∧
        (entering = true ∨ used ≠ []) := by
  generalize hrole : Role.sender buf prio = role at h
  cases h with
  | fails role e =>
      right
      refine ⟨?_, rfl, rfl, Or.inl rfl⟩
      intro heq
      cases heq
  | header same outcome plain signals sigqueue => cases hrole
  | sendWaits fits full =>
      right
      refine ⟨?_, rfl, rfl, Or.inr ?_⟩
      · intro heq
        cases heq
      · intro hnil
        have hpos := sz.maxmsg_pos
        have hempty := hlinked.curmsgs_eq_zero_iff.mpr hnil
        lia
  | receiveWaits fits empty => cases hrole
  | links fits slot linked =>
      left
      subst slot
      have hstart := hlinked.congr (sameChains_notified entering m used)
      refine ⟨rfl, ?_, rfl⟩
      exact getInt_congr fun x hx => linked.outside_header hstart (by lia) (by lia)
  | takes fits first unlinked => cases hrole

end Stretches

section Runs

variable {tid : Type} [Fintype tid] [DecidableEq tid] {procOf : tid -> Pid}
variable {sz : QueueSizes} {s : MqState tid}

theorem step_registration {a : MqAction tid} {o : Option Effect} {s' : MqState tid}
    {t : tid} {entering : Bool} {buf : List UInt8} {prio : UInt32} {used free : List Int}
    (hinv : QueueInv sz s) (hlinked : WellLinked sz s.mem used free)
    (h : mqStep procOf s a = some (s', o))
    (hacts : a.acts s = some (t, entering, Role.sender buf prio)) :
    ((sent ⟨s, a, o, s'⟩).isSome = true ∧
        mqhPid s'.mem = mqhPid (notified entering s.mem used).1 ∧
        queuedSignal ⟨s, a, o, s'⟩ = (notified entering s.mem used).2) ∨
      (sent ⟨s, a, o, s'⟩ = none ∧ mqhPid s'.mem = mqhPid s.mem ∧
        queuedSignal ⟨s, a, o, s'⟩ = none ∧ (entering = true ∨ used ≠ [])) := by
  rcases step_cases h with hidle | ⟨t', entering', role, r, k, hran, hfin⟩
  · rw [hidle.acts] at hacts
    cases hacts
  · have hsame := hran.acts
    rw [hacts] at hsame
    cases hsame
    rcases (hran.effects hinv.blocked hlinked).registration hlinked with
      ⟨hsent, hpid, hsig⟩ | ⟨hnot, hmem, hsig, hwhen⟩
    · left
      rw [hfin.mem, hfin.effect]
      refine ⟨?_, hpid, hsig⟩
      simp [sent, hacts, Stretch.effect, hsent]
    · right
      rw [hfin.mem, hfin.effect, hmem]
      exact ⟨sent_of_outcome_ne rfl hnot, rfl, hsig, hwhen⟩

theorem step_notifyLaw {a : MqAction tid} {o : Option Effect} {s' : MqState tid}
    (hinv : QueueInv sz s) (h : mqStep procOf s a = some (s', o)) :
    NotifyLaw ⟨s, a, o, s'⟩ <-> ¬ LateOnEmpty ⟨s, a, o, s'⟩ := by
  rcases hinv.linked with ⟨used, free, hlinked⟩
  have hhead := hlinked.head_eq_zero_iff
  constructor
  · rintro hlaw ⟨hlate, hempty, hpid, hnwait⟩
    rcases acts_of_sendsLate hlate with ⟨t, buf, prio, hacts⟩
    have hnot : ¬ Notifies false s.mem used := fun hall => by cases hall.left
    rcases step_registration hinv hlinked h hacts with
      ⟨hsent, hkept, _⟩ | ⟨_, _, _, hentering | hused⟩
    · have hcleared := ((hlaw t false buf prio hacts).left ⟨hsent, hempty, hpid, hnwait⟩).left
      rw [notified_of_not_notifies hnot] at hkept
      exact hpid (hkept.symm.trans hcleared)
    · cases hentering
    · exact hused (hhead.mp hempty)
  · intro hlate t entering buf prio hacts
    have hentered : ShouldNotify ⟨s, a, o, s'⟩ -> entering = true := by
      rintro ⟨_, hempty, hpid, hnwait⟩
      cases entering with
      | true => rfl
      | false => exact absurd ⟨sendsLate_of_acts hacts, hempty, hpid, hnwait⟩ hlate
    rcases step_registration hinv hlinked h hacts with
      ⟨hsent, hpid, hsig⟩ | ⟨hnot, hpid, hsig, _⟩
    · constructor
      · intro hshould
        have hnotifies : Notifies entering s.mem used :=
          ⟨hentered hshould, hhead.mp hshould.2.1, hshould.2.2⟩
        rcases notified_of_notifies hnotifies with ⟨hzero, hregistered⟩
        exact ⟨hpid.trans hzero, hsig.trans hregistered⟩
      · intro hshould
        have hnotifies : ¬ Notifies entering s.mem used := by
          rintro ⟨_, hempty, hregistered⟩
          exact hshould ⟨hsent, hhead.mpr hempty, hregistered⟩
        rw [notified_of_not_notifies hnotifies] at hpid hsig
        exact ⟨hpid, hsig⟩
    · constructor
      · rintro ⟨hsent, _⟩
        rw [hnot] at hsent
        cases hsent
      · intro _
        exact ⟨hpid, hsig⟩

/-- In a run the registration is used up exactly when it should be, if and only if no
send that waited for room comes back to an empty queue with a process registered
and nobody counted as waiting. -/
theorem notify_law_iff {tr : List (MqTransition tid)}
    (h : Run (MqInit sz) (mqStep procOf) tr s) :
    (forall e, e ∈ tr -> NotifyLaw e) <-> forall e, e ∈ tr -> ¬ LateOnEmpty e := by
  have hstep : forall e, e ∈ tr -> (NotifyLaw e <-> ¬ LateOnEmpty e) := by
    intro e he
    rcases run_transition h he with ⟨hreach, hvalid⟩
    exact step_notifyLaw (reachable_inv hreach) hvalid
  constructor
  · intro hlaw e he
    exact (hstep e he).mp (hlaw e he)
  · intro hlate e he
    exact (hstep e he).mpr (hlate e he)

end Runs

/-- Thread `1` waits to send to a full queue, thread `2` registers and empties the
queue, and thread `1` comes back. -/
def lateSend : List (MqAction (Fin 3)) :=
  [MqAction.opens 0 0 0, MqAction.call 0 0 (MqCall.send [1] 1) none,
    MqAction.call 0 0 (MqCall.send [2] 1) none, MqAction.call 0 0 (MqCall.send [3] 1) none,
    MqAction.call 1 0 (MqCall.send [4] 1) none,
    MqAction.call 2 0
      (MqCall.notify (some { sigev_value := 0, sigev_signo := 10, sigev_notify := 0 })) none,
    MqAction.call 2 0 (MqCall.receive 1 true) (some 1),
    MqAction.call 2 0 (MqCall.receive 1 true) none,
    MqAction.call 2 0 (MqCall.receive 1 true) none, MqAction.resume 1 none]

theorem lateSend_run :
    exists tr s, Run (MqInit threeSlots) (mqStep (oneProcess (n := 3))) tr s ∧
      decide (exists e, e ∈ tr ∧ LateOnEmpty e) = true :=
  run_of_replay lateSend (init_fresh threeSlots_created) (by decide +kernel)

theorem notify_law_iff_lateSend :
    exists (tr : List (MqTransition (Fin 3))), (exists e, e ∈ tr ∧ LateOnEmpty e) ∧
      ((forall e, e ∈ tr -> NotifyLaw e) <-> forall e, e ∈ tr -> ¬ LateOnEmpty e) := by
  rcases lateSend_run with ⟨tr, s, hrun, htest⟩
  exact ⟨tr, of_decide_eq_true htest, notify_law_iff hrun⟩

/-- The message of the late send goes to an empty queue and the registration stays. -/
theorem missed_notification_lateSend :
    ¬ forall (tr : List (MqTransition (Fin 3))) (s : MqState (Fin 3)),
      Run (MqInit threeSlots) (mqStep (oneProcess (n := 3))) tr s ->
        forall e, e ∈ tr -> NotifyLaw e := by
  intro hclaim
  rcases lateSend_run with ⟨tr, s, hrun, htest⟩
  rcases of_decide_eq_true htest with ⟨e, he, hlate⟩
  rcases run_transition hrun he with ⟨hreach, hvalid⟩
  exact (step_notifyLaw (reachable_inv hreach) hvalid).mp (hclaim tr s hrun e he) hlate

end MessageQueue
end InterprocessComm
