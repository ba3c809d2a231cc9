import InterprocessComm.MessageQueue.Chains
import InterprocessComm.MessageQueue.System

/-!
# What a stretch does

Every stretch on a well-linked file fails without a change, changes header
fields only, waits, links one message or takes the first one.
-/

namespace InterprocessComm
namespace MessageQueue

open Verification

inductive Role where
  | sender (buf : List UInt8) (prio : UInt32)
  | receiver (maxlen : Nat) (priop : Bool)
  | other

def MqCall.role : MqCall -> Role
  | MqCall.send buf prio => Role.sender buf prio
  | MqCall.receive maxlen priop => Role.receiver maxlen priop
  | _ => Role.other

def BlockedCall.role : BlockedCall -> Role
  | BlockedCall.send _ buf prio => Role.sender buf prio
  | BlockedCall.receive _ maxlen priop => Role.receiver maxlen priop

def MqReturn.Plain : MqReturn -> Prop
  | MqReturn.sent => False
  | MqReturn.received _ _ _ => False
  | _ => True

/-- The chains and the messages lie outside of the header fields that follow
`mqh_free`. -/
def SameChains (m m' : Mem) : Prop :=
  forall x, x < offMqhNwait ∨ sizeofMqHdr ≤ x -> m' x = m x

theorem sameChains_refl (m : Mem) : SameChains m m := fun _ _ => rfl

theorem sameChains_putLong {a v : Int} (m : Mem)
    (h : offMqhNwait ≤ a ∧ a + 8 ≤ sizeofMqHdr) : SameChains m (putLong m a v) := by
  intro x hx
  exact putLong_outside (by lia)

theorem sameChains_putInt {a v : Int} (m : Mem)
    (h : offMqhNwait ≤ a ∧ a + 4 ≤ sizeofMqHdr) : SameChains m (putInt m a v) := by
  intro x hx
  exact putInt_outside (by lia)

theorem SameChains.trans {m m₁ m₂ : Mem} (h : SameChains m m₁) (h' : SameChains m₁ m₂) :
    SameChains m m₂ := by
  intro x hx
  rw [h' x hx, h x hx]

/-- The file a linking stretch links in, and the signal it queues: only a call that
has just entered looks at the registration, and only when the queue is empty. -/
def notified (entering : Bool) (m : Mem) (used : List Int) : Mem × Option Sigqueue :=
  if entering = true ∧ used = [] then mqSendNotify m else (m, none)

/-- The file a receive takes from: a call that waited is counted no longer. -/
def counted (entering : Bool) (m : Mem) : Mem :=
  if entering then m else putLong m offMqhNwait (mqhNwait m - 1)

inductive Effects (sz : QueueSizes) (m : Mem) (used free : List Int) :
    Bool -> Role -> Stretch -> Prop where
  | fails (role : Role) (e : Errno) : Effects sz m used free true role (Stretch.fail m e)
  | header {r : Stretch} {ret : MqReturn}
      (same : SameChains m r.mem)
      (outcome : r.outcome = Outcome.returns ret) (plain : ret.Plain)
      (signals : r.signals = false) (sigqueue : r.sigqueue = none) :
      Effects sz m used free true Role.other r
  | sendWaits {entering : Bool} {buf : List UInt8} {prio : UInt32}
      (fits : (buf.length : Int) ≤ sz.mq_msgsize)
      (full : mqCurmsgs m = sz.mq_maxmsg) :
      Effects sz m used free entering (Role.sender buf prio) (Stretch.wait m)
  | receiveWaits {entering : Bool} {maxlen : Nat} {priop : Bool}
      (fits : sz.mq_msgsize ≤ maxlen)
      (empty : used = []) :
      Effects sz m used free entering (Role.receiver maxlen priop)
        (Stretch.wait
          (if entering then putLong m offMqhNwait (mqhNwait m + 1) else m))
  | links {entering : Bool} {buf : List UInt8} {prio : UInt32} {m' : Mem} {f q : Int}
      {rest front back : List Int}
      (fits : (buf.length : Int) ≤ sz.mq_msgsize)
      (slot : free = f :: rest)
      (linked : Linked (notified entering m used).1 used f buf prio front back q m') :
      Effects sz m used free entering (Role.sender buf prio)
        { mem := m', outcome := Outcome.returns MqReturn.sent,
          signals := decide (mqCurmsgs m = 0),
          sigqueue := (notified entering m used).2 }
  | takes {entering : Bool} {maxlen : Nat} {priop : Bool} {m' : Mem} {i : Int}
      {rest : List Int}
      (fits : sz.mq_msgsize ≤ maxlen)
      (first : used = i :: rest)
      (unlinked : Unlinked (counted entering m) i m') :
      Effects sz m used free entering (Role.receiver maxlen priop)
        { mem := m',
          outcome := Outcome.returns (MqReturn.received
            (messageAt m i).data.length (messageAt m i).data
            (if priop then some (messageAt m i).prio else none)),
          signals := decide (mqCurmsgs m = mqMaxmsg m), sigqueue := none }

/-!
## Sends
-/

section Cases

variable {sz : QueueSizes} {m : Mem} {used free : List Int}

theorem sameChains_mqSendNotify (m : Mem) : SameChains m (mqSendNotify m).1 := by
  unfold mqSendNotify
  split
  · exact sameChains_putInt m (by lia)
  · exact sameChains_refl m

theorem sameChains_notified (entering : Bool) (m : Mem) (used : List Int) :
    SameChains m (notified entering m used).1 := by
  unfold notified
  split
  · exact sameChains_mqSendNotify m
  · exact sameChains_refl m

theorem sameChains_counted (entering : Bool) (m : Mem) :
    SameChains m (counted entering m) := by
  cases entering with
  | false => exact sameChains_putLong m (by lia)
  | true => exact sameChains_refl m

theorem WellLinked.toULong_msgsize (h : WellLinked sz m used free) :
    toULong (mqMsgsize m) = sz.mq_msgsize := by
  have hpos := sz.msgsize_pos
  rw [h.msgsize]
  exact toULong_of_length ⟨le_of_lt hpos, le_refl sz.mq_msgsize⟩

theorem link_effects (h : WellLinked sz m used free)
    (hroom : mqCurmsgs m < mqMaxmsg m) (entering : Bool) {buf : List UInt8}
    (hfits : (buf.length : Int) ≤ sz.mq_msgsize) (prio : UInt32) :
    Effects sz m used free entering (Role.sender buf prio)
      (mqSendLink (notified entering m used).1 buf prio (notified entering m used).2) := by
  cases free with
  | nil => exact absurd rfl (h.free_ne_nil hroom)
  | cons f rest =>
      have hsame := sameChains_notified entering m used
      rcases mqSendLink_spec (h.congr hsame) hfits prio (notified entering m used).2 with
        ⟨front, back, q, m', hlinked, hstretch⟩
      have hcur : mqCurmsgs (notified entering m used).1 = mqCurmsgs m := by
        rw [(h.congr hsame).curmsgs, h.curmsgs]
      rw [hstretch, hcur]
      exact Effects.links hfits rfl hlinked

theorem mqSendRetest_effects (h : WellLinked sz m used free) {buf : List UInt8}
    (hfits : (buf.length : Int) ≤ sz.mq_msgsize) (prio : UInt32) :
    Effects sz m used free false (Role.sender buf prio) (mqSendRetest m buf prio) := by
  have hadd := h.length_add
  have hcur := h.curmsgs
  have hmax := h.maxmsg
  unfold mqSendRetest
  by_cases hfull : mqCurmsgs m ≥ mqMaxmsg m
  · rw [if_pos hfull]
    exact Effects.sendWaits hfits (by lia)
  · rw [if_neg hfull]
    exact link_effects h (by lia) false hfits prio

theorem mqSend_effects (h : WellLinked sz m used free) (flags : UInt32)
    (buf : List UInt8) (prio : UInt32) :
    Effects sz m used free true (Role.sender buf prio) (mqSend m flags buf prio) := by
  have hadd := h.length_add
  have hcur := h.curmsgs
  have hmax := h.maxmsg
  have hpos := sz.maxmsg_pos
  have hsize := h.toULong_msgsize
  unfold mqSend
  by_cases hlong : (buf.length : Int) > toULong (mqMsgsize m)
  · rw [if_pos hlong]
    exact Effects.fails _ _
  · rw [if_neg hlong]
    have hfits : (buf.length : Int) ≤ sz.mq_msgsize := by lia
    by_cases hempty : mqCurmsgs m = 0
    · have hused : used = [] := h.curmsgs_eq_zero_iff.mp hempty
      have hlink := link_effects h (by lia) true hfits prio
      rw [if_pos hempty]
      simpa [notified, hused] using hlink
    · have hused : used ≠ [] := fun hnil => hempty (h.curmsgs_eq_zero_iff.mpr hnil)
      rw [if_neg hempty]
      by_cases hfull : mqCurmsgs m ≥ mqMaxmsg m
      · rw [if_pos hfull]
        by_cases hnonblock : flags &&& O_NONBLOCK ≠ 0
        · rw [if_pos hnonblock]
          exact Effects.fails _ _
        · rw [if_neg hnonblock]
          unfold mqSendRetest
          rw [if_pos hfull]
          exact Effects.sendWaits hfits (by lia)
      · have hlink := link_effects h (by lia) true hfits prio
        rw [if_neg hfull]
        simpa [notified, hused] using hlink

/-!
## Receives
-/

theorem take_effects (h : WellLinked sz m used free) (hused : used ≠ [])
    (entering : Bool) {maxlen : Nat} (hfits : sz.mq_msgsize ≤ maxlen) (priop : Bool) :
    Effects sz m used free entering (Role.receiver maxlen priop)
      (mqReceiveTake (counted entering m) priop) := by
  cases used with
  | nil => exact absurd rfl hused
  | cons i rest =>
      have hsame := sameChains_counted entering m
      have hcounted := h.congr hsame
      rcases mqReceiveTake_spec hcounted priop with ⟨m', hunlinked, hstretch⟩
      have hcur : mqCurmsgs (counted entering m) = mqCurmsgs m := by
        rw [hcounted.curmsgs, h.curmsgs]
      have hmax : mqMaxmsg (counted entering m) = mqMaxmsg m := by
        rw [hcounted.maxmsg, h.maxmsg]
      rw [hstretch, hcur, hmax, h.messageAt_congr hsame List.mem_cons_self]
      exact Effects.takes hfits rfl hunlinked

theorem mqReceiveRetest_effects (h : WellLinked sz m used free) {maxlen : Nat}
    (hfits : sz.mq_msgsize ≤ maxlen) (priop : Bool) :
    Effects sz m used free false (Role.receiver maxlen priop)
      (mqReceiveRetest m priop) := by
  unfold mqReceiveRetest
  by_cases hempty : mqCurmsgs m = 0
  · rw [if_pos hempty]
    exact Effects.receiveWaits hfits (h.curmsgs_eq_zero_iff.mp hempty)
  · rw [if_neg hempty]
    exact take_effects h (fun hnil => hempty (h.curmsgs_eq_zero_iff.mpr hnil)) false hfits priop

theorem mqReceive_effects (h : WellLinked sz m used free) (flags : UInt32)
    (maxlen : Nat) (priop : Bool) :
    Effects sz m used free true (Role.receiver maxlen priop)
      (mqReceive m flags maxlen priop) := by
  have hsize := h.toULong_msgsize
  unfold mqReceive
  by_cases hshort : (maxlen : Int) < toULong (mqMsgsize m)
  · rw [if_pos hshort]
    exact Effects.fails _ _
  · rw [if_neg hshort]
    have hfits : sz.mq_msgsize ≤ maxlen := by lia
    by_cases hempty : mqCurmsgs m = 0
    · have hused : used = [] := h.curmsgs_eq_zero_iff.mp hempty
      rw [if_pos hempty]
      by_cases hnonblock : flags &&& O_NONBLOCK ≠ 0
      · rw [if_pos hnonblock]
        exact Effects.fails _ _
      · rw [if_neg hnonblock]
        have hsame : SameChains m (putLong m offMqhNwait (mqhNwait m + 1)) :=
          sameChains_putLong m (by lia)
        have hwaiting := h.congr hsame
        unfold mqReceiveRetest
        rw [if_pos (hwaiting.curmsgs_eq_zero_iff.mpr hused)]
        exact Effects.receiveWaits hfits hused
    · rw [if_neg hempty]
      exact take_effects h (fun hnil => hempty (h.curmsgs_eq_zero_iff.mpr hnil)) true hfits
        priop

/-!
## Calls
-/

theorem sameChains_mqNotify (m : Mem) (pid : Int) (kill : Int -> Option Errno)
    (notification : Option Sigevent) :
    SameChains m (mqNotify m pid kill notification).mem := by
  cases notification with
  | none =>
      unfold mqNotify
      simp only [Stretch.ret]
      split
      · exact sameChains_putInt m (by lia)
      · exact sameChains_refl m
  | some ev =>
      unfold mqNotify
      simp only
      split
      · exact sameChains_refl m
      · exact (((sameChains_putInt m (by lia)).trans
          (sameChains_putLong _ (by lia))).trans
          (sameChains_putInt _ (by lia))).trans (sameChains_putInt _ (by lia))

theorem mqNotify_effects (m : Mem) (pid : Int) (kill : Int -> Option Errno)
    (notification : Option Sigevent) :
    Effects sz m used free true Role.other (mqNotify m pid kill notification) := by
  have hsame := sameChains_mqNotify m pid kill notification
  cases notification with
  | none => exact Effects.header hsame rfl trivial rfl rfl
  | some ev =>
      unfold mqNotify at hsame ⊢
      simp only at hsame ⊢
      split
      · exact Effects.fails _ _
      · rename_i hfree
        rw [if_neg hfree] at hsame
        exact Effects.header hsame rfl trivial rfl rfl

theorem enter_effects (h : WellLinked sz m used free) (alive : Int -> Bool)
    (info : MqInfo) (c : MqCall) :
    Effects sz m used free true c.role (c.enter alive m info) := by
  unfold MqCall.enter
  by_cases hmagic : info.mqi_magic ≠ MQI_MAGIC
  · rw [if_pos hmagic]
    exact Effects.fails _ _
  · rw [if_neg hmagic]
    cases c with
    | send buf prio => exact mqSend_effects h _ buf prio
    | receive maxlen priop => exact mqReceive_effects h _ maxlen priop
    | notify notification => exact mqNotify_effects m _ _ notification
    | getattr => exact Effects.header (sameChains_refl m) rfl trivial rfl rfl
    | setattr flags omqstat =>
        cases omqstat with
        | false => exact Effects.header (sameChains_refl m) rfl trivial rfl rfl
        | true => exact Effects.header (sameChains_refl m) rfl trivial rfl rfl
    | close munmap =>
        have hsame := sameChains_mqNotify m info.owner.val (killZero alive) none
        have hsignals : (mqNotify m info.owner.val (killZero alive) none).signals = false := rfl
        have hsigqueue : (mqNotify m info.owner.val (killZero alive) none).sigqueue = none := rfl
        simp only
        generalize mqNotify m info.owner.val (killZero alive) none = r at *
        cases munmap with
        | none => exact Effects.header hsame rfl trivial hsignals hsigqueue
        | some e => exact Effects.header hsame rfl trivial hsignals hsigqueue

end Cases

def BlockedCall.Fits (sz : QueueSizes) : BlockedCall -> Prop
  | BlockedCall.send _ buf _ => (buf.length : Int) ≤ sz.mq_msgsize
  | BlockedCall.receive _ maxlen _ => sz.mq_msgsize ≤ maxlen

theorem resume_effects {sz : QueueSizes} {m : Mem} {used free : List Int}
    (h : WellLinked sz m used free) {k : BlockedCall} (hfits : k.Fits sz) :
    Effects sz m used free false k.role (k.resume m) := by
  cases k with
  | send d buf prio => exact mqSendRetest_effects h hfits prio
  | receive d maxlen priop => exact mqReceiveRetest_effects h hfits priop

end MessageQueue
end InterprocessComm
