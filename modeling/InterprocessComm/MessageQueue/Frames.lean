import InterprocessComm.MessageQueue.Invariant

/-!
# Which bytes a call writes

A send writes its own slot, the link in front of it and header fields; a receive
writes the link of the message it removes and header fields.  Every other queued
message keeps its length, its priority and its bytes.
-/

namespace InterprocessComm
namespace MessageQueue

open Verification

def queuedSlots (m : Mem) : List Int :=
  follow (msgNext m) 0 (mqMaxmsg m).toNat (mqhHead m)

/-- The bytes a send of `len` bytes may write when it takes the slot `f` and links it
behind the cell `q`. -/
def SendWrites (f q : Int) (len : Nat) (x : Int) : Prop :=
  InRange f (sizeofMsgHdr.toNat + len) x ∨ InRange q 8 x ∨ InRange offMqhFree 8 x ∨
    InRange offMqCurmsgs 8 x ∨ InRange offMqhPid 4 x

/-- The bytes a receive may write when `mqh_head` is `i`. -/
def ReceiveWrites (i x : Int) : Prop :=
  InRange i 8 x ∨ InRange offMqhHead 8 x ∨ InRange offMqhFree 8 x ∨
    InRange offMqCurmsgs 8 x ∨ InRange offMqhNwait 8 x

def SameMessage (m m' : Mem) (i : Int) : Prop :=
  msgLen m' i = msgLen m i ∧ messageAt m' i = messageAt m i

structure SendFrame (sz : QueueSizes) (m : Mem) (buf : List UInt8) (prio : UInt32)
    (f q : Int) (m' : Mem) : Prop where
  taken : f = mqhFree m
  slot : f ∈ sz.slots
  unused : f ∉ queuedSlots m
  inside : f + sizeofMsgHdr + buf.length ≤ f + sz.slotSize
  placed : exists front back, queuedSlots m = front ++ back ∧
    queuedSlots m' = front ++ f :: back ∧ (offMqhHead :: front).getLast? = some q
  link : msgNext m' q = f
  message : messageAt m' f = { prio := prio, data := buf }
  outside : forall x, ¬ SendWrites f q buf.length x -> m' x = m x
  others : forall i, i ∈ queuedSlots m -> SameMessage m m' i

structure ReceiveFrame (m : Mem) (maxlen : Nat) (priop : Bool) (outcome : Outcome)
    (m' : Mem) : Prop where
  copied : forall len buf prio,
    outcome = Outcome.returns (MqReturn.received len buf prio) ->
      len = buf.length ∧ buf.length ≤ maxlen
  removed : (queuedSlots m' = queuedSlots m ∧
      forall x, ¬ InRange offMqhNwait 8 x -> m' x = m x) ∨
    queuedSlots m = mqhHead m :: queuedSlots m' ∧
      outcome = Outcome.returns (MqReturn.received
        (msgLen m (mqhHead m)) (messageAt m (mqhHead m)).data
        (if priop then some (messageAt m (mqhHead m)).prio else none))
  outside : forall x, ¬ ReceiveWrites (mqhHead m) x -> m' x = m x
  others : forall i, i ∈ queuedSlots m' -> SameMessage m m' i

/-!
## Stretches
-/

section Stretches

variable {sz : QueueSizes} {m m' : Mem} {used free : List Int}

theorem queuedSlots_eq (h : WellLinked sz m used free) : queuedSlots m = used := by
  have hadd := h.length_add
  unfold queuedSlots
  rw [h.maxmsg]
  exact follow_eq_of_chain h.head (by lia)

/-- The length is that of the bytes, so it need not be compared. -/
theorem sameMessage_of_messageAt {free' : List Int} {used' : List Int}
    (h : WellLinked sz m used free) (h' : WellLinked sz m' used' free') {i : Int}
    (hi : i ∈ used) (hi' : i ∈ used') (hsame : messageAt m' i = messageAt m i) :
    SameMessage m m' i := by
  have hlen := messageAt_data_length (h.lengths i hi)
  have hlen' := messageAt_data_length (h'.lengths i hi')
  refine ⟨?_, hsame⟩
  rw [← hlen, ← hlen', hsame]

theorem notified_outside (entering : Bool) (m : Mem) (used : List Int) {x : Int}
    (hx : ¬ InRange offMqhPid 4 x) : (notified entering m used).1 x = m x := by
  unfold notified mqSendNotify
  split
  · split
    · exact putInt_outside hx
    · rfl
  · rfl

theorem counted_outside (entering : Bool) (m : Mem) {x : Int}
    (hx : ¬ InRange offMqhNwait 8 x) : counted entering m x = m x := by
  cases entering with
  | false => exact putLong_outside hx
  | true => rfl

theorem Linked.sendFrame {rest front back : List Int} {f q : Int} {entering : Bool}
    {buf : List UInt8} {prio : UInt32} (h : WellLinked sz m used (f :: rest))
    (hfits : (buf.length : Int) ≤ sz.mq_msgsize)
    (hlinked : Linked (notified entering m used).1 used f buf prio front back q m') :
    SendFrame sz m buf prio f q m' := by
  have hsame := sameChains_notified entering m used
  have hstart := h.congr hsame
  rcases hlinked.wellLinked hstart hfits with ⟨hwell, hmessages⟩
  have hslot := sz.slotSize_ge
  have hqueued := queuedSlots_eq h
  constructor
  · exact h.freeHead.right.left.symm
  · exact h.slot_of_free List.mem_cons_self
  · rw [hqueued]
    intro hmem
    exact List.disjoint_of_nodup_append h.nodup hmem List.mem_cons_self
  · lia
  · exact ⟨front, back, hqueued.trans hlinked.split, queuedSlots_eq hwell, hlinked.last⟩
  · exact hlinked.link
  · exact hlinked.message
  · intro x hx
    simp only [SendWrites, not_or] at hx
    rcases hx with ⟨hf, hq, hfree, hcur, hpid⟩
    rw [hlinked.outside x hf hq hcur hfree, notified_outside entering m used hpid]
  · intro i hi
    rw [hqueued] at hi
    have hi' : i ∈ front ++ f :: back := by
      rw [hlinked.split] at hi
      rcases List.mem_append.mp hi with hfront | hback
      · exact List.mem_append_left _ hfront
      · exact List.mem_append_right _ (List.mem_cons_of_mem f hback)
    apply sameMessage_of_messageAt h hwell hi hi'
    rw [hmessages i hi, h.messageAt_congr hsame hi]

theorem Unlinked.receiveFrame {i : Int} {entering : Bool} {maxlen : Nat} (priop : Bool)
    (h : WellLinked sz m (i :: used) free) (hfits : sz.mq_msgsize ≤ maxlen)
    (hunlinked : Unlinked (counted entering m) i m') :
    ReceiveFrame m maxlen priop
      (Outcome.returns (MqReturn.received (messageAt m i).data.length (messageAt m i).data
        (if priop then some (messageAt m i).prio else none))) m' := by
  have hsame := sameChains_counted entering m
  rcases hunlinked.wellLinked (h.congr hsame) with ⟨hwell, hmessages⟩
  have hhead : mqhHead m = i := h.head.right.left
  have hbound := h.lengths i List.mem_cons_self
  have hlen := messageAt_data_length hbound
  have hqueued := queuedSlots_eq hwell
  constructor
  · intro len buf prio heq
    simp only [Outcome.returns.injEq, MqReturn.received.injEq] at heq
    rcases heq with ⟨rfl, rfl, _⟩
    exact ⟨rfl, by lia⟩
  · right
    rw [queuedSlots_eq h, hqueued, hhead, hlen]
    exact ⟨rfl, rfl⟩
  · intro x hx
    rw [hhead] at hx
    simp only [ReceiveWrites, not_or] at hx
    rcases hx with ⟨hi, hheadOff, hfree, hcur, hnwait⟩
    rw [hunlinked.outside x hi hheadOff hcur hfree, counted_outside entering m hnwait]
  · intro j hj
    rw [hqueued] at hj
    have hj' := List.mem_cons_of_mem i hj
    apply sameMessage_of_messageAt h hwell hj' hj
    rw [hmessages j hj, h.messageAt_congr hsame hj']

theorem receiveFrame_of_waits {maxlen : Nat} {priop : Bool} {outcome : Outcome}
    (h : WellLinked sz m used free)
    (houtcome : forall len buf prio,
      outcome ≠ Outcome.returns (MqReturn.received len buf prio))
    (hkeep : forall x, ¬ InRange offMqhNwait 8 x -> m' x = m x) :
    ReceiveFrame m maxlen priop outcome m' := by
  have hsame : SameChains m m' := fun x hx => hkeep x (by lia)
  have hwell := h.congr hsame
  constructor
  · intro len buf prio heq
    exact absurd heq (houtcome len buf prio)
  · left
    exact ⟨by rw [queuedSlots_eq h, queuedSlots_eq hwell], hkeep⟩
  · intro x hx
    simp only [ReceiveWrites, not_or] at hx
    exact hkeep x hx.right.right.right.right
  · intro i hi
    rw [queuedSlots_eq hwell] at hi
    exact sameMessage_of_messageAt h hwell hi hi (h.messageAt_congr hsame hi)

theorem Effects.sendFrame {entering : Bool} {role : Role} {r : Stretch}
    {buf : List UInt8} {prio : UInt32} (h : Effects sz m used free entering role r)
    (hlinked : WellLinked sz m used free) (hrole : role = Role.sender buf prio) :
    (r.outcome = Outcome.returns MqReturn.sent ∧
        exists f q, SendFrame sz m buf prio f q r.mem) ∨
      r.outcome ≠ Outcome.returns MqReturn.sent ∧ r.mem = m := by
  cases h with
  | fails role e => exact Or.inr ⟨by simp [Stretch.fail, Stretch.ret], rfl⟩
  | header same outcome plain signals sigqueue => cases hrole
  | sendWaits fits full => exact Or.inr ⟨by simp [Stretch.wait], rfl⟩
  | receiveWaits fits empty => cases hrole
  | links fits slot linked =>
      cases hrole
      subst slot
      exact Or.inl ⟨rfl, _, _, linked.sendFrame hlinked fits⟩
  | takes fits first unlinked => cases hrole

theorem Effects.receiveFrame {entering : Bool} {role : Role} {r : Stretch}
    {maxlen : Nat} {priop : Bool} (h : Effects sz m used free entering role r)
    (hlinked : WellLinked sz m used free) (hrole : role = Role.receiver maxlen priop) :
    ReceiveFrame m maxlen priop r.outcome r.mem := by
  cases h with
  | fails role e =>
      refine receiveFrame_of_waits hlinked ?_ fun x hx => rfl
      intro len buf prio heq
      cases heq
  | header same outcome plain signals sigqueue => cases hrole
  | sendWaits fits full => cases hrole
  | receiveWaits fits empty =>
      refine receiveFrame_of_waits hlinked ?_ fun x hx => ?_
      · intro len buf prio heq
        cases heq
      · show (if entering = true then putLong m offMqhNwait (mqhNwait m + 1) else m) x = m x
        split
        · exact putLong_outside hx
        · rfl
  | links fits slot linked => cases hrole
  | takes fits first unlinked =>
      cases hrole
      subst first
      exact unlinked.receiveFrame priop hlinked fits

end Stretches

/-!
## Every reachable state
-/

section Frames

variable {tid : Type} [Fintype tid] [DecidableEq tid] {procOf : tid -> Pid}
variable {sz : QueueSizes} {s s' : MqState tid}

def Framed (sz : QueueSizes) (m m' : Mem) (outcome : Outcome) : Role -> Prop
  | Role.sender buf prio =>
      (outcome = Outcome.returns MqReturn.sent ∧
          exists f q, SendFrame sz m buf prio f q m') ∨
        outcome ≠ Outcome.returns MqReturn.sent ∧ m' = m
  | Role.receiver maxlen priop => ReceiveFrame m maxlen priop outcome m'
  | Role.other => True

theorem queue_bytes_framed (h : Reachable (MqInit sz) (mqStep procOf) s)
    {a : MqAction tid} {o : Option Effect} (hstep : mqStep procOf s a = some (s', o))
    {t : tid} {entering : Bool} {role : Role} (hacts : a.acts s = some (t, entering, role)) :
    exists e, o = some e ∧ Framed sz s.mem s'.mem e.outcome role := by
  have hinv := reachable_inv h
  rcases hinv.linked with ⟨used, free, hlinked⟩
  rcases step_cases hstep with hidle | ⟨u, entering', role', r, k, hran, hfin⟩
  · rw [hidle.acts] at hacts
    cases hacts
  · have hrole : role' = role := by
      rw [hran.acts] at hacts
      cases hacts
      rfl
    subst hrole
    have heffects := hran.effects hinv.blocked hlinked
    refine ⟨r.effect, hfin.effect, ?_⟩
    rw [hfin.mem]
    cases hcase : role' with
    | sender buf prio => exact heffects.sendFrame hlinked hcase
    | receiver maxlen priop => exact heffects.receiveFrame hlinked hcase
    | other => trivial

end Frames

theorem queue_bytes_framed_threeSlots :
    exists (s s' : MqState (Fin 1)) (f q : Int), (queuedSlots s.mem).length = 1 ∧
      SendFrame threeSlots s.mem [5] 2 f q s'.mem := by
  have hreplay : exists tr s, Run (MqInit threeSlots) (mqStep (oneProcess (n := 1))) tr s ∧
      decide ((queuedSlots s.mem).length = 1 ∧
        (mqStep oneProcess s (MqAction.call 0 0 (MqCall.send [5] 2) none)).bind (fun r => r.2) =
          some { outcome := Outcome.returns MqReturn.sent, signals := false,
                 sigqueue := none }) = true :=
    run_of_replay
      [MqAction.opens 0 0 0, MqAction.call 0 0 (MqCall.send [7] 1) none]
      (init_fresh threeSlots_created) (by decide +kernel)
  rcases hreplay with ⟨tr, s, hrun, htest⟩
  rcases of_decide_eq_true htest with ⟨hqueued, hsends⟩
  rcases Option.bind_eq_some_iff.mp hsends with ⟨⟨s', o⟩, hstep, hsent⟩
  rcases queue_bytes_framed ⟨tr, hrun⟩ hstep rfl with ⟨e, heffect, hframed⟩
  have hreturned : e.outcome = Outcome.returns MqReturn.sent := by
    rw [heffect] at hsent
    cases hsent
    rfl
  rcases hframed with ⟨_, f, q, hframe⟩ | ⟨hnot, _⟩
  · exact ⟨s, s', f, q, hqueued, hframe⟩
  · exact absurd hreturned hnot

end MessageQueue
end InterprocessComm
