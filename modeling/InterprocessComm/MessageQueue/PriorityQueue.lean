import InterprocessComm.MessageQueue.Invariant

/-!
# The queue as a priority queue

The messages on the chain from `mqh_head` behave as a stable priority queue.
Each completed send inserts one message, each completed receive hands the first
one out, and over a run nothing is lost, repeated, altered or overtaken.
-/

namespace InterprocessComm
namespace MessageQueue

open Verification

section

variable {tid : Type}

abbrev MqTransition (tid : Type) : Type :=
  Transition (MqState tid) (MqAction tid) (Option Effect)

def sent (e : MqTransition tid) : Option Message :=
  match e.event, e.action.acts e.source with
  | some { outcome := Outcome.returns MqReturn.sent, .. },
      some (_, _, Role.sender buf prio) => some { prio := prio, data := buf }
  | _, _ => none

/-- What a completed `mq_receive` returned, copied to `ptr`, and stored at `priop`. -/
structure Receipt where
  len : Int
  buf : List UInt8
  prio : Option UInt32
  priop : Bool

def received (e : MqTransition tid) : Option Receipt :=
  match e.event, e.action.acts e.source with
  | some { outcome := Outcome.returns (MqReturn.received len buf prio), .. },
      some (_, _, Role.receiver _ priop) =>
        some { len := len, buf := buf, prio := prio, priop := priop }
  | _, _ => none

theorem sent_of_outcome_ne {e : MqTransition tid} {x : Effect} (hevent : e.event = some x)
    (h : x.outcome ≠ Outcome.returns MqReturn.sent) : sent e = none := by
  rcases x with ⟨outcome, signals, sigqueue⟩
  unfold sent
  rw [hevent]
  cases outcome with
  | returns ret =>
      cases ret with
      | sent => exact absurd rfl h
      | error e => rfl
      | received len buf prio => rfl
      | done => rfl
      | attributes attr => rfl
  | waits => rfl
  | returnsLocked ret => rfl
  | diverges => rfl

theorem received_of_outcome_ne {e : MqTransition tid} {x : Effect}
    (hevent : e.event = some x)
    (h : forall len buf prio, x.outcome ≠ Outcome.returns (MqReturn.received len buf prio)) :
    received e = none := by
  rcases x with ⟨outcome, signals, sigqueue⟩
  unfold received
  rw [hevent]
  cases outcome with
  | returns ret =>
      cases ret with
      | received len buf prio => exact absurd rfl (h len buf prio)
      | error e => rfl
      | sent => rfl
      | done => rfl
      | attributes attr => rfl
  | waits => rfl
  | returnsLocked ret => rfl
  | diverges => rfl

structure Receipt.Of (r : Receipt) (a : Message) : Prop where
  len : r.len = a.data.length
  buf : r.buf = a.data
  prio : r.prio = if r.priop then some a.prio else none

/-- A transition acts on the queue as on a stable priority queue. -/
structure StableQueueStep (e : MqTransition tid) : Prop where
  send : forall a, sent e = some a -> exists front back,
    queueOf e.source.mem = front ++ back ∧ queueOf e.target.mem = front ++ a :: back ∧
      (forall b, b ∈ front -> a.prio ≤ b.prio) ∧ (forall b, b ∈ back -> b.prio < a.prio)
  receive : forall r, received e = some r -> exists a,
    queueOf e.source.mem = a :: queueOf e.target.mem ∧ r.Of a
  other : sent e = none -> received e = none ->
    queueOf e.target.mem = queueOf e.source.mem

def extend (h : History Message) (e : MqTransition tid) : History Message :=
  match sent e with
  | some a => h.put Message.key a
  | none =>
      match received e with
      | some _ => h.take
      | none => h

def historyOf (tr : List (MqTransition tid)) : History Message :=
  tr.foldl extend History.empty

theorem historyOf_snoc (tr : List (MqTransition tid)) (e : MqTransition tid) :
    historyOf (tr ++ [e]) = extend (historyOf tr) e := by
  simp [historyOf]

end

/-!
## One step
-/

section Refinement

variable {tid : Type} [Fintype tid] [DecidableEq tid] {procOf : tid -> Pid}
variable {sz : QueueSizes} {s s' : MqState tid}

theorem Effects.queue {used free : List Int} {m : Mem} {entering : Bool} {role : Role}
    {r : Stretch} (h : Effects sz m used free entering role r)
    (hlinked : WellLinked sz m used free) :
    (exists buf prio, role = Role.sender buf prio ∧
        r.outcome = Outcome.returns MqReturn.sent ∧
        queueOf r.mem = stableInsert Message.key { prio := prio, data := buf } (queueOf m)) ∨
      (exists maxlen priop a, role = Role.receiver maxlen priop ∧
        r.outcome = Outcome.returns (MqReturn.received a.data.length a.data
          (if priop then some a.prio else none)) ∧
        queueOf m = a :: queueOf r.mem) ∨
      queueOf r.mem = queueOf m ∧ r.outcome ≠ Outcome.returns MqReturn.sent ∧
        forall len buf prio, r.outcome ≠ Outcome.returns (MqReturn.received len buf prio) := by
  cases h with
  | fails role e =>
      refine Or.inr (Or.inr ⟨rfl, ?_, ?_⟩)
      · intro heq
        cases heq
      · intro len buf prio heq
        cases heq
  | header same outcome plain signals sigqueue =>
      refine Or.inr (Or.inr ⟨queueOf_sameChains hlinked same, ?_, ?_⟩)
      · intro heq
        rw [outcome] at heq
        cases heq
        exact plain
      · intro len buf prio heq
        rw [outcome] at heq
        cases heq
        exact plain
  | sendWaits fits full =>
      refine Or.inr (Or.inr ⟨rfl, ?_, ?_⟩)
      · intro heq
        cases heq
      · intro len buf prio heq
        cases heq
  | receiveWaits fits empty =>
      refine Or.inr (Or.inr ⟨queueOf_sameChains hlinked ?_, ?_, ?_⟩)
      · show SameChains m
          (if entering = true then putLong m offMqhNwait (mqhNwait m + 1) else m)
        split
        · exact sameChains_putLong m (by lia)
        · exact sameChains_refl m
      · intro heq
        cases heq
      · intro len buf prio heq
        cases heq
  | links fits slot linked =>
      subst slot
      have hsame := sameChains_notified entering m used
      refine Or.inl ⟨_, _, rfl, rfl, ?_⟩
      rw [← queueOf_sameChains hlinked hsame]
      exact queueOf_linked (hlinked.congr hsame) fits linked
  | takes fits first unlinked =>
      subst first
      have hsame := sameChains_counted entering m
      have hqueue := queueOf_unlinked (hlinked.congr hsame) unlinked
      rw [queueOf_sameChains hlinked hsame,
        hlinked.messageAt_congr hsame List.mem_cons_self] at hqueue
      exact Or.inr (Or.inl ⟨_, _, _, rfl, rfl, hqueue⟩)

/-- A step puts the sent message in by stable insertion, hands the first message
out, or leaves the queue. -/
theorem step_queue {a : MqAction tid} {o : Option Effect} (hinv : QueueInv sz s)
    (h : mqStep procOf s a = some (s', o)) :
    (exists x, sent ⟨s, a, o, s'⟩ = some x ∧ received ⟨s, a, o, s'⟩ = none ∧
        queueOf s'.mem = stableInsert Message.key x (queueOf s.mem)) ∨
      (exists r x, sent ⟨s, a, o, s'⟩ = none ∧ received ⟨s, a, o, s'⟩ = some r ∧
        r.Of x ∧ queueOf s.mem = x :: queueOf s'.mem) ∨
      sent ⟨s, a, o, s'⟩ = none ∧ received ⟨s, a, o, s'⟩ = none ∧
        queueOf s'.mem = queueOf s.mem := by
  rcases step_cases h with hidle | ⟨t, entering, role, r, k, hran, hfin⟩
  · right
    right
    rw [hidle.mem]
    have heffect := hidle.effect
    subst heffect
    exact ⟨rfl, rfl, rfl⟩
  · rcases hinv.linked with ⟨used, free, hlinked⟩
    have heffects := hran.effects hinv.blocked hlinked
    have hacts := hran.acts
    rw [hfin.mem, hfin.effect]
    rcases heffects.queue hlinked with ⟨buf, prio, hrole, houtcome, hqueue⟩ |
      ⟨maxlen, priop, x, hrole, houtcome, hqueue⟩ | ⟨hqueue, hnotSent, hnotReceived⟩
    · left
      rw [hrole] at hacts
      refine ⟨{ prio := prio, data := buf }, ?_, ?_, hqueue⟩
      · simp [sent, hacts, Stretch.effect, houtcome]
      · simp [received, hacts, Stretch.effect]
    · right
      left
      rw [hrole] at hacts
      refine ⟨{ len := x.data.length, buf := x.data,
                prio := if priop then some x.prio else none, priop := priop },
        x, ?_, ?_, ?_, hqueue⟩
      · simp [sent, hacts, Stretch.effect]
      · simp [received, hacts, Stretch.effect, houtcome]
      · exact ⟨rfl, rfl, rfl⟩
    · right
      right
      refine ⟨?_, ?_, hqueue⟩
      · exact sent_of_outcome_ne rfl hnotSent
      · exact received_of_outcome_ne rfl hnotReceived

theorem step_stable {a : MqAction tid} {o : Option Effect} (hinv : QueueInv sz s)
    (h : mqStep procOf s a = some (s', o)) : StableQueueStep ⟨s, a, o, s'⟩ := by
  rcases step_queue hinv h with ⟨x, hsent, hreceived, hqueue⟩ |
    ⟨r, x, hsent, hreceived, hof, hqueue⟩ | ⟨hsent, hreceived, hqueue⟩
  · constructor
    · intro b hb
      rw [hsent] at hb
      cases hb
      rcases stableInsert_split (m := x) hinv.sorted with
        ⟨front, back, hsplit, hinsert, hfront, hback⟩
      exact ⟨front, back, hsplit, hqueue.trans hinsert,
        fun b hb => UInt32.le_iff_toNat_le.mpr (hfront b hb),
        fun b hb => UInt32.lt_iff_toNat_lt.mpr (hback b hb)⟩
    · intro r hr
      rw [hreceived] at hr
      cases hr
    · intro hnone
      rw [hsent] at hnone
      cases hnone
  · constructor
    · intro b hb
      rw [hsent] at hb
      cases hb
    · intro r' hr
      rw [hreceived] at hr
      cases hr
      exact ⟨x, hqueue, hof⟩
    · intro _ hnone
      rw [hreceived] at hnone
      cases hnone
  · constructor
    · intro b hb
      rw [hsent] at hb
      cases hb
    · intro r hr
      rw [hreceived] at hr
      cases hr
    · intro _ _
      exact hqueue

/-!
## Runs
-/

/-- The run up to a state, the queue there, and the receipts in between tell one
history. -/
structure Tells (tr : List (MqTransition tid)) (s : MqState tid) : Prop where
  sends : (historyOf tr).sent = tr.filterMap sent
  queue : (historyOf tr).pending.map Prod.fst = queueOf s.mem
  receipts : List.Forall₂ (fun r x => r.Of x.1) (tr.filterMap received) (historyOf tr).taken
  ok : (historyOf tr).Ok Message.key

theorem run_tells {tr : List (MqTransition tid)}
    (h : Run (MqInit sz) (mqStep procOf) tr s) : Tells tr s := by
  refine run_induction (I := fun tr s => Tells tr s) ?_ ?_ h
  · intro s hinit
    rcases mqOpenCreate_wellLinked hinit.created with ⟨hwell, _, _⟩
    constructor
    · rfl
    · exact ((queueOf_eq_nil_iff hwell).mpr rfl).symm
    · exact List.Forall₂.nil
    · exact History.ok_empty Message.key
  · intro tr s a o s' hrun htells hstep
    have hinv := reachable_inv ⟨tr, hrun⟩
    rcases step_queue hinv hstep with ⟨x, hsent, hreceived, hqueue⟩ |
      ⟨r, x, hsent, hreceived, hof, hqueue⟩ | ⟨hsent, hreceived, hqueue⟩
    · have hextend : historyOf (tr ++ [⟨s, a, o, s'⟩]) =
          (historyOf tr).put Message.key x := by
        rw [historyOf_snoc]
        simp [extend, hsent]
      constructor
      · rw [hextend, List.filterMap_append]
        simp [History.put, htells.sends, hsent]
      · rw [hextend, History.put_pending_map, htells.queue, hqueue]
      · rw [hextend, List.filterMap_append]
        simpa [History.put, hreceived] using htells.receipts
      · rw [hextend]
        exact History.ok_put htells.ok x
    · have hextend : historyOf (tr ++ [⟨s, a, o, s'⟩]) = (historyOf tr).take := by
        rw [historyOf_snoc]
        simp [extend, hsent, hreceived]
      have hpending := htells.queue
      rw [hqueue] at hpending
      rcases List.map_eq_cons_iff.mp hpending with ⟨y, rest, hcons, rfl, hrest⟩
      constructor
      · rw [hextend, List.filterMap_append]
        simp [History.take, htells.sends, hsent]
      · rw [hextend, History.take_pending_map, htells.queue, hqueue, List.tail_cons]
      · rw [hextend, List.filterMap_append]
        have hlast : List.Forall₂ (fun (r : Receipt) (x : Message × Nat) => r.Of x.1) [r] [y] :=
          List.Forall₂.cons hof List.Forall₂.nil
        simpa [History.take, hreceived, hcons] using List.rel_append htells.receipts hlast
      · rw [hextend]
        exact History.ok_take htells.ok
    · have hextend : historyOf (tr ++ [⟨s, a, o, s'⟩]) = historyOf tr := by
        rw [historyOf_snoc]
        simp [extend, hsent, hreceived]
      constructor
      · rw [hextend, List.filterMap_append]
        simpa [hsent] using htells.sends
      · rw [hextend, hqueue]
        exact htells.queue
      · rw [hextend, List.filterMap_append]
        simpa [hreceived] using htells.receipts
      · rw [hextend]
        exact htells.ok

theorem run_receive {tr : List (MqTransition tid)} {e : MqTransition tid} {r : Receipt}
    (h : Run (MqInit sz) (mqStep procOf) tr e.source) (hvalid : e.Valid (mqStep procOf))
    (hreceived : received e = some r) :
    exists x rest, (historyOf tr).pending = x :: rest ∧ r.Of x.1 ∧
      forall y, y ∈ rest -> History.Precedes Message.key x y := by
  have htells := run_tells h
  rcases (step_stable (reachable_inv ⟨tr, h⟩) hvalid).receive r hreceived with ⟨a, hqueue, hof⟩
  have hpending := htells.queue
  rw [hqueue] at hpending
  rcases List.map_eq_cons_iff.mp hpending with ⟨x, rest, hcons, rfl, _⟩
  exact ⟨x, rest, hcons, hof, fun y hy => htells.ok.head_precedes hcons hy⟩

/-- The mapped queue refines the stable priority queue, in every run. -/
structure RefinesPriorityQueue (tr : List (MqTransition tid)) (s : MqState tid) : Prop where
  steps : forall e, e ∈ tr -> StableQueueStep e
  tells : Tells tr s
  receives : forall front e back r, tr = front ++ e :: back -> received e = some r ->
    exists x rest, (historyOf front).pending = x :: rest ∧ r.Of x.1 ∧
      forall y, y ∈ rest -> History.Precedes Message.key x y

theorem queue_refines_priority_queue {tr : List (MqTransition tid)}
    (h : Run (MqInit sz) (mqStep procOf) tr s) : RefinesPriorityQueue tr s := by
  constructor
  · intro e he
    rcases run_transition h he with ⟨hreach, hvalid⟩
    exact step_stable (reachable_inv hreach) hvalid
  · exact run_tells h
  · rintro front e back r rfl hreceived
    rcases run_split h with ⟨hrun, hvalid, _⟩
    exact run_receive hrun hvalid hreceived

end Refinement

theorem queue_refines_priority_queue_threeSlots :
    exists (tr : List (MqTransition (Fin 1))) (s : MqState (Fin 1)),
      (tr.filterMap received).length = 1 ∧ (queueOf s.mem).length = 1 ∧
        RefinesPriorityQueue tr s := by
  have hreplay : exists tr s, Run (MqInit threeSlots) (mqStep (oneProcess (n := 1))) tr s ∧
      decide ((tr.filterMap received).length = 1 ∧ (queueOf s.mem).length = 1) = true :=
    run_of_replay
      [MqAction.opens 0 0 0, MqAction.call 0 0 (MqCall.send [5] 1) none,
        MqAction.call 0 0 (MqCall.send [6] 2) none,
        MqAction.call 0 0 (MqCall.receive 1 true) none]
      (init_fresh threeSlots_created) (by decide +kernel)
  rcases hreplay with ⟨tr, s, hrun, htest⟩
  have hlengths := of_decide_eq_true htest
  exact ⟨tr, s, hlengths.left, hlengths.right, queue_refines_priority_queue hrun⟩

end MessageQueue
end InterprocessComm
