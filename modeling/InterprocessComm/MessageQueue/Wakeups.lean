import InterprocessComm.MessageQueue.PriorityQueue

/-!
# Wakeups at the queue

Receivers and senders wait on one condition variable, and a waiter is signalled
only when the queue stops being empty or full.  The two kinds of waiters are the
two sides of the queue: what one side uses up, the other side supplies.
-/

namespace InterprocessComm
namespace MessageQueue

open Verification

inductive Side where
  | receiving
  | sending
deriving DecidableEq

def Side.other : Side -> Side
  | receiving => sending
  | sending => receiving

theorem Side.eq_or_eq_other (side other : Side) : other = side ∨ other = side.other := by
  cases side with
  | receiving =>
      cases other with
      | receiving => exact Or.inl rfl
      | sending => exact Or.inr rfl
  | sending =>
      cases other with
      | receiving => exact Or.inr rfl
      | sending => exact Or.inl rfl

def Role.side : Role -> Option Side
  | Role.sender _ _ => some Side.sending
  | Role.receiver _ _ => some Side.receiving
  | Role.other => none

def BlockedCall.side : BlockedCall -> Side
  | BlockedCall.send _ _ _ => Side.sending
  | BlockedCall.receive _ _ _ => Side.receiving

theorem BlockedCall.role_side (k : BlockedCall) : k.role.side = some k.side := by
  cases k with
  | send d buf prio => rfl
  | receive d maxlen priop => rfl

def stock (m : Mem) : Side -> Int
  | Side.receiving => mqCurmsgs m
  | Side.sending => mqMaxmsg m - mqCurmsgs m

/-- The side whose stretch moves a message: a send that fits into the queue, a
receive that has room for a message and finds one. -/
def Role.moves (m : Mem) : Role -> Option Side
  | Role.sender buf _ =>
      if (buf.length : Int) ≤ toULong (mqMsgsize m) ∧ mqCurmsgs m < mqMaxmsg m then
        some Side.sending
      else
        none
  | Role.receiver maxlen _ =>
      if toULong (mqMsgsize m) ≤ maxlen ∧ 0 < mqCurmsgs m then some Side.receiving else none
  | Role.other => none

theorem stock_receiving (m : Mem) : stock m Side.receiving = mqCurmsgs m := rfl

theorem stock_sending (m : Mem) : stock m Side.sending = mqMaxmsg m - mqCurmsgs m := rfl

def sleepsIn (side : Side) : Phase Unit BlockedCall -> Bool
  | Phase.asleep _ k => decide (k.side = side)
  | _ => false

def signalledIn (side : Side) : Phase Unit BlockedCall -> Bool
  | Phase.woken true _ k => decide (k.side = side)
  | _ => false

theorem sleepsOn_of_sleepsIn {side : Side} {p : Phase Unit BlockedCall}
    (h : sleepsIn side p = true) : p.sleepsOn () = true := by
  cases p with
  | outside => cases h
  | asleep c k => rfl
  | woken b c k => cases h

theorem isSignalled_of_signalledIn {side : Side} {p : Phase Unit BlockedCall}
    (h : signalledIn side p = true) : p.isSignalled = true := by
  cases p with
  | outside => cases h
  | asleep c k => cases h
  | woken b c k =>
      cases b with
      | false => cases h
      | true => rfl

theorem sleepsIn_wake (side : Side) (b : Bool) (p : Phase Unit BlockedCall) :
    sleepsIn side (p.wake b) = false := by
  cases p <;> rfl

theorem signalledIn_wake {side : Side} {b : Bool} {p : Phase Unit BlockedCall}
    (h : signalledIn side p = true) : signalledIn side (p.wake b) = true := by
  cases p with
  | outside => cases h
  | asleep c k => cases h
  | woken b c k => exact h

/-!
## The effect of a stretch on both sides
-/

section Stock

variable {sz : QueueSizes} {m m' : Mem} {used free : List Int}

theorem stock_sameChains (h : WellLinked sz m used free) (hsame : SameChains m m')
    (side : Side) : stock m' side = stock m side := by
  have hthen := h.congr hsame
  cases side with
  | receiving =>
      show mqCurmsgs m' = mqCurmsgs m
      rw [hthen.curmsgs, h.curmsgs]
  | sending =>
      show mqMaxmsg m' - mqCurmsgs m' = mqMaxmsg m - mqCurmsgs m
      rw [hthen.curmsgs, h.curmsgs, hthen.maxmsg, h.maxmsg]

/-- A stretch that moves a message uses up one unit of its own side and supplies the
other; it signals when the other side had nothing. -/
structure Moves (m : Mem) (side : Side) (r : Stretch) : Prop where
  ret : exists ret, r.outcome = Outcome.returns ret
  had : 0 < stock m side
  uses : stock r.mem side = stock m side - 1
  supplies : stock r.mem side.other = stock m side.other + 1
  signals : r.signals = decide (stock m side.other = 0)

theorem Moves.other_of_zero {m : Mem} {mover side : Side} {r : Stretch} (h : Moves m mover r)
    (hzero : stock m side = 0) : side = mover.other := by
  rcases mover.eq_or_eq_other side with hsame | hother
  · have hhad := h.had
    rw [← hsame] at hhad
    lia
  · exact hother

/-- A stretch that moves no message waits because its side has nothing, or returns at
once from a call that has just entered. -/
structure Rests (m : Mem) (entering : Bool) (role : Role) (r : Stretch) : Prop where
  stock : forall side, stock r.mem side = stock m side
  signals : r.signals = false
  waits : r.outcome = Outcome.waits -> exists side, role.side = some side ∧
    MessageQueue.stock m side = 0
  resumed : entering = false -> r.outcome = Outcome.waits

theorem Linked.stock {rest front back : List Int} {f q : Int} {buf : List UInt8}
    {prio : UInt32} (h : WellLinked sz m used (f :: rest))
    (hfits : (buf.length : Int) ≤ sz.mq_msgsize)
    (hlinked : Linked m used f buf prio front back q m') :
    stock m' Side.sending = stock m Side.sending - 1 ∧
      stock m' Side.receiving = stock m Side.receiving + 1 := by
  have hmax := (hlinked.wellLinked h hfits).left.maxmsg
  have hcur := hlinked.curmsgs
  constructor
  · show mqMaxmsg m' - mqCurmsgs m' = mqMaxmsg m - mqCurmsgs m - 1
    rw [hmax, h.maxmsg, hcur]
    ring
  · exact hcur

theorem Unlinked.stock {i : Int} (h : WellLinked sz m (i :: used) free)
    (hunlinked : Unlinked m i m') :
    stock m' Side.receiving = stock m Side.receiving - 1 ∧
      stock m' Side.sending = stock m Side.sending + 1 := by
  have hmax := (hunlinked.wellLinked h).left.maxmsg
  have hcur := hunlinked.curmsgs
  constructor
  · exact hcur
  · show mqMaxmsg m' - mqCurmsgs m' = mqMaxmsg m - mqCurmsgs m + 1
    rw [hmax, h.maxmsg, hcur]
    ring

theorem Effects.moves_or_rests {entering : Bool} {role : Role} {r : Stretch}
    (h : Effects sz m used free entering role r) (hlinked : WellLinked sz m used free) :
    (exists side, role.side = some side ∧ role.moves m = some side ∧ Moves m side r) ∨
      Rests m entering role r := by
  have hsize := hlinked.toULong_msgsize
  cases h with
  | fails role e =>
      right
      constructor
      · exact fun _ => rfl
      · rfl
      · intro hwaits
        cases hwaits
      · intro hback
        cases hback
  | header same outcome plain signals sigqueue =>
      right
      constructor
      · exact stock_sameChains hlinked same
      · exact signals
      · intro hwaits
        rw [outcome] at hwaits
        cases hwaits
      · intro hback
        cases hback
  | sendWaits fits full =>
      right
      refine ⟨fun _ => rfl, rfl, fun _ => ⟨Side.sending, rfl, ?_⟩, fun _ => rfl⟩
      show mqMaxmsg m - mqCurmsgs m = 0
      rw [hlinked.maxmsg, full]
      ring
  | receiveWaits fits empty =>
      right
      refine ⟨stock_sameChains hlinked ?_, rfl, fun _ => ⟨Side.receiving, rfl, ?_⟩,
        fun _ => rfl⟩
      · show SameChains m
          (if entering = true then putLong m offMqhNwait (mqhNwait m + 1) else m)
        split
        · exact sameChains_putLong m (by lia)
        · exact sameChains_refl m
      · exact hlinked.curmsgs_eq_zero_iff.mpr empty
  | links fits slot linked =>
      left
      subst slot
      have hsame := sameChains_notified entering m used
      have hadd := hlinked.length_add
      have hcur := hlinked.curmsgs
      have hmax := hlinked.maxmsg
      rw [List.length_cons] at hadd
      rcases linked.stock (hlinked.congr hsame) fits with ⟨huses, hsupplies⟩
      rw [stock_sameChains hlinked hsame] at huses hsupplies
      refine ⟨Side.sending, rfl, ?_, ⟨⟨_, rfl⟩, ?_, huses, hsupplies, ?_⟩⟩
      · simp only [Role.moves]
        rw [if_pos ⟨by lia, by lia⟩]
      · rw [stock_sending]
        lia
      · simp only [Side.other, stock_receiving]
        exact decide_eq_decide.mpr Iff.rfl
  | takes fits first unlinked =>
      left
      subst first
      have hsame := sameChains_counted entering m
      have hcur := hlinked.curmsgs
      rw [List.length_cons] at hcur
      rcases unlinked.stock (hlinked.congr hsame) with ⟨huses, hsupplies⟩
      rw [stock_sameChains hlinked hsame] at huses hsupplies
      refine ⟨Side.receiving, rfl, ?_, ⟨⟨_, rfl⟩, ?_, huses, hsupplies, ?_⟩⟩
      · simp only [Role.moves]
        rw [if_pos ⟨by lia, by lia⟩]
      · rw [stock_receiving]
        lia
      · simp only [Side.other, stock_sending]
        exact decide_eq_decide.mpr ⟨by lia, by lia⟩

end Stock

/-!
## Lost wakeups
-/

section Wakeups

variable {tid : Type}

/-- With no signalled waiter on its way back to a free lock, receivers wait only at
an empty queue and senders only at a full one. -/
def NoLostWakeup (s : MqState tid) : Prop :=
  s.locked = false -> (forall u, (s.phase u).isSignalled = false) ->
    forall t,
      (sleepsIn Side.receiving (s.phase t) = true -> mqCurmsgs s.mem = 0) ∧
        (sleepsIn Side.sending (s.phase t) = true -> mqCurmsgs s.mem = mqMaxmsg s.mem)

def moves (s : MqState tid) (a : MqAction tid) : Option Side :=
  match a.acts s with
  | some (_, _, role) => role.moves s.mem
  | none => none

/-- A message is moved past sleeping threads of the other side only when the code
signals, and then one of them is woken. -/
def WakesWaiter (e : MqTransition tid) : Prop :=
  forall side, side ∈ moves e.source e.action ->
    forall t, sleepsIn side.other (e.source.phase t) = true ->
      stock e.source.mem side.other = 0 ∧
        exists u, u ∈ e.action.wake ∧ sleepsIn side.other (e.source.phase u) = true

instance [Fintype tid] (e : MqTransition tid) : Decidable (WakesWaiter e) :=
  inferInstanceAs (Decidable (forall side, side ∈ moves e.source e.action ->
    forall t, sleepsIn side.other (e.source.phase t) = true ->
      stock e.source.mem side.other = 0 ∧
        exists u, u ∈ e.action.wake ∧ sleepsIn side.other (e.source.phase u) = true))

/-- Somebody sleeps only at a side that has nothing, or one unit that a signalled
thread is coming for. -/
def WakeupInv (s : MqState tid) : Prop :=
  forall side t, sleepsIn side (s.phase t) = true ->
    stock s.mem side = 0 ∨
      stock s.mem side = 1 ∧ exists u, signalledIn side (s.phase u) = true

variable [Fintype tid] [DecidableEq tid] {procOf : tid -> Pid}
variable {sz : QueueSizes} {s s' : MqState tid}

omit [Fintype tid] [DecidableEq tid] in
theorem Idle.sleepsIn {a : MqAction tid} {o : Option Effect} (h : Idle s a s' o) {u : tid}
    {side : Side} (hu : sleepsIn side (s'.phase u) = true) :
    MessageQueue.sleepsIn side (s.phase u) = true := by
  rcases h.phase u with hsame | hwake
  · rw [← hsame]
    exact hu
  · rw [hwake, sleepsIn_wake] at hu
    cases hu

omit [Fintype tid] [DecidableEq tid] in
theorem Idle.signalledIn {a : MqAction tid} {o : Option Effect} (h : Idle s a s' o) {u : tid}
    {side : Side} (hu : signalledIn side (s.phase u) = true) :
    MessageQueue.signalledIn side (s'.phase u) = true := by
  rcases h.phase u with hsame | hwake
  · rw [hsame]
    exact hu
  · rw [hwake]
    exact signalledIn_wake hu

theorem Finished.sleepsIn {t : tid} {k : Option BlockedCall} {r : Stretch}
    {wake : Option tid} {o : Option Effect} (h : Finished s t k r wake s' o) {u : tid}
    {side : Side} (hu : sleepsIn side (s'.phase u) = true) :
    u ≠ t ∧ MessageQueue.sleepsIn side (s.phase u) = true ∨
      r.outcome = Outcome.waits ∧ exists k', k = some k' ∧ k'.side = side := by
  have hphase : s'.phase u = (Function.update s.phase t (phaseAfter k r.outcome)) u := by
    cases hsignals : r.signals with
    | false => rw [h.quiet hsignals]
    | true => exact (signal_sleepsOn (h.signal hsignals) (sleepsOn_of_sleepsIn hu)).right
  by_cases hut : u = t
  · right
    subst hut
    rw [Function.update_self] at hphase
    rw [hphase] at hu
    cases hafter : phaseAfter k r.outcome with
    | outside => simp [hafter, MessageQueue.sleepsIn] at hu
    | woken b c k' => simp [hafter, MessageQueue.sleepsIn] at hu
    | asleep c k' =>
        rw [hafter] at hu
        have hpending : (phaseAfter k r.outcome).pending = some k' := by rw [hafter]; rfl
        rcases phaseAfter_pending hpending with ⟨hwaits, hcall⟩
        exact ⟨hwaits, k', hcall, by simpa [MessageQueue.sleepsIn] using hu⟩
  · left
    rw [Function.update_of_ne hut] at hphase
    rw [← hphase]
    exact ⟨hut, hu⟩

theorem Finished.signalledIn {t : tid} {k : Option BlockedCall} {r : Stretch}
    {wake : Option tid} {o : Option Effect} (h : Finished s t k r wake s' o) {u : tid}
    {side : Side} (hut : u ≠ t) (hu : signalledIn side (s.phase u) = true) :
    MessageQueue.signalledIn side (s'.phase u) = true := by
  have hbefore : (Function.update s.phase t (phaseAfter k r.outcome)) u = s.phase u :=
    Function.update_of_ne hut _ _
  cases hsignals : r.signals with
  | false =>
      rw [h.quiet hsignals, hbefore]
      exact hu
  | true =>
      have hkept := signal_isSignalled (h.signal hsignals) (t := u)
        (by rw [hbefore]; exact isSignalled_of_signalledIn hu)
      rw [hkept, hbefore]
      exact hu

theorem Finished.wakes {t u : tid} {k : Option BlockedCall} {r : Stretch}
    {o : Option Effect} (h : Finished s t k r (some u) s' o) (hsignals : r.signals = true)
    {side : Side} (hut : u ≠ t) (hu : MessageQueue.sleepsIn side (s.phase u) = true) :
    MessageQueue.signalledIn side (s'.phase u) = true := by
  rcases signal_cases (h.signal hsignals) with ⟨hnone, _, _⟩ | ⟨v, k', hwake, hv, hphase⟩
  · cases hnone
  · cases hwake
    rw [Function.update_of_ne hut] at hv
    rw [hv] at hu
    rw [hphase, Function.update_self]
    exact hu

omit [Fintype tid] [DecidableEq tid] in
theorem Ran.not_asleep {a : MqAction tid} {t : tid} {entering : Bool} {role : Role}
    {r : Stretch} {k : Option BlockedCall} (h : Ran s a t entering role r k) (side : Side) :
    sleepsIn side (s.phase t) = false := by
  cases h with
  | enters d c wake info outside =>
      rw [outside]
      rfl
  | resumes wake woken =>
      rw [woken]
      rfl

omit [Fintype tid] [DecidableEq tid] in
theorem Ran.stock_of_waits {a : MqAction tid} {t : tid} {entering : Bool} {role : Role}
    {r : Stretch} {k : BlockedCall} (h : Ran s a t entering role r (some k))
    (hrests : Rests s.mem entering role r) (hwaits : r.outcome = Outcome.waits) :
    stock s.mem k.side = 0 := by
  rcases hrests.waits hwaits with ⟨side, hside, hnone⟩
  rw [← h.call_role, k.role_side] at hside
  cases hside
  exact hnone

omit [Fintype tid] [DecidableEq tid] in
theorem Ran.of_signalled {a : MqAction tid} {t : tid} {entering : Bool} {role : Role}
    {r : Stretch} {k : Option BlockedCall} (h : Ran s a t entering role r k) {side : Side}
    (ht : signalledIn side (s.phase t) = true) :
    entering = false ∧ role.side = some side := by
  cases h with
  | enters d c wake info outside => simp [outside, signalledIn] at ht
  | resumes wake woken =>
      rename_i b k'
      rw [woken] at ht
      rw [k'.role_side]
      cases b with
      | false => cases ht
      | true => simpa [signalledIn] using ht

/-!
## The invariant
-/

theorem wakeup_step {a : MqAction tid} {o : Option Effect} (hinv : QueueInv sz s)
    (hwakeup : WakeupInv s) (hguard : WakesWaiter ⟨s, a, o, s'⟩)
    (h : mqStep procOf s a = some (s', o)) : WakeupInv s' := by
  intro side u hu
  rcases step_cases h with hidle | ⟨t, entering, role, r, k, hran, hfin⟩
  · rw [hidle.mem]
    rcases hwakeup side u (hidle.sleepsIn hu) with hnone | ⟨hone, v, hv⟩
    · exact Or.inl hnone
    · exact Or.inr ⟨hone, v, hidle.signalledIn hv⟩
  · rcases hinv.linked with ⟨used, free, hlinked⟩
    have heffects := hran.effects hinv.blocked hlinked
    rw [hfin.mem]
    rcases heffects.moves_or_rests hlinked with
      ⟨mover, hside, hforeseen, hmoves⟩ | hrests
    · -- one unit goes from the mover's side to the other one
      rcases hfin.sleepsIn hu with ⟨hut, hslept⟩ | ⟨hwaits, _⟩
      · rcases mover.eq_or_eq_other side with rfl | rfl
        · have hhad := hmoves.had
          rcases hwakeup side u hslept with hnone | ⟨hone, _⟩
          · lia
          · exact Or.inl (by rw [hmoves.uses, hone]; rfl)
        · have hmem : mover ∈ moves s a := by
            unfold moves
            rw [hran.acts]
            exact hforeseen
          rcases hguard mover hmem u hslept with ⟨hnone, v, hv, hvslept⟩
          have hsignals : r.signals = true := by
            rw [hmoves.signals]
            exact decide_eq_true hnone
          have hvt : v ≠ t := by
            intro heq
            rw [heq, hran.not_asleep] at hvslept
            cases hvslept
          have hwake : a.wake = some v := hv
          rw [hwake] at hfin
          refine Or.inr ⟨?_, v, hfin.wakes hsignals hvt hvslept⟩
          rw [hmoves.supplies, hnone]
          rfl
      · rcases hmoves.ret with ⟨ret, hret⟩
        rw [hret] at hwaits
        cases hwaits
    · rw [hrests.stock]
      rcases hfin.sleepsIn hu with ⟨hut, hslept⟩ | ⟨hwaits, k', hcall, hkside⟩
      · rcases hwakeup side u hslept with hnone | ⟨hone, v, hv⟩
        · exact Or.inl hnone
        · by_cases hvt : v = t
          · -- the signalled thread came too late and waits again
            subst hvt
            rcases hran.of_signalled hv with ⟨hback, hside⟩
            rcases hrests.waits (hrests.resumed hback) with ⟨side', hside', hnone⟩
            rw [hside] at hside'
            cases hside'
            exact Or.inl hnone
          · exact Or.inr ⟨hone, v, hfin.signalledIn hvt hv⟩
      · subst hcall
        rw [← hkside]
        exact Or.inl (hran.stock_of_waits hrests hwaits)

omit [Fintype tid] [DecidableEq tid] in
theorem init_wakeup (h : MqInit sz s) : WakeupInv s := by
  intro side t ht
  rw [h.phase t] at ht
  cases ht

omit [Fintype tid] [DecidableEq tid] in
theorem WakeupInv.noLostWakeup (h : WakeupInv s) : NoLostWakeup s := by
  intro _ hnobody t
  have hstock : forall side, sleepsIn side (s.phase t) = true -> stock s.mem side = 0 := by
    intro side ht
    rcases h side t ht with hnone | ⟨_, u, hu⟩
    · exact hnone
    · have hsignalled := isSignalled_of_signalledIn hu
      rw [hnobody u] at hsignalled
      cases hsignalled
  constructor
  · intro ht
    exact hstock Side.receiving ht
  · intro ht
    have hnone := hstock Side.sending ht
    rw [stock_sending] at hnone
    lia

/-- Wakeups are not lost in a run in which no message is moved past a sleeping thread
of the other side without waking one of that side. -/
theorem no_lost_wakeup_of_wakes_waiter {tr : List (MqTransition tid)}
    (h : Run (MqInit sz) (mqStep procOf) tr s) (hguard : forall e, e ∈ tr -> WakesWaiter e) :
    NoLostWakeup s := by
  apply WakeupInv.noLostWakeup
  refine run_guarded_invariant (I := WakeupInv) (G := WakesWaiter)
    (fun s hinit => init_wakeup hinit) ?_ h hguard
  intro s a o s' hreach hwakeup hwakes hstep
  exact wakeup_step (reachable_inv hreach) hwakeup hwakes hstep

end Wakeups

/-- Two receivers wait; the one that a send has woken takes the message, and the other one sleeps at
an empty queue. -/
theorem no_lost_wakeup_of_wakes_waiter_threeSlots :
    exists (s : MqState (Fin 3)), s.locked = false ∧ (forall u, (s.phase u).isSignalled = false) ∧
      sleepsIn Side.receiving (s.phase 1) = true ∧ mqCurmsgs s.mem = 0 := by
  have hreplay : exists tr s, Run (MqInit threeSlots) (mqStep (oneProcess (n := 3))) tr s ∧
      decide ((forall e, e ∈ tr -> WakesWaiter e) ∧ s.locked = false ∧
        (forall u, (s.phase u).isSignalled = false) ∧
        sleepsIn Side.receiving (s.phase 1) = true) = true :=
    run_of_replay
      [MqAction.opens 0 0 0, MqAction.call 0 0 (MqCall.receive 1 true) none,
        MqAction.call 1 0 (MqCall.receive 1 true) none,
        MqAction.call 2 0 (MqCall.send [5] 1) (some 0), MqAction.resume 0 none]
      (init_fresh threeSlots_created) (by decide +kernel)
  rcases hreplay with ⟨tr, s, hrun, htest⟩
  rcases of_decide_eq_true htest with ⟨hguard, hunlocked, hnobody, hasleep⟩
  have hlaw := no_lost_wakeup_of_wakes_waiter hrun hguard hunlocked hnobody 1
  exact ⟨s, hunlocked, hnobody, hasleep, hlaw.1 hasleep⟩

/-- Two receivers wait, two messages are sent, and only the first send signals. When
the receiver it woke has taken one message, the other one sleeps at a queue with
the second message. -/
theorem lost_wakeup_threeSlots :
    ¬ forall s : MqState (Fin 3),
      Reachable (MqInit threeSlots) (mqStep (oneProcess (n := 3))) s -> NoLostWakeup s := by
  intro hclaim
  have hreplay : exists tr s, Run (MqInit threeSlots) (mqStep (oneProcess (n := 3))) tr s ∧
      decide (s.locked = false ∧ (forall u, (s.phase u).isSignalled = false) ∧
        sleepsIn Side.receiving (s.phase 1) = true ∧ mqCurmsgs s.mem = 1) = true :=
    run_of_replay
      [MqAction.opens 0 0 0, MqAction.call 0 0 (MqCall.receive 1 true) none,
        MqAction.call 1 0 (MqCall.receive 1 true) none,
        MqAction.call 2 0 (MqCall.send [5] 1) (some 0),
        MqAction.call 2 0 (MqCall.send [6] 1) none, MqAction.resume 0 none]
      (init_fresh threeSlots_created) (by decide +kernel)
  rcases hreplay with ⟨tr, s, hrun, htest⟩
  rcases of_decide_eq_true htest with ⟨hunlocked, hnobody, hasleep, hcur⟩
  have hempty := (hclaim s ⟨tr, hrun⟩ hunlocked hnobody 1).left hasleep
  lia

end MessageQueue
end InterprocessComm
