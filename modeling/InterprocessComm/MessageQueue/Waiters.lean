import InterprocessComm.MessageQueue.Failures
import InterprocessComm.MessageQueue.Wakeups

/-!
# Who waits on the one condition variable

Two threads never wait on `mqh_wait` for opposite things.  With a third thread they
do, whatever the sizes of the queue: a signal wakes one receiver of two, and the
sender goes on until it waits for room itself.
-/

namespace InterprocessComm
namespace MessageQueue

open Verification

section

variable {tid : Type}

/-- No thread waits for a message while another one waits for room. -/
def WaitersApart (s : MqState tid) : Prop :=
  ¬ ((exists t, sleepsIn Side.receiving (s.phase t) = true) ∧
    exists u, sleepsIn Side.sending (s.phase u) = true)

/-- The thread a signal wakes waited for what the call has just supplied. -/
def WakesSupplied (e : MqTransition tid) : Prop :=
  forall x v, e.event = some x -> x.signals = true -> e.action.wake = some v ->
    exists side, sleepsIn side (e.source.phase v) = true ∧
      stock e.source.mem side = 0 ∧ 0 < stock e.target.mem side

def MqAction.caller : MqAction tid -> Option tid
  | call t _ _ _ => some t
  | _ => none

def UsedBy (users : Finset tid) (tr : List (MqTransition tid)) : Prop :=
  forall e, e ∈ tr -> forall t, e.action.caller = some t -> t ∈ users

end

section Waiters

variable {tid : Type} [Fintype tid] [DecidableEq tid] {procOf : tid -> Pid}
variable {sz : QueueSizes} {s s' : MqState tid} {users : Finset tid}

/-!
## Two threads
-/

/-- Only the users are in a call, and they sleep only while their side has nothing. -/
structure SleepsIdle (sz : QueueSizes) (users : Finset tid) (s : MqState tid) : Prop where
  queue : QueueInv sz s
  known : forall t k, (s.phase t).pending = some k -> t ∈ users
  idle : forall side t, sleepsIn side (s.phase t) = true -> stock s.mem side = 0

omit [Fintype tid] [DecidableEq tid] in
theorem Ran.user {a : MqAction tid} {t : tid} {entering : Bool} {role : Role}
    {r : Stretch} {k : Option BlockedCall} (h : Ran s a t entering role r k)
    (hknown : forall t k, (s.phase t).pending = some k -> t ∈ users)
    (hcaller : forall t, a.caller = some t -> t ∈ users) : t ∈ users := by
  cases h with
  | enters d c wake info outside => exact hcaller t rfl
  | resumes wake woken =>
      rename_i b k'
      exact hknown t k' (by simp [woken])

omit [Fintype tid] [DecidableEq tid] in
theorem pending_of_sleepsIn {side : Side} {p : Phase Unit BlockedCall}
    (h : sleepsIn side p = true) : exists k, p.pending = some k := by
  cases p with
  | outside => cases h
  | asleep c k => exact ⟨k, rfl⟩
  | woken b c k => cases h

omit [Fintype tid] [DecidableEq tid] in
theorem sleepsIn_of_asleep {c : Unit} {k : BlockedCall} {p : Phase Unit BlockedCall}
    (h : p = Phase.asleep c k) : sleepsIn k.side p = true := by
  rw [h]
  simp [sleepsIn]

omit [Fintype tid] [DecidableEq tid] in
theorem eq_of_two_users (hcard : users.card ≤ 2) {t u v : tid} (ht : t ∈ users)
    (hu : u ∈ users) (hv : v ∈ users) (hut : u ≠ t) (hvt : v ≠ t) : u = v := by
  by_contra hne
  have hthree : 2 < users.card :=
    Finset.two_lt_card.mpr ⟨t, ht, u, hu, v, hv, Ne.symm hut, Ne.symm hvt, hne⟩
  lia

omit [Fintype tid] in
theorem asleep_of_returns {phase : tid -> Phase Unit BlockedCall} {t u : tid}
    {k : Option BlockedCall} {ret : MqReturn} {k' : BlockedCall}
    (h : (Function.update phase t (phaseAfter k (Outcome.returns ret))) u =
      Phase.asleep () k') : u ≠ t ∧ phase u = Phase.asleep () k' := by
  have hut : u ≠ t := by
    intro heq
    subst heq
    rw [Function.update_self] at h
    cases k <;> cases h
  rw [Function.update_of_ne hut] at h
  exact ⟨hut, h⟩

/-- A signal goes to a thread of the other side, since the mover's side had something. -/
theorem wakes_supplied_step {a : MqAction tid} {o : Option Effect}
    (hidle : SleepsIdle sz users s) (h : mqStep procOf s a = some (s', o)) :
    WakesSupplied ⟨s, a, o, s'⟩ := by
  intro x v hx hsignals hwake
  have hevent : o = some x := hx
  have hpick : a.wake = some v := hwake
  subst hevent
  rcases ran_of_effect h with ⟨t, entering, role, r, k, hran, hfin, hstretch⟩
  rcases hidle.queue.linked with ⟨used, free, hlinked⟩
  have hsig : r.signals = true := by
    rw [hstretch] at hsignals
    exact hsignals
  rcases (hran.effects hidle.queue.blocked hlinked).moves_or_rests hlinked with
    ⟨side, _, _, hmoves⟩ | hrests
  · rcases hmoves.ret with ⟨ret, hreturns⟩
    rcases signal_cases (hfin.signal hsig) with ⟨hnobody, _, _⟩ | ⟨u, k', hu, hasleep, _⟩
    · rw [hpick] at hnobody
      cases hnobody
    · have huv : u = v := by
        rw [hpick] at hu
        exact (Option.some.inj hu).symm
      subst huv
      rw [hreturns] at hasleep
      rcases asleep_of_returns hasleep with ⟨_, hslept⟩
      have hsleeps := sleepsIn_of_asleep hslept
      have hzero := hidle.idle _ u hsleeps
      have hother := hmoves.other_of_zero hzero
      refine ⟨k'.side, hsleeps, hzero, ?_⟩
      show 0 < stock s'.mem k'.side
      rw [hfin.mem, hother, hmoves.supplies, ← hother, hzero]
      decide
  · rw [hrests.signals] at hsig
    cases hsig

theorem sleepsIdle_step (hcard : users.card ≤ 2) {a : MqAction tid} {o : Option Effect}
    (hidle : SleepsIdle sz users s) (hcaller : forall t, a.caller = some t -> t ∈ users)
    (h : mqStep procOf s a = some (s', o)) : SleepsIdle sz users s' := by
  have hqueue := step_inv hidle.queue h
  rcases step_cases h with hnone | ⟨t, entering, role, r, k, hran, hfin⟩
  · constructor
    · exact hqueue
    · intro u k' hk
      rw [hnone.pending u] at hk
      exact hidle.known u k' hk
    · intro side u hu
      rw [hnone.mem]
      exact hidle.idle side u (hnone.sleepsIn hu)
  · rcases hidle.queue.linked with ⟨used, free, hlinked⟩
    have heffects := hran.effects hidle.queue.blocked hlinked
    have htuser := hran.user hidle.known hcaller
    constructor
    · exact hqueue
    · intro u k' hk
      rcases hfin.pending hk with ⟨_, hold⟩ | ⟨rfl, _, _⟩
      · exact hidle.known u k' hold
      · exact htuser
    · intro side u hu
      rw [hfin.mem]
      rcases heffects.moves_or_rests hlinked with ⟨mover, _, _, hmoves⟩ | hrests
      · rcases hmoves.ret with ⟨ret, hreturns⟩
        rcases hfin.sleepsIn hu with ⟨hut, hslept⟩ | ⟨hwaits, _⟩
        · -- whoever slept slept on the other side, and is the only one to wake
          have hzero := hidle.idle side u hslept
          have hother := hmoves.other_of_zero hzero
          have hsig : r.signals = true := by
            rw [hmoves.signals, ← hother]
            exact decide_eq_true hzero
          rcases signal_cases (hfin.signal hsig) with ⟨_, _, hnobody⟩ | ⟨v, k', _, hv, hphase⟩
          · have hasleep := hnobody u
            rw [Function.update_of_ne hut, sleepsOn_of_sleepsIn hslept] at hasleep
            cases hasleep
          · rw [hreturns] at hv
            rcases asleep_of_returns hv with ⟨hvt, hv⟩
            rcases pending_of_sleepsIn hslept with ⟨k'', hk''⟩
            have huv : u = v := eq_of_two_users hcard htuser (hidle.known u k'' hk'')
              (hidle.known v k' (by simp [hv])) hut hvt
            subst huv
            rw [hphase, Function.update_self] at hu
            cases hu
        · rw [hreturns] at hwaits
          cases hwaits
      · rw [hrests.stock]
        rcases hfin.sleepsIn hu with ⟨_, hslept⟩ | ⟨hwaits, k', hk', hside⟩
        · exact hidle.idle side u hslept
        · subst hk'
          rw [← hside]
          exact hran.stock_of_waits hrests hwaits

omit [Fintype tid] [DecidableEq tid] in
theorem init_sleepsIdle (h : MqInit sz s) : SleepsIdle sz users s := by
  constructor
  · exact init_inv h
  · intro t k hk
    rw [h.phase t] at hk
    cases hk
  · intro side t ht
    rw [h.phase t] at ht
    cases ht

omit [Fintype tid] [DecidableEq tid] in
theorem SleepsIdle.apart (h : SleepsIdle sz users s) : WaitersApart s := by
  rintro ⟨⟨t, ht⟩, u, hu⟩
  rcases h.queue.linked with ⟨used, free, hlinked⟩
  have hempty := h.idle _ t ht
  have hfull := h.idle _ u hu
  have hmax := hlinked.maxmsg
  have hpos := sz.maxmsg_pos
  rw [stock_receiving] at hempty
  rw [stock_sending] at hfull
  lia

theorem run_sleepsIdle (hcard : users.card ≤ 2) {tr : List (MqTransition tid)}
    (h : Run (MqInit sz) (mqStep procOf) tr s) (hused : UsedBy users tr) :
    SleepsIdle sz users s ∧ forall e, e ∈ tr -> WakesSupplied e := by
  rcases h with ⟨s0, hinit, hpath⟩
  refine path_guarded (I := SleepsIdle sz users)
    (G := fun e : MqTransition tid => forall t, e.action.caller = some t -> t ∈ users)
    (P := WakesSupplied) ?_ hpath (init_sleepsIdle hinit) hused
  intro s a o t hidle hcaller hstep
  exact ⟨sleepsIdle_step hcard hidle hcaller hstep, wakes_supplied_step hidle hstep⟩

/-!
## Three threads
-/

def ReachedBy (sz : QueueSizes) (procOf : tid -> Pid) (users : Finset tid)
    (s : MqState tid) : Prop :=
  exists tr, Run (MqInit sz) (mqStep procOf) tr s ∧ UsedBy users tr

theorem ReachedBy.step {a : MqAction tid} {o : Option Effect}
    (h : ReachedBy sz procOf users s) (hstep : mqStep procOf s a = some (s', o))
    (hcaller : forall t, a.caller = some t -> t ∈ users) : ReachedBy sz procOf users s' := by
  rcases h with ⟨tr, ⟨s0, hinit, hpath⟩, hused⟩
  refine ⟨_, ⟨s0, hinit, Path.snoc hpath hstep⟩, ?_⟩
  intro e he t ht
  rcases List.mem_append.mp he with hold | hnew
  · exact hused e hold t ht
  · rw [List.mem_singleton] at hnew
    subst hnew
    exact hcaller t ht

theorem ReachedBy.call {t : tid} {d : Nat} {c : MqCall} {wake : Option tid}
    {o : Option Effect} (h : ReachedBy sz procOf users s)
    (hstep : mqStep procOf s (MqAction.call t d c wake) = some (s', o)) (ht : t ∈ users) :
    ReachedBy sz procOf users s' := by
  refine h.step hstep ?_
  intro u hu
  cases hu
  exact ht

theorem ReachedBy.inv (h : ReachedBy sz procOf users s) : QueueInv sz s := by
  rcases h with ⟨tr, hrun, _⟩
  exact reachable_inv ⟨tr, hrun⟩

structure CanCall (procOf : tid -> Pid) (s : MqState tid) (t : tid) (d : Nat) : Prop where
  desc : s.descs d = some (mqOpenInfo (procOf t) 0)
  alive : s.alive (procOf t).val = true
  outside : s.phase t = Phase.outside

omit [Fintype tid] in
theorem CanCall.update_phase {t : tid} {d : Nat} (h : CanCall procOf s t d) :
    Function.update s.phase t (Phase.outside : Phase Unit BlockedCall) = s.phase := by
  rw [← h.outside]
  exact Function.update_eq_self t s.phase

structure After (s : MqState tid) (m : Mem) (phase : tid -> Phase Unit BlockedCall)
    (s' : MqState tid) : Prop where
  mem : s'.mem = m
  phase : s'.phase = phase
  descs : s'.descs = s.descs
  alive : s'.alive = s.alive

omit [Fintype tid] [DecidableEq tid] in
theorem After.canCall {m : Mem} {phase : tid -> Phase Unit BlockedCall} {t : tid} {d : Nat}
    (h : After s m phase s') (hcan : CanCall procOf s t d)
    (houtside : phase t = Phase.outside) : CanCall procOf s' t d := by
  constructor
  · rw [h.descs]
    exact hcan.desc
  · rw [h.alive]
    exact hcan.alive
  · rw [h.phase]
    exact houtside

theorem call_step_of_enter (wake : Option tid) {t : tid} {d : Nat} {c : MqCall} {r : Stretch}
    {phase' : tid -> Phase Unit BlockedCall} (hcan : CanCall procOf s t d)
    (hunlocked : s.locked = false) (htested : c.tested = true)
    (henter : c.enter s.alive s.mem (mqOpenInfo (procOf t) 0) = r)
    (hphase : (if r.signals = true then
        signal () wake (Function.update s.phase t (phaseAfter (c.blocked d) r.outcome))
      else if wake.isNone = true then
        some (Function.update s.phase t (phaseAfter (c.blocked d) r.outcome))
      else none) = some phase') :
    exists s' o, mqStep procOf s (MqAction.call t d c wake) = some (s', o) ∧
      After s r.mem phase' s' := by
  have hmay : MayCall procOf s t (mqOpenInfo (procOf t) 0) :=
    ⟨hunlocked, hcan.alive, hcan.outside, rfl⟩
  have hdescs : Function.update s.descs d (some (mqOpenInfo (procOf t) 0)) = s.descs := by
    rw [← hcan.desc]
    exact Function.update_eq_self d s.descs
  simp only [mqStep, hcan.desc, if_pos hmay, henter, leaves_of_tested htested, hdescs, finish,
    hphase, Option.map_some]
  exact ⟨_, _, rfl, ⟨rfl, rfl, rfl, rfl⟩⟩

theorem enter_send (alive : Int -> Bool) (m : Mem) {info : MqInfo}
    (hmagic : info.mqi_magic = MQI_MAGIC) (buf : List UInt8) (prio : UInt32) :
    (MqCall.send buf prio).enter alive m info = mqSend m info.mqi_flags buf prio :=
  if_neg fun hne => hne hmagic

theorem enter_receive (alive : Int -> Bool) (m : Mem) {info : MqInfo}
    (hmagic : info.mqi_magic = MQI_MAGIC) (maxlen : Nat) (priop : Bool) :
    (MqCall.receive maxlen priop).enter alive m info =
      mqReceive m info.mqi_flags maxlen priop :=
  if_neg fun hne => hne hmagic

theorem mqOpenInfo_waits (p : Pid) : ¬ (mqOpenInfo p 0).mqi_flags &&& O_NONBLOCK ≠ 0 := by
  intro h
  exact h (by simp [mqOpenInfo])

theorem send_not_error {m : Mem} {used free : List Int} (h : WellLinked sz m used free)
    (p : Pid) (e : Errno) : (mqSend m (mqOpenInfo p 0).mqi_flags [] 0).outcome ≠
      Outcome.returns (MqReturn.error e) := by
  intro herror
  have hpos := sz.msgsize_pos
  rcases (mqSend_error_iff h _ _ _ e).mp herror with ⟨hlong, _⟩ | ⟨_, hflag, _⟩
  · rw [List.length_nil] at hlong
    lia
  · exact mqOpenInfo_waits p hflag

theorem receive_not_error {m : Mem} {used free : List Int} (h : WellLinked sz m used free)
    (p : Pid) (e : Errno) :
    (mqReceive m (mqOpenInfo p 0).mqi_flags sz.mq_msgsize.toNat false).outcome ≠
      Outcome.returns (MqReturn.error e) := by
  intro herror
  have hpos := sz.msgsize_pos
  rcases (mqReceive_error_iff h _ _ _ e).mp herror with ⟨hshort, _⟩ | ⟨_, hflag, _⟩
  · lia
  · exact mqOpenInfo_waits p hflag

theorem receive_sleeps (h : ReachedBy sz procOf users s) {t : tid} {d : Nat}
    (ht : t ∈ users) (hcan : CanCall procOf s t d) (hempty : mqCurmsgs s.mem = 0) :
    exists s' m k, ReachedBy sz procOf users s' ∧ k.side = Side.receiving ∧
      mqCurmsgs m = 0 ∧ After s m (Function.update s.phase t (Phase.asleep () k)) s' := by
  have hinv := h.inv
  rcases hinv.linked with ⟨used, free, hlinked⟩
  let c := MqCall.receive sz.mq_msgsize.toNat false
  have henter : c.enter s.alive s.mem (mqOpenInfo (procOf t) 0) =
      mqReceive s.mem (mqOpenInfo (procOf t) 0).mqi_flags sz.mq_msgsize.toNat false :=
    enter_receive s.alive s.mem rfl _ _
  have hused := hlinked.curmsgs_eq_zero_iff.mp hempty
  have hwaits : exists m, mqCurmsgs m = 0 ∧
      c.enter s.alive s.mem (mqOpenInfo (procOf t) 0) = Stretch.wait m := by
    have heffects := mqReceive_effects hlinked (mqOpenInfo (procOf t) 0).mqi_flags
      sz.mq_msgsize.toNat false
    rw [henter]
    generalize hr : mqReceive s.mem (mqOpenInfo (procOf t) 0).mqi_flags
      sz.mq_msgsize.toNat false = r at heffects
    cases heffects with
    | fails role e =>
        exact absurd (congrArg Stretch.outcome hr) (receive_not_error hlinked (procOf t) e)
    | receiveWaits fits empty =>
        refine ⟨_, ?_, rfl⟩
        rw [if_pos rfl]
        have hcounted := hlinked.congr
          (sameChains_putLong (a := offMqhNwait) (v := mqhNwait s.mem + 1) s.mem (by lia))
        exact hcounted.curmsgs_eq_zero_iff.mpr hused
    | takes fits first unlinked =>
        rw [first] at hused
        cases hused
  rcases hwaits with ⟨m, hstill, hstretch⟩
  rcases call_step_of_enter none hcan hinv.unlocked rfl hstretch rfl with
    ⟨s', o, hstep, hafter⟩
  exact ⟨s', m, _, h.call hstep ht, rfl, hstill, hafter⟩

theorem send_enters (h : ReachedBy sz procOf users s) (t : tid)
    (hroom : mqCurmsgs s.mem < sz.mq_maxmsg) :
    exists m sig, mqCurmsgs m = mqCurmsgs s.mem + 1 ∧
      (MqCall.send [] 0).enter s.alive s.mem (mqOpenInfo (procOf t) 0) =
        { mem := m, outcome := Outcome.returns MqReturn.sent,
          signals := decide (mqCurmsgs s.mem = 0), sigqueue := sig } := by
  rcases h.inv.linked with ⟨used, free, hlinked⟩
  have heffects := mqSend_effects hlinked (mqOpenInfo (procOf t) 0).mqi_flags [] 0
  have henter : (MqCall.send [] 0).enter s.alive s.mem (mqOpenInfo (procOf t) 0) =
      mqSend s.mem (mqOpenInfo (procOf t) 0).mqi_flags [] 0 :=
    enter_send s.alive s.mem rfl [] 0
  rw [henter]
  generalize hr : mqSend s.mem (mqOpenInfo (procOf t) 0).mqi_flags [] 0 = r at heffects
  cases heffects with
  | fails role e =>
      exact absurd (congrArg Stretch.outcome hr) (send_not_error hlinked (procOf t) e)
  | sendWaits fits full => lia
  | links fits slot linked =>
      subst slot
      refine ⟨_, _, ?_, rfl⟩
      have hstart := hlinked.congr (sameChains_notified true s.mem used)
      rw [linked.curmsgs, hstart.curmsgs, hlinked.curmsgs]

theorem send_links (h : ReachedBy sz procOf users s) {t : tid} {d : Nat} (ht : t ∈ users)
    (hcan : CanCall procOf s t d) (hsome : 0 < mqCurmsgs s.mem)
    (hroom : mqCurmsgs s.mem < sz.mq_maxmsg) :
    exists s' m, ReachedBy sz procOf users s' ∧ mqCurmsgs m = mqCurmsgs s.mem + 1 ∧
      After s m s.phase s' := by
  rcases send_enters h t hroom with ⟨m, sig, hcur, hstretch⟩
  have hquiet : decide (mqCurmsgs s.mem = 0) = false := decide_eq_false (by lia)
  rw [hquiet] at hstretch
  rcases call_step_of_enter none hcan h.inv.unlocked rfl hstretch
    (congrArg some hcan.update_phase) with ⟨s', o, hstep, hafter⟩
  exact ⟨s', m, h.call hstep ht, hcur, hafter⟩

theorem send_wakes (h : ReachedBy sz procOf users s) {t u : tid} {d : Nat} (ht : t ∈ users)
    (hcan : CanCall procOf s t d) (hempty : mqCurmsgs s.mem = 0) {k : BlockedCall}
    (hu : s.phase u = Phase.asleep () k) :
    exists s' m, ReachedBy sz procOf users s' ∧ mqCurmsgs m = 1 ∧
      After s m (Function.update s.phase u (Phase.woken true () k)) s' := by
  have hpos := sz.maxmsg_pos
  rcases send_enters h t (by lia) with ⟨m, sig, hcur, hstretch⟩
  have hsignals : decide (mqCurmsgs s.mem = 0) = true := decide_eq_true hempty
  rw [hsignals] at hstretch
  have hsignal : signal () (some u) (Function.update s.phase t
      (phaseAfter ((MqCall.send [] 0).blocked d) (Outcome.returns MqReturn.sent))) =
      some (Function.update s.phase u (Phase.woken true () k)) := by
    show signal () (some u) (Function.update s.phase t Phase.outside) = _
    rw [hcan.update_phase]
    simp [signal, hu, Phase.wake]
  rcases call_step_of_enter (some u) hcan h.inv.unlocked rfl hstretch hsignal with
    ⟨s', o, hstep, hafter⟩
  exact ⟨s', m, h.call hstep ht, by lia, hafter⟩

theorem send_sleeps (h : ReachedBy sz procOf users s) {t : tid} {d : Nat} (ht : t ∈ users)
    (hcan : CanCall procOf s t d) (hfull : mqCurmsgs s.mem = sz.mq_maxmsg) :
    exists s' k, ReachedBy sz procOf users s' ∧ k.side = Side.sending ∧
      After s s.mem (Function.update s.phase t (Phase.asleep () k)) s' := by
  have hinv := h.inv
  rcases hinv.linked with ⟨used, free, hlinked⟩
  have hwaits : (MqCall.send [] 0).enter s.alive s.mem (mqOpenInfo (procOf t) 0) =
      Stretch.wait s.mem := by
    have henter : (MqCall.send [] 0).enter s.alive s.mem (mqOpenInfo (procOf t) 0) =
        mqSend s.mem (mqOpenInfo (procOf t) 0).mqi_flags [] 0 :=
      enter_send s.alive s.mem rfl [] 0
    have heffects := mqSend_effects hlinked (mqOpenInfo (procOf t) 0).mqi_flags [] 0
    rw [henter]
    generalize hr : mqSend s.mem (mqOpenInfo (procOf t) 0).mqi_flags [] 0 = r at heffects
    cases heffects with
    | fails role e =>
        exact absurd (congrArg Stretch.outcome hr) (send_not_error hlinked (procOf t) e)
    | sendWaits fits full => rfl
    | links fits slot linked =>
        have hadd := hlinked.length_add
        have hcur := hlinked.curmsgs
        rw [slot, List.length_cons] at hadd
        lia
  rcases call_step_of_enter none hcan hinv.unlocked rfl hwaits rfl with
    ⟨s', o, hstep, hafter⟩
  exact ⟨s', _, h.call hstep ht, rfl, hafter⟩

theorem send_fills {t : tid} {d : Nat} (ht : t ∈ users) (room : Nat)
    (h : ReachedBy sz procOf users s) (hcan : CanCall procOf s t d)
    (hsome : 0 < mqCurmsgs s.mem) (hroom : mqCurmsgs s.mem + room = sz.mq_maxmsg) :
    exists s' m, ReachedBy sz procOf users s' ∧ mqCurmsgs m = sz.mq_maxmsg ∧
      After s m s.phase s' := by
  induction room generalizing s with
  | zero => exact ⟨s, s.mem, h, by lia, ⟨rfl, rfl, rfl, rfl⟩⟩
  | succ room ih =>
      rcases send_links h ht hcan hsome (by lia) with ⟨s₁, m₁, h₁, hcur₁, hafter₁⟩
      rw [← hafter₁.mem] at hcur₁
      rcases ih h₁ (hafter₁.canCall hcan hcan.outside) (by lia) (by lia) with
        ⟨s', m', h', hcur', hafter'⟩
      refine ⟨s', m', h', hcur', ?_⟩
      exact ⟨hafter'.mem, hafter'.phase.trans hafter₁.phase,
        hafter'.descs.trans hafter₁.descs, hafter'.alive.trans hafter₁.alive⟩

variable (procOf users) in
theorem opened_by_three {m : Mem} (hcreated : mqOpenCreate sz.mq_maxmsg sz.mq_msgsize = some m)
    (a b c : tid) : exists s : MqState tid, ReachedBy sz procOf users s ∧
      mqCurmsgs s.mem = 0 ∧ CanCall procOf s a 0 ∧ CanCall procOf s b 1 ∧
        CanCall procOf s c 2 := by
  let s₀ : MqState tid := MqState.fresh m
  let s₁ := { s₀ with descs := Function.update s₀.descs 0 (some (mqOpenInfo (procOf a) 0)) }
  let s₂ := { s₁ with descs := Function.update s₁.descs 1 (some (mqOpenInfo (procOf b) 0)) }
  let s₃ := { s₂ with descs := Function.update s₂.descs 2 (some (mqOpenInfo (procOf c) 0)) }
  have hinit : MqInit sz s₀ := init_fresh hcreated
  have h₀ : ReachedBy sz procOf users s₀ :=
    ⟨[], ⟨s₀, hinit, Path.nil⟩, fun e he => by cases he⟩
  have hstep₁ : mqStep procOf s₀ (MqAction.opens a 0 0) = some (s₁, none) := by
    simp [mqStep, s₀, s₁, MqState.fresh]
  have hstep₂ : mqStep procOf s₁ (MqAction.opens b 1 0) = some (s₂, none) := by
    simp [mqStep, s₀, s₁, s₂, MqState.fresh]
  have hstep₃ : mqStep procOf s₂ (MqAction.opens c 2 0) = some (s₃, none) := by
    simp [mqStep, s₀, s₁, s₂, s₃, MqState.fresh]
  have hnocall : forall (t : tid) (d : Nat) (u : tid),
      (MqAction.opens t d 0).caller = some u -> u ∈ users := by
    intro t d u hu
    cases hu
  have h₃ := ((h₀.step hstep₁ (hnocall a 0)).step hstep₂ (hnocall b 1)).step hstep₃
    (hnocall c 2)
  rcases mqOpenCreate_wellLinked hcreated with ⟨hwell, _, _⟩
  refine ⟨s₃, h₃, hwell.curmsgs_eq_zero_iff.mpr rfl, ?_, ?_, ?_⟩
  · exact ⟨by simp [s₁, s₂, s₃], rfl, rfl⟩
  · exact ⟨by simp [s₂, s₃], rfl, rfl⟩
  · exact ⟨by simp [s₃], rfl, rfl⟩

variable (procOf) in
/-- Two receivers sleep; a send wakes one of them, and the sender goes on until it
sleeps on the full queue. -/
theorem three_users_mix {m : Mem} (hcreated : mqOpenCreate sz.mq_maxmsg sz.mq_msgsize = some m)
    (hcard : 2 < users.card) :
    exists s : MqState tid, ReachedBy sz procOf users s ∧ ¬ WaitersApart s := by
  have hpos := sz.maxmsg_pos
  rcases Finset.two_lt_card.mp hcard with ⟨a, ha, b, hb, c, hc, hab, hac, hbc⟩
  rcases opened_by_three procOf users hcreated a b c with
    ⟨s₀, h₀, hempty₀, hcanA, hcanB, hcanC⟩
  rcases receive_sleeps h₀ ha hcanA hempty₀ with ⟨s₁, m₁, k₁, h₁, hside₁, hempty₁, hafter₁⟩
  have hcanB₁ := hafter₁.canCall hcanB
    ((Function.update_of_ne (Ne.symm hab) _ _).trans hcanB.outside)
  have hcanC₁ := hafter₁.canCall hcanC
    ((Function.update_of_ne (Ne.symm hac) _ _).trans hcanC.outside)
  rw [← hafter₁.mem] at hempty₁
  rcases receive_sleeps h₁ hb hcanB₁ hempty₁ with
    ⟨s₂, m₂, k₂, h₂, hside₂, hempty₂, hafter₂⟩
  have hcanC₂ := hafter₂.canCall hcanC₁
    ((Function.update_of_ne (Ne.symm hbc) _ _).trans hcanC₁.outside)
  rw [← hafter₂.mem] at hempty₂
  have hasleepA : s₂.phase a = Phase.asleep () k₁ := by
    rw [hafter₂.phase, Function.update_of_ne hab, hafter₁.phase, Function.update_self]
  have hasleepB : s₂.phase b = Phase.asleep () k₂ := by
    rw [hafter₂.phase, Function.update_self]
  rcases send_wakes h₂ hc hcanC₂ hempty₂ hasleepA with ⟨s₃, m₃, h₃, hone, hafter₃⟩
  have hcanC₃ := hafter₃.canCall hcanC₂
    ((Function.update_of_ne (Ne.symm hac) _ _).trans hcanC₂.outside)
  rw [← hafter₃.mem] at hone
  rcases send_fills hc (sz.mq_maxmsg - 1).toNat h₃ hcanC₃ (by lia) (by lia) with
    ⟨s₄, m₄, h₄, hfull, hafter₄⟩
  have hcanC₄ := hafter₄.canCall hcanC₃ hcanC₃.outside
  rw [← hafter₄.mem] at hfull
  rcases send_sleeps h₄ hc hcanC₄ hfull with ⟨s₅, k₅, h₅, hside₅, hafter₅⟩
  refine ⟨s₅, h₅, fun hapart => hapart ⟨⟨b, ?_⟩, c, ?_⟩⟩
  · have hstill : s₅.phase b = Phase.asleep () k₂ := by
      rw [hafter₅.phase, Function.update_of_ne hbc, hafter₄.phase, hafter₃.phase,
        Function.update_of_ne (Ne.symm hab), hasleepB]
    rw [← hside₂]
    exact sleepsIn_of_asleep hstill
  · have hlast : s₅.phase c = Phase.asleep () k₅ := by
      rw [hafter₅.phase, Function.update_self]
    rw [← hside₅]
    exact sleepsIn_of_asleep hlast

/-- The waiters never mix, and every signal goes to a thread it is meant for, if and
only if at most two threads use the queue. -/
theorem waiters_apart_iff {m : Mem}
    (hcreated : mqOpenCreate sz.mq_maxmsg sz.mq_msgsize = some m) (users : Finset tid) :
    (forall tr (s : MqState tid), Run (MqInit sz) (mqStep procOf) tr s -> UsedBy users tr ->
      WaitersApart s ∧ forall e, e ∈ tr -> WakesSupplied e) <-> users.card ≤ 2 := by
  constructor
  · intro hclaim
    by_contra hcard
    rcases three_users_mix procOf hcreated (Nat.lt_of_not_le hcard) with
      ⟨s, ⟨tr, hrun, hused⟩, hmixed⟩
    exact hmixed (hclaim tr s hrun hused).left
  · intro hcard tr s hrun hused
    rcases run_sleepsIdle hcard hrun hused with ⟨hidle, hsignals⟩
    exact ⟨hidle.apart, hsignals⟩

end Waiters

/-- Thread `2` waits for a message and thread `0` sends one. -/
theorem waiters_apart_iff_threeSlots :
    exists tr s, Run (MqInit threeSlots) (mqStep (oneProcess (n := 3))) tr s ∧
      (exists e, e ∈ tr ∧ e.event.any Effect.signals = true ∧ e.action.wake = some 2) ∧
      WaitersApart s ∧ forall e, e ∈ tr -> WakesSupplied e := by
  have hreplay : exists tr s, Run (MqInit threeSlots) (mqStep (oneProcess (n := 3))) tr s ∧
      decide ((forall e, e ∈ tr -> forall t, e.action.caller = some t ->
          t ∈ (insert 0 (singleton 2) : Finset (Fin 3))) ∧
        exists e, e ∈ tr ∧ e.event.any Effect.signals = true ∧ e.action.wake = some 2) = true :=
    run_of_replay
      [MqAction.opens 0 0 0, MqAction.call 2 0 (MqCall.receive 1 true) none,
        MqAction.call 0 0 (MqCall.send [5] 1) (some 2)]
      (init_fresh threeSlots_created) (by decide +kernel)
  rcases hreplay with ⟨tr, s, hrun, htest⟩
  rcases of_decide_eq_true htest with ⟨hused, hsignal⟩
  have hclaim := (waiters_apart_iff threeSlots_created _).mpr (by decide) tr s hrun hused
  exact ⟨tr, s, hrun, hsignal, hclaim⟩

/-- Threads `0` and `1` wait for a message; thread `2` sends three and waits for room. -/
theorem mixed_waiters_threeSlots :
    ¬ forall s : MqState (Fin 3),
      Reachable (MqInit threeSlots) (mqStep (oneProcess (n := 3))) s -> WaitersApart s := by
  intro hclaim
  have hreplay : exists tr s, Run (MqInit threeSlots) (mqStep (oneProcess (n := 3))) tr s ∧
      decide (sleepsIn Side.receiving (s.phase 1) = true ∧
        sleepsIn Side.sending (s.phase 2) = true) = true :=
    run_of_replay
      [MqAction.opens 0 0 0, MqAction.call 0 0 (MqCall.receive 1 true) none,
        MqAction.call 1 0 (MqCall.receive 1 true) none,
        MqAction.call 2 0 (MqCall.send [5] 1) (some 0),
        MqAction.call 2 0 (MqCall.send [6] 1) none, MqAction.call 2 0 (MqCall.send [7] 1) none,
        MqAction.call 2 0 (MqCall.send [8] 1) none]
      (init_fresh threeSlots_created) (by decide +kernel)
  rcases hreplay with ⟨tr, s, hrun, htest⟩
  rcases of_decide_eq_true htest with ⟨hreceiver, hsender⟩
  exact hclaim s ⟨tr, hrun⟩ ⟨⟨1, hreceiver⟩, 2, hsender⟩

end MessageQueue
end InterprocessComm
