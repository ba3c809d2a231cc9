import InterprocessComm.Lib.StableQueue
import InterprocessComm.MessageQueue.Creation
import InterprocessComm.MessageQueue.Stretches

/-!
# The queue in every reachable state

The steps of the threads keep the file well linked and its messages sorted, and
never leave the lock taken.
-/

namespace InterprocessComm
namespace MessageQueue

open Verification

/-!
## The queued messages
-/

def queueOf (m : Mem) : List Message :=
  (follow (msgNext m) 0 (mqMaxmsg m).toNat (mqhHead m)).map (messageAt m)

def Message.key (a : Message) : Nat := a.prio.toNat

section Queue

variable {sz : QueueSizes} {m m' : Mem} {used free : List Int}

theorem queueOf_eq (h : WellLinked sz m used free) : queueOf m = used.map (messageAt m) := by
  have hadd := h.length_add
  unfold queueOf
  rw [h.maxmsg, follow_eq_of_chain h.head (by lia)]

theorem queueOf_eq_nil_iff (h : WellLinked sz m used free) : queueOf m = [] <-> used = [] := by
  rw [queueOf_eq h, List.map_eq_nil_iff]

theorem queueOf_sameChains (h : WellLinked sz m used free) (hsame : SameChains m m') :
    queueOf m' = queueOf m := by
  rw [queueOf_eq h, queueOf_eq (h.congr hsame)]
  exact List.map_congr_left fun i hi => h.messageAt_congr hsame hi

/-- Linking a message inserts it behind all messages of at least its priority. -/
theorem queueOf_linked {rest front back : List Int} {f q : Int} {buf : List UInt8}
    {prio : UInt32} (h : WellLinked sz m used (f :: rest))
    (hfits : (buf.length : Int) ≤ sz.mq_msgsize)
    (hlinked : Linked m used f buf prio front back q m') :
    queueOf m' = stableInsert Message.key { prio := prio, data := buf } (queueOf m) := by
  rcases hlinked.wellLinked h hfits with ⟨hwell, hsame⟩
  have hkey : forall i, (messageAt m i).key = (msgPrio m i).toNat := by
    intro i
    unfold Message.key
    rw [messageAt_prio]
  rw [queueOf_eq hwell, queueOf_eq h, hlinked.split, List.map_append, List.map_append,
    List.map_cons, hlinked.message]
  have hfront : front.map (messageAt m') = front.map (messageAt m) :=
    List.map_congr_left fun i hi => hsame i (by
      rw [hlinked.split]
      exact List.mem_append_left back hi)
  have hback : back.map (messageAt m') = back.map (messageAt m) :=
    List.map_congr_left fun i hi => hsame i (by
      rw [hlinked.split]
      exact List.mem_append_right front hi)
  rw [hfront, hback]
  symm
  apply stableInsert_eq_of_split
  · intro a ha
    rcases List.mem_map.mp ha with ⟨i, hi, rfl⟩
    rw [hkey]
    exact UInt32.le_iff_toNat_le.mp (hlinked.behind i hi)
  · intro b hb
    rw [List.head?_map] at hb
    rcases Option.map_eq_some_iff.mp hb with ⟨i, hi, rfl⟩
    rw [hkey]
    exact UInt32.lt_iff_toNat_lt.mp (hlinked.before i hi)

theorem queueOf_unlinked {i : Int} (h : WellLinked sz m (i :: used) free)
    (hunlinked : Unlinked m i m') : queueOf m = messageAt m i :: queueOf m' := by
  rcases hunlinked.wellLinked h with ⟨hwell, hsame⟩
  rw [queueOf_eq h, queueOf_eq hwell, List.map_cons]
  have hrest : used.map (messageAt m') = used.map (messageAt m) :=
    List.map_congr_left fun j hj => hsame j hj
  rw [hrest]

end Queue

/-!
## Steps
-/

section Steps

variable {tid : Type} [Fintype tid] [DecidableEq tid] {procOf : tid -> Pid}
variable {sz : QueueSizes} {s s' : MqState tid}

structure Finished (s : MqState tid) (t : tid) (k : Option BlockedCall) (r : Stretch)
    (wake : Option tid) (s' : MqState tid) (o : Option Effect) : Prop where
  mem : s'.mem = r.mem
  alive : s'.alive = s.alive
  locked : s'.locked = r.outcome.keepsLock
  effect : o = some r.effect
  quiet : r.signals = false ->
    s'.phase = Function.update s.phase t (phaseAfter k r.outcome)
  signal : r.signals = true ->
    signal () wake (Function.update s.phase t (phaseAfter k r.outcome)) = some s'.phase

theorem finished_of_finish {t : tid} {k : Option BlockedCall} {r : Stretch}
    {wake : Option tid} {o : Option Effect} (h : finish s t k r wake = some (s', o)) :
    Finished s t k r wake s' o := by
  unfold finish at h
  rcases Option.map_eq_some_iff.mp h with ⟨phase, hphase, heq⟩
  simp only [Prod.mk.injEq] at heq
  rcases heq with ⟨rfl, rfl⟩
  cases hsignals : r.signals with
  | false =>
      rw [hsignals] at hphase
      cases hwake : wake.isNone with
      | false => simp [hwake] at hphase
      | true =>
          simp only [hwake, if_true, Bool.false_eq_true, if_false, Option.some.injEq] at hphase
          exact ⟨rfl, rfl, rfl, rfl, fun _ => hphase.symm, fun hs => by simp [hsignals] at hs⟩
  | true =>
      rw [hsignals] at hphase
      exact ⟨rfl, rfl, rfl, rfl, fun hs => by simp [hsignals] at hs, fun _ => hphase⟩

def MqAction.acts (s : MqState tid) : MqAction tid -> Option (tid × Bool × Role)
  | call t _ c _ => some (t, true, c.role)
  | resume t _ =>
      match s.phase t with
      | Phase.woken _ _ k => some (t, false, k.role)
      | _ => none
  | _ => none

def MqAction.wake : MqAction tid -> Option tid
  | call _ _ _ wake => wake
  | resume _ wake => wake
  | _ => none

/-- A step without a stretch: a thread may wake up spuriously, and nothing else
changes in the queue. -/
structure Idle (s : MqState tid) (a : MqAction tid) (s' : MqState tid)
    (o : Option Effect) : Prop where
  acts : a.acts s = none
  mem : s'.mem = s.mem
  locked : s'.locked = s.locked
  effect : o = none
  phase : forall u, s'.phase u = s.phase u ∨ s'.phase u = (s.phase u).wake false

/-- Thread `t` runs the stretch `r` in a role, and waits as `k` if it waits. -/
inductive Ran (s : MqState tid) : MqAction tid -> tid -> Bool -> Role -> Stretch ->
    Option BlockedCall -> Prop where
  | enters {t : tid} (d : Nat) (c : MqCall) (wake : Option tid) (info : MqInfo)
      (outside : s.phase t = Phase.outside) :
      Ran s (MqAction.call t d c wake) t true c.role (c.enter s.alive s.mem info)
        (c.blocked d)
  | resumes {t : tid} {b : Bool} {k : BlockedCall} (wake : Option tid)
      (woken : s.phase t = Phase.woken b () k) :
      Ran s (MqAction.resume t wake) t false k.role (k.resume s.mem) (some k)

omit [Fintype tid] [DecidableEq tid] in
theorem Ran.acts {a : MqAction tid} {t : tid} {entering : Bool} {role : Role}
    {r : Stretch} {k : Option BlockedCall} (h : Ran s a t entering role r k) :
    a.acts s = some (t, entering, role) := by
  cases h with
  | enters d c wake info outside => rfl
  | resumes wake woken => simp [MqAction.acts, woken]

theorem step_cases {a : MqAction tid} {o : Option Effect}
    (h : mqStep procOf s a = some (s', o)) :
    Idle s a s' o ∨ exists t entering role r k,
      Ran s a t entering role r k ∧ Finished s t k r a.wake s' o := by
  have hidle : forall u, s.phase u = s.phase u ∨ s.phase u = (s.phase u).wake false :=
    fun _ => Or.inl rfl
  cases a with
  | call t d c wake =>
      cases hdesc : s.descs d with
      | none => simp [mqStep, hdesc] at h
      | some info =>
          simp only [mqStep, hdesc] at h
          by_cases hmay : MayCall procOf s t info
          · rw [if_pos hmay] at h
            rcases finished_of_finish h with ⟨hmem, halive, hlocked, heffect, hquiet, hsignal⟩
            exact Or.inr ⟨t, true, _, _, _, Ran.enters d c wake info hmay.2.2.1,
              ⟨hmem, halive, hlocked, heffect, hquiet, hsignal⟩⟩
          · rw [if_neg hmay] at h
            cases h
  | lockFails t d c e =>
      cases hdesc : s.descs d with
      | none => simp [mqStep, hdesc] at h
      | some info =>
          simp only [mqStep, hdesc] at h
          by_cases hmay : MayCall procOf s t info
          · rw [if_pos hmay] at h
            cases h
            exact Or.inl ⟨rfl, rfl, rfl, rfl, hidle⟩
          · rw [if_neg hmay] at h
            cases h
  | resume t wake =>
      cases hphase : s.phase t with
      | outside => simp [mqStep, hphase] at h
      | asleep c k => simp [mqStep, hphase] at h
      | woken b c k =>
          simp only [mqStep, hphase] at h
          by_cases hready : s.locked = false ∧ s.alive (procOf t).val = true ∧
              (s.descs k.desc).isSome = true
          · rw [if_pos hready] at h
            exact Or.inr ⟨t, false, _, _, _, Ran.resumes wake hphase,
              finished_of_finish h⟩
          · rw [if_neg hready] at h
            cases h
  | spurious t =>
      cases hphase : s.phase t with
      | outside => simp [mqStep, hphase] at h
      | asleep c k =>
          simp only [mqStep, hphase] at h
          cases h
          refine Or.inl ⟨rfl, rfl, rfl, rfl, ?_⟩
          intro u
          by_cases hut : u = t
          · subst hut
            simp [hphase]
          · simp [Function.update_of_ne hut]
      | woken b c k => simp [mqStep, hphase] at h
  | opens t d oflag =>
      simp only [mqStep] at h
      by_cases hready : s.alive (procOf t).val = true ∧ s.phase t = Phase.outside ∧
          (s.descs d).isNone = true
      · rw [if_pos hready] at h
        cases h
        exact Or.inl ⟨rfl, rfl, rfl, rfl, hidle⟩
      · rw [if_neg hready] at h
        cases h
  | exits p =>
      cases h
      exact Or.inl ⟨rfl, rfl, rfl, rfl, hidle⟩

theorem ran_of_effect {a : MqAction tid} {x : Effect}
    (h : mqStep procOf s a = some (s', some x)) :
    exists t entering role r k,
      Ran s a t entering role r k ∧ Finished s t k r a.wake s' (some x) ∧ x = r.effect := by
  rcases step_cases h with hidle | ⟨t, entering, role, r, k, hran, hfin⟩
  · cases hidle.effect
  · exact ⟨t, entering, role, r, k, hran, hfin, Option.some.inj hfin.effect⟩

/-!
## The invariant
-/

structure QueueInv (sz : QueueSizes) (s : MqState tid) : Prop where
  linked : exists used free, WellLinked sz s.mem used free
  sorted : SortedBy Message.key (queueOf s.mem)
  unlocked : s.locked = false
  blocked : forall t k, (s.phase t).pending = some k -> k.Fits sz

omit [Fintype tid] [DecidableEq tid] in
theorem Idle.pending {a : MqAction tid} {o : Option Effect} (h : Idle s a s' o) (u : tid) :
    (s'.phase u).pending = (s.phase u).pending := by
  rcases h.phase u with hsame | hwake
  · rw [hsame]
  · rw [hwake, Phase.pending_wake]

omit [Fintype tid] [DecidableEq tid] in
theorem Ran.effects {a : MqAction tid} {t : tid} {entering : Bool} {role : Role}
    {r : Stretch} {k : Option BlockedCall} {used free : List Int}
    (hblocked : forall t k, (s.phase t).pending = some k -> k.Fits sz)
    (hlinked : WellLinked sz s.mem used free) (h : Ran s a t entering role r k) :
    Effects sz s.mem used free entering role r := by
  cases h with
  | enters d c wake info outside => exact enter_effects hlinked s.alive info c
  | resumes wake woken =>
      rename_i b k'
      refine resume_effects hlinked (hblocked t k' ?_)
      rw [woken]
      rfl

omit [Fintype tid] [DecidableEq tid] in
theorem Ran.call {a : MqAction tid} {t : tid} {entering : Bool} {role : Role}
    {r : Stretch} {k : Option BlockedCall} (h : Ran s a t entering role r k) :
    k = none ∧ role = Role.other ∨ exists k', k = some k' ∧ k'.role = role := by
  cases h with
  | enters d c wake info outside =>
      cases c with
      | send buf prio => exact Or.inr ⟨_, rfl, rfl⟩
      | receive maxlen priop => exact Or.inr ⟨_, rfl, rfl⟩
      | notify notification => exact Or.inl ⟨rfl, rfl⟩
      | getattr => exact Or.inl ⟨rfl, rfl⟩
      | setattr flags omqstat => exact Or.inl ⟨rfl, rfl⟩
      | close munmap => exact Or.inl ⟨rfl, rfl⟩
  | resumes wake woken => exact Or.inr ⟨_, rfl, rfl⟩

omit [Fintype tid] [DecidableEq tid] in
theorem Ran.call_role {a : MqAction tid} {t : tid} {entering : Bool} {role : Role}
    {r : Stretch} {k : BlockedCall} (h : Ran s a t entering role r (some k)) :
    k.role = role := by
  rcases h.call with ⟨hnone, _⟩ | ⟨k', hsome, hrole⟩
  · cases hnone
  · cases hsome
    exact hrole

theorem Effects.preserves {used free : List Int} {m : Mem} {entering : Bool} {role : Role}
    {r : Stretch} (h : Effects sz m used free entering role r)
    (hlinked : WellLinked sz m used free) (hsorted : SortedBy Message.key (queueOf m)) :
    (exists used' free', WellLinked sz r.mem used' free') ∧
      SortedBy Message.key (queueOf r.mem) ∧ r.outcome.keepsLock = false := by
  have hkeep : forall m', SameChains m m' ->
      (exists used' free', WellLinked sz m' used' free') ∧
        SortedBy Message.key (queueOf m') := by
    intro m' hsame
    refine ⟨⟨used, free, hlinked.congr hsame⟩, ?_⟩
    rw [queueOf_sameChains hlinked hsame]
    exact hsorted
  cases h with
  | fails role e =>
      rcases hkeep m (sameChains_refl m) with ⟨hexists, hstill⟩
      exact ⟨hexists, hstill, rfl⟩
  | header same outcome plain signals sigqueue =>
      rcases hkeep _ same with ⟨hexists, hstill⟩
      refine ⟨hexists, hstill, ?_⟩
      rw [outcome]
      rfl
  | sendWaits fits full =>
      rcases hkeep m (sameChains_refl m) with ⟨hexists, hstill⟩
      exact ⟨hexists, hstill, rfl⟩
  | receiveWaits fits empty =>
      have hsame : SameChains m
          (if entering = true then putLong m offMqhNwait (mqhNwait m + 1) else m) := by
        split
        · exact sameChains_putLong m (by decide)
        · exact sameChains_refl m
      rcases hkeep _ hsame with ⟨hexists, hstill⟩
      exact ⟨hexists, hstill, rfl⟩
  | links fits slot linked =>
      subst slot
      have hsame := sameChains_notified entering m used
      have hstart := hlinked.congr hsame
      rcases linked.wellLinked hstart fits with ⟨hwell, _⟩
      refine ⟨⟨_, _, hwell⟩, ?_, rfl⟩
      show SortedBy Message.key (queueOf _)
      rw [queueOf_linked hstart fits linked, queueOf_sameChains hlinked hsame]
      exact stableInsert_sorted hsorted
  | takes fits first unlinked =>
      subst first
      have hsame := sameChains_counted entering m
      have hstart := hlinked.congr hsame
      rcases unlinked.wellLinked hstart with ⟨hwell, _⟩
      refine ⟨⟨_, _, hwell⟩, ?_, rfl⟩
      have hqueue := queueOf_unlinked hstart unlinked
      rw [queueOf_sameChains hlinked hsame] at hqueue
      rw [hqueue] at hsorted
      exact (List.pairwise_cons.mp hsorted).right

theorem Effects.fits {used free : List Int} {m : Mem} {entering : Bool}
    {r : Stretch} {k : BlockedCall} (h : Effects sz m used free entering k.role r)
    (hwaits : r.outcome = Outcome.waits) : k.Fits sz := by
  generalize hrole : k.role = role at h
  cases h with
  | fails role e => cases hwaits
  | header same outcome plain signals sigqueue =>
      rw [outcome] at hwaits
      cases hwaits
  | sendWaits fits full =>
      cases k with
      | send d buf prio =>
          cases hrole
          exact fits
      | receive d maxlen priop => cases hrole
  | receiveWaits fits empty =>
      cases k with
      | send d buf prio => cases hrole
      | receive d maxlen priop =>
          cases hrole
          exact fits
  | links fits slot linked => cases hwaits
  | takes fits first unlinked => cases hwaits

theorem phaseAfter_pending {k : Option BlockedCall} {outcome : Outcome} {k' : BlockedCall}
    (h : (phaseAfter k outcome).pending = some k') :
    outcome = Outcome.waits ∧ k = some k' := by
  cases outcome with
  | waits =>
      cases k with
      | none => cases h
      | some k =>
          cases h
          exact ⟨rfl, rfl⟩
  | returns ret => cases h
  | returnsLocked ret => cases h
  | diverges => cases h

theorem Finished.pending_eq {t : tid} {k : Option BlockedCall} {r : Stretch}
    {wake : Option tid} {o : Option Effect} (h : Finished s t k r wake s' o) (u : tid) :
    (s'.phase u).pending =
      ((Function.update s.phase t (phaseAfter k r.outcome)) u).pending := by
  cases hsignals : r.signals with
  | false => rw [h.quiet hsignals]
  | true => exact signal_pending (h.signal hsignals) u

/-- A blocked thread after a stretch was blocked before, or is the running one and
waits. -/
theorem Finished.pending {t : tid} {k : Option BlockedCall} {r : Stretch}
    {wake : Option tid} {o : Option Effect} (h : Finished s t k r wake s' o) {u : tid}
    {k' : BlockedCall} (hu : (s'.phase u).pending = some k') :
    u ≠ t ∧ (s.phase u).pending = some k' ∨
      u = t ∧ r.outcome = Outcome.waits ∧ k = some k' := by
  have hphase := (h.pending_eq u).symm.trans hu
  by_cases hut : u = t
  · subst hut
    rw [Function.update_self] at hphase
    exact Or.inr ⟨rfl, phaseAfter_pending hphase⟩
  · rw [Function.update_of_ne hut] at hphase
    exact Or.inl ⟨hut, hphase⟩

omit [Fintype tid] [DecidableEq tid] in
theorem init_inv (h : MqInit sz s) : QueueInv sz s := by
  rcases mqOpenCreate_wellLinked h.created with ⟨hwell, _, _⟩
  constructor
  · exact ⟨_, _, hwell⟩
  · rw [(queueOf_eq_nil_iff hwell).mpr rfl]
    exact List.Pairwise.nil
  · exact h.unlocked
  · intro t k hk
    rw [h.phase t] at hk
    cases hk

def MqState.fresh (m : Mem) : MqState tid :=
  { mem := m, descs := fun _ => none, phase := fun _ => Phase.outside,
    alive := fun _ => true, locked := false }

omit [Fintype tid] [DecidableEq tid] in
theorem init_fresh {m : Mem} (h : mqOpenCreate sz.mq_maxmsg sz.mq_msgsize = some m) :
    MqInit sz (MqState.fresh m : MqState tid) :=
  ⟨h, fun _ => rfl, fun _ => rfl, rfl⟩

theorem step_inv {a : MqAction tid} {o : Option Effect} (hinv : QueueInv sz s)
    (h : mqStep procOf s a = some (s', o)) : QueueInv sz s' := by
  rcases step_cases h with hidle | ⟨t, entering, role, r, k, hran, hfin⟩
  · constructor
    · rw [hidle.mem]
      exact hinv.linked
    · rw [hidle.mem]
      exact hinv.sorted
    · rw [hidle.locked]
      exact hinv.unlocked
    · intro u k hk
      rw [hidle.pending u] at hk
      exact hinv.blocked u k hk
  · rcases hinv.linked with ⟨used, free, hlinked⟩
    have heffects := hran.effects hinv.blocked hlinked
    rcases heffects.preserves hlinked hinv.sorted with ⟨hexists, hsorted, hlock⟩
    constructor
    · rw [hfin.mem]
      exact hexists
    · rw [hfin.mem]
      exact hsorted
    · rw [hfin.locked]
      exact hlock
    · intro u k' hk
      rcases hfin.pending hk with ⟨_, hold⟩ | ⟨_, hwaits, hcall⟩
      · exact hinv.blocked u k' hold
      · subst hcall
        rw [← hran.call_role] at heffects
        exact heffects.fits hwaits

theorem reachable_inv (h : Reachable (MqInit sz) (mqStep procOf) s) : QueueInv sz s :=
  reachable_invariant (fun _ hinit => init_inv hinit)
    (fun _ _ _ _ hinv hstep => step_inv hinv hstep) h

/-- The chains from `mqh_head` and `mqh_free` end, share no slot, and together are
all slots of the file; `mq_curmsgs` counts the first. -/
structure PartitionsSlots (sz : QueueSizes) (m : Mem) (used free : List Int) : Prop where
  head : Chain (msgNext m) 0 (mqhHead m) used
  freeHead : Chain (msgNext m) 0 (mqhFree m) free
  headNodup : used.Nodup
  freeNodup : free.Nodup
  disjoint : used.Disjoint free
  slots : forall i, i ∈ used ∨ i ∈ free <-> exists k : Nat, (k : Int) < sz.mq_maxmsg ∧
    i = sizeofMqHdr + k * (sizeofMsgHdr + msgSize sz.mq_msgsize)
  headLength : (used.length : Int) = mqCurmsgs m
  freeLength : (free.length : Int) = sz.mq_maxmsg - mqCurmsgs m

theorem chains_partition_slots (h : Reachable (MqInit sz) (mqStep procOf) s) :
    exists used free, PartitionsSlots sz s.mem used free := by
  rcases (reachable_inv h).linked with ⟨used, free, hlinked⟩
  have hnodup := List.nodup_append'.mp hlinked.nodup
  have hadd := hlinked.length_add
  refine ⟨used, free, ?_⟩
  constructor
  · exact hlinked.head
  · exact hlinked.freeHead
  · exact hnodup.1
  · exact hnodup.2.1
  · exact hnodup.2.2
  · intro i
    rw [← List.mem_append, hlinked.slots.mem_iff, sz.mem_slots]
    constructor
    · rintro ⟨k, hk, rfl⟩
      exact ⟨k, hk, rfl⟩
    · rintro ⟨k, hk, rfl⟩
      exact ⟨k, hk, rfl⟩
  · exact hlinked.curmsgs.symm
  · rw [hlinked.curmsgs]
    lia

end Steps

/-!
## A small queue
-/

def threeSlots : QueueSizes where
  mq_maxmsg := 3
  mq_msgsize := 1
  maxmsg_pos := by decide
  msgsize_pos := by decide
  noWrap := by decide

def threeSlotsFile : Mem := (mqOpenCreate 3 1).getD fun _ => 0

theorem threeSlots_created : mqOpenCreate 3 1 = some threeSlotsFile := by
  have hsome : (mqOpenCreate 3 1).isSome = true :=
    mqOpenCreate_isSome (show threeSlots.mq_maxmsg ≤ 2 ^ 31 by decide)
  unfold threeSlotsFile
  cases hcreate : mqOpenCreate 3 1 with
  | none => simp [hcreate] at hsome
  | some m => rfl

def oneProcess {n : Nat} : Fin n -> Pid := fun _ => ⟨1, by decide⟩

theorem chains_partition_slots_threeSlots :
    exists s : MqState (Fin 1), mqCurmsgs s.mem = 1 ∧
      exists used free, PartitionsSlots threeSlots s.mem used free := by
  have hreplay : exists tr s, Run (MqInit threeSlots) (mqStep (oneProcess (n := 1))) tr s ∧
      decide (mqCurmsgs s.mem = 1) = true :=
    run_of_replay
      [MqAction.opens 0 0 0, MqAction.call 0 0 (MqCall.send [5] 1) none]
      (init_fresh threeSlots_created) (by decide +kernel)
  rcases hreplay with ⟨tr, s, hrun, htest⟩
  exact ⟨s, of_decide_eq_true htest, chains_partition_slots ⟨tr, hrun⟩⟩

end MessageQueue
end InterprocessComm
