import InterprocessComm.Prodcons6.Announcements

/-!
# Every item is announced

What the consumer has waited for is in the array, it never sleeps while something is ready, and
the threads stop only when all of them have returned.
-/

namespace InterprocessComm
namespace Prodcons6

open Verification

/-!
# The invariant
-/

section Invariant

variable {producer : Type} [Fintype producer]

def producersAt (w : ProducerPc -> Nat) (s : State producer) : Nat :=
  total (fun t => w t.pc) s.producers

structure Counted (s : State producer) : Prop where
  put : producersAt ProducerPc.insidePut s = s.shared.put.mutex.toNat
  ready : producersAt ProducerPc.insideReady s + s.consumer.insideReady =
    s.shared.nready.mutex.toNat
  announced : s.shared.nready.nready + s.consumer.taken +
    producersAt ProducerPc.unannounced s = s.shared.put.nput
  nval : s.shared.put.nval + producersAt ProducerPc.putting s = s.shared.put.nput
  count : total (fun t => t.arg + t.pc.uncounted) s.producers = s.shared.put.nput

structure Stored (nitems : Nat) (s : State producer) : Prop where
  producers : forall p, (s.producers p).pc.Ok nitems s.shared
  buff : forall j, j < s.shared.put.nput -> s.shared.buff j = j
  nput_le : s.shared.put.nput ≤ nitems

/-- The consumer sleeps only while nothing is ready and nobody is about to announce. -/
structure Awake (nitems : Nat) (s : State producer) : Prop where
  consumer : s.consumer.Ok nitems s.shared.nready.nready
  waiting : Waiting s.shared s.consumer
  quiet : s.shared.nready.Quiet
  announcing : forall p, (s.producers p).pc = ProducerPc.incrementReady ->
    s.shared.nready.cond ≠ Cond.asleep

structure Inv (nitems : Nat) (s : State producer) : Prop where
  counted : Counted s
  stored : Stored nitems s
  awake : Awake nitems s

variable {nitems : Nat} {s : State producer}

theorem init_inv (hinit : Init s) : Inv nitems s := by
  cases hinit
  have hproducers : forall w : ProducerPc -> Nat, w ProducerPc.lockPut = 0 ->
      producersAt w (start : State producer) = 0 :=
    fun w hw => total_eq_zero_iff.mpr fun _ => hw
  constructor
  · constructor
    · rw [hproducers _ rfl]
      rfl
    · rw [hproducers _ rfl]
      rfl
    · rw [hproducers _ rfl]
      rfl
    · rw [hproducers _ rfl]
      rfl
    · exact total_eq_zero_iff.mpr fun _ => rfl
  · constructor
    · intro p
      trivial
    · intro j hlt
      exact absurd hlt (Nat.not_lt_zero j)
    · exact Nat.zero_le _
  · constructor
    · trivial
    · simp [Waiting, start]
    · exact Cond.noConfusion
    · intro p hp
      cases hp

theorem inside_le (hc : Counted s) (p : producer) :
    (s.producers p).pc.insidePut ≤ s.shared.put.mutex.toNat ∧
      (s.producers p).pc.insideReady ≤ s.shared.nready.mutex.toNat := by
  have hput := hc.put
  have hready := hc.ready
  have hle : (s.producers p).pc.insidePut ≤ producersAt ProducerPc.insidePut s :=
    weight_le_total (fun t : Producer => t.pc.insidePut) s.producers p
  have hle' : (s.producers p).pc.insideReady ≤ producersAt ProducerPc.insideReady s :=
    weight_le_total (fun t : Producer => t.pc.insideReady) s.producers p
  constructor <;> lia

theorem alone_put (hc : Counted s) {p q : producer} (hp : (s.producers p).pc.insidePut = 1)
    (hne : q ≠ p) : (s.producers q).pc.insidePut = 0 := by
  have hput := hc.put
  have hmutex := Bool.toNat_le s.shared.put.mutex
  have hle := add_le_total (fun t : Producer => t.pc.insidePut) s.producers hne
  unfold producersAt at hput
  lia

theorem alone_ready (hc : Counted s) (hcons : s.consumer.insideReady = 1) (p : producer) :
    (s.producers p).pc.insideReady = 0 := by
  have hready := hc.ready
  have hmutex := Bool.toNat_le s.shared.nready.mutex
  have hle : (s.producers p).pc.insideReady ≤ producersAt ProducerPc.insideReady s :=
    weight_le_total (fun t : Producer => t.pc.insideReady) s.producers p
  lia

theorem nval_eq (hc : Counted s) {p : producer} (hp : (s.producers p).pc.insidePut = 1)
    (hput : (s.producers p).pc.putting = 0) : s.shared.put.nval = s.shared.put.nput := by
  have hzero : producersAt ProducerPc.putting s = 0 := by
    refine total_eq_zero_of_others hput ?_
    intro q hne
    have hout := alone_put hc hp hne
    have hle := ProducerPc.putting_le_insidePut (s.producers q).pc
    lia
  have hval := hc.nval
  lia

/-!
# Steps of a producer
-/

section Produce

variable [DecidableEq producer] {p : producer} {sh' : Shared} {t' : Producer}

abbrev afterProducer (s : State producer) (p : producer) (sh' : Shared) (t' : Producer) :
    State producer :=
  { s with shared := sh', producers := Function.update s.producers p t' }

theorem Counted.produce (hc : Counted s)
    (hb : ProducerBalance s.shared (s.producers p) sh' t') :
    Counted (afterProducer s p sh' t') := by
  rcases hc with ⟨hput, hready, hannounced, hnval, hcount⟩
  rcases hb with ⟨bput, bready, bannounced, bnval, bcount⟩
  have hmove : forall w : ProducerPc -> Nat,
      producersAt w (afterProducer s p sh' t') + w (s.producers p).pc =
        producersAt w s + w t'.pc :=
    fun w => total_update (fun t : Producer => w t.pc) s.producers p t'
  constructor
  · have hinside := hmove ProducerPc.insidePut
    simp only
    lia
  · have hinside := hmove ProducerPc.insideReady
    simp only
    lia
  · have hunannounced := hmove ProducerPc.unannounced
    simp only
    lia
  · have hputting := hmove ProducerPc.putting
    simp only
    lia
  · have hsum := total_update (fun t : Producer => t.arg + t.pc.uncounted) s.producers p t'
    simp only
    lia

omit [Fintype producer] in
theorem Stored.producers_after (hi : Stored nitems s) (hok : t'.pc.Ok nitems sh')
    (hothers : forall q, q ≠ p -> (s.producers q).pc.Ok nitems s.shared ->
      (s.producers q).pc.Ok nitems sh') :
    forall q, ((afterProducer s p sh' t').producers q).pc.Ok nitems sh' := by
  apply (Function.forall_update_iff s.producers fun _ t => t.pc.Ok nitems sh').mpr
  constructor
  · exact hok
  · intro q hne
    exact hothers q hne (hi.producers q)

theorem Stored.produce (hc : Counted s) (hi : Stored nitems s)
    (hstep : producerStep nitems s.shared (s.producers p) = some (sh', t')) :
    Stored nitems (afterProducer s p sh' t') := by
  have hmine := hi.producers p
  rcases producerStep_put hstep hmine with
    ⟨hp, ht', hbuff, hnput⟩ | ⟨hp, ht', hbuff, hnput⟩ | ⟨hbuff, hnput, hok⟩
  · -- the next item is put behind the others
    have hinside : (s.producers p).pc.insidePut = 1 := by rw [hp]; rfl
    have hval := nval_eq hc hinside (by rw [hp]; rfl)
    rw [hp] at hmine
    constructor
    · refine hi.producers_after ?_ ?_
      · rw [ht', ProducerPc.Ok, hnput, hbuff, hval, Function.update_self]
        exact ⟨hmine, rfl⟩
      · intro q hne hok
        exact hok.outside (alone_put hc hinside hne) (Nat.le_of_eq hnput.symm)
    · intro j hlt
      simp only [hnput] at hlt
      simp only [hbuff]
      rw [Function.update_of_ne (Nat.ne_of_lt hlt)]
      exact hi.buff j hlt
    · simp only [hnput]
      exact hi.nput_le
  · -- the item is counted
    have hinside : (s.producers p).pc.insidePut = 1 := by rw [hp]; rfl
    rw [hp] at hmine
    rcases hmine with ⟨hmore, hstored⟩
    constructor
    · refine hi.producers_after ?_ ?_
      · rw [ht']
        trivial
      · intro q hne hok
        exact hok.outside (alone_put hc hinside hne) (by lia)
    · intro j hlt
      simp only [hnput] at hlt
      simp only [hbuff]
      rcases Nat.lt_succ_iff_lt_or_eq.mp hlt with hless | rfl
      · exact hi.buff j hless
      · exact hstored
    · simp only [hnput]
      exact hmore
  · constructor
    · exact hi.producers_after hok fun q _ hq => hq.congr hnput hbuff
    · simp only [hnput, hbuff]
      exact hi.buff
    · simp only [hnput]
      exact hi.nput_le

omit [Fintype producer] in
theorem Awake.produce (hi : Awake nitems s)
    (hstep : producerStep nitems s.shared (s.producers p) = some (sh', t')) :
    Awake nitems (afterProducer s p sh' t') := by
  rcases producerStep_ready hstep hi.quiet with
    ⟨hp, hcond, hnready⟩ | ⟨hp, ht', hcond, hnready⟩ | ⟨hcond, hnready, hmakes⟩
  · -- after a signal nobody sleeps
    have hawake : sh'.nready.cond ≠ Cond.asleep := by
      rw [hcond]
      exact Cond.signal_ne_asleep _
    have hidle : sh'.nready.cond = Cond.idle <-> s.shared.nready.cond = Cond.idle := by
      rw [hcond]
      cases s.shared.nready.cond <;> decide
    constructor
    · simp only [hnready]
      exact hi.consumer
    · simp only [Waiting, ne_eq, hidle]
      exact hi.waiting
    · exact fun hasleep => absurd hasleep hawake
    · exact fun _ _ => hawake
  · have hawake : sh'.nready.cond ≠ Cond.asleep := by
      rw [hcond]
      exact hi.announcing p hp
    constructor
    · simp only [hnready]
      exact hi.consumer.mono (Nat.le_succ _)
    · simp only [Waiting, hcond]
      exact hi.waiting
    · exact fun hasleep => absurd hasleep hawake
    · exact fun _ _ => hawake
  · constructor
    · simp only [hnready]
      exact hi.consumer
    · simp only [Waiting, hcond]
      exact hi.waiting
    · simp only [NReady.Quiet, hcond, hnready]
      exact hi.quiet
    · intro q hq
      simp only [hcond]
      rcases eq_or_ne q p with rfl | hne
      · simp only [Function.update_self] at hq
        exact hmakes hq
      · simp only [Function.update_of_ne hne] at hq
        exact hi.announcing q hq

theorem Inv.produce (hinv : Inv nitems s)
    (hstep : producerStep nitems s.shared (s.producers p) = some (sh', t')) :
    Inv nitems (afterProducer s p sh' t') := by
  rcases hinv with ⟨hc, hs, ha⟩
  rcases inside_le hc p with ⟨hput, hready⟩
  exact ⟨hc.produce (producerStep_balance hput hready hstep), hs.produce hc hstep,
    ha.produce hstep⟩

end Produce

/-!
# Steps of the consumer
-/

theorem Inv.passed (hinv : Inv nitems s) {j : Nat} (hj : j < s.consumer.passed) :
    j < s.shared.put.nput ∧ s.shared.buff j = j := by
  have hle := Consumer.passed_le hinv.awake.consumer
  have hannounced := hinv.counted.announced
  have hlt : j < s.shared.put.nput := by lia
  exact ⟨hlt, hinv.stored.buff j hlt⟩

theorem Inv.consume (hinv : Inv nitems s) {sh' : Shared} {t' : Consumer} {e : CheckEvent}
    (hstep : consumerStep nitems s.shared s.consumer = some (sh', t', e)) :
    Inv nitems { s with shared := sh', consumer := t' } ∧ e = CheckEvent.silent := by
  have hpassed := fun j => hinv.passed (j := j)
  rcases hinv with ⟨hc, hs, ha⟩
  have hinside : s.consumer.insideReady ≤ s.shared.nready.mutex.toNat := by
    have hready := hc.ready
    lia
  rcases consumerStep_balance ha.consumer hinside hstep with ⟨bready, bannounced, hput, hbuff⟩
  rcases consumerStep_cases ha.consumer ha.waiting hstep with
    ⟨hok, hwaiting, hasleep, hsilent⟩
  refine ⟨⟨?_, ?_, ?_⟩, hsilent fun hlt => (hpassed _ hlt).2⟩
  · rcases hc with ⟨cput, cready, cannounced, cnval, ccount⟩
    have hsame : forall w, producersAt w { s with shared := sh', consumer := t' } =
        producersAt w s := fun _ => rfl
    constructor
    · rw [hsame]
      simp only [hput]
      exact cput
    · rw [hsame]
      simp only
      lia
    · rw [hsame]
      simp only [hput]
      lia
    · rw [hsame]
      simp only [hput]
      exact cnval
    · simp only [hput]
      exact ccount
  · constructor
    · intro p
      exact (hs.producers p).congr (by rw [hput]) hbuff
    · simp only [hput, hbuff]
      exact hs.buff
    · simp only [hput]
      exact hs.nput_le
  · constructor
    · exact hok
    · exact hwaiting
    · exact fun h => (hasleep h).2
    · intro p hp h
      have hout := alone_ready hc (hasleep h).1 p
      simp only at hp
      rw [hp] at hout
      cases hout

omit [Fintype producer] in
theorem Awake.spurious (hi : Awake nitems s) (hasleep : s.shared.nready.cond = Cond.asleep) :
    Awake nitems { s with shared := { s.shared with
      nready := { s.shared.nready with cond := Cond.woken } } } := by
  constructor
  · exact hi.consumer
  · have hwaits : s.consumer.pc = ConsumerPc.wait := hi.waiting.mpr (by rw [hasleep]; decide)
    simp only [Waiting, hwaits, true_iff]
    decide
  · exact Cond.noConfusion
  · intro p _
    exact Cond.noConfusion

/-!
# Nobody is left
-/

section Stuck

omit [Fintype producer] in
theorem producerStep_none {sh : Shared} {t : Producer} (hmax : nitems ≤ MAXNITEMS)
    (hok : t.pc.Ok nitems sh) (h : producerStep nitems sh t = none) :
    t.pc = ProducerPc.returned ∨ (t.pc = ProducerPc.lockPut ∧ sh.put.mutex = true) ∨
      (t.pc = ProducerPc.lockReady ∧ sh.nready.mutex = true) := by
  rcases t with ⟨pc, arg⟩
  cases pc with
  | returned => exact Or.inl rfl
  | lockPut => exact Or.inr (Or.inl ⟨rfl, lock_eq_none (Option.map_eq_none_iff.mp h)⟩)
  | lockReady => exact Or.inr (Or.inr ⟨rfl, lock_eq_none (Option.map_eq_none_iff.mp h)⟩)
  | testPut =>
      simp only [producerStep] at h
      split at h <;> cases h
  | store =>
      have hlt : sh.put.nput < nitems := hok
      simp only [producerStep] at h
      split at h
      · cases h
      · rename_i hbehind
        lia
  | testReady =>
      simp only [producerStep] at h
      split at h <;> cases h
  | _ => cases h

theorem consumerStep_none {sh : Shared} {t : Consumer} (hwaiting : Waiting sh t)
    (h : consumerStep nitems sh t = none) :
    t.pc = ConsumerPc.returned ∨
      ((t.pc = ConsumerPc.lock ∨ t.pc = ConsumerPc.wait) ∧ sh.nready.mutex = true) ∨
      (t.pc = ConsumerPc.wait ∧ sh.nready.cond = Cond.asleep) := by
  rcases t with ⟨pc, i⟩
  cases pc with
  | returned => exact Or.inl rfl
  | lock =>
      exact Or.inr (Or.inl ⟨Or.inl rfl, lock_eq_none (Option.map_eq_none_iff.mp h)⟩)
  | wait =>
      simp only [consumerStep] at h
      split at h
      · exact Or.inr (Or.inl ⟨Or.inr rfl, lock_eq_none (Option.map_eq_none_iff.mp h)⟩)
      · rename_i hwoken
        have hcond := hwaiting.mp rfl
        refine Or.inr (Or.inr ⟨rfl, ?_⟩)
        cases hc : sh.nready.cond with
        | idle => exact absurd hc hcond
        | asleep => rfl
        | woken => exact absurd hc hwoken
  | test =>
      simp only [consumerStep] at h
      split at h <;> cases h
  | testReady =>
      simp only [consumerStep] at h
      split at h <;> cases h
  | _ => cases h

variable [DecidableEq producer]

theorem stuck_places (hmax : nitems ≤ MAXNITEMS) (hinv : Inv nitems s)
    (hstuck : Stuck nitems s) :
    (forall p, (s.producers p).pc = ProducerPc.returned) ∧
      (s.consumer.pc = ConsumerPc.returned ∨
        (s.consumer.pc = ConsumerPc.wait ∧ s.shared.nready.cond = Cond.asleep)) := by
  rcases hinv with ⟨hc, hs, ha⟩
  have hp := fun p => producerStep_none hmax (hs.producers p)
    (Option.map_eq_none_iff.mp (hstuck.1 p))
  have hcons := consumerStep_none ha.waiting (Option.map_eq_none_iff.mp hstuck.2)
  have hput : s.shared.put.mutex = false := by
    have hzero : producersAt ProducerPc.insidePut s = 0 := by
      apply total_eq_zero_iff.mpr
      intro p
      rcases hp p with h | ⟨h, _⟩ | ⟨h, _⟩ <;> rw [h] <;> rfl
    have hcount := hc.put
    rw [hzero] at hcount
    exact Bool.toNat_eq_zero.mp hcount.symm
  have hready : s.shared.nready.mutex = false := by
    have hzero : producersAt ProducerPc.insideReady s = 0 := by
      apply total_eq_zero_iff.mpr
      intro p
      rcases hp p with h | ⟨h, _⟩ | ⟨h, _⟩ <;> rw [h] <;> rfl
    have hconsumer : s.consumer.insideReady = 0 := by
      unfold Consumer.insideReady
      rcases hcons with h | ⟨h | h, _⟩ | ⟨h, _⟩ <;> rw [h]
    have hcount := hc.ready
    rw [hzero, hconsumer] at hcount
    exact Bool.toNat_eq_zero.mp hcount.symm
  constructor
  · intro p
    rcases hp p with hreturned | ⟨_, hlocked⟩ | ⟨_, hlocked⟩
    · exact hreturned
    · rw [hput] at hlocked
      cases hlocked
    · rw [hready] at hlocked
      cases hlocked
  · rcases hcons with hreturned | ⟨_, hlocked⟩ | hasleep
    · exact Or.inl hreturned
    · rw [hready] at hlocked
      cases hlocked
    · exact Or.inr hasleep

theorem stuck_allDone [Nonempty producer] (hmax : nitems ≤ MAXNITEMS) (hinv : Inv nitems s)
    (hstuck : Stuck nitems s) : AllDone nitems s := by
  rcases stuck_places hmax hinv hstuck with ⟨hproducers, hconsumer⟩
  rcases hinv with ⟨hc, hs, ha⟩
  have hall : nitems ≤ s.shared.put.nput := by
    have hok := hs.producers (Classical.arbitrary producer)
    rw [hproducers] at hok
    exact hok
  have hle := hs.nput_le
  have hcount : total (fun t : Producer => t.arg + t.pc.uncounted) s.producers =
      ∑ p, (s.producers p).arg := by
    apply Finset.sum_congr rfl
    intro p _
    show (s.producers p).arg + (s.producers p).pc.uncounted = (s.producers p).arg
    rw [hproducers p]
    rfl
  refine ⟨hproducers, ?_, ?_⟩
  · rcases hconsumer with hreturned | ⟨hwaits, hasleep⟩
    · exact hreturned
    · -- everything has been announced, so there is something ready
      have hzero : producersAt ProducerPc.unannounced s = 0 := by
        apply total_eq_zero_iff.mpr
        intro p
        rw [hproducers p]
        rfl
      have hannounced := hc.announced
      have hok := ha.consumer
      rw [hzero, ha.quiet hasleep] at hannounced
      unfold Consumer.taken at hannounced
      unfold Consumer.Ok at hok
      rw [hwaits] at hannounced hok
      simp only at hannounced hok
      lia
  · rw [← hcount, hc.count]
    lia

end Stuck

/-!
# Runs
-/

section Runs

variable [DecidableEq producer]

theorem step_inv {a : Action producer} {t : State producer} {e : CheckEvent}
    (hinv : Inv nitems s) (hstep : step nitems s a = some (t, e)) :
    Inv nitems t ∧ e = CheckEvent.silent := by
  cases a with
  | produce p =>
      rcases Option.map_eq_some_iff.mp hstep with ⟨⟨sh', t'⟩, hp, heq⟩
      cases heq
      exact ⟨hinv.produce hp, rfl⟩
  | consume =>
      rcases Option.map_eq_some_iff.mp hstep with ⟨⟨sh', t', e'⟩, hp, heq⟩
      cases heq
      exact hinv.consume hp
  | spurious =>
      simp only [step] at hstep
      split at hstep
      · rename_i hasleep
        cases hstep
        rcases hinv with ⟨⟨hput, hready, hannounced, hnval, hcount⟩, ⟨hok, hbuff, hle⟩, ha⟩
        exact ⟨⟨⟨hput, hready, hannounced, hnval, hcount⟩,
          ⟨fun p => (hok p).congr rfl rfl, hbuff, hle⟩, ha.spurious hasleep⟩, rfl⟩
      · cases hstep

/-- In every run an item is in the array when the consumer has passed the wait for it, the
consumer does not sleep while something is ready and reports nothing, and the threads get stuck
only when all have returned and their counts sum to `nitems`. -/
theorem waits_find_items [Nonempty producer] (hmax : nitems ≤ MAXNITEMS)
    {tr : List (Transition (State producer) (Action producer) CheckEvent)}
    (hrun : Run Init (step nitems) tr s) :
    (forall i, i < s.consumer.passed -> i < s.shared.put.nput ∧ s.shared.buff i = i) ∧
      (s.shared.nready.cond = Cond.asleep -> s.shared.nready.nready = 0) ∧
      (forall e, e ∈ tr -> e.event = CheckEvent.silent) ∧
      (Stuck nitems s -> AllDone nitems s) := by
  have hall := run_induction
    (I := fun tr s => Inv nitems s ∧ forall e, e ∈ tr -> e.event = CheckEvent.silent)
    (fun s hs => ⟨init_inv hs, fun e he => absurd he List.not_mem_nil⟩) ?_ hrun
  · rcases hall with ⟨hinv, hsilent⟩
    exact ⟨fun i hi => hinv.passed hi, hinv.awake.quiet, hsilent,
      fun hstuck => stuck_allDone hmax hinv hstuck⟩
  · rintro tr s a e t _ ⟨hinv, hsilent⟩ hstep
    rcases step_inv hinv hstep with ⟨hnext, hevent⟩
    refine ⟨hnext, ?_⟩
    intro d hd
    rcases List.mem_append.mp hd with hd | hd
    · exact hsilent d hd
    · rw [List.mem_singleton.mp hd]
      exact hevent

end Runs

end Invariant

/-- The consumer goes to sleep first; then a producer brings two items through. -/
theorem waits_find_items_twoItems :
    exists (tr : List (Transition (State (Fin 1)) (Action (Fin 1)) CheckEvent))
      (s : State (Fin 1)), Run Init (step 2) tr s ∧ AllDone 2 s := by
  have hreplay : exists (tr : List (Transition (State (Fin 1)) (Action (Fin 1)) CheckEvent))
      (s : State (Fin 1)), Run Init (step 2) tr s ∧
        ((step 2 s (Action.produce 0)).isNone && (step 2 s Action.consume).isNone) = true :=
    run_of_replay (List.replicate 3 Action.consume ++ List.replicate 26 (Action.produce 0) ++
      List.replicate 14 Action.consume)
      (show Init start from rfl) (by decide +kernel)
  rcases hreplay with ⟨tr, s, hrun, htest⟩
  rcases Bool.and_eq_true_iff.mp htest with ⟨hproduce, hconsume⟩
  have hstuck : Stuck 2 s := by
    constructor
    · intro p
      rw [Subsingleton.elim p 0]
      exact Option.isNone_iff_eq_none.mp hproduce
    · exact Option.isNone_iff_eq_none.mp hconsume
  exact ⟨tr, s, hrun, (waits_find_items (by decide) hrun).2.2.2 hstuck⟩

end Prodcons6
end InterprocessComm
