import InterprocessComm.Prodcons3.Operations

/-!
# Every item once

The tokens of the semaphores are counted where the threads hold them.  The consumer reads the
items in order, and the threads stop only when all of them have returned.
-/

namespace InterprocessComm
namespace Prodcons3

open Verification

/-!
# Where the tokens are
-/

namespace ProducerPc

def inside : ProducerPc -> Nat
  | test => 1
  | store => 1
  | incrementPut => 1
  | incrementPutval => 1
  | unlock => 1
  | finishEmpty => 1
  | finishUnlock => 1
  | _ => 0

/-- The token of `nempty` for which nothing is stored yet. -/
def held : ProducerPc -> Nat
  | lock => 1
  | test => 1
  | store => 1
  | incrementPut => 1
  | finishEmpty => 1
  | _ => 0

/-- The item that is stored and not posted yet. -/
def posting : ProducerPc -> Nat
  | incrementPutval => 1
  | unlock => 1
  | postStored => 1
  | _ => 0

def putting : ProducerPc -> Nat
  | incrementPutval => 1
  | _ => 0

def uncounted : ProducerPc -> Nat
  | incrementPutval => 1
  | unlock => 1
  | postStored => 1
  | count => 1
  | _ => 0

def Ok (nitems : Nat) (sh : Shared) : ProducerPc -> Prop
  | store => sh.nput < nitems
  | incrementPut => sh.nput < nitems ∧ sh.buff (sh.nput % NBUFF) = sh.nput
  | finishEmpty => nitems ≤ sh.nput
  | finishUnlock => nitems ≤ sh.nput
  | returned => nitems ≤ sh.nput
  | _ => True

theorem putting_le_inside (pc : ProducerPc) : pc.putting ≤ pc.inside := by
  cases pc <;> decide

variable {nitems : Nat} {sh sh' : Shared} {pc : ProducerPc}

theorem Ok.congr (hok : pc.Ok nitems sh) (hnput : sh'.nput = sh.nput)
    (hbuff : sh'.buff = sh.buff) : pc.Ok nitems sh' := by
  unfold Ok at hok ⊢
  simp only [hnput, hbuff]
  exact hok

theorem Ok.outside (hok : pc.Ok nitems sh) (hout : pc.inside = 0) (hle : sh.nput ≤ sh'.nput) :
    pc.Ok nitems sh' := by
  cases pc with
  | store => cases hout
  | incrementPut => cases hout
  | finishEmpty => cases hout
  | finishUnlock => cases hout
  | returned => exact Nat.le_trans hok hle
  | _ => trivial

end ProducerPc

namespace Consumer

def inside (t : Consumer) : Nat :=
  match t.pc with
  | ConsumerPc.read => 1
  | ConsumerPc.unlock => 1
  | _ => 0

def holding (t : Consumer) : Nat :=
  match t.pc with
  | ConsumerPc.lock => 1
  | ConsumerPc.read => 1
  | _ => 0

/-- The slot that is read and not posted yet. -/
def freed (t : Consumer) : Nat :=
  match t.pc with
  | ConsumerPc.unlock => 1
  | ConsumerPc.postEmpty => 1
  | _ => 0

def consumed (t : Consumer) : Nat :=
  match t.pc with
  | ConsumerPc.unlock => t.i + 1
  | ConsumerPc.postEmpty => t.i + 1
  | ConsumerPc.increment => t.i + 1
  | _ => t.i

def Ok (nitems : Nat) (t : Consumer) : Prop :=
  match t.pc with
  | ConsumerPc.test => True
  | ConsumerPc.returned => nitems ≤ t.i
  | _ => t.i < nitems

end Consumer

structure ProducerBalance (sh : Shared) (t : Producer) (sh' : Shared) (t' : Producer) :
    Prop where
  mutex : sh'.mutex + t'.pc.inside = sh.mutex + t.pc.inside
  nempty : sh'.nempty + t'.pc.held + sh'.nput = sh.nempty + t.pc.held + sh.nput
  nstored : sh'.nstored + t'.pc.posting + sh.nput = sh.nstored + t.pc.posting + sh'.nput
  nputval : sh'.nputval + t'.pc.putting + sh.nput = sh.nputval + t.pc.putting + sh'.nput
  count : t'.arg + t'.pc.uncounted + sh.nput = t.arg + t.pc.uncounted + sh'.nput

theorem producerStep_balance {nitems : Nat} {sh sh' : Shared} {t t' : Producer}
    (h : producerStep nitems sh t = some (sh', t')) : ProducerBalance sh t sh' t' := by
  rcases t with ⟨pc, arg⟩
  cases pc with
  | waitEmpty =>
      rcases Option.map_eq_some_iff.mp h with ⟨n, hwait, heq⟩
      cases heq
      have hvalue := semWait_eq hwait
      exact ⟨rfl, by simp only [ProducerPc.held]; lia, rfl, rfl, rfl⟩
  | lock =>
      rcases Option.map_eq_some_iff.mp h with ⟨n, hwait, heq⟩
      cases heq
      exact ⟨(semWait_eq hwait).symm, rfl, rfl, rfl, rfl⟩
  | test =>
      simp only [producerStep] at h
      split at h <;> cases h <;> constructor <;> rfl
  | incrementPut =>
      cases h
      refine ⟨rfl, ?_, ?_, ?_, ?_⟩
      · simp only [ProducerPc.held]
        lia
      · simp only [ProducerPc.posting]
        lia
      · simp only [ProducerPc.putting]
        lia
      · simp only [ProducerPc.uncounted]
        lia
  | returned => cases h
  | _ =>
      cases h
      constructor <;> rfl

theorem producerStep_cases {nitems : Nat} {sh sh' : Shared} {t t' : Producer}
    (h : producerStep nitems sh t = some (sh', t')) (hok : t.pc.Ok nitems sh) :
    (t.pc = ProducerPc.store ∧ t'.pc = ProducerPc.incrementPut ∧
      sh'.buff = Function.update sh.buff (sh.nput % NBUFF) sh.nputval ∧ sh'.nput = sh.nput) ∨
    (t.pc = ProducerPc.incrementPut ∧ t'.pc = ProducerPc.incrementPutval ∧
      sh'.buff = sh.buff ∧ sh'.nput = sh.nput + 1) ∨
    (sh'.buff = sh.buff ∧ sh'.nput = sh.nput ∧ t'.pc.Ok nitems sh') := by
  rcases t with ⟨pc, arg⟩
  cases pc with
  | waitEmpty =>
      rcases Option.map_eq_some_iff.mp h with ⟨n, _, heq⟩
      cases heq
      exact Or.inr (Or.inr ⟨rfl, rfl, trivial⟩)
  | lock =>
      rcases Option.map_eq_some_iff.mp h with ⟨n, _, heq⟩
      cases heq
      exact Or.inr (Or.inr ⟨rfl, rfl, trivial⟩)
  | test =>
      simp only [producerStep] at h
      split at h
      · rename_i hge
        cases h
        exact Or.inr (Or.inr ⟨rfl, rfl, hge⟩)
      · rename_i hlt
        cases h
        exact Or.inr (Or.inr ⟨rfl, rfl, Nat.lt_of_not_ge hlt⟩)
  | store =>
      cases h
      exact Or.inl ⟨rfl, rfl, rfl, rfl⟩
  | incrementPut =>
      cases h
      exact Or.inr (Or.inl ⟨rfl, rfl, rfl, rfl⟩)
  | finishEmpty =>
      cases h
      exact Or.inr (Or.inr ⟨rfl, rfl, hok⟩)
  | finishUnlock =>
      cases h
      exact Or.inr (Or.inr ⟨rfl, rfl, hok⟩)
  | returned => cases h
  | _ =>
      cases h
      exact Or.inr (Or.inr ⟨rfl, rfl, trivial⟩)

structure ConsumerBalance (sh : Shared) (t : Consumer) (sh' : Shared) (t' : Consumer) :
    Prop where
  mutex : sh'.mutex + t'.inside = sh.mutex + t.inside
  nempty : sh'.nempty + t'.freed + t.consumed = sh.nempty + t.freed + t'.consumed
  nstored : sh'.nstored + t'.holding + t'.consumed = sh.nstored + t.holding + t.consumed
  nput : sh'.nput = sh.nput
  nputval : sh'.nputval = sh.nputval
  buff : sh'.buff = sh.buff

theorem consumerStep_balance {nitems : Nat} {sh sh' : Shared} {t t' : Consumer}
    {e : ItemEvent} (h : consumerStep nitems sh t = some (sh', t', e)) :
    ConsumerBalance sh t sh' t' := by
  rcases t with ⟨pc, i⟩
  cases pc with
  | test =>
      simp only [consumerStep] at h
      split at h <;> cases h <;> constructor <;> rfl
  | waitStored =>
      rcases Option.map_eq_some_iff.mp h with ⟨n, hwait, heq⟩
      cases heq
      have hvalue := semWait_eq hwait
      exact ⟨rfl, rfl, by simp only [Consumer.holding, Consumer.consumed]; lia, rfl, rfl, rfl⟩
  | lock =>
      rcases Option.map_eq_some_iff.mp h with ⟨n, hwait, heq⟩
      cases heq
      exact ⟨(semWait_eq hwait).symm, rfl, rfl, rfl, rfl, rfl⟩
  | read =>
      cases h
      refine ⟨rfl, ?_, ?_, rfl, rfl, rfl⟩
      · simp only [Consumer.freed, Consumer.consumed]
        lia
      · simp only [Consumer.holding, Consumer.consumed]
        lia
  | returned => cases h
  | _ =>
      cases h
      constructor <;> rfl

theorem consumerStep_cases {nitems : Nat} {sh sh' : Shared} {t t' : Consumer} {e : ItemEvent}
    (h : consumerStep nitems sh t = some (sh', t', e)) (hok : t.Ok nitems) :
    t'.Ok nitems ∧
      ((t.holding = 1 ∧ t'.consumed = t.consumed + 1 ∧
          e = ItemEvent.get t.consumed (sh.buff (t.consumed % NBUFF))) ∨
        (t'.consumed = t.consumed ∧ e = ItemEvent.silent)) := by
  rcases t with ⟨pc, i⟩
  cases pc with
  | test =>
      simp only [consumerStep] at h
      split at h
      · rename_i hlt
        cases h
        exact ⟨hlt, Or.inr ⟨rfl, rfl⟩⟩
      · rename_i hge
        cases h
        exact ⟨Nat.le_of_not_lt hge, Or.inr ⟨rfl, rfl⟩⟩
  | waitStored =>
      rcases Option.map_eq_some_iff.mp h with ⟨n, _, heq⟩
      cases heq
      exact ⟨hok, Or.inr ⟨rfl, rfl⟩⟩
  | lock =>
      rcases Option.map_eq_some_iff.mp h with ⟨n, _, heq⟩
      cases heq
      exact ⟨hok, Or.inr ⟨rfl, rfl⟩⟩
  | read =>
      cases h
      exact ⟨hok, Or.inl ⟨rfl, rfl, rfl⟩⟩
  | unlock =>
      cases h
      exact ⟨hok, Or.inr ⟨rfl, rfl⟩⟩
  | postEmpty =>
      cases h
      exact ⟨hok, Or.inr ⟨rfl, rfl⟩⟩
  | increment =>
      cases h
      exact ⟨trivial, Or.inr ⟨rfl, rfl⟩⟩
  | returned => cases h

/-!
# The invariant
-/

section Invariant

variable {producer : Type} [Fintype producer]

def producersAt (w : ProducerPc -> Nat) (s : BufferState producer) : Nat :=
  total (fun t => w t.pc) s.producers

structure Counted (s : BufferState producer) : Prop where
  mutex : s.shared.mutex + producersAt ProducerPc.inside s + s.consumer.inside = 1
  nempty : s.shared.nempty + producersAt ProducerPc.held s + s.shared.nput +
    s.consumer.freed = NBUFF + s.consumer.consumed
  nstored : s.shared.nstored + s.consumer.holding + producersAt ProducerPc.posting s +
    s.consumer.consumed = s.shared.nput
  nputval : s.shared.nputval + producersAt ProducerPc.putting s = s.shared.nput
  count : total (fun t => t.arg + t.pc.uncounted) s.producers = s.shared.nput

structure Items (nitems : Nat) (consumed : List Nat) (s : BufferState producer) : Prop where
  producers : forall p, (s.producers p).pc.Ok nitems s.shared
  consumer : s.consumer.Ok nitems
  stored : InRing NBUFF s.shared.buff id s.consumer.consumed s.shared.nput
  nput_le : s.shared.nput ≤ nitems
  consumed : consumed = List.range s.consumer.consumed

structure BufferInv (nitems : Nat) (consumed : List Nat) (s : BufferState producer) :
    Prop where
  counted : Counted s
  items : Items nitems consumed s

variable {nitems : Nat} {consumed : List Nat} {s : BufferState producer}

theorem init_inv (hinit : BufferInit s) : BufferInv nitems [] s := by
  cases hinit
  have hproducers : forall w : ProducerPc -> Nat, w ProducerPc.waitEmpty = 0 ->
      producersAt w (bufferStart : BufferState producer) = 0 :=
    fun w hw => total_eq_zero_iff.mpr fun _ => hw
  constructor
  · constructor
    · rw [hproducers _ rfl]
      rfl
    · rw [hproducers _ rfl]
      rfl
    · rw [hproducers _ rfl]
      rfl
    · rw [hproducers _ rfl]
      rfl
    · exact total_eq_zero_iff.mpr fun _ => rfl
  · constructor
    · intro p
      trivial
    · trivial
    · intro j _ hlt
      exact absurd hlt (Nat.not_lt_zero j)
    · exact Nat.zero_le _
    · rfl

theorem alone_producer (hc : Counted s) {p q : producer} (hp : (s.producers p).pc.inside = 1)
    (hne : q ≠ p) : (s.producers q).pc.inside = 0 := by
  have hone := hc.mutex
  have hle := add_le_total (fun t : Producer => t.pc.inside) s.producers hne
  unfold producersAt at hone
  lia

theorem nput_lt (hc : Counted s) {p : producer} (hheld : (s.producers p).pc.held = 1) :
    s.shared.nput < s.consumer.consumed + NBUFF := by
  have htokens := hc.nempty
  have hle : (s.producers p).pc.held ≤ producersAt ProducerPc.held s :=
    weight_le_total (fun t : Producer => t.pc.held) s.producers p
  lia

theorem putval_eq (hc : Counted s) {p : producer} (hp : (s.producers p).pc.inside = 1)
    (hput : (s.producers p).pc.putting = 0) : s.shared.nputval = s.shared.nput := by
  have hzero : producersAt ProducerPc.putting s = 0 := by
    refine total_eq_zero_of_others hput ?_
    intro q hne
    have hout := alone_producer hc hp hne
    have hle := ProducerPc.putting_le_inside (s.producers q).pc
    lia
  have hval := hc.nputval
  lia

/-!
# Steps
-/

variable {sh' : Shared}

section Produce

variable [DecidableEq producer] {p : producer} {t' : Producer}

abbrev afterProducer (s : BufferState producer) (p : producer) (sh' : Shared)
    (t' : Producer) : BufferState producer :=
  { s with shared := sh', producers := Function.update s.producers p t' }

theorem Counted.produce (hc : Counted s)
    (hb : ProducerBalance s.shared (s.producers p) sh' t') :
    Counted (afterProducer s p sh' t') := by
  rcases hc with ⟨hmutex, hnempty, hnstored, hnputval, hcount⟩
  rcases hb with ⟨bmutex, bnempty, bnstored, bnputval, bcount⟩
  have hmove : forall w : ProducerPc -> Nat,
      producersAt w (afterProducer s p sh' t') + w (s.producers p).pc =
        producersAt w s + w t'.pc :=
    fun w => total_update (fun t : Producer => w t.pc) s.producers p t'
  constructor
  · have hinside := hmove ProducerPc.inside
    simp only
    lia
  · have hheld := hmove ProducerPc.held
    simp only
    lia
  · have hposting := hmove ProducerPc.posting
    simp only
    lia
  · have hputting := hmove ProducerPc.putting
    simp only
    lia
  · have hsum := total_update (fun t : Producer => t.arg + t.pc.uncounted) s.producers p t'
    simp only
    lia

omit [Fintype producer] in
theorem Items.producers_after (hi : Items nitems consumed s) (hok : t'.pc.Ok nitems sh')
    (hothers : forall q, q ≠ p -> (s.producers q).pc.Ok nitems s.shared ->
      (s.producers q).pc.Ok nitems sh') :
    forall q, ((afterProducer s p sh' t').producers q).pc.Ok nitems sh' := by
  apply (Function.forall_update_iff s.producers fun _ t => t.pc.Ok nitems sh').mpr
  constructor
  · exact hok
  · intro q hne
    exact hothers q hne (hi.producers q)

theorem Items.produce (hc : Counted s) (hi : Items nitems consumed s)
    (hstep : producerStep nitems s.shared (s.producers p) = some (sh', t')) :
    Items nitems consumed (afterProducer s p sh' t') := by
  have hmine := hi.producers p
  rcases producerStep_cases hstep hmine with
    ⟨hp, ht', hbuff, hnput⟩ | ⟨hp, ht', hbuff, hnput⟩ | ⟨hbuff, hnput, hok⟩
  · -- the next item goes into a free slot
    have hinside : (s.producers p).pc.inside = 1 := by rw [hp]; rfl
    have hval := putval_eq hc hinside (by rw [hp]; rfl)
    have hroom := nput_lt hc (p := p) (by rw [hp]; rfl)
    rw [hp] at hmine
    constructor
    · refine hi.producers_after ?_ ?_
      · rw [ht', ProducerPc.Ok, hnput, hbuff, hval, Function.update_self]
        exact ⟨hmine, rfl⟩
      · intro q hne hok
        exact hok.outside (alone_producer hc hinside hne) (Nat.le_of_eq hnput.symm)
    · exact hi.consumer
    · simp only [hnput, hbuff]
      exact hi.stored.store hroom _
    · simp only [hnput]
      exact hi.nput_le
    · exact hi.consumed
  · -- the item is counted
    have hinside : (s.producers p).pc.inside = 1 := by rw [hp]; rfl
    rw [hp] at hmine
    rcases hmine with ⟨hmore, hstored⟩
    constructor
    · refine hi.producers_after ?_ ?_
      · rw [ht']
        trivial
      · intro q hne hok
        exact hok.outside (alone_producer hc hinside hne) (by lia)
    · exact hi.consumer
    · simp only [hnput, hbuff]
      exact hi.stored.extend hstored
    · simp only [hnput]
      exact hmore
    · exact hi.consumed
  · constructor
    · exact hi.producers_after hok fun q _ hq => hq.congr hnput hbuff
    · exact hi.consumer
    · simp only [hnput, hbuff]
      exact hi.stored
    · simp only [hnput]
      exact hi.nput_le
    · exact hi.consumed

end Produce

section Consume

variable {t' : Consumer} {e : ItemEvent}

abbrev afterConsumer (s : BufferState producer) (sh' : Shared) (t' : Consumer) :
    BufferState producer :=
  { s with shared := sh', consumer := t' }

theorem Counted.consume (hc : Counted s) (hb : ConsumerBalance s.shared s.consumer sh' t') :
    Counted (afterConsumer s sh' t') := by
  rcases hc with ⟨hmutex, hnempty, hnstored, hnputval, hcount⟩
  rcases hb with ⟨bmutex, bnempty, bnstored, bnput, bnputval, _⟩
  have hsame : forall w, producersAt w (afterConsumer s sh' t') = producersAt w s :=
    fun _ => rfl
  constructor
  · rw [hsame]
    simp only
    lia
  · rw [hsame]
    simp only
    lia
  · rw [hsame]
    simp only
    lia
  · rw [hsame]
    simp only
    lia
  · simp only
    lia

theorem Items.consume (hc : Counted s) (hi : Items nitems consumed s)
    (hstep : consumerStep nitems s.shared s.consumer = some (sh', t', e)) :
    Items nitems (observeItem consumed e) (afterConsumer s sh' t') ∧ ItemLaw consumed e := by
  have hb := consumerStep_balance hstep
  have hproducers : forall p, (s.producers p).pc.Ok nitems sh' := fun p =>
    (hi.producers p).congr hb.nput hb.buff
  have hnput : sh'.nput ≤ nitems := by
    rw [hb.nput]
    exact hi.nput_le
  rcases consumerStep_cases hstep hi.consumer with
    ⟨hok, ⟨hholding, hnext, rfl⟩ | ⟨hsame, rfl⟩⟩
  · have hlt : s.consumer.consumed < s.shared.nput := by
      have htokens := hc.nstored
      lia
    have hvalue : s.shared.buff (s.consumer.consumed % NBUFF) = s.consumer.consumed :=
      hi.stored.first hlt
    refine ⟨⟨hproducers, hok, ?_, hnput, ?_⟩, hvalue, hi.consumed⟩
    · simp only [hb.nput, hb.buff, hnext]
      exact hi.stored.drop
    · simp only [observeItem, hvalue, hi.consumed, hnext, List.range_succ]
  · refine ⟨⟨hproducers, hok, ?_, hnput, ?_⟩, trivial⟩
    · simp only [hb.nput, hb.buff, hsame]
      exact hi.stored
    · simp only [observeItem, hsame]
      exact hi.consumed

end Consume

/-!
# Nobody is left
-/

section Stuck

omit [Fintype producer] in
theorem producerStep_none {sh : Shared} {t : Producer}
    (h : producerStep nitems sh t = none) :
    t.pc = ProducerPc.returned ∨ (t.pc = ProducerPc.waitEmpty ∧ sh.nempty = 0) ∨
      (t.pc = ProducerPc.lock ∧ sh.mutex = 0) := by
  rcases t with ⟨pc, arg⟩
  cases pc with
  | returned => exact Or.inl rfl
  | waitEmpty => exact Or.inr (Or.inl ⟨rfl, semWait_eq_none.mp (Option.map_eq_none_iff.mp h)⟩)
  | lock => exact Or.inr (Or.inr ⟨rfl, semWait_eq_none.mp (Option.map_eq_none_iff.mp h)⟩)
  | test =>
      simp only [producerStep] at h
      split at h <;> cases h
  | _ => cases h

theorem consumerStep_none {sh : Shared} {t : Consumer}
    (h : consumerStep nitems sh t = none) :
    t.pc = ConsumerPc.returned ∨ (t.pc = ConsumerPc.waitStored ∧ sh.nstored = 0) ∨
      (t.pc = ConsumerPc.lock ∧ sh.mutex = 0) := by
  rcases t with ⟨pc, i⟩
  cases pc with
  | returned => exact Or.inl rfl
  | waitStored =>
      exact Or.inr (Or.inl ⟨rfl, semWait_eq_none.mp (Option.map_eq_none_iff.mp h)⟩)
  | lock => exact Or.inr (Or.inr ⟨rfl, semWait_eq_none.mp (Option.map_eq_none_iff.mp h)⟩)
  | test =>
      simp only [consumerStep] at h
      split at h <;> cases h
  | _ => cases h

variable [DecidableEq producer]

theorem stuck_places (hc : Counted s) (hstuck : Stuck nitems s) :
    (forall p, (s.producers p).pc = ProducerPc.returned ∨
      ((s.producers p).pc = ProducerPc.waitEmpty ∧ s.shared.nempty = 0)) ∧
    (s.consumer.pc = ConsumerPc.returned ∨
      (s.consumer.pc = ConsumerPc.waitStored ∧ s.shared.nstored = 0)) := by
  have hp := fun p =>
    producerStep_none (Option.map_eq_none_iff.mp (hstuck (BufferAction.produce p)))
  have hcons := consumerStep_none (Option.map_eq_none_iff.mp (hstuck BufferAction.consume))
  have hmutex : s.shared.mutex = 1 := by
    have hone := hc.mutex
    have hproducers : producersAt ProducerPc.inside s = 0 := by
      apply total_eq_zero_iff.mpr
      intro p
      rcases hp p with h | ⟨h, _⟩ | ⟨h, _⟩ <;> rw [h] <;> rfl
    have hconsumer : s.consumer.inside = 0 := by
      unfold Consumer.inside
      rcases hcons with h | ⟨h, _⟩ | ⟨h, _⟩ <;> rw [h]
    lia
  constructor
  · intro p
    rcases hp p with hreturned | hwaits | ⟨_, hzero⟩
    · exact Or.inl hreturned
    · exact Or.inr hwaits
    · lia
  · rcases hcons with hreturned | hwaits | ⟨_, hzero⟩
    · exact Or.inl hreturned
    · exact Or.inr hwaits
    · lia

theorem stuck_allDone [Nonempty producer] (hinv : BufferInv nitems consumed s)
    (hstuck : Stuck nitems s) : AllDone nitems consumed s := by
  rcases hinv with ⟨hc, hi⟩
  rcases stuck_places hc hstuck with ⟨hproducers, hconsumer⟩
  have hput : forall w : ProducerPc -> Nat, w ProducerPc.returned = 0 ->
      w ProducerPc.waitEmpty = 0 -> producersAt w s = 0 := by
    intro w hreturned hwaits
    apply total_eq_zero_iff.mpr
    intro p
    rcases hproducers p with h | ⟨h, _⟩
    · rw [h]
      exact hreturned
    · rw [h]
      exact hwaits
  have hfull : 0 < NBUFF := by decide
  have hnput := hi.nput_le
  have hok := hi.consumer
  have hnempty := hc.nempty
  have hnstored := hc.nstored
  rw [hput _ rfl rfl] at hnempty
  rw [hput _ rfl rfl] at hnstored
  unfold Consumer.Ok at hok
  unfold Consumer.freed Consumer.consumed at hnempty
  unfold Consumer.holding Consumer.consumed at hnstored
  -- a consumer that waits has read everything that was stored, so the producers find room, and
  -- there is an item left for them
  have hdone : s.consumer.pc = ConsumerPc.returned := by
    rcases hconsumer with hreturned | ⟨hwaits, hzero⟩
    · exact hreturned
    · rw [hwaits] at hok hnempty hnstored
      simp only at hok hnempty hnstored
      rcases hproducers (Classical.arbitrary producer) with hp | ⟨_, hempty⟩
      · have hall := hi.producers (Classical.arbitrary producer)
        rw [hp] at hall
        simp only [ProducerPc.Ok] at hall
        lia
      · lia
  rw [hdone] at hok hnempty hnstored
  simp only at hok hnempty hnstored
  have hall : s.shared.nput = nitems := by lia
  have hcount : total (fun t : Producer => t.arg + t.pc.uncounted) s.producers =
      ∑ p, (s.producers p).arg := by
    apply Finset.sum_congr rfl
    intro p _
    show (s.producers p).arg + (s.producers p).pc.uncounted = (s.producers p).arg
    rcases hproducers p with h | ⟨h, _⟩ <;> rw [h] <;> rfl
  constructor
  · intro p
    rcases hproducers p with hreturned | ⟨_, hempty⟩
    · exact hreturned
    · lia
  · exact hdone
  · exact hall
  · rw [← hcount, hc.count, hall]
  · have hconsumed : s.consumer.consumed = nitems := by
      unfold Consumer.consumed
      rw [hdone]
      simp only
      lia
    rw [hi.consumed, hconsumed]

end Stuck

section Runs

variable [DecidableEq producer]

theorem step_inv {a : BufferAction producer} {t : BufferState producer} {e : ItemEvent}
    (hinv : BufferInv nitems consumed s) (hstep : bufferStep nitems s a = some (t, e)) :
    BufferInv nitems (observeItem consumed e) t ∧ ItemLaw consumed e := by
  rcases hinv with ⟨hc, hi⟩
  cases a with
  | produce p =>
      rcases Option.map_eq_some_iff.mp hstep with ⟨⟨sh', t'⟩, hp, heq⟩
      cases heq
      exact ⟨⟨hc.produce (producerStep_balance hp), hi.produce hc hp⟩, trivial⟩
  | consume =>
      rcases Option.map_eq_some_iff.mp hstep with ⟨⟨sh', t', e'⟩, hp, heq⟩
      cases heq
      rcases hi.consume hc hp with ⟨hitems, hlaw⟩
      exact ⟨⟨hc.consume (consumerStep_balance hp), hitems⟩, hlaw⟩

/-- In every run the consumer reads 0, 1, 2, ..., at most `NBUFF` items are stored and not read,
and the threads get stuck only when all have returned and all items are through. -/
theorem reads_in_order [Nonempty producer] {tr : List (BufferTransition producer)}
    (hrun : Run BufferInit (bufferStep nitems) tr s) :
    AtEach observeItem [] ItemLaw tr ∧
      s.shared.nput ≤ (consumedOf tr).length + NBUFF ∧
      (Stuck nitems s -> AllDone nitems (consumedOf tr) s) := by
  have htrivial : AtEach observeItem [] (fun _ _ => True) tr := fun _ _ _ _ => trivial
  rcases run_observed (I := BufferInv nitems) (fun s hs => init_inv hs)
    (fun consumed s a e t hs _ hstep => step_inv hs hstep) hrun htrivial with ⟨hinv, hlaw⟩
  have hroom := hinv.counted.nempty
  have hlength : (consumedOf tr).length = s.consumer.consumed := by
    have hread := congrArg List.length hinv.items.consumed
    rwa [List.length_range] at hread
  exact ⟨hlaw, by lia, fun hstuck => stuck_allDone hinv hstuck⟩

end Runs

end Invariant

end Prodcons3
end InterprocessComm
