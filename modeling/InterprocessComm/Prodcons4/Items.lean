import InterprocessComm.Lib.Ring
import InterprocessComm.Prodcons4.Invariant

/-!
# Every item once

Each item is fetched once and in order, no slot is overwritten too early, and the
threads stop only when all of them have returned and all items are through.
-/

namespace InterprocessComm
namespace Prodcons4

open Verification

section Steps

variable {producer consumer : Type} [Fintype producer] [Fintype consumer]
variable {nitems : Nat} {fetched : List Nat} {s : BufferState producer consumer}
variable {sh' : Shared} {e : ItemEvent}

/-!
# Steps of a producer
-/

section Produce

variable [DecidableEq producer] {p : producer} {t' : Producer}

abbrev afterProducer (s : BufferState producer consumer) (p : producer) (sh' : Shared)
    (t' : Producer) : BufferState producer consumer :=
  { s with shared := sh', producers := Function.update s.producers p t' }

omit [Fintype consumer] in
theorem producersAt_update (s : BufferState producer consumer) (p : producer) (sh' : Shared)
    (t' : Producer) (w : ProducerPc -> Nat) :
    producersAt w (afterProducer s p sh' t') + w (s.producers p).pc =
      producersAt w s + w t'.pc :=
  total_update (fun t : Producer => w t.pc) s.producers p t'

theorem Counted.produce (hc : Counted s)
    (hb : ProducerBalance s.shared (s.producers p) sh' t') :
    Counted (afterProducer s p sh' t') := by
  rcases hc with ⟨hmutex, hnempty, hnstored, hnputval, hprodcount, hconscount⟩
  rcases hb with ⟨bmutex, bnempty, bnstored, bnputval, bprodcount, bnget⟩
  have hsame : forall w, consumersAt w (afterProducer s p sh' t') = consumersAt w s :=
    fun _ => rfl
  have hmove := producersAt_update s p sh' t'
  constructor
  · have hinside := hmove ProducerPc.inside
    rw [hsame]
    simp only
    lia
  · have hheld := hmove ProducerPc.held
    rw [hsame]
    simp only
    lia
  · have hposting := hmove ProducerPc.posting
    have hextra := hmove ProducerPc.extra
    rw [hsame]
    simp only
    lia
  · have hputting := hmove ProducerPc.putting
    simp only
    lia
  · have hcount := total_update (fun t : Producer => t.arg + t.pc.uncounted) s.producers p t'
    simp only
    lia
  · simp only
    lia

omit [DecidableEq producer] in
theorem putval_eq (hc : Counted s) (hp : (s.producers p).pc.inside = 1)
    (hput : (s.producers p).pc.putting = 0) : s.shared.nputval = s.shared.nput := by
  have hzero : producersAt ProducerPc.putting s = 0 := by
    refine total_eq_zero_of_others hput ?_
    intro q hne
    have hout := (alone_producer hc hp).1 q hne
    have hle := ProducerPc.putting_le_inside (s.producers q).pc
    lia
  have hval := hc.nputval
  lia

omit [Fintype producer] in
theorem Items.producers_after (hi : Items nitems fetched s) (hok : t'.pc.Ok nitems sh')
    (hothers : forall q, q ≠ p -> (s.producers q).pc.Ok nitems s.shared ->
      (s.producers q).pc.Ok nitems sh') :
    forall q, ((afterProducer s p sh' t').producers q).pc.Ok nitems sh' := by
  apply (Function.forall_update_iff s.producers fun _ t => t.pc.Ok nitems sh').mpr
  constructor
  · exact hok
  · intro q hne
    exact hothers q hne (hi.producers q)

theorem Items.store (hc : Counted s) (hi : Items nitems fetched s)
    (hp : (s.producers p).pc = ProducerPc.store)
    (ht' : t'.pc = ProducerPc.incrementPut) (hnget : sh'.nget = s.shared.nget)
    (hbuff : sh'.buff =
      Function.update s.shared.buff (s.shared.nput % NBUFF) s.shared.nputval)
    (hnput : sh'.nput = s.shared.nput) :
    Items nitems fetched (afterProducer s p sh' t') ∧
      ItemLaw fetched (ItemEvent.put s.shared.nput) := by
  have hinside : (s.producers p).pc.inside = 1 := by rw [hp]; rfl
  have hval := putval_eq hc hinside (by rw [hp]; rfl)
  have hroom := nput_lt hc (p := p) (by rw [hp]; rfl)
  have hmore := hi.producers p
  rw [hp] at hmore
  rcases alone_producer hc hinside with ⟨hothers, _⟩
  refine ⟨⟨?_, ?_, ?_, ?_, ?_, ?_⟩, ?_⟩
  · refine hi.producers_after ?_ ?_
    · simp only [Function.update_self, ht', ProducerPc.Ok, hnput, hbuff, hval]
      exact ⟨hmore, trivial⟩
    · intro q hne hok
      exact hok.outside (hothers q hne) (Nat.le_of_eq hnput.symm)
  · intro c
    exact (hi.consumers c).congr hnget
  · simp only [hnput, hnget, hbuff]
    exact InRing.store hi.stored hroom _
  · simp only [hnput]
    exact hi.nput_le
  · simp only [hnget]
    exact hi.nget_le
  · simp only [hnget]
    exact hi.fetched
  · intro k hlt hslot
    rw [hi.fetched, List.mem_range]
    rcases Nat.lt_or_ge s.shared.nput (k + NBUFF) with hnear | hfar
    · exact absurd hslot (slot_ne hlt hnear)
    · lia

theorem Items.incrementPut (hc : Counted s) (hi : Items nitems fetched s)
    (hp : (s.producers p).pc = ProducerPc.incrementPut)
    (ht' : t'.pc = ProducerPc.incrementPutval) (hnget : sh'.nget = s.shared.nget)
    (hbuff : sh'.buff = s.shared.buff) (hnput : sh'.nput = s.shared.nput + 1) :
    Items nitems fetched (afterProducer s p sh' t') := by
  have hinside : (s.producers p).pc.inside = 1 := by rw [hp]; rfl
  have hmine := hi.producers p
  rw [hp] at hmine
  rcases hmine with ⟨hmore, hstored⟩
  rcases alone_producer hc hinside with ⟨hothers, _⟩
  constructor
  · refine hi.producers_after ?_ ?_
    · rw [ht']
      trivial
    · intro q hne hok
      exact hok.outside (hothers q hne) (by lia)
  · intro c
    exact (hi.consumers c).congr hnget
  · simp only [hnput, hnget, hbuff]
    exact InRing.extend hi.stored hstored
  · simp only [hnput]
    exact hmore
  · simp only [hnget]
    exact hi.nget_le
  · simp only [hnget]
    exact hi.fetched

theorem Items.produce (hc : Counted s) (hi : Items nitems fetched s)
    (hstep : producerStep nitems s.shared (s.producers p) = some (sh', t', e)) :
    Items nitems (observeItem fetched e) (afterProducer s p sh' t') ∧ ItemLaw fetched e := by
  have hnget := (producerStep_balance hstep).nget
  rcases producerStep_cases hstep (hi.producers p) with
    ⟨hp, ht', rfl, hbuff, hnput⟩ | ⟨hp, ht', rfl, hbuff, hnput⟩ | ⟨rfl, hbuff, hnput, hok⟩
  · exact hi.store hc hp ht' hnget hbuff hnput
  · exact ⟨hi.incrementPut hc hp ht' hnget hbuff hnput, trivial⟩
  · refine ⟨⟨?_, ?_, ?_, ?_, ?_, ?_⟩, trivial⟩
    · refine hi.producers_after hok ?_
      intro q _ hold
      exact hold.congr hnput hbuff
    · intro c
      exact (hi.consumers c).congr hnget
    · simp only [hnget, hnput, hbuff]
      exact hi.stored
    · simp only [hnput]
      exact hi.nput_le
    · simp only [hnget]
      exact hi.nget_le
    · simp only [hnget]
      exact hi.fetched

end Produce

/-!
# Steps of a consumer
-/

section Consume

variable [DecidableEq consumer] {c : consumer} {t' : Consumer}

abbrev afterConsumer (s : BufferState producer consumer) (c : consumer) (sh' : Shared)
    (t' : Consumer) : BufferState producer consumer :=
  { s with shared := sh', consumers := Function.update s.consumers c t' }

omit [Fintype producer] in
theorem consumersAt_update (s : BufferState producer consumer) (c : consumer) (sh' : Shared)
    (t' : Consumer) (w : ConsumerPc -> Nat) :
    consumersAt w (afterConsumer s c sh' t') + w (s.consumers c).pc =
      consumersAt w s + w t'.pc :=
  total_update (fun t : Consumer => w t.pc) s.consumers c t'

theorem Counted.consume (hc : Counted s)
    (hb : ConsumerBalance s.shared (s.consumers c) sh' t') :
    Counted (afterConsumer s c sh' t') := by
  rcases hc with ⟨hmutex, hnempty, hnstored, hnputval, hprodcount, hconscount⟩
  rcases hb with ⟨bmutex, bnempty, bnstored, bconscount, bnput, bnputval, _⟩
  have hsame : forall w, producersAt w (afterConsumer s c sh' t') = producersAt w s :=
    fun _ => rfl
  have hmove := consumersAt_update s c sh' t'
  constructor
  · have hinside := hmove ConsumerPc.inside
    rw [hsame]
    simp only
    lia
  · have hfreed := hmove ConsumerPc.freed
    rw [hsame]
    simp only
    lia
  · have hholding := hmove ConsumerPc.holding
    rw [hsame, hsame]
    simp only
    lia
  · rw [hsame]
    simp only
    lia
  · simp only
    lia
  · have hcount := total_update (fun t : Consumer => t.arg + t.pc.uncounted) s.consumers c t'
    simp only
    lia

theorem reading_eq (hc : Counted s) (hinside : (s.consumers c).pc.inside = 1) :
    consumersAt ConsumerPc.reading s = (s.consumers c).pc.reading := by
  have hmove := total_update (fun t : Consumer => t.pc.reading) s.consumers c
    ⟨ConsumerPc.returned, 0⟩
  have hrest : total (fun t : Consumer => t.pc.reading)
      (Function.update s.consumers c ⟨ConsumerPc.returned, 0⟩) = 0 := by
    apply total_eq_zero_iff.mpr
    apply (Function.forall_update_iff s.consumers fun _ t => t.pc.reading = 0).mpr
    constructor
    · rfl
    · intro d hne
      have hout := (alone_consumer hc hinside).1 d hne
      have hle := ConsumerPc.reading_le_inside (s.consumers d).pc
      lia
  rw [hrest, Nat.zero_add] at hmove
  exact hmove.symm

omit [Fintype producer] in
theorem Items.consumers_after (hi : Items nitems fetched s) (hok : t'.pc.Ok nitems sh')
    (hothers : forall d, d ≠ c -> (s.consumers d).pc.Ok nitems s.shared ->
      (s.consumers d).pc.Ok nitems sh') :
    forall d, ((afterConsumer s c sh' t').consumers d).pc.Ok nitems sh' := by
  apply (Function.forall_update_iff s.consumers fun _ t => t.pc.Ok nitems sh').mpr
  constructor
  · exact hok
  · intro d hne
    exact hothers d hne (hi.consumers d)

theorem Items.fetch (hc : Counted s) (hi : Items nitems fetched s) {i : Nat}
    (hp : (s.consumers c).pc = ConsumerPc.fetch i)
    (ht' : t'.pc = ConsumerPc.incrementGet) (hnget : sh'.nget = s.shared.nget)
    (hbuff : sh'.buff = s.shared.buff) (hnput : sh'.nput = s.shared.nput) :
    Items nitems (fetched ++ [s.shared.buff i]) (afterConsumer s c sh' t') ∧
      ItemLaw fetched (ItemEvent.get s.shared.nget (s.shared.buff i)) := by
  have hmine := hi.consumers c
  rw [hp] at hmine
  rcases hmine with ⟨hmore, hindex⟩
  have hlt := nget_lt_nput hc hi (c := c) (by rw [hp]; rfl) hmore
  have hvalue : s.shared.buff i = s.shared.nget := by
    rw [hindex]
    exact hi.stored _ (Nat.le_refl _) hlt
  have hreading : consumersAt ConsumerPc.reading s = 0 := by
    rw [reading_eq hc (c := c) (by rw [hp]; rfl), hp]
    rfl
  have hnow : fetched = List.range s.shared.nget := by
    have hold := hi.fetched
    rwa [hreading] at hold
  have hmove := consumersAt_update s c sh' t' ConsumerPc.reading
  rw [hp, ht', hreading] at hmove
  refine ⟨⟨?_, ?_, ?_, ?_, ?_, ?_⟩, hvalue, hnow⟩
  · intro p
    exact (hi.producers p).congr hnput hbuff
  · refine hi.consumers_after ?_ ?_
    · simp only [ht', ConsumerPc.Ok, hnget]
      exact hmore
    · intro d _ hok
      exact hok.congr hnget
  · simp only [hnget, hnput, hbuff]
    exact hi.stored
  · simp only [hnput]
    exact hi.nput_le
  · simp only [hnget]
    exact hi.nget_le
  · simp only [ConsumerPc.reading] at hmove
    simp only [hnget, hvalue, hnow]
    rw [<- List.range_succ]
    congr 1
    lia

theorem Items.incrementGet (hc : Counted s) (hi : Items nitems fetched s)
    (hp : (s.consumers c).pc = ConsumerPc.incrementGet)
    (ht' : t'.pc = ConsumerPc.incrementGetval) (hnget : sh'.nget = s.shared.nget + 1)
    (hbuff : sh'.buff = s.shared.buff) (hnput : sh'.nput = s.shared.nput) :
    Items nitems fetched (afterConsumer s c sh' t') := by
  have hinside : (s.consumers c).pc.inside = 1 := by rw [hp]; rfl
  have hmore := hi.consumers c
  rw [hp] at hmore
  rcases alone_consumer hc hinside with ⟨hothers, _⟩
  have hmove := consumersAt_update s c sh' t' ConsumerPc.reading
  rw [hp, ht'] at hmove
  constructor
  · intro p
    exact (hi.producers p).congr hnput hbuff
  · refine hi.consumers_after ?_ ?_
    · rw [ht']
      trivial
    · intro d hne hok
      exact hok.outside (hothers d hne) (by lia)
  · simp only [hnget, hnput, hbuff]
    exact InRing.drop hi.stored
  · simp only [hnput]
    exact hi.nput_le
  · simp only [hnget]
    exact hmore
  · simp only [ConsumerPc.reading] at hmove
    rw [hi.fetched]
    simp only [hnget]
    congr 1
    lia

theorem Items.consume (hc : Counted s) (hi : Items nitems fetched s)
    (hstep : consumerStep nitems s.shared (s.consumers c) = some (sh', t', e)) :
    Items nitems (observeItem fetched e) (afterConsumer s c sh' t') ∧ ItemLaw fetched e := by
  have hb := consumerStep_balance hstep
  rcases consumerStep_cases hstep (hi.consumers c) with
    ⟨i, hp, ht', rfl, hnget⟩ | ⟨hp, ht', rfl, hnget⟩ | ⟨rfl, hnget, hold, hnew, hok⟩
  · exact hi.fetch hc hp ht' hnget hb.buff hb.nput
  · exact ⟨hi.incrementGet hc hp ht' hnget hb.buff hb.nput, trivial⟩
  · have hmove := consumersAt_update s c sh' t' ConsumerPc.reading
    rw [hold, hnew] at hmove
    refine ⟨⟨?_, ?_, ?_, ?_, ?_, ?_⟩, trivial⟩
    · intro p
      exact (hi.producers p).congr hb.nput hb.buff
    · refine hi.consumers_after hok ?_
      intro d _ hold
      exact hold.congr hnget
    · simp only [hnget, hb.nput, hb.buff]
      exact hi.stored
    · simp only [hb.nput]
      exact hi.nput_le
    · simp only [hnget]
      exact hi.nget_le
    · have hsame : consumersAt ConsumerPc.reading (afterConsumer s c sh' t') =
          consumersAt ConsumerPc.reading s := hmove
      rw [hsame]
      simp only [hnget]
      exact hi.fetched

end Consume

structure BufferInv (nitems : Nat) (fetched : List Nat) (s : BufferState producer consumer) :
    Prop where
  counted : Counted s
  items : Items nitems fetched s

theorem init_inv (hinit : BufferInit s) : BufferInv nitems [] s := by
  cases hinit
  have hproducers : forall w : ProducerPc -> Nat, w ProducerPc.waitEmpty = 0 ->
      producersAt w (bufferStart : BufferState producer consumer) = 0 :=
    fun w hw => total_eq_zero_iff.mpr fun _ => hw
  have hconsumers : forall w : ConsumerPc -> Nat, w ConsumerPc.waitStored = 0 ->
      consumersAt w (bufferStart : BufferState producer consumer) = 0 :=
    fun w hw => total_eq_zero_iff.mpr fun _ => hw
  constructor
  · constructor
    · rw [hproducers _ rfl, hconsumers _ rfl]
      rfl
    · rw [hproducers _ rfl, hconsumers _ rfl]
      rfl
    · rw [hproducers _ rfl, hproducers _ rfl, hconsumers _ rfl]
      rfl
    · rw [hproducers _ rfl]
      rfl
    · exact total_eq_zero_iff.mpr fun _ => rfl
    · exact total_eq_zero_iff.mpr fun _ => rfl
  · constructor
    · intro p
      trivial
    · intro c
      trivial
    · intro j _ hlt
      exact absurd hlt (Nat.not_lt_zero j)
    · exact Nat.zero_le _
    · exact Nat.zero_le _
    · rw [hconsumers _ rfl]
      rfl

section System

variable [DecidableEq producer] [DecidableEq consumer]

theorem step_inv {a : BufferAction producer consumer} {t : BufferState producer consumer}
    (hinv : BufferInv nitems fetched s) (hstep : bufferStep nitems s a = some (t, e)) :
    BufferInv nitems (observeItem fetched e) t ∧ ItemLaw fetched e := by
  rcases hinv with ⟨hc, hi⟩
  cases a with
  | produce p =>
      rcases Option.map_eq_some_iff.mp hstep with ⟨⟨sh', t', e'⟩, hp, heq⟩
      cases heq
      rcases hi.produce hc hp with ⟨hitems, hlaw⟩
      exact ⟨⟨hc.produce (producerStep_balance hp), hitems⟩, hlaw⟩
  | consume c =>
      rcases Option.map_eq_some_iff.mp hstep with ⟨⟨sh', t', e'⟩, hp, heq⟩
      cases heq
      rcases hi.consume hc hp with ⟨hitems, hlaw⟩
      exact ⟨⟨hc.consume (consumerStep_balance hp), hitems⟩, hlaw⟩

/-!
# Nobody is left
-/

omit [Fintype producer] [DecidableEq producer] in
theorem producerStep_none {sh : Shared} {t : Producer}
    (h : producerStep nitems sh t = none) :
    t.pc = ProducerPc.returned ∨ (t.pc = ProducerPc.waitEmpty ∧ sh.nempty = 0) ∨
      (t.pc = ProducerPc.lock ∧ sh.mutex = 0) := by
  rcases t with ⟨pc, arg⟩
  cases pc with
  | returned => exact Or.inl rfl
  | waitEmpty => exact Or.inr (Or.inl ⟨rfl, semWait_eq_none.mp (Option.map_eq_none_iff.mp h)⟩)
  | lock => exact Or.inr (Or.inr ⟨rfl, semWait_eq_none.mp (Option.map_eq_none_iff.mp h)⟩)
  | test =>
      simp only [producerStep] at h
      split at h <;> cases h
  | _ => cases h

theorem consumerStep_none {sh : Shared} {t : Consumer}
    (h : consumerStep nitems sh t = none) :
    t.pc = ConsumerPc.returned ∨ (t.pc = ConsumerPc.waitStored ∧ sh.nstored = 0) ∨
      (t.pc = ConsumerPc.lock ∧ sh.mutex = 0) := by
  rcases t with ⟨pc, arg⟩
  cases pc with
  | returned => exact Or.inl rfl
  | waitStored =>
      exact Or.inr (Or.inl ⟨rfl, semWait_eq_none.mp (Option.map_eq_none_iff.mp h)⟩)
  | lock => exact Or.inr (Or.inr ⟨rfl, semWait_eq_none.mp (Option.map_eq_none_iff.mp h)⟩)
  | test =>
      simp only [consumerStep] at h
      split at h <;> cases h
  | _ => cases h

theorem stuck_places (hc : Counted s) (hstuck : Stuck nitems s) :
    (forall p, (s.producers p).pc = ProducerPc.returned ∨
      ((s.producers p).pc = ProducerPc.waitEmpty ∧ s.shared.nempty = 0)) ∧
    (forall c, (s.consumers c).pc = ConsumerPc.returned ∨
      ((s.consumers c).pc = ConsumerPc.waitStored ∧ s.shared.nstored = 0)) := by
  have hp := fun p =>
    producerStep_none (Option.map_eq_none_iff.mp (hstuck (BufferAction.produce p)))
  have hcons := fun c =>
    consumerStep_none (Option.map_eq_none_iff.mp (hstuck (BufferAction.consume c)))
  have hmutex : s.shared.mutex = 1 := by
    have hone := hc.mutex
    have hproducers : producersAt ProducerPc.inside s = 0 := by
      apply total_eq_zero_iff.mpr
      intro p
      rcases hp p with h | ⟨h, _⟩ | ⟨h, _⟩ <;> rw [h] <;> rfl
    have hconsumers : consumersAt ConsumerPc.inside s = 0 := by
      apply total_eq_zero_iff.mpr
      intro c
      rcases hcons c with h | ⟨h, _⟩ | ⟨h, _⟩ <;> rw [h] <;> rfl
    lia
  constructor
  · intro p
    rcases hp p with hreturned | hwaits | ⟨_, hzero⟩
    · exact Or.inl hreturned
    · exact Or.inr hwaits
    · lia
  · intro c
    rcases hcons c with hreturned | hwaits | ⟨_, hzero⟩
    · exact Or.inl hreturned
    · exact Or.inr hwaits
    · lia

theorem stuck_allDone [Nonempty producer] [Nonempty consumer]
    (hinv : BufferInv nitems fetched s) (hstuck : Stuck nitems s) :
    AllDone nitems fetched s := by
  rcases hinv with ⟨hc, hi⟩
  rcases stuck_places hc hstuck with ⟨hproducers, hconsumers⟩
  have hput : forall w : ProducerPc -> Nat, w ProducerPc.returned = 0 ->
      w ProducerPc.waitEmpty = 0 -> producersAt w s = 0 := by
    intro w hreturned hwaits
    apply total_eq_zero_iff.mpr
    intro p
    rcases hproducers p with h | ⟨h, _⟩
    · rw [h]
      exact hreturned
    · rw [h]
      exact hwaits
  have hget : forall w : ConsumerPc -> Nat, w ConsumerPc.returned = 0 ->
      w ConsumerPc.waitStored = 0 -> consumersAt w s = 0 := by
    intro w hreturned hwaits
    apply total_eq_zero_iff.mpr
    intro c
    rcases hconsumers c with h | ⟨h, _⟩
    · rw [h]
      exact hreturned
    · rw [h]
      exact hwaits
  have hnempty := hc.nempty
  have hnstored := hc.nstored
  rw [hput _ rfl rfl, hget _ rfl rfl] at hnempty
  rw [hput _ rfl rfl, hget _ rfl rfl] at hnstored
  have hle := nget_le_nput hc hi
  have hnput := hi.nput_le
  have hfull : 0 < NBUFF := by decide
  -- a consumer that waits has got everything, so the producers find room and return,
  -- and the last of them leaves an extra token
  have hdone : forall c, (s.consumers c).pc = ConsumerPc.returned := by
    intro c
    rcases hconsumers c with hreturned | ⟨_, hzero⟩
    · exact hreturned
    · rcases hproducers (Classical.arbitrary producer) with hp | ⟨_, hempty⟩
      · have hextra : (s.producers (Classical.arbitrary producer)).pc.extra ≤
            producersAt ProducerPc.extra s :=
          weight_le_total (fun t : Producer => t.pc.extra) s.producers _
        rw [hp] at hextra
        have hone : ProducerPc.returned.extra = 1 := rfl
        lia
      · lia
  have hall : nitems ≤ s.shared.nget := by
    have hok := hi.consumers (Classical.arbitrary consumer)
    rw [hdone] at hok
    exact hok
  have hprodcount : total (fun t : Producer => t.arg + t.pc.uncounted) s.producers =
      ∑ p, (s.producers p).arg := by
    apply Finset.sum_congr rfl
    intro p _
    show (s.producers p).arg + (s.producers p).pc.uncounted = (s.producers p).arg
    rcases hproducers p with h | ⟨h, _⟩ <;> rw [h] <;> rfl
  have hconscount : total (fun t : Consumer => t.arg + t.pc.uncounted) s.consumers =
      ∑ c, (s.consumers c).arg := by
    apply Finset.sum_congr rfl
    intro c _
    show (s.consumers c).arg + (s.consumers c).pc.uncounted = (s.consumers c).arg
    rw [hdone c]
    rfl
  constructor
  · intro p
    rcases hproducers p with hreturned | ⟨_, hempty⟩
    · exact hreturned
    · lia
  · exact hdone
  · rw [<- hprodcount, hc.prodcount]
    lia
  · rw [<- hconscount, hc.conscount]
    lia
  · rw [hi.fetched, hget _ rfl rfl]
    congr 1
    lia

end System

end Steps

/-!
# Runs
-/

/-- In every run the gets read 0, 1, 2, ..., nothing is overwritten before it is fetched,
the buffer holds between 0 and `NBUFF` items, and the threads get stuck only when all have
returned and their counts sum to `nitems`. -/
theorem items_in_order {producer consumer : Type} [Fintype producer] [Fintype consumer]
    [DecidableEq producer] [DecidableEq consumer] [Nonempty producer] [Nonempty consumer]
    {nitems : Nat} {tr : List (BufferTransition producer consumer)}
    {s : BufferState producer consumer} (hrun : Run BufferInit (bufferStep nitems) tr s) :
    AtEach observeItem [] ItemLaw tr ∧
      (s.shared.nget ≤ s.shared.nput ∧ s.shared.nput ≤ s.shared.nget + NBUFF) ∧
      (Stuck nitems s -> AllDone nitems (fetchedOf tr) s) := by
  have htrivial : AtEach observeItem [] (fun _ _ => True) tr := fun _ _ _ _ => trivial
  rcases run_observed (I := BufferInv nitems) (fun s hs => init_inv hs)
    (fun fetched s a e t hs _ hstep => step_inv hs hstep) hrun htrivial with ⟨hinv, hlaw⟩
  have hroom := hinv.counted.nempty
  exact ⟨hlaw, ⟨nget_le_nput hinv.counted hinv.items, by lia⟩,
    fun hstuck => stuck_allDone hinv hstuck⟩

end Prodcons4
end InterprocessComm
