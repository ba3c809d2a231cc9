import InterprocessComm.Prodcons4.Operations

/-!
# The invariant of the bounded buffer

Tokens are counted where the threads hold them.  A producer that finishes posts a
token of `nstored` that stands for no item; it is counted as extra.
-/

namespace InterprocessComm
namespace Prodcons4

open Verification

/-!
# Where the tokens are
-/

namespace ProducerPc

def inside : ProducerPc -> Nat
  | test => 1
  | store => 1
  | incrementPut => 1
  | incrementPutval => 1
  | unlock => 1
  | finishStored => 1
  | finishEmpty => 1
  | finishUnlock => 1
  | _ => 0

/-- The token of `nempty` for which nothing is stored yet. -/
def held : ProducerPc -> Nat
  | lock => 1
  | test => 1
  | store => 1
  | incrementPut => 1
  | finishStored => 1
  | finishEmpty => 1
  | _ => 0

/-- The item that is stored and not posted yet. -/
def posting : ProducerPc -> Nat
  | incrementPutval => 1
  | unlock => 1
  | postStored => 1
  | _ => 0

/-- The token of `nstored` that stands for no item. -/
def extra : ProducerPc -> Nat
  | finishEmpty => 1
  | finishUnlock => 1
  | returned => 1
  | _ => 0

def putting : ProducerPc -> Nat
  | incrementPutval => 1
  | _ => 0

def uncounted : ProducerPc -> Nat
  | incrementPutval => 1
  | unlock => 1
  | postStored => 1
  | count => 1
  | _ => 0

def Ok (nitems : Nat) (sh : Shared) : ProducerPc -> Prop
  | store => sh.nput < nitems
  | incrementPut => sh.nput < nitems ∧ sh.buff (sh.nput % NBUFF) = sh.nput
  | finishStored => nitems ≤ sh.nput
  | finishEmpty => nitems ≤ sh.nput
  | finishUnlock => nitems ≤ sh.nput
  | returned => nitems ≤ sh.nput
  | _ => True

theorem putting_le_inside (pc : ProducerPc) : pc.putting ≤ pc.inside := by
  cases pc <;> decide

end ProducerPc

namespace ConsumerPc

def inside : ConsumerPc -> Nat
  | test => 1
  | index => 1
  | fetch _ => 1
  | incrementGet => 1
  | incrementGetval => 1
  | unlock => 1
  | finishStored => 1
  | finishUnlock => 1
  | _ => 0

/-- The token of `nstored` whose item is not fetched yet. -/
def holding : ConsumerPc -> Nat
  | lock => 1
  | test => 1
  | index => 1
  | fetch _ => 1
  | incrementGet => 1
  | finishStored => 1
  | _ => 0

/-- The slot that is fetched and not posted yet. -/
def freed : ConsumerPc -> Nat
  | incrementGetval => 1
  | unlock => 1
  | postEmpty => 1
  | _ => 0

def reading : ConsumerPc -> Nat
  | incrementGet => 1
  | _ => 0

def uncounted : ConsumerPc -> Nat
  | incrementGetval => 1
  | unlock => 1
  | postEmpty => 1
  | count => 1
  | _ => 0

def Ok (nitems : Nat) (sh : Shared) : ConsumerPc -> Prop
  | index => sh.nget < nitems
  | fetch i => sh.nget < nitems ∧ i = sh.nget % NBUFF
  | incrementGet => sh.nget < nitems
  | finishStored => nitems ≤ sh.nget
  | finishUnlock => nitems ≤ sh.nget
  | returned => nitems ≤ sh.nget
  | _ => True

theorem reading_le_inside (pc : ConsumerPc) : pc.reading ≤ pc.inside := by
  cases pc <;> simp [reading, inside]

end ConsumerPc

theorem ProducerPc.Ok.congr {nitems : Nat} {sh sh' : Shared} {pc : ProducerPc}
    (hok : pc.Ok nitems sh) (hnput : sh'.nput = sh.nput) (hbuff : sh'.buff = sh.buff) :
    pc.Ok nitems sh' := by
  unfold ProducerPc.Ok at hok ⊢
  simp only [hnput, hbuff]
  exact hok

theorem ProducerPc.Ok.outside {nitems : Nat} {sh sh' : Shared} {pc : ProducerPc}
    (hok : pc.Ok nitems sh) (hout : pc.inside = 0) (hle : sh.nput ≤ sh'.nput) :
    pc.Ok nitems sh' := by
  cases pc with
  | store => cases hout
  | incrementPut => cases hout
  | finishStored => cases hout
  | finishEmpty => cases hout
  | finishUnlock => cases hout
  | returned => exact Nat.le_trans hok hle
  | _ => trivial

theorem ConsumerPc.Ok.congr {nitems : Nat} {sh sh' : Shared} {pc : ConsumerPc}
    (hok : pc.Ok nitems sh) (hnget : sh'.nget = sh.nget) : pc.Ok nitems sh' := by
  unfold ConsumerPc.Ok at hok ⊢
  simp only [hnget]
  exact hok

theorem ConsumerPc.Ok.outside {nitems : Nat} {sh sh' : Shared} {pc : ConsumerPc}
    (hok : pc.Ok nitems sh) (hout : pc.inside = 0) (hle : sh.nget ≤ sh'.nget) :
    pc.Ok nitems sh' := by
  cases pc with
  | index => cases hout
  | fetch i => cases hout
  | incrementGet => cases hout
  | finishStored => cases hout
  | finishUnlock => cases hout
  | returned => exact Nat.le_trans hok hle
  | _ => trivial

structure ProducerBalance (sh : Shared) (t : Producer) (sh' : Shared) (t' : Producer) :
    Prop where
  mutex : sh'.mutex + t'.pc.inside = sh.mutex + t.pc.inside
  nempty : sh'.nempty + t'.pc.held + sh'.nput = sh.nempty + t.pc.held + sh.nput
  nstored : sh'.nstored + t'.pc.posting + sh.nput + t.pc.extra =
    sh.nstored + t.pc.posting + sh'.nput + t'.pc.extra
  nputval : sh'.nputval + t'.pc.putting + sh.nput = sh.nputval + t.pc.putting + sh'.nput
  prodcount : t'.arg + t'.pc.uncounted + sh.nput = t.arg + t.pc.uncounted + sh'.nput
  nget : sh'.nget = sh.nget

structure ConsumerBalance (sh : Shared) (t : Consumer) (sh' : Shared) (t' : Consumer) :
    Prop where
  mutex : sh'.mutex + t'.pc.inside = sh.mutex + t.pc.inside
  nempty : sh'.nempty + t'.pc.freed + sh.nget = sh.nempty + t.pc.freed + sh'.nget
  nstored : sh'.nstored + t'.pc.holding + sh'.nget = sh.nstored + t.pc.holding + sh.nget
  conscount : t'.arg + t'.pc.uncounted + sh.nget = t.arg + t.pc.uncounted + sh'.nget
  nput : sh'.nput = sh.nput
  nputval : sh'.nputval = sh.nputval
  buff : sh'.buff = sh.buff

theorem producerStep_balance {nitems : Nat} {sh sh' : Shared} {t t' : Producer}
    {e : ItemEvent} (h : producerStep nitems sh t = some (sh', t', e)) :
    ProducerBalance sh t sh' t' := by
  rcases t with ⟨pc, arg⟩
  cases pc with
  | waitEmpty =>
      rcases Option.map_eq_some_iff.mp h with ⟨n, hwait, heq⟩
      cases heq
      have hvalue := semWait_eq hwait
      exact ⟨rfl, by simp only [ProducerPc.held]; lia, rfl, rfl, rfl, rfl⟩
  | lock =>
      rcases Option.map_eq_some_iff.mp h with ⟨n, hwait, heq⟩
      cases heq
      exact ⟨(semWait_eq hwait).symm, rfl, rfl, rfl, rfl, rfl⟩
  | test =>
      simp only [producerStep] at h
      split at h <;> cases h <;> constructor <;> rfl
  | store =>
      cases h
      constructor <;> rfl
  | incrementPut =>
      cases h
      refine ⟨rfl, ?_, ?_, ?_, ?_, rfl⟩
      · simp only [ProducerPc.held]
        lia
      · simp only [ProducerPc.posting, ProducerPc.extra]
        lia
      · simp only [ProducerPc.putting]
        lia
      · simp only [ProducerPc.uncounted]
        lia
  | incrementPutval =>
      cases h
      constructor <;> rfl
  | unlock =>
      cases h
      constructor <;> rfl
  | postStored =>
      cases h
      constructor <;> rfl
  | count =>
      cases h
      constructor <;> rfl
  | finishStored =>
      cases h
      refine ⟨rfl, rfl, ?_, rfl, rfl, rfl⟩
      simp only [semPost, ProducerPc.posting, ProducerPc.extra]
      lia
  | finishEmpty =>
      cases h
      constructor <;> rfl
  | finishUnlock =>
      cases h
      constructor <;> rfl
  | returned => cases h

theorem consumerStep_balance {nitems : Nat} {sh sh' : Shared} {t t' : Consumer}
    {e : ItemEvent} (h : consumerStep nitems sh t = some (sh', t', e)) :
    ConsumerBalance sh t sh' t' := by
  rcases t with ⟨pc, arg⟩
  cases pc with
  | waitStored =>
      rcases Option.map_eq_some_iff.mp h with ⟨n, hwait, heq⟩
      cases heq
      have hvalue := semWait_eq hwait
      exact ⟨rfl, rfl, by simp only [ConsumerPc.holding]; lia, rfl, rfl, rfl, rfl⟩
  | lock =>
      rcases Option.map_eq_some_iff.mp h with ⟨n, hwait, heq⟩
      cases heq
      exact ⟨(semWait_eq hwait).symm, rfl, rfl, rfl, rfl, rfl, rfl⟩
  | test =>
      simp only [consumerStep] at h
      split at h <;> cases h <;> constructor <;> rfl
  | index =>
      cases h
      constructor <;> rfl
  | fetch i =>
      cases h
      constructor <;> rfl
  | incrementGet =>
      cases h
      refine ⟨rfl, ?_, ?_, ?_, rfl, rfl, rfl⟩
      · simp only [ConsumerPc.freed]
        lia
      · simp only [ConsumerPc.holding]
        lia
      · simp only [ConsumerPc.uncounted]
        lia
  | incrementGetval =>
      cases h
      constructor <;> rfl
  | unlock =>
      cases h
      constructor <;> rfl
  | postEmpty =>
      cases h
      constructor <;> rfl
  | count =>
      cases h
      constructor <;> rfl
  | finishStored =>
      cases h
      constructor <;> rfl
  | finishUnlock =>
      cases h
      constructor <;> rfl
  | returned => cases h

/-!
# The kinds of steps
-/

theorem producerStep_cases {nitems : Nat} {sh sh' : Shared} {t t' : Producer} {e : ItemEvent}
    (h : producerStep nitems sh t = some (sh', t', e)) (hok : t.pc.Ok nitems sh) :
    (t.pc = ProducerPc.store ∧ t'.pc = ProducerPc.incrementPut ∧ e = ItemEvent.put sh.nput ∧
      sh'.buff = Function.update sh.buff (sh.nput % NBUFF) sh.nputval ∧ sh'.nput = sh.nput) ∨
    (t.pc = ProducerPc.incrementPut ∧ t'.pc = ProducerPc.incrementPutval ∧
      e = ItemEvent.silent ∧ sh'.buff = sh.buff ∧ sh'.nput = sh.nput + 1) ∨
    (e = ItemEvent.silent ∧ sh'.buff = sh.buff ∧ sh'.nput = sh.nput ∧
      t'.pc.Ok nitems sh') := by
  rcases t with ⟨pc, arg⟩
  cases pc with
  | waitEmpty =>
      rcases Option.map_eq_some_iff.mp h with ⟨n, _, heq⟩
      cases heq
      exact Or.inr (Or.inr ⟨rfl, rfl, rfl, trivial⟩)
  | lock =>
      rcases Option.map_eq_some_iff.mp h with ⟨n, _, heq⟩
      cases heq
      exact Or.inr (Or.inr ⟨rfl, rfl, rfl, trivial⟩)
  | test =>
      simp only [producerStep] at h
      split at h
      · rename_i hge
        cases h
        exact Or.inr (Or.inr ⟨rfl, rfl, rfl, hge⟩)
      · rename_i hlt
        cases h
        exact Or.inr (Or.inr ⟨rfl, rfl, rfl, Nat.lt_of_not_ge hlt⟩)
  | store =>
      cases h
      exact Or.inl ⟨rfl, rfl, rfl, rfl, rfl⟩
  | incrementPut =>
      cases h
      exact Or.inr (Or.inl ⟨rfl, rfl, rfl, rfl, rfl⟩)
  | incrementPutval =>
      cases h
      exact Or.inr (Or.inr ⟨rfl, rfl, rfl, trivial⟩)
  | unlock =>
      cases h
      exact Or.inr (Or.inr ⟨rfl, rfl, rfl, trivial⟩)
  | postStored =>
      cases h
      exact Or.inr (Or.inr ⟨rfl, rfl, rfl, trivial⟩)
  | count =>
      cases h
      exact Or.inr (Or.inr ⟨rfl, rfl, rfl, trivial⟩)
  | finishStored =>
      cases h
      exact Or.inr (Or.inr ⟨rfl, rfl, rfl, hok⟩)
  | finishEmpty =>
      cases h
      exact Or.inr (Or.inr ⟨rfl, rfl, rfl, hok⟩)
  | finishUnlock =>
      cases h
      exact Or.inr (Or.inr ⟨rfl, rfl, rfl, hok⟩)
  | returned => cases h

theorem consumerStep_cases {nitems : Nat} {sh sh' : Shared} {t t' : Consumer} {e : ItemEvent}
    (h : consumerStep nitems sh t = some (sh', t', e)) (hok : t.pc.Ok nitems sh) :
    (exists i, t.pc = ConsumerPc.fetch i ∧ t'.pc = ConsumerPc.incrementGet ∧
      e = ItemEvent.get sh.nget (sh.buff i) ∧ sh'.nget = sh.nget) ∨
    (t.pc = ConsumerPc.incrementGet ∧ t'.pc = ConsumerPc.incrementGetval ∧
      e = ItemEvent.silent ∧ sh'.nget = sh.nget + 1) ∨
    (e = ItemEvent.silent ∧ sh'.nget = sh.nget ∧ t.pc.reading = 0 ∧ t'.pc.reading = 0 ∧
      t'.pc.Ok nitems sh') := by
  rcases t with ⟨pc, arg⟩
  cases pc with
  | waitStored =>
      rcases Option.map_eq_some_iff.mp h with ⟨n, _, heq⟩
      cases heq
      exact Or.inr (Or.inr ⟨rfl, rfl, rfl, rfl, trivial⟩)
  | lock =>
      rcases Option.map_eq_some_iff.mp h with ⟨n, _, heq⟩
      cases heq
      exact Or.inr (Or.inr ⟨rfl, rfl, rfl, rfl, trivial⟩)
  | test =>
      simp only [consumerStep] at h
      split at h
      · rename_i hge
        cases h
        exact Or.inr (Or.inr ⟨rfl, rfl, rfl, rfl, hge⟩)
      · rename_i hlt
        cases h
        exact Or.inr (Or.inr ⟨rfl, rfl, rfl, rfl, Nat.lt_of_not_ge hlt⟩)
  | index =>
      cases h
      exact Or.inr (Or.inr ⟨rfl, rfl, rfl, rfl, hok, rfl⟩)
  | fetch i =>
      cases h
      exact Or.inl ⟨i, rfl, rfl, rfl, rfl⟩
  | incrementGet =>
      cases h
      exact Or.inr (Or.inl ⟨rfl, rfl, rfl, rfl⟩)
  | incrementGetval =>
      cases h
      exact Or.inr (Or.inr ⟨rfl, rfl, rfl, rfl, trivial⟩)
  | unlock =>
      cases h
      exact Or.inr (Or.inr ⟨rfl, rfl, rfl, rfl, trivial⟩)
  | postEmpty =>
      cases h
      exact Or.inr (Or.inr ⟨rfl, rfl, rfl, rfl, trivial⟩)
  | count =>
      cases h
      exact Or.inr (Or.inr ⟨rfl, rfl, rfl, rfl, trivial⟩)
  | finishStored =>
      cases h
      exact Or.inr (Or.inr ⟨rfl, rfl, rfl, rfl, hok⟩)
  | finishUnlock =>
      cases h
      exact Or.inr (Or.inr ⟨rfl, rfl, rfl, rfl, hok⟩)
  | returned => cases h

/-!
# The invariant
-/

section Invariant

variable {producer consumer : Type} [Fintype producer] [Fintype consumer]

def producersAt (w : ProducerPc -> Nat) (s : BufferState producer consumer) : Nat :=
  total (fun t => w t.pc) s.producers

def consumersAt (w : ConsumerPc -> Nat) (s : BufferState producer consumer) : Nat :=
  total (fun t => w t.pc) s.consumers

structure Counted (s : BufferState producer consumer) : Prop where
  mutex : s.shared.mutex + producersAt ProducerPc.inside s +
    consumersAt ConsumerPc.inside s = 1
  nempty : s.shared.nempty + producersAt ProducerPc.held s + s.shared.nput +
    consumersAt ConsumerPc.freed s = NBUFF + s.shared.nget
  nstored : s.shared.nstored + consumersAt ConsumerPc.holding s +
    producersAt ProducerPc.posting s + s.shared.nget =
      s.shared.nput + producersAt ProducerPc.extra s
  nputval : s.shared.nputval + producersAt ProducerPc.putting s = s.shared.nput
  prodcount : total (fun t => t.arg + t.pc.uncounted) s.producers = s.shared.nput
  conscount : total (fun t => t.arg + t.pc.uncounted) s.consumers = s.shared.nget

/-- The items between `nget` and `nput` are in their slots, and those before have been
fetched. -/
structure Items (nitems : Nat) (fetched : List Nat) (s : BufferState producer consumer) :
    Prop where
  producers : forall p, (s.producers p).pc.Ok nitems s.shared
  consumers : forall c, (s.consumers c).pc.Ok nitems s.shared
  stored : forall j, s.shared.nget ≤ j -> j < s.shared.nput ->
    s.shared.buff (j % NBUFF) = j
  nput_le : s.shared.nput ≤ nitems
  nget_le : s.shared.nget ≤ nitems
  fetched : fetched = List.range (s.shared.nget + consumersAt ConsumerPc.reading s)

variable {nitems : Nat} {fetched : List Nat} {s : BufferState producer consumer}

theorem alone_producer (hc : Counted s) {p : producer}
    (hp : (s.producers p).pc.inside = 1) :
    (forall q, q ≠ p -> (s.producers q).pc.inside = 0) ∧
      forall c, (s.consumers c).pc.inside = 0 := by
  have hone := hc.mutex
  constructor
  · intro q hne
    have hle := add_le_total (fun t : Producer => t.pc.inside) s.producers hne
    unfold producersAt at hone
    lia
  · intro c
    have hle := weight_le_total (fun t : Producer => t.pc.inside) s.producers p
    have hle' := weight_le_total (fun t : Consumer => t.pc.inside) s.consumers c
    unfold producersAt consumersAt at hone
    lia

theorem alone_consumer (hc : Counted s) {c : consumer}
    (hi : (s.consumers c).pc.inside = 1) :
    (forall d, d ≠ c -> (s.consumers d).pc.inside = 0) ∧
      forall p, (s.producers p).pc.inside = 0 := by
  have hone := hc.mutex
  constructor
  · intro d hne
    have hle := add_le_total (fun t : Consumer => t.pc.inside) s.consumers hne
    unfold consumersAt at hone
    lia
  · intro p
    have hle := weight_le_total (fun t : Producer => t.pc.inside) s.producers p
    have hle' := weight_le_total (fun t : Consumer => t.pc.inside) s.consumers c
    unfold producersAt consumersAt at hone
    lia

/-- An extra token means that everything has been stored. -/
theorem all_stored (hi : Items nitems fetched s)
    (hextra : 0 < producersAt ProducerPc.extra s) : nitems ≤ s.shared.nput := by
  by_contra hlt
  have hnone : producersAt ProducerPc.extra s = 0 := by
    apply total_eq_zero_iff.mpr
    intro p
    have hok := hi.producers p
    generalize (s.producers p).pc = pc at hok
    cases pc with
    | finishEmpty => exact absurd hok hlt
    | finishUnlock => exact absurd hok hlt
    | returned => exact absurd hok hlt
    | _ => rfl
  lia

/-- No item is fetched before it is stored, whatever extra tokens there are. -/
theorem nget_le_nput (hc : Counted s) (hi : Items nitems fetched s) :
    s.shared.nget ≤ s.shared.nput := by
  have htokens := hc.nstored
  have hle := hi.nget_le
  rcases Nat.eq_zero_or_pos (producersAt ProducerPc.extra s) with hzero | hextra
  · lia
  · have hall := all_stored hi hextra
    lia

theorem nget_lt_nput (hc : Counted s) (hi : Items nitems fetched s) {c : consumer}
    (hholding : (s.consumers c).pc.holding = 1) (hlt : s.shared.nget < nitems) :
    s.shared.nget < s.shared.nput := by
  have htokens := hc.nstored
  have hle : (s.consumers c).pc.holding ≤ consumersAt ConsumerPc.holding s :=
    weight_le_total (fun t : Consumer => t.pc.holding) s.consumers c
  rcases Nat.eq_zero_or_pos (producersAt ProducerPc.extra s) with hzero | hextra
  · lia
  · have hall := all_stored hi hextra
    lia

theorem nput_lt (hc : Counted s) {p : producer} (hheld : (s.producers p).pc.held = 1) :
    s.shared.nput < s.shared.nget + NBUFF := by
  have htokens := hc.nempty
  have hle : (s.producers p).pc.held ≤ producersAt ProducerPc.held s :=
    weight_le_total (fun t : Producer => t.pc.held) s.producers p
  lia

end Invariant

end Prodcons4
end InterprocessComm
