import InterprocessComm.Mycat2.Operations

/-!
# Every byte is copied once

With `p` blocks handed over and `c` slots given back, the slots from `c` to `p` hold
the blocks with these numbers; the producer works in slot `p` and the consumer in slot
`c`, which are different slots of the ring as long as both work.
-/

namespace InterprocessComm
namespace Mycat2

open Verification

/-!
## What a thread has in hand
-/

def ProducePc.inside : ProducePc -> Nat
  | unlock => 1
  | _ => 0

/-- An empty slot has been taken and not handed over. -/
def ProducePc.holds : ProducePc -> Nat
  | waitEmpty => 0
  | returned => 0
  | _ => 1

def ProducePc.taken : ProducePc -> Nat
  | fill _ _ => 1
  | test => 1
  | postLast => 1
  | increment => 1
  | postStored => 1
  | _ => 0

def ProducePc.last : ProducePc -> Nat
  | returned => 1
  | _ => 0

def ConsumePc.inside : ConsumePc -> Nat
  | unlock => 1
  | _ => 0

/-- A stored block has been taken and its slot not given back. -/
def ConsumePc.holds : ConsumePc -> Nat
  | waitStored => 0
  | _ => 1

structure Holds (x : Slot) (b : Block) : Prop where
  n : x.n = b.bytes.length
  data : forall k v, b.bytes[k]? = some v -> x.data k = v

section Knowledge

variable (reads : List Block)

def ProducerOk (p : Nat) (buff : Nat -> Slot) (t : Producer) : Prop :=
  match t.pc with
  | ProducePc.fill block k =>
      t.i = p % NBUFF ∧ block = result reads p ∧
        forall m v, m < k -> block.bytes[m]? = some v -> (buff t.i).data m = v
  | ProducePc.test => t.i = p % NBUFF ∧ Holds (buff t.i) (result reads p)
  | ProducePc.postLast =>
      t.i = p % NBUFF ∧ Holds (buff t.i) (result reads p) ∧ (result reads p).bytes = []
  | ProducePc.increment =>
      t.i = p % NBUFF ∧ Holds (buff t.i) (result reads p) ∧ (result reads p).bytes ≠ []
  | ProducePc.postStored =>
      t.i = (p + 1) % NBUFF ∧ Holds (buff (p % NBUFF)) (result reads p) ∧
        (result reads p).bytes ≠ []
  | ProducePc.returned => exists q, p = q + 1 ∧ (result reads q).bytes = []
  | _ => t.i = p % NBUFF

def ConsumerOk (c : Nat) (output : List UInt8) (t : Consumer) : Prop :=
  match t.pc with
  | ConsumePc.call =>
      t.i = c % NBUFF ∧ output = blocks reads c ∧ (result reads c).bytes ≠ []
  | ConsumePc.write n k =>
      t.i = c % NBUFF ∧ n = (result reads c).bytes.length ∧ k ≤ n ∧
        output = blocks reads c ++ (result reads c).bytes.take k ∧ (result reads c).bytes ≠ []
  | ConsumePc.increment =>
      t.i = c % NBUFF ∧ output = blocks reads (c + 1) ∧ (result reads c).bytes ≠ []
  | ConsumePc.postEmpty =>
      t.i = (c + 1) % NBUFF ∧ output = blocks reads (c + 1) ∧ (result reads c).bytes ≠ []
  | ConsumePc.returned => output = blocks reads c ∧ (result reads c).bytes = []
  | _ => t.i = c % NBUFF ∧ output = blocks reads c

structure CopyInv (p c : Nat) (s : CopyState) : Prop where
  mutex : s.shared.mutex + s.producer.pc.inside + s.consumer.pc.inside = 1
  nempty : s.shared.nempty + p + s.producer.pc.holds = NBUFF + c
  nstored : s.shared.nstored + c + s.consumer.pc.holds = p
  next : s.next = p + s.producer.pc.taken
  producer : ProducerOk reads p s.shared.buff s.producer
  consumer : ConsumerOk reads c s.output s.consumer
  stored : forall j, c ≤ j -> j < p -> Holds (s.shared.buff (j % NBUFF)) (result reads j)
  passed : forall j, j < c -> (result reads j).bytes ≠ []
  more : forall j, j + s.producer.pc.last < p -> (result reads j).bytes ≠ []

end Knowledge

/-!
## The ring
-/

section Ring

variable {reads : List Block} {p c : Nat}

theorem advance_mod (n : Nat) : advance (n % NBUFF) = (n + 1) % NBUFF := by
  unfold advance NBUFF
  split <;> lia

theorem blocks_succ (reads : List Block) (count : Nat) :
    blocks reads (count + 1) = blocks reads count ++ (result reads count).bytes := by
  simp [blocks, List.range_succ]

theorem stored_frame {buff : Nat -> Slot} {x : Slot} {i : Nat} (hi : i = p % NBUFF)
    (hroom : p < NBUFF + c)
    (hstored : forall j, c ≤ j -> j < p -> Holds (buff (j % NBUFF)) (result reads j))
    (j : Nat) (hcj : c ≤ j) (hjp : j < p) :
    Holds (Function.update buff i x (j % NBUFF)) (result reads j) := by
  rw [Function.update_of_ne]
  · exact hstored j hcj hjp
  · rw [hi]
    unfold NBUFF at *
    lia

theorem stored_succ {buff : Nat -> Slot}
    (hstored : forall j, c ≤ j -> j < p -> Holds (buff (j % NBUFF)) (result reads j))
    (hnew : Holds (buff (p % NBUFF)) (result reads p)) (j : Nat) (hcj : c ≤ j) (hjp : j < p + 1) :
    Holds (buff (j % NBUFF)) (result reads j) := by
  rcases Nat.lt_succ_iff_lt_or_eq.mp hjp with hlt | rfl
  · exact hstored j hcj hlt
  · exact hnew

theorem fill_store {buff : Nat -> Slot} {block : Block} {i k : Nat} {b : UInt8}
    (hk : block.bytes[k]? = some b)
    (hdone : forall m v, m < k -> block.bytes[m]? = some v -> (buff i).data m = v)
    (m : Nat) (v : UInt8) (hm : m < k + 1) (hv : block.bytes[m]? = some v) :
    (Function.update buff i ((buff i).store k b) i).data m = v := by
  rw [Function.update_self]
  show Function.update (buff i).data k b m = v
  rcases Nat.lt_succ_iff_lt_or_eq.mp hm with hlt | rfl
  · rw [Function.update_of_ne (Nat.ne_of_lt hlt)]
    exact hdone m v hlt hv
  · rw [Function.update_self]
    exact Option.some.inj (hk.symm.trans hv)

theorem fill_done {buff : Nat -> Slot} {block : Block} {i k : Nat}
    (hk : block.bytes[k]? = none)
    (hdone : forall m v, m < k -> block.bytes[m]? = some v -> (buff i).data m = v) :
    Holds (Function.update buff i { buff i with n := block.bytes.length } i) block := by
  rw [Function.update_self]
  constructor
  · rfl
  · intro m v hv
    have hlen := List.getElem?_eq_none_iff.mp hk
    have hm := (List.getElem?_eq_some_iff.mp hv).1
    exact hdone m v (by lia) hv

theorem Holds.eof_iff {x : Slot} {b : Block} (h : Holds x b) : x.n = 0 <-> b.bytes = [] := by
  rw [h.n]
  exact List.length_eq_zero_iff

/-!
## The steps
-/

variable {s : CopyState}

theorem init_inv (hs : CopyInit s) : CopyInv reads 0 0 s := by
  rcases s with ⟨sh, next, output, t, u⟩
  rcases hs with ⟨hmutex, hnempty, hnstored, hnext, houtput, rfl, rfl⟩
  constructor
  · exact hmutex
  · exact hnempty
  · exact hnstored
  · exact hnext
  · rfl
  · exact ⟨rfl, houtput⟩
  · intro j _ hj
    cases hj
  · intro j hj
    cases hj
  · intro j hj
    cases hj

theorem CopyInv.produce {sh' : Shared} {next' p' : Nat} {t' : Producer}
    (h : CopyInv reads p c s)
    (hmutex : sh'.mutex + t'.pc.inside = s.shared.mutex + s.producer.pc.inside)
    (hnempty : sh'.nempty + p' + t'.pc.holds = s.shared.nempty + p + s.producer.pc.holds)
    (hnstored : sh'.nstored + p = s.shared.nstored + p')
    (hnext : next' = p' + t'.pc.taken)
    (hok : ProducerOk reads p' sh'.buff t')
    (hstored : forall j, c ≤ j -> j < p' -> Holds (sh'.buff (j % NBUFF)) (result reads j))
    (hmore : forall j, j + t'.pc.last < p' -> (result reads j).bytes ≠ []) :
    CopyInv reads p' c { s with shared := sh', next := next', producer := t' } := by
  have hmutex' := h.mutex
  have hnempty' := h.nempty
  have hnstored' := h.nstored
  constructor
  · show sh'.mutex + t'.pc.inside + s.consumer.pc.inside = 1
    lia
  · show sh'.nempty + p' + t'.pc.holds = NBUFF + c
    lia
  · show sh'.nstored + c + s.consumer.pc.holds = p'
    lia
  · exact hnext
  · exact hok
  · exact h.consumer
  · exact hstored
  · exact h.passed
  · exact hmore

theorem produce_inv {sh' : Shared} {next' : Nat} {t' : Producer} (h : CopyInv reads p c s)
    (hstep : produceStep reads s.shared s.next s.producer = some (sh', next', t')) :
    exists p', CopyInv reads p' c { s with shared := sh', next := next', producer := t' } := by
  have hroom : s.producer.pc.holds = 1 -> p < NBUFF + c := by
    have hnempty := h.nempty
    lia
  have hnext := h.next
  have hok := h.producer
  have hmore := h.more
  rcases hpc : s.producer with ⟨pc, i⟩
  rw [hpc] at hstep hroom hnext hok hmore
  cases pc with
  | waitEmpty =>
      rcases Option.map_eq_some_iff.mp hstep with ⟨v, hv, hdone⟩
      cases hdone
      have hval := semWait_eq hv
      exact ⟨p, h.produce (by simp [hpc, ProducePc.inside])
        (by simp [hpc, ProducePc.holds, hval]; lia) rfl hnext hok h.stored hmore⟩
  | lock =>
      rcases Option.map_eq_some_iff.mp hstep with ⟨v, hv, hdone⟩
      cases hdone
      have hval := semWait_eq hv
      exact ⟨p, h.produce (by simp [hpc, ProducePc.inside, hval])
        (by simp [hpc, ProducePc.holds]) rfl hnext hok h.stored hmore⟩
  | unlock =>
      cases hstep
      exact ⟨p, h.produce (by simp [hpc, ProducePc.inside, semPost])
        (by simp [hpc, ProducePc.holds]) rfl hnext hok h.stored hmore⟩
  | read =>
      cases hstep
      refine ⟨p, h.produce (by simp [hpc, ProducePc.inside])
        (by simp [hpc, ProducePc.holds]) rfl (congrArg (· + 1) hnext) ?_ h.stored hmore⟩
      refine ⟨hok, congrArg (result reads) hnext, ?_⟩
      intro m v hm
      cases hm
  | fill block k =>
      rcases hok with ⟨hi, hblock, hdata⟩
      simp only [produceStep] at hstep
      split at hstep
      · rename_i b hb
        cases hstep
        refine ⟨p, h.produce (by simp [hpc, ProducePc.inside, Shared.set])
          (by simp [hpc, ProducePc.holds, Shared.set]) rfl hnext ?_
          (stored_frame hi (hroom rfl) h.stored) hmore⟩
        exact ⟨hi, hblock, fill_store hb hdata⟩
      · rename_i hb
        cases hstep
        refine ⟨p, h.produce (by simp [hpc, ProducePc.inside, Shared.set])
          (by simp [hpc, ProducePc.holds, Shared.set]) rfl hnext ?_
          (stored_frame hi (hroom rfl) h.stored) hmore⟩
        refine ⟨hi, ?_⟩
        rw [← hblock]
        exact fill_done hb hdata
  | test =>
      rcases hok with ⟨hi, hholds⟩
      simp only [produceStep] at hstep
      split at hstep
      · rename_i hzero
        cases hstep
        exact ⟨p, h.produce (by simp [hpc, ProducePc.inside])
          (by simp [hpc, ProducePc.holds]) rfl hnext ⟨hi, hholds, hholds.eof_iff.mp hzero⟩
          h.stored hmore⟩
      · rename_i hpos
        cases hstep
        exact ⟨p, h.produce (by simp [hpc, ProducePc.inside])
          (by simp [hpc, ProducePc.holds]) rfl hnext
          ⟨hi, hholds, fun he => hpos (hholds.eof_iff.mpr he)⟩ h.stored hmore⟩
  | postLast =>
      rcases hok with ⟨hi, hholds, heof⟩
      rw [show i = p % NBUFF from hi] at hholds
      cases hstep
      exact ⟨p + 1, h.produce (by simp [hpc, ProducePc.inside])
        (by simp [hpc, ProducePc.holds]; lia) (by simp [semPost]; lia) hnext
        ⟨p, rfl, heof⟩ (stored_succ h.stored hholds)
        fun j hj => hmore j (Nat.lt_of_succ_lt_succ hj)⟩
  | increment =>
      rcases hok with ⟨hi, hholds, hmore'⟩
      cases hstep
      refine ⟨p, h.produce (by simp [hpc, ProducePc.inside])
        (by simp [hpc, ProducePc.holds]) rfl hnext ⟨?_, ?_, hmore'⟩ h.stored hmore⟩
      · show advance i = (p + 1) % NBUFF
        rw [show i = p % NBUFF from hi]
        exact advance_mod p
      · rw [← show i = p % NBUFF from hi]
        exact hholds
  | postStored =>
      rcases hok with ⟨hi, hholds, hmore'⟩
      cases hstep
      refine ⟨p + 1, h.produce (by simp [hpc, ProducePc.inside])
        (by simp [hpc, ProducePc.holds]; lia) (by simp [semPost]; lia) hnext hi
        (stored_succ h.stored hholds) ?_⟩
      intro j hj
      rcases Nat.lt_succ_iff_lt_or_eq.mp hj with hlt | rfl
      · exact hmore j hlt
      · exact hmore'
  | returned => cases hstep

theorem CopyInv.consume {sh' : Shared} {output' : List UInt8} {c' : Nat} {u' : Consumer}
    (h : CopyInv reads p c s) (hbuff : sh'.buff = s.shared.buff)
    (hmutex : sh'.mutex + u'.pc.inside = s.shared.mutex + s.consumer.pc.inside)
    (hnempty : sh'.nempty + c = s.shared.nempty + c')
    (hnstored : sh'.nstored + c' + u'.pc.holds = s.shared.nstored + c + s.consumer.pc.holds)
    (hok : ConsumerOk reads c' output' u') (hle : c ≤ c')
    (hpassed : forall j, j < c' -> (result reads j).bytes ≠ []) :
    CopyInv reads p c' { s with shared := sh', output := output', consumer := u' } := by
  have hmutex' := h.mutex
  have hnempty' := h.nempty
  have hnstored' := h.nstored
  constructor
  · show sh'.mutex + s.producer.pc.inside + u'.pc.inside = 1
    lia
  · show sh'.nempty + p + s.producer.pc.holds = NBUFF + c'
    lia
  · show sh'.nstored + c' + u'.pc.holds = p
    lia
  · exact h.next
  · show ProducerOk reads p sh'.buff s.producer
    rw [hbuff]
    exact h.producer
  · exact hok
  · intro j hcj hjp
    show Holds (sh'.buff (j % NBUFF)) (result reads j)
    rw [hbuff]
    exact h.stored j (Nat.le_trans hle hcj) hjp
  · exact hpassed
  · exact h.more

theorem CopyInv.holds_current (h : CopyInv reads p c s) (hc : s.consumer.pc.holds = 1) :
    Holds (s.shared.buff (c % NBUFF)) (result reads c) := by
  have hnstored := h.nstored
  exact h.stored c (Nat.le_refl c) (by lia)

theorem write_byte {x : Slot} {b : Block} {n k : Nat} {output : List UInt8} (hx : Holds x b)
    (hn : n = b.bytes.length) (hk : k < n) :
    output ++ b.bytes.take k ++ [x.data k] = output ++ b.bytes.take (k + 1) := by
  have hlt : k < b.bytes.length := by lia
  have hget := List.getElem?_eq_getElem hlt
  rw [List.take_add_one, hget, hx.data k _ hget, List.append_assoc]
  rfl

theorem consume_inv {sh' : Shared} {output' : List UInt8} {u' : Consumer}
    (h : CopyInv reads p c s)
    (hstep : consumeStep s.shared s.output s.consumer = some (sh', output', u')) :
    exists c', CopyInv reads p c' { s with shared := sh', output := output', consumer := u' } := by
  have hcurrent := h.holds_current
  have hok := h.consumer
  rcases hpc : s.consumer with ⟨pc, i⟩
  rw [hpc] at hstep hcurrent hok
  cases pc with
  | waitStored =>
      rcases Option.map_eq_some_iff.mp hstep with ⟨v, hv, hdone⟩
      cases hdone
      have hval := semWait_eq hv
      exact ⟨c, h.consume rfl (by simp [hpc, ConsumePc.inside]) rfl
        (by simp [hpc, ConsumePc.holds, hval]; lia) hok (Nat.le_refl c) h.passed⟩
  | lock =>
      rcases Option.map_eq_some_iff.mp hstep with ⟨v, hv, hdone⟩
      cases hdone
      have hval := semWait_eq hv
      exact ⟨c, h.consume rfl (by simp [hpc, ConsumePc.inside, hval]) rfl
        (by simp [hpc, ConsumePc.holds]) hok (Nat.le_refl c) h.passed⟩
  | unlock =>
      cases hstep
      exact ⟨c, h.consume rfl (by simp [hpc, ConsumePc.inside, semPost]) rfl
        (by simp [hpc, ConsumePc.holds]) hok (Nat.le_refl c) h.passed⟩
  | test =>
      rcases hok with ⟨hi, houtput⟩
      have hholds := hcurrent rfl
      rw [← show i = c % NBUFF from hi] at hholds
      simp only [consumeStep] at hstep
      split at hstep
      · rename_i hzero
        cases hstep
        exact ⟨c, h.consume rfl (by simp [hpc, ConsumePc.inside]) rfl
          (by simp [hpc, ConsumePc.holds]) ⟨houtput, hholds.eof_iff.mp hzero⟩ (Nat.le_refl c)
          h.passed⟩
      · rename_i hpos
        cases hstep
        exact ⟨c, h.consume rfl (by simp [hpc, ConsumePc.inside]) rfl
          (by simp [hpc, ConsumePc.holds])
          ⟨hi, houtput, fun he => hpos (hholds.eof_iff.mpr he)⟩ (Nat.le_refl c) h.passed⟩
  | call =>
      rcases hok with ⟨hi, houtput, hmore⟩
      have hholds := hcurrent rfl
      rw [← show i = c % NBUFF from hi] at hholds
      cases hstep
      refine ⟨c, h.consume rfl (by simp [hpc, ConsumePc.inside]) rfl
        (by simp [hpc, ConsumePc.holds]) ⟨hi, hholds.n, Nat.zero_le _, ?_, hmore⟩ (Nat.le_refl c)
        h.passed⟩
      simpa using houtput
  | write n k =>
      rcases hok with ⟨hi, hn, hk, houtput, hmore⟩
      have hholds := hcurrent rfl
      rw [← show i = c % NBUFF from hi] at hholds
      simp only [consumeStep] at hstep
      split at hstep
      · rename_i hlt
        cases hstep
        refine ⟨c, h.consume rfl (by simp [hpc, ConsumePc.inside]) rfl
          (by simp [hpc, ConsumePc.holds]) ⟨hi, hn, hlt, ?_, hmore⟩ (Nat.le_refl c) h.passed⟩
        rw [houtput]
        exact write_byte hholds hn hlt
      · rename_i hge
        cases hstep
        refine ⟨c, h.consume rfl (by simp [hpc, ConsumePc.inside]) rfl
          (by simp [hpc, ConsumePc.holds]) ⟨hi, ?_, hmore⟩ (Nat.le_refl c) h.passed⟩
        rw [houtput, blocks_succ, List.take_of_length_le (by lia)]
  | increment =>
      rcases hok with ⟨hi, houtput, hmore⟩
      cases hstep
      refine ⟨c, h.consume rfl (by simp [hpc, ConsumePc.inside]) rfl
        (by simp [hpc, ConsumePc.holds]) ⟨?_, houtput, hmore⟩ (Nat.le_refl c) h.passed⟩
      show advance i = (c + 1) % NBUFF
      rw [show i = c % NBUFF from hi]
      exact advance_mod c
  | postEmpty =>
      rcases hok with ⟨hi, houtput, hmore⟩
      cases hstep
      refine ⟨c + 1, h.consume rfl (by simp [hpc, ConsumePc.inside]) (by simp [semPost]; lia)
        (by simp [hpc, ConsumePc.holds]; lia) ⟨hi, houtput⟩ (Nat.le_succ c) ?_⟩
      intro j hj
      rcases Nat.lt_succ_iff_lt_or_eq.mp hj with hlt | rfl
      · exact h.passed j hlt
      · exact hmore
  | returned => cases hstep

theorem reachable_inv (hs : Reachable CopyInit (copyStep reads) s) :
    exists p c, CopyInv reads p c s := by
  refine reachable_invariant (I := fun s => exists p c, CopyInv reads p c s) ?_ ?_ hs
  · intro s hs
    exact ⟨0, 0, init_inv hs⟩
  · rintro s a o t ⟨p, c, h⟩ hstep
    cases a with
    | produce =>
        rcases Option.map_eq_some_iff.mp hstep with ⟨⟨sh', next', t'⟩, hmove, hdone⟩
        cases hdone
        rcases produce_inv h hmove with ⟨p', h'⟩
        exact ⟨p', c, h'⟩
    | consume =>
        rcases Option.map_eq_some_iff.mp hstep with ⟨⟨sh', output', u'⟩, hmove, hdone⟩
        cases hdone
        rcases consume_inv h hmove with ⟨c', h'⟩
        exact ⟨p, c', h'⟩

/-!
## What has been written
-/

theorem blocks_mono {m n : Nat} (hle : m ≤ n) : blocks reads m <+: blocks reads n := by
  induction hle with
  | refl => exact List.prefix_refl _
  | step _ ih =>
      rw [blocks_succ]
      exact ih.trans (List.prefix_append _ _)

theorem ConsumerOk.written {output : List UInt8} {u : Consumer} (h : ConsumerOk reads c output u) :
    output <+: blocks reads (c + u.pc.holds) := by
  rcases u with ⟨pc, i⟩
  have hsucc : blocks reads c <+: blocks reads (c + 1) := blocks_mono (Nat.le_succ c)
  cases pc with
  | waitStored =>
      rw [h.2]
      exact List.prefix_refl _
  | call =>
      rw [h.2.1]
      exact hsucc
  | write n k =>
      rcases h with ⟨_, _, _, houtput, _⟩
      rw [houtput]
      show _ <+: blocks reads (c + 1)
      rw [blocks_succ]
      exact (List.prefix_append_right_inj _).mpr ⟨_, List.take_append_drop k _⟩
  | increment =>
      rw [h.2.1]
      exact List.prefix_refl _
  | postEmpty =>
      rw [h.2.1]
      exact List.prefix_refl _
  | returned =>
      rw [h.1]
      exact hsucc
  | _ =>
      rw [h.2]
      exact hsucc

theorem blocks_cons (b : Block) (reads : List Block) (count : Nat) :
    blocks (b :: reads) (count + 1) = b.bytes ++ blocks reads count := by
  simp [blocks, List.range_succ_eq_map, List.flatMap_map, result]

theorem blocks_eq_contents (hpassed : forall j, j < c -> (result reads j).bytes ≠ [])
    (heof : (result reads c).bytes = []) : blocks reads c = contents reads := by
  induction reads generalizing c with
  | nil =>
      cases c with
      | zero => rfl
      | succ n => exact absurd rfl (hpassed 0 (Nat.zero_lt_succ n))
  | cons b rest ih =>
      cases c with
      | zero =>
          have hb : b.bytes = [] := heof
          simp [contents, blocks, hb]
      | succ n =>
          have hb : b.bytes ≠ [] := hpassed 0 (Nat.zero_lt_succ n)
          have hrest := ih (fun j hj => hpassed (j + 1) (Nat.succ_lt_succ hj)) heof
          rw [blocks_cons, hrest]
          simp [contents, hb]

theorem produce_none {sh : Shared} {next : Nat} {t : Producer}
    (h : produceStep reads sh next t = none) :
    t.pc = ProducePc.returned ∨ (t.pc = ProducePc.waitEmpty ∧ sh.nempty = 0) ∨
      (t.pc = ProducePc.lock ∧ sh.mutex = 0) := by
  rcases t with ⟨pc, i⟩
  cases pc with
  | waitEmpty => exact Or.inr (Or.inl ⟨rfl, semWait_eq_none.mp (Option.map_eq_none_iff.mp h)⟩)
  | lock => exact Or.inr (Or.inr ⟨rfl, semWait_eq_none.mp (Option.map_eq_none_iff.mp h)⟩)
  | fill block k =>
      simp only [produceStep] at h
      split at h <;> cases h
  | test =>
      simp only [produceStep] at h
      split at h <;> cases h
  | returned => exact Or.inl rfl
  | _ => cases h

theorem consume_none {sh : Shared} {output : List UInt8} {u : Consumer}
    (h : consumeStep sh output u = none) :
    u.pc = ConsumePc.returned ∨ (u.pc = ConsumePc.waitStored ∧ sh.nstored = 0) ∨
      (u.pc = ConsumePc.lock ∧ sh.mutex = 0) := by
  rcases u with ⟨pc, i⟩
  cases pc with
  | waitStored => exact Or.inr (Or.inl ⟨rfl, semWait_eq_none.mp (Option.map_eq_none_iff.mp h)⟩)
  | lock => exact Or.inr (Or.inr ⟨rfl, semWait_eq_none.mp (Option.map_eq_none_iff.mp h)⟩)
  | write n k =>
      simp only [consumeStep] at h
      split at h <;> cases h
  | test =>
      simp only [consumeStep] at h
      split at h <;> cases h
  | returned => exact Or.inl rfl
  | _ => cases h

theorem ProducerOk.slot {buff : Nat -> Slot} {t : Producer} {i : Nat}
    (h : ProducerOk reads p buff t) (hi : t.slot = some i) :
    i = p % NBUFF ∧ t.pc.holds = 1 := by
  rcases t with ⟨pc, _⟩
  cases pc with
  | read =>
      cases hi
      exact ⟨h, rfl⟩
  | fill block k =>
      cases hi
      exact ⟨h.1, rfl⟩
  | test =>
      cases hi
      exact ⟨h.1, rfl⟩
  | _ => cases hi

theorem ConsumerOk.slot {output : List UInt8} {u : Consumer} {i : Nat}
    (h : ConsumerOk reads c output u) (hi : u.slot = some i) :
    i = c % NBUFF ∧ u.pc.holds = 1 := by
  rcases u with ⟨pc, _⟩
  cases pc with
  | test =>
      cases hi
      exact ⟨h.1, rfl⟩
  | call =>
      cases hi
      exact ⟨h.1, rfl⟩
  | write n k =>
      cases hi
      exact ⟨h.1, rfl⟩
  | _ => cases hi

theorem CopyInv.slots_differ (h : CopyInv reads p c s) {i j : Nat}
    (hi : s.producer.slot = some i) (hj : s.consumer.slot = some j) : i ≠ j := by
  have hnempty := h.nempty
  have hnstored := h.nstored
  rcases h.producer.slot hi with ⟨rfl, hput⟩
  rcases h.consumer.slot hj with ⟨rfl, hget⟩
  unfold NBUFF at *
  lia

/-- The consumer stops at the first empty block, which the producer has handed over last. -/
theorem CopyInv.finished (h : CopyInv reads p c s) (hu : s.consumer.pc = ConsumePc.returned) :
    s.producer.pc = ProducePc.returned ∧ s.output = blocks reads s.next ∧
      s.output = contents reads := by
  have hnstored := h.nstored
  have hok := h.consumer
  unfold ConsumerOk at hok
  rw [hu] at hok hnstored
  rcases hok with ⟨houtput, heof⟩
  have hlt : c < p := by
    simp only [ConsumePc.holds] at hnstored
    lia
  have hlast : s.producer.pc = ProducePc.returned := by
    by_contra hne
    refine h.more c ?_ heof
    cases hpc : s.producer.pc with
    | returned => exact absurd hpc hne
    | _ => exact hlt
  have hput := h.producer
  unfold ProducerOk at hput
  rw [hlast] at hput
  rcases hput with ⟨q, rfl, hq⟩
  have hcq : c = q := by
    by_contra hne
    refine h.more c ?_ heof
    rw [hlast]
    simp only [ProducePc.last]
    lia
  subst hcq
  refine ⟨hlast, ?_, houtput.trans (blocks_eq_contents h.passed heof)⟩
  have hnext := h.next
  rw [hlast] at hnext
  rw [hnext, houtput]
  show _ = blocks reads (c + 1)
  rw [blocks_succ, heof, List.append_nil]

theorem CopyInv.stuck (h : CopyInv reads p c s) (hstuck : Stuck reads s) :
    s.producer.pc = ProducePc.returned ∧ s.consumer.pc = ConsumePc.returned := by
  have hmutex := h.mutex
  have hnempty := h.nempty
  have hnstored := h.nstored
  have hput := produce_none (Option.map_eq_none_iff.mp (hstuck CopyAction.produce))
  have hget := consume_none (Option.map_eq_none_iff.mp (hstuck CopyAction.consume))
  rcases hget with hreturned | ⟨hget, hzero⟩ | ⟨hget, hzero⟩
  · exact ⟨(h.finished hreturned).1, hreturned⟩
  · rw [hget] at hnstored hmutex
    simp only [ConsumePc.holds, ConsumePc.inside] at hnstored hmutex
    rcases hput with hreturned | ⟨hput, hempty⟩ | ⟨hput, hlocked⟩
    · -- the empty block would have been taken and given back
      have hok := h.producer
      unfold ProducerOk at hok
      rw [hreturned] at hok
      rcases hok with ⟨q, hq, heof⟩
      exact absurd heof (h.passed q (by lia))
    · rw [hput] at hnempty
      simp only [ProducePc.holds, NBUFF] at hnempty
      lia
    · rw [hput] at hmutex
      simp only [ProducePc.inside] at hmutex
      lia
  · rw [hget] at hmutex
    rcases hput with hput | ⟨hput, _⟩ | ⟨hput, _⟩ <;> rw [hput] at hmutex <;>
      simp only [ConsumePc.inside, ProducePc.inside] at hmutex <;> lia

/-- What has been written is the beginning of what has been read, and all of it when the
consumer returns; the two threads use different slots; and nothing moves only when both
have returned. -/
theorem mycat2_copies (hs : Reachable CopyInit (copyStep reads) s) :
    (forall i j, s.producer.slot = some i -> s.consumer.slot = some j -> i ≠ j) ∧
      s.output <+: blocks reads s.next ∧
      (s.consumer.pc = ConsumePc.returned ->
        s.output = blocks reads s.next ∧ s.output = contents reads) ∧
      (Stuck reads s ->
        s.producer.pc = ProducePc.returned ∧ s.consumer.pc = ConsumePc.returned) := by
  rcases reachable_inv hs with ⟨p, c, h⟩
  refine ⟨fun i j => h.slots_differ, ?_, fun hu => (h.finished hu).2, h.stuck⟩
  apply h.consumer.written.trans
  apply blocks_mono
  have hnstored := h.nstored
  have hnext := h.next
  lia

end Ring

def threeBytes : List Block :=
  [{ bytes := [104, 0], fits := by decide }, { bytes := [10], fits := by decide }]

def copyStart : CopyState :=
  { shared := { buff := fun _ => { data := fun _ => 255, n := 9 }, mutex := 1, nempty := NBUFF,
                nstored := 0 },
    next := 0, output := [], producer := { pc := ProducePc.waitEmpty, i := 0 },
    consumer := { pc := ConsumePc.waitStored, i := 0 } }

theorem init_copyStart : CopyInit copyStart :=
  ⟨rfl, rfl, rfl, rfl, rfl, rfl, rfl⟩

/-- The producer is in its second read when the consumer writes the first block; then both threads
go on to the end. -/
theorem mycat2_copies_threeBytes :
    (exists s : CopyState, s.producer.slot = some 1 ∧ s.consumer.slot = some 0 ∧
      s.output.length = 1 ∧ s.output <+: [104, 0, 10]) ∧
      exists s : CopyState, Stuck threeBytes s ∧ s.producer.pc = ProducePc.returned ∧
        s.consumer.pc = ConsumePc.returned ∧ s.output = [104, 0, 10] := by
  constructor
  · have hreplay : exists (tr : List (Transition CopyState CopyAction Unit)) (s : CopyState),
        Run CopyInit (copyStep threeBytes) tr s ∧ decide (s.producer.slot = some 1 ∧
          s.consumer.slot = some 0 ∧ s.output.length = 1 ∧ s.next = 2) = true :=
      run_of_replay
        (List.replicate 15 CopyAction.produce ++ List.replicate 6 CopyAction.consume)
        init_copyStart (by decide +kernel)
    rcases hreplay with ⟨tr, s, hrun, htest⟩
    rcases of_decide_eq_true htest with ⟨hproducer, hconsumer, hlength, hnext⟩
    have hwritten := (mycat2_copies ⟨tr, hrun⟩).2.1
    rw [hnext] at hwritten
    exact ⟨s, hproducer, hconsumer, hlength, hwritten⟩
  · have hreplay : exists (tr : List (Transition CopyState CopyAction Unit)) (s : CopyState),
        Run CopyInit (copyStep threeBytes) tr s ∧
          decide ((copyStep threeBytes s CopyAction.produce).isNone ∧
            (copyStep threeBytes s CopyAction.consume).isNone) = true :=
      run_of_replay
        (List.replicate 15 CopyAction.produce ++ List.replicate 7 CopyAction.consume ++
          List.replicate 11 CopyAction.produce ++ List.replicate 16 CopyAction.consume)
        init_copyStart (by decide +kernel)
    rcases hreplay with ⟨tr, s, hrun, htest⟩
    rcases of_decide_eq_true htest with ⟨hproduce, hconsume⟩
    have hstuck : Stuck threeBytes s := by
      intro a
      cases a with
      | produce => exact Option.isNone_iff_eq_none.mp hproduce
      | consume => exact Option.isNone_iff_eq_none.mp hconsume
    rcases mycat2_copies ⟨tr, hrun⟩ with ⟨_, _, hall, hends⟩
    rcases hends hstuck with ⟨hproducer, hconsumer⟩
    exact ⟨s, hstuck, hproducer, hconsumer, (hall hconsumer).2⟩

end Mycat2
end InterprocessComm
