import InterprocessComm.MessageQueue.Invariant

/-!
# The size of the file

`mq_open` accepts all positive attributes.  What it computes from them is exact, and its loop
stays inside the file, for the attributes whose file has less than `2 ^ 63` bytes and whose
messages an `int` can count.
-/

namespace InterprocessComm
namespace MessageQueue

open Verification

def exactSlot (msgsize : Int) : Int :=
  sizeofMsgHdr + (msgsize + sizeofLong - 1) / sizeofLong * sizeofLong

def exactFilesize (maxmsg msgsize : Int) : Int :=
  sizeofMqHdr + maxmsg * exactSlot msgsize

/-!
## The loop
-/

def slotIndex (slot : Int) : Nat -> Int
  | 0 => sizeofMqHdr
  | k + 1 => toLong (slotIndex slot k + slot)

/-- Beyond `INT_MAX + 1` messages the counter overflows. -/
theorem freeListLoop_none {maxmsg slot : Int} (hmax : 2 ^ 31 < maxmsg) {fuel : Nat} {i : Int}
    (hi : i ≤ INT_MAX) (m : Mem) (index : Int) :
    freeListLoop maxmsg slot fuel i m index = none := by
  have hint : INT_MAX = 2 ^ 31 - 1 := rfl
  induction fuel generalizing i m index with
  | zero => rfl
  | succ fuel ih =>
      unfold freeListLoop
      rw [if_pos (by lia)]
      by_cases hcounter : i < INT_MAX
      · rw [if_pos hcounter]
        exact ih (by lia) _ _
      · rw [if_neg hcounter]

theorem QueueSizes.exactSlot_eq (sz : QueueSizes) : exactSlot sz.mq_msgsize = sz.slotSize := by
  rw [sz.slotSize_eq]
  unfold exactSlot sizeofLong
  congr 3
  lia

theorem QueueSizes.slotIndex_eq (sz : QueueSizes) {k : Nat} (hk : (k : Int) < sz.mq_maxmsg) :
    slotIndex sz.slotSize k = sz.slotOff k := by
  induction k with
  | zero => simp [slotIndex, slotOff]
  | succ k ih =>
      have hbounds := sz.slot_bounds (sz.mem_slots.mpr ⟨k + 1, hk, rfl⟩)
      have hsize := sz.slotSize_pos
      have hfile := sz.filesize_lt
      rw [slotIndex, ih (by lia), ← sz.slotOff_succ]
      exact Int.bmod_eq_of_le_mul_two (by lia) (by lia)

/-!
## The sizes
-/

section Sizes

variable {tid : Type} [Fintype tid] [DecidableEq tid] {procOf : tid -> Pid}
variable {maxmsg msgsize : Int}

structure CreatedWith (maxmsg msgsize : Int) (s : MqState tid) : Prop where
  created : mqOpenCreate maxmsg msgsize = some s.mem
  descs : forall d, s.descs d = none
  phase : forall t, s.phase t = Phase.outside
  unlocked : s.locked = false

/-- What `mq_open` computes is exact, its loop ends and stays in the file, and `mq_close` unmaps
as many bytes as were mapped, whatever was done with the queue. -/
structure SizesExact (procOf : tid -> Pid) (maxmsg msgsize : Int) : Prop where
  filesize : mqOpenFilesize maxmsg msgsize = exactFilesize maxmsg msgsize
  counter : forall m, (freeListLoop maxmsg (sizeofMsgHdr + msgSize msgsize) maxmsg.toNat 0 m
    sizeofMqHdr).isSome = true
  slots : forall k : Nat, (k : Int) < maxmsg ->
    sizeofMqHdr ≤ slotIndex (sizeofMsgHdr + msgSize msgsize) k ∧
      slotIndex (sizeofMsgHdr + msgSize msgsize) k + exactSlot msgsize ≤
        mqOpenFilesize maxmsg msgsize
  unmapped : forall s : MqState tid,
    Reachable (CreatedWith maxmsg msgsize) (mqStep procOf) s ->
      mqCloseFilesize s.mem = mqOpenFilesize maxmsg msgsize

theorem sizes_exact (sz : QueueSizes) (hcount : sz.mq_maxmsg ≤ 2 ^ 31) :
    SizesExact procOf sz.mq_maxmsg sz.mq_msgsize := by
  have hmax := sz.maxmsg_pos
  constructor
  · rw [mqOpenFilesize_eq]
    unfold exactFilesize
    rw [sz.exactSlot_eq]
    rfl
  · intro m
    obtain ⟨fuel, hfuel⟩ : exists fuel, sz.mq_maxmsg.toNat = fuel + 1 :=
      ⟨sz.mq_maxmsg.toNat - 1, by lia⟩
    rw [hfuel]
    exact freeListLoop_isSome hcount (by lia) m _
  · intro k hk
    have hindex := sz.slotIndex_eq hk
    unfold QueueSizes.slotSize at hindex
    rw [hindex, sz.exactSlot_eq, mqOpenFilesize_eq]
    exact sz.slot_bounds (sz.mem_slots.mpr ⟨k, hk, rfl⟩)
  · intro s hreach
    have hsame : Reachable (MqInit sz) (mqStep procOf) s := by
      rcases hreach with ⟨tr, s0, hcreated, hpath⟩
      exact ⟨tr, s0, ⟨hcreated.created, hcreated.descs, hcreated.phase, hcreated.unlocked⟩, hpath⟩
    rcases (reachable_inv hsame).linked with ⟨used, free, hlinked⟩
    unfold mqCloseFilesize
    rw [hlinked.maxmsg, hlinked.msgsize]

theorem sizesExact_iff (hmax : 0 < maxmsg) (hmsg : 0 < msgsize) :
    SizesExact procOf maxmsg msgsize <->
      exactFilesize maxmsg msgsize < 2 ^ 63 ∧ maxmsg ≤ 2 ^ 31 := by
  constructor
  · intro h
    constructor
    · rw [← h.filesize]
      exact Int.bmod_lt (by decide)
    · by_contra hlarge
      have hsome := h.counter fun _ => 0
      rw [freeListLoop_none (by lia) (by decide)] at hsome
      cases hsome
  · rintro ⟨hexact, hcount⟩
    have hround : (msgsize + sizeofLong - 1) / sizeofLong = (msgsize + 7) / 8 := by
      unfold sizeofLong
      congr 1
      lia
    have hnoWrap : sizeofMqHdr + maxmsg * (sizeofMsgHdr + (msgsize + 7) / 8 * 8) < 2 ^ 63 := by
      unfold exactFilesize exactSlot at hexact
      rw [hround] at hexact
      exact hexact
    exact sizes_exact ⟨maxmsg, msgsize, hmax, hmsg, hnoWrap⟩ hcount

/-- `lseek` takes an offset that is not negative and within the limit of the file system. -/
def LseekAccepts (limit maxmsg msgsize : Int) : Prop :=
  0 ≤ mqOpenFilesize maxmsg msgsize - 1 ∧ mqOpenFilesize maxmsg msgsize - 1 ≤ limit

/-- Where the loop is reached, the computed sizes are right exactly when the file has less than
`2 ^ 63` bytes and an `int` counts its messages. -/
theorem file_sizes_exact_iff (hmax : 0 < maxmsg) (hmsg : 0 < msgsize) (limit : Int) :
    (LseekAccepts limit maxmsg msgsize -> SizesExact procOf maxmsg msgsize) <->
      (LseekAccepts limit maxmsg msgsize ->
        exactFilesize maxmsg msgsize < 2 ^ 63 ∧ maxmsg ≤ 2 ^ 31) :=
  forall_congr' fun _ => sizesExact_iff hmax hmsg

/-- The default attributes. -/
theorem file_sizes_exact_iff_defattr :
    (LseekAccepts (2 ^ 63 - 1) defattr.1 defattr.2 ->
        SizesExact (oneProcess (n := 1)) defattr.1 defattr.2) <->
      (LseekAccepts (2 ^ 63 - 1) defattr.1 defattr.2 ->
        exactFilesize defattr.1 defattr.2 < 2 ^ 63 ∧ defattr.1 ≤ 2 ^ 31) :=
  file_sizes_exact_iff (by decide) (by decide) _

/-- With `2 ^ 60` messages of one byte the size wraps around to that of the header: `lseek`
accepts it, and not even the first slot lies in the file. -/
theorem wrapped_filesize_largeMaxmsg :
    LseekAccepts (2 ^ 20) (2 ^ 60) 1 ∧ mqOpenFilesize (2 ^ 60) 1 = sizeofMqHdr ∧
      slotIndex (sizeofMsgHdr + msgSize 1) 0 + exactSlot 1 > mqOpenFilesize (2 ^ 60) 1 ∧
      ¬ SizesExact (oneProcess (n := 1)) (2 ^ 60) 1 := by
  have hsize : mqOpenFilesize (2 ^ 60) 1 = sizeofMqHdr := by decide +kernel
  refine ⟨?_, hsize, by decide +kernel, ?_⟩
  · unfold LseekAccepts
    rw [hsize]
    decide
  · intro h
    exact absurd h.filesize (by decide +kernel)

end Sizes

end MessageQueue
end InterprocessComm
