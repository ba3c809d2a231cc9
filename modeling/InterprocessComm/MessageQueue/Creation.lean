import InterprocessComm.MessageQueue.Chains

/-!
# A new queue file

`mq_open` leaves a well-linked file with no message: its loop puts every slot into the
free chain.
-/

namespace InterprocessComm
namespace MessageQueue

open Verification

theorem freeListLoop_spec {sz : QueueSizes} {fuel k : Nat} {m m' : Mem} {last : Int}
    (hk : (k : Int) < sz.mq_maxmsg)
    (h : freeListLoop sz.mq_maxmsg sz.slotSize fuel k m (sz.slotOff k) = some (m', last)) :
    last = sz.slotOff (sz.mq_maxmsg.toNat - 1) ∧
      (forall j, k ≤ j -> j + 1 < sz.mq_maxmsg.toNat ->
        msgNext m' (sz.slotOff j) = sz.slotOff (j + 1)) ∧
      (forall x, x < sz.slotOff k -> m' x = m x) := by
  induction fuel generalizing k m with
  | zero => cases h
  | succ fuel ih =>
      unfold freeListLoop at h
      by_cases hlast : (k : Int) < sz.mq_maxmsg - 1
      · have hbounds := sz.slot_bounds (sz.mem_slots.mpr ⟨k + 1, by lia, rfl⟩)
        have hsize := sz.slotSize_ge
        have hmsgsize := sz.msgsize_pos
        have hfile := sz.filesize_lt
        have hsucc := sz.slotOff_succ k
        have hindex : toLong (sz.slotOff k + sz.slotSize) = sz.slotOff (k + 1) := by
          rw [← hsucc]
          exact Int.bmod_eq_of_le_mul_two (by lia) (by lia)
        by_cases hcounter : (k : Int) < INT_MAX
        · rw [if_pos hlast, if_pos hcounter, hindex] at h
          rcases ih (k := k + 1) (by lia) h with ⟨hend, hlinks, hframe⟩
          refine ⟨hend, ?_, ?_⟩
          · intro j hj hjlast
            rcases Nat.eq_or_lt_of_le hj with rfl | hlt
            · have hfits : FitsInt 8 (sz.slotOff (k + 1)) := by lia
              refine (getLong_congr fun x hx => ?_).trans
                (getLong_putLong (m := m) (a := sz.slotOff k) hfits)
              exact hframe x (by lia)
            · exact hlinks j hlt hjlast
          · intro x hx
            exact (hframe x (by lia)).trans (putLong_outside (by lia))
        · rw [if_pos hlast, if_neg hcounter] at h
          cases h
      · rw [if_neg hlast] at h
        cases h
        refine ⟨?_, ?_, fun _ _ => rfl⟩
        · congr 1
          lia
        · intro j hj hjlast
          lia

theorem freeListLoop_isSome {maxmsg slot : Int} (hmax : maxmsg ≤ 2 ^ 31) {fuel : Nat}
    {i : Int} (hfuel : maxmsg - 1 - i ≤ fuel) (m : Mem) (index : Int) :
    (freeListLoop maxmsg slot (fuel + 1) i m index).isSome = true := by
  induction fuel generalizing i m index with
  | zero =>
      unfold freeListLoop
      rw [if_neg (by lia)]
      rfl
  | succ fuel ih =>
      unfold freeListLoop
      by_cases hlast : i < maxmsg - 1
      · rw [if_pos hlast, if_pos (by unfold INT_MAX; lia)]
        exact ih (by lia) _ _
      · rw [if_neg hlast]
        rfl

theorem chain_slots {sz : QueueSizes} {m : Mem}
    (hlinks : forall j, j + 1 < sz.mq_maxmsg.toNat ->
      msgNext m (sz.slotOff j) = sz.slotOff (j + 1))
    (hlast : msgNext m (sz.slotOff (sz.mq_maxmsg.toNat - 1)) = 0)
    {len k : Nat} (hk : k + len = sz.mq_maxmsg.toNat) (hpos : 0 < len) :
    Chain (msgNext m) 0 (sz.slotOff k) ((List.range' k len).map sz.slotOff) := by
  induction len generalizing k with
  | zero => cases hpos
  | succ len ih =>
      have hbounds := sz.slot_bounds (sz.mem_slots.mpr ⟨k, by lia, rfl⟩)
      refine ⟨by lia, rfl, ?_⟩
      cases len with
      | zero =>
          have hkLast : k = sz.mq_maxmsg.toNat - 1 := by lia
          rw [hkLast]
          exact hlast
      | succ len =>
          rw [hlinks k (by lia)]
          exact ih (by lia) (by lia)

theorem mqOpenFields_values (sz : QueueSizes) (m : Mem) :
    mqMaxmsg (mqOpenFields sz.mq_maxmsg sz.mq_msgsize m) = sz.mq_maxmsg ∧
      mqMsgsize (mqOpenFields sz.mq_maxmsg sz.mq_msgsize m) = sz.mq_msgsize ∧
      mqCurmsgs (mqOpenFields sz.mq_maxmsg sz.mq_msgsize m) = 0 ∧
      mqhHead (mqOpenFields sz.mq_maxmsg sz.mq_msgsize m) = 0 ∧
      mqhFree (mqOpenFields sz.mq_maxmsg sz.mq_msgsize m) = sizeofMqHdr ∧
      mqhNwait (mqOpenFields sz.mq_maxmsg sz.mq_msgsize m) = 0 ∧
      mqhPid (mqOpenFields sz.mq_maxmsg sz.mq_msgsize m) = 0 := by
  have hmaxpos := sz.maxmsg_pos
  have hmaxlt := sz.maxmsg_lt
  have hsizepos := sz.msgsize_pos
  have hsizelt := sz.msgsize_lt
  unfold mqOpenFields mqMaxmsg mqMsgsize mqCurmsgs mqhHead mqhFree mqhNwait mqhPid
  simp (disch := lia) only [getLong_putLong_disjoint, getLong_putInt_disjoint,
    getInt_putLong_disjoint, getLong_putLong, getInt_putInt, and_self]

theorem QueueSizes.filesize_pos (sz : QueueSizes) : sizeofMqHdr < sz.filesize := by
  have hproduct : 0 < sz.mq_maxmsg * sz.slotSize := mul_pos sz.maxmsg_pos sz.slotSize_pos
  unfold QueueSizes.filesize
  lia

theorem mqOpenFilesize_eq (sz : QueueSizes) :
    mqOpenFilesize sz.mq_maxmsg sz.mq_msgsize = sz.filesize := by
  have hpos := sz.filesize_pos
  have hlt := sz.filesize_lt
  show toLong sz.filesize = sz.filesize
  exact Int.bmod_eq_of_le_mul_two (by lia) (by lia)

theorem mqOpenCreate_isSome {sz : QueueSizes} (hmax : sz.mq_maxmsg ≤ 2 ^ 31) :
    (mqOpenCreate sz.mq_maxmsg sz.mq_msgsize).isSome = true := by
  have hmaxpos := sz.maxmsg_pos
  have hsizepos := sz.msgsize_pos
  have hfile := sz.filesize_pos
  unfold mqOpenCreate
  rw [if_neg (by lia), mqOpenFilesize_eq, if_neg (by lia)]
  unfold mqOpenHeader
  rw [Option.isSome_map]
  obtain ⟨fuel, hfuel⟩ : exists fuel, sz.mq_maxmsg.toNat = fuel + 1 :=
    ⟨sz.mq_maxmsg.toNat - 1, by lia⟩
  rw [hfuel]
  exact freeListLoop_isSome hmax (by lia) _ _

/-- What `mq_open` creates is an empty queue with all slots on the free list. -/
theorem mqOpenCreate_wellLinked {sz : QueueSizes} {m : Mem}
    (h : mqOpenCreate sz.mq_maxmsg sz.mq_msgsize = some m) :
    WellLinked sz m [] sz.slots ∧ mqhNwait m = 0 ∧ mqhPid m = 0 := by
  have hmaxpos := sz.maxmsg_pos
  have hsizepos := sz.msgsize_pos
  have hslotSize := sz.slotSize_ge
  have hfirst : sz.slotOff 0 = sizeofMqHdr := by simp [QueueSizes.slotOff]
  rcases mqOpenFields_values sz (fun _ => 0) with
    ⟨hmax, hsize, hcur, hhead, hfree, hnwait, hpid⟩
  unfold mqOpenCreate at h
  rw [if_neg (by lia)] at h
  by_cases hlseek : mqOpenFilesize sz.mq_maxmsg sz.mq_msgsize - 1 < 0
  · rw [if_pos hlseek] at h
    cases h
  · rw [if_neg hlseek] at h
    unfold mqOpenHeader at h
    rcases Option.map_eq_some_iff.mp h with ⟨⟨linked, last⟩, hloop, rfl⟩
    rw [← hfirst] at hloop
    rcases freeListLoop_spec (k := 0) (by lia) hloop with ⟨hend, hlinks, hframe⟩
    have hlastSlot : last ∈ sz.slots := by
      rw [hend]
      exact sz.mem_slots.mpr ⟨_, by lia, rfl⟩
    have hlastBounds := sz.slot_bounds hlastSlot
    have hheader : forall x, x < sizeofMqHdr ->
        putLong linked last 0 x = mqOpenFields sz.mq_maxmsg sz.mq_msgsize (fun _ => 0) x := by
      intro x hx
      exact (putLong_outside (by lia)).trans (hframe x (by lia))
    have hlong : forall a, a + 8 ≤ sizeofMqHdr -> getLong (putLong linked last 0) a =
        getLong (mqOpenFields sz.mq_maxmsg sz.mq_msgsize (fun _ => 0)) a :=
      fun a ha => getLong_congr fun x hx => hheader x (by lia)
    refine ⟨?_, (hlong _ (by lia)).trans hnwait, ?_⟩
    · constructor
      · exact (hlong _ (by lia)).trans hmax
      · exact (hlong _ (by lia)).trans hsize
      · exact (hlong _ (by lia)).trans hcur
      · exact (hlong _ (by lia)).trans hhead
      · have hstart : mqhFree (putLong linked last 0) = sz.slotOff 0 := by
          rw [hfirst]
          exact (hlong _ (by lia)).trans hfree
        rw [hstart]
        unfold QueueSizes.slots
        rw [List.range_eq_range']
        refine chain_slots ?_ ?_ (Nat.zero_add _) (by lia)
        · intro j hj
          rw [← hlinks j (Nat.zero_le j) hj]
          have hle := sz.slotOff_le (show j < sz.mq_maxmsg.toNat - 1 by lia)
          exact getLong_putLong_disjoint (by lia)
        · rw [← hend]
          exact getLong_putLong (by lia)
      · exact List.Perm.refl _
      · intro i hi
        cases hi
    · exact (getInt_congr fun x hx => hheader x (by lia)).trans hpid

end MessageQueue
end InterprocessComm
