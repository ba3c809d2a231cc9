import InterprocessComm.Lib.Chain
import InterprocessComm.MessageQueue.Operations

/-!
# The two chains of a queue file

A well-linked file has the chain of queued messages and the free chain, which
share no slot and together use every slot.  This module says what filling,
linking and unlinking a slot do to a well-linked file.
-/

namespace InterprocessComm
namespace MessageQueue

open Verification

structure WellLinked (sz : QueueSizes) (m : Mem) (used free : List Int) : Prop where
  maxmsg : mqMaxmsg m = sz.mq_maxmsg
  msgsize : mqMsgsize m = sz.mq_msgsize
  curmsgs : mqCurmsgs m = used.length
  head : Chain (msgNext m) 0 (mqhHead m) used
  freeHead : Chain (msgNext m) 0 (mqhFree m) free
  slots : (used ++ free).Perm sz.slots
  lengths : forall i, i ∈ used -> 0 ≤ msgLen m i ∧ msgLen m i ≤ sz.mq_msgsize

namespace WellLinked

variable {sz : QueueSizes} {m m' : Mem} {used free : List Int}

theorem nodup (h : WellLinked sz m used free) : (used ++ free).Nodup :=
  h.slots.nodup_iff.mpr sz.slots_nodup

theorem slot_of_used (h : WellLinked sz m used free) {i : Int} (hi : i ∈ used) :
    i ∈ sz.slots :=
  h.slots.mem_iff.mp (List.mem_append_left free hi)

theorem slot_of_free (h : WellLinked sz m used free) {i : Int} (hi : i ∈ free) :
    i ∈ sz.slots :=
  h.slots.mem_iff.mp (List.mem_append_right used hi)

theorem length_add (h : WellLinked sz m used free) :
    (used.length : Int) + free.length = sz.mq_maxmsg := by
  have hlen := h.slots.length_eq
  have hslots := sz.slots_length
  rw [List.length_append] at hlen
  lia

theorem head_eq_zero_iff (h : WellLinked sz m used free) :
    mqhHead m = 0 <-> used = [] :=
  chain_nil_iff h.head

theorem curmsgs_eq_zero_iff (h : WellLinked sz m used free) :
    mqCurmsgs m = 0 <-> used = [] := by
  rw [h.curmsgs]
  simp

theorem free_ne_nil (h : WellLinked sz m used free) (hroom : mqCurmsgs m < mqMaxmsg m) :
    free ≠ [] := by
  intro hnil
  have hlen := h.length_add
  have hcur := h.curmsgs
  have hmax := h.maxmsg
  rw [hnil, List.length_nil] at hlen
  lia

end WellLinked

/-!
## Reading through changes elsewhere
-/

theorem toULong_of_length {sz : QueueSizes} {v : Int}
    (h : 0 ≤ v ∧ v ≤ sz.mq_msgsize) : toULong v = v := by
  have := sz.msgsize_lt
  exact Int.emod_eq_of_lt (by lia) (by lia)

theorem messageAt_congr {sz : QueueSizes} {m : Mem} (m' : Mem) {i : Int}
    (hlen : 0 ≤ msgLen m i ∧ msgLen m i ≤ sz.mq_msgsize)
    (hsame : forall x, i + offMsgLen ≤ x -> x < i + sz.slotSize -> m' x = m x) :
    msgLen m' i = msgLen m i ∧ messageAt m' i = messageAt m i := by
  have hsize := sz.slotSize_ge
  have hpos := sz.msgsize_pos
  have hlenEq : msgLen m' i = msgLen m i :=
    getLong_congr fun x hx => hsame x (by lia) (by lia)
  have hprioEq : msgPrio m' i = msgPrio m i :=
    getUInt_congr fun x hx => hsame x (by lia) (by lia)
  have hbytes : readBytes m' (i + sizeofMsgHdr) (toULong (msgLen m i)).toNat =
      readBytes m (i + sizeofMsgHdr) (toULong (msgLen m i)).toNat := by
    rw [toULong_of_length hlen]
    have hcount : ((msgLen m i).toNat : Int) = msgLen m i := Int.toNat_of_nonneg hlen.left
    apply readBytes_congr
    rintro x ⟨hlower, hupper⟩
    rw [hcount] at hupper
    exact hsame x (by lia) (by lia)
  refine ⟨hlenEq, ?_⟩
  unfold messageAt
  rw [hlenEq, hprioEq, hbytes]

/-- What lies between `mqh_free` and the first slot is no part of the chains. -/
theorem WellLinked.congr {sz : QueueSizes} {m m' : Mem} {used free : List Int}
    (h : WellLinked sz m used free)
    (hsame : forall x, x < offMqhNwait ∨ sizeofMqHdr ≤ x -> m' x = m x) :
    WellLinked sz m' used free := by
  have hnext : forall i, i ∈ sz.slots -> msgNext m' i = msgNext m i := by
    intro i hi
    have hbounds := sz.slot_bounds hi
    exact getLong_congr fun x hx => hsame x (by lia)
  have hheader : forall a, a + 8 ≤ offMqhNwait -> getLong m' a = getLong m a :=
    fun a ha => getLong_congr fun x hx => hsame x (by lia)
  constructor
  · rw [← h.maxmsg]
    exact hheader _ (by lia)
  · rw [← h.msgsize]
    exact hheader _ (by lia)
  · rw [← h.curmsgs]
    exact hheader _ (by lia)
  · have hhead : mqhHead m' = mqhHead m := hheader _ (by lia)
    rw [hhead]
    exact chain_congr h.head fun i hi => hnext i (h.slot_of_used hi)
  · have hfree : mqhFree m' = mqhFree m := hheader _ (by lia)
    rw [hfree]
    exact chain_congr h.freeHead fun i hi => hnext i (h.slot_of_free hi)
  · exact h.slots
  · intro i hi
    have hbounds := sz.slot_bounds (h.slot_of_used hi)
    have hcongr := messageAt_congr m' (h.lengths i hi)
      fun x hx _ => hsame x (by lia)
    rw [hcongr.left]
    exact h.lengths i hi

theorem WellLinked.messageAt_congr {sz : QueueSizes} {m m' : Mem} {used free : List Int}
    (h : WellLinked sz m used free)
    (hsame : forall x, x < offMqhNwait ∨ sizeofMqHdr ≤ x -> m' x = m x)
    {i : Int} (hi : i ∈ used) : messageAt m' i = messageAt m i := by
  have hbounds := sz.slot_bounds (h.slot_of_used hi)
  exact (MessageQueue.messageAt_congr m' (h.lengths i hi)
    fun x hx _ => hsame x (by lia)).right

/-!
## Filling a slot
-/

section Fill

variable {m : Mem} {f : Int} {buf : List UInt8} {prio : UInt32}

theorem mqSendFill_outside {x : Int}
    (hslot : ¬ InRange (f + offMsgLen) (16 + buf.length) x)
    (hfree : ¬ InRange offMqhFree 8 x) : mqSendFill m f buf prio x = m x := by
  unfold mqSendFill
  rw [putLong_outside hfree, writeBytes_outside (by lia),
    putLong_outside (by lia), putUInt_outside (by lia)]

theorem mqSendFill_free :
    mqhFree (mqSendFill m f buf prio) = msgNext m f := by
  apply (getLong_putLong (fits_getLong _ _)).trans
  apply getLong_congr
  intro x hx
  rw [writeBytes_outside (by lia), putLong_outside (by lia), putUInt_outside (by lia)]

theorem mqSendFill_messageAt (hf : sizeofMqHdr ≤ f) (hlen : (buf.length : Int) < 2 ^ 63) :
    msgLen (mqSendFill m f buf prio) f = buf.length ∧
      messageAt (mqSendFill m f buf prio) f = { prio := prio, data := buf } := by
  have hprio : msgPrio (mqSendFill m f buf prio) f = prio := by
    refine (getUInt_congr fun x hx => ?_).trans (getUInt_putUInt m (f + offMsgPrio) prio)
    unfold mqSendFill
    rw [putLong_outside (by lia), writeBytes_outside (by lia), putLong_outside (by lia)]
  have hlenEq : msgLen (mqSendFill m f buf prio) f = buf.length := by
    have hfits : FitsInt 8 (buf.length : Int) := by lia
    refine (getLong_congr fun x hx => ?_).trans
      (getLong_putLong (m := putUInt m (f + offMsgPrio) prio) hfits)
    unfold mqSendFill
    rw [putLong_outside (by lia), writeBytes_outside (by lia)]
  refine ⟨hlenEq, ?_⟩
  have hcount : (toULong (buf.length : Int)).toNat = buf.length := by
    unfold toULong
    rw [Int.emod_eq_of_lt] <;> lia
  have hbytes :
      readBytes (mqSendFill m f buf prio) (f + sizeofMsgHdr) buf.length = buf := by
    refine (readBytes_congr fun x hx => ?_).trans
      (readBytes_writeBytes
        (putLong (putUInt m (f + offMsgPrio) prio) (f + offMsgLen) buf.length)
        (f + sizeofMsgHdr) buf)
    exact putLong_outside (by lia)
  unfold messageAt
  rw [hprio, hlenEq, hcount, hbytes]

end Fill

/-!
## The walk to the place of the message
-/

/-- The walk ends, behind the cells of at least the new priority and in front of a
lower one, and changes two links: that of the cell it stopped behind, and that
of the new message. -/
theorem mqSendWalk_spec (prio : UInt32) {n : Int} (hn : FitsInt 8 n)
    {m : Mem} (fuel : Nat) {p : Int} {ys : List Int}
    (hchain : Chain (msgNext m) 0 (msgNext m p) ys)
    (hfuel : ys.length < fuel)
    (hdisjoint : forall c, c ∈ p :: ys -> DisjointRanges n 8 c 8) :
    exists front back q m',
      ys = front ++ back ∧ (p :: front).getLast? = some q ∧
        (forall i, i ∈ front -> prio ≤ msgPrio m i) ∧
        (forall i, i ∈ back.head? -> msgPrio m i < prio) ∧
        mqSendWalk prio n fuel m p (msgNext m p) = some m' ∧
        msgNext m' n = msgNext m q ∧ msgNext m' q = n ∧
        (forall x, ¬ InRange n 8 x -> ¬ InRange q 8 x -> m' x = m x) := by
  induction ys generalizing p fuel with
  | nil =>
      cases fuel with
      | zero => simp at hfuel
      | succ fuel =>
          have hnull : msgNext m p = 0 := hchain
          have hp := hdisjoint p List.mem_cons_self
          refine ⟨[], [], p, putLong (putLong m p n) n 0, rfl, rfl,
            by simp, by simp, ?_, ?_, ?_, ?_⟩
          · simp [mqSendWalk, hnull]
          · rw [hnull]
            exact getLong_putLong (by lia)
          · have hkeep : msgNext (putLong (putLong m p n) n 0) p =
                msgNext (putLong m p n) p := getLong_putLong_disjoint (by lia)
            rw [hkeep]
            exact getLong_putLong hn
          · intro x hx hxp
            rw [putLong_outside hx, putLong_outside hxp]
  | cons i rest ih =>
      rcases hchain with ⟨hne, hpi, hrest⟩
      cases fuel with
      | zero => simp at hfuel
      | succ fuel =>
          have hp := hdisjoint p List.mem_cons_self
          by_cases hlow : msgPrio m i < prio
          · refine ⟨[], i :: rest, p, putLong (putLong m n i) p n, rfl, rfl,
              by simp, ?_, ?_, ?_, ?_, ?_⟩
            · intro j hj
              have hji : i = j := by simpa using hj
              rw [← hji]
              exact hlow
            · simp [mqSendWalk, hpi, hne, hlow]
            · have hkeep : msgNext (putLong (putLong m n i) p n) n =
                  msgNext (putLong m n i) n := getLong_putLong_disjoint (by lia)
              have hfits : FitsInt 8 i := by
                rw [← hpi]
                exact fits_getLong m p
              rw [hkeep, hpi]
              exact getLong_putLong hfits
            · exact getLong_putLong hn
            · intro x hx hxp
              rw [putLong_outside hxp, putLong_outside hx]
          · have hwalk : mqSendWalk prio n (fuel + 1) m p (msgNext m p) =
                mqSendWalk prio n fuel m i (msgNext m i) := by
              simp [mqSendWalk, hpi, hne, hlow]
            rcases ih fuel hrest (Nat.lt_of_succ_lt_succ hfuel)
                (fun c hc => hdisjoint c (List.mem_cons_of_mem p hc)) with
              ⟨front, back, q, m', hsplit, hlast, hfront, hback, hsome,
                hnextN, hnextQ, hframe⟩
            refine ⟨i :: front, back, q, m', by rw [hsplit]; rfl, ?_, ?_, hback,
              hwalk.trans hsome, hnextN, hnextQ, hframe⟩
            · simpa [List.getLast?_cons_cons] using hlast
            · intro j hj
              rcases List.mem_cons.mp hj with rfl | hmem
              · exact UInt32.not_lt.mp hlow
              · exact hfront j hmem

/-!
## Linking a message
-/

/-- The link cells a walk can meet: the list head and the slots of the queue. -/
theorem cell_disjoint {sz : QueueSizes} {m : Mem} {used rest : List Int} {f c : Int}
    (h : WellLinked sz m used (f :: rest)) (hc : c ∈ offMqhHead :: used) :
    c = offMqhHead ∧ DisjointRanges f sz.slotSize.toNat c 8 ∨
      c ∈ sz.slots ∧ DisjointRanges f sz.slotSize.toNat c sz.slotSize.toNat := by
  have hfSlot := h.slot_of_free List.mem_cons_self
  have hf := sz.slot_bounds hfSlot
  have hsize := sz.slotSize_pos
  rcases List.mem_cons.mp hc with rfl | hused
  · exact Or.inl ⟨rfl, by lia⟩
  · have hne : f ≠ c := by
      intro heq
      subst heq
      have hdisjoint := List.disjoint_of_nodup_append h.nodup
      exact hdisjoint hused List.mem_cons_self
    have hcSlot := h.slot_of_used hused
    have hslots := sz.slots_disjoint hfSlot hcSlot hne
    exact Or.inr ⟨hcSlot, by lia⟩

/-- What a send that takes the slot `f` off the free list writes: the message stands
between `front` and `back`, behind the cell `q`. -/
structure Linked (m : Mem) (used : List Int) (f : Int) (buf : List UInt8)
    (prio : UInt32) (front back : List Int) (q : Int) (m' : Mem) : Prop where
  split : used = front ++ back
  behind : forall i, i ∈ front -> prio ≤ msgPrio m i
  before : forall i, i ∈ back.head? -> msgPrio m i < prio
  last : (offMqhHead :: front).getLast? = some q
  next : msgNext m' f = msgNext m q
  link : msgNext m' q = f
  freeHead : mqhFree m' = msgNext m f
  curmsgs : mqCurmsgs m' = mqCurmsgs m + 1
  length : msgLen m' f = buf.length
  message : messageAt m' f = { prio := prio, data := buf }
  outside : forall x, ¬ InRange f (24 + buf.length) x -> ¬ InRange q 8 x ->
    ¬ InRange offMqCurmsgs 8 x -> ¬ InRange offMqhFree 8 x -> m' x = m x

theorem Linked.cell_mem {m m' : Mem} {used front back : List Int} {f q : Int}
    {buf : List UInt8} {prio : UInt32}
    (h : Linked m used f buf prio front back q m') : q ∈ offMqhHead :: used := by
  rw [h.split]
  rcases List.mem_cons.mp (List.mem_of_getLast? h.last) with rfl | hmem
  · exact List.mem_cons_self
  · exact List.mem_cons_of_mem _ (List.mem_append_left back hmem)

theorem mqSendFill_cell {sz : QueueSizes} {m : Mem} {used rest : List Int} {f c x : Int}
    (h : WellLinked sz m used (f :: rest)) {buf : List UInt8}
    (hlen : (buf.length : Int) ≤ sz.mq_msgsize) (prio : UInt32)
    (hc : c ∈ offMqhHead :: used) (hx : InRange c 24 x) (hfree : x < offMqhFree ∨ 48 ≤ x) :
    mqSendFill m f buf prio x = m x := by
  have hsize := sz.slotSize_ge
  have hf := sz.slot_bounds (h.slot_of_free List.mem_cons_self)
  apply mqSendFill_outside
  · rcases cell_disjoint h hc with ⟨rfl, hdisj⟩ | ⟨hcSlot, hdisj⟩
    · lia
    · lia
  · lia

theorem mqSendLink_spec {sz : QueueSizes} {m : Mem} {used rest : List Int} {f : Int}
    (h : WellLinked sz m used (f :: rest)) {buf : List UInt8}
    (hlen : (buf.length : Int) ≤ sz.mq_msgsize) (prio : UInt32) (sig : Option Sigqueue) :
    exists front back q m',
      Linked m used f buf prio front back q m' ∧
        mqSendLink m buf prio sig =
          { mem := m', outcome := Outcome.returns MqReturn.sent,
            signals := decide (mqCurmsgs m = 0), sigqueue := sig } := by
  have hmsgsize := sz.msgsize_lt
  have hslotSize := sz.slotSize_ge
  have hmaxmsg := sz.maxmsg_lt
  have hf := sz.slot_bounds (h.slot_of_free List.mem_cons_self)
  have hfile := sz.filesize_lt
  have hfree : mqhFree m = f := h.freeHead.right.left
  have hfne : f ≠ 0 := h.freeHead.left
  have hadd := h.length_add
  rw [List.length_cons] at hadd
  have hcells := fun c (hc : c ∈ offMqhHead :: used) => cell_disjoint h hc
  have hslotCell : forall i, i ∈ used -> sizeofMqHdr ≤ i := fun i hi =>
    (sz.slot_bounds (h.slot_of_used hi)).left
  -- filling leaves the chain of queued messages alone
  let filled := mqSendFill m f buf prio
  have hnextFilled : forall c, c ∈ offMqhHead :: used ->
      msgNext filled c = msgNext m c := by
    intro c hc
    apply getLong_congr
    intro x hx
    apply mqSendFill_cell h hlen prio hc (by lia)
    rcases List.mem_cons.mp hc with rfl | hmem
    · lia
    · have := hslotCell c hmem
      lia
  have hprioFilled : forall i, i ∈ used -> msgPrio filled i = msgPrio m i := by
    intro i hi
    have := hslotCell i hi
    apply getUInt_congr
    intro x hx
    exact mqSendFill_cell h hlen prio (List.mem_cons_of_mem _ hi) (by lia) (by lia)
  have hcurFilled : mqCurmsgs filled = mqCurmsgs m :=
    getLong_congr fun x hx => mqSendFill_outside (by lia) (by lia)
  have hchain : Chain (msgNext filled) 0 (msgNext filled offMqhHead) used := by
    rw [hnextFilled offMqhHead List.mem_cons_self]
    exact chain_congr h.head fun i hi => hnextFilled i (List.mem_cons_of_mem _ hi)
  rcases mqSendWalk_spec prio (n := f) (by lia) ((mqMaxmsg m).toNat + 1) hchain
    (by rw [h.maxmsg]; lia)
    (fun c hc => by
      rcases hcells c hc with ⟨rfl, hdisj⟩ | ⟨_, hdisj⟩ <;> lia) with
    ⟨front, back, q, walked, hsplit, hlast, hfront, hback, hwalk, hnextF, hnextQ, hframe⟩
  have hqMem : q ∈ offMqhHead :: used := by
    rw [hsplit]
    rcases List.mem_cons.mp (List.mem_of_getLast? hlast) with rfl | hmem
    · exact List.mem_cons_self
    · exact List.mem_cons_of_mem _ (List.mem_append_left back hmem)
  have hqPlace : q = offMqhHead ∨ sizeofMqHdr ≤ q := by
    rcases List.mem_cons.mp hqMem with rfl | hmem
    · exact Or.inl rfl
    · exact Or.inr (hslotCell q hmem)
  have hqf : DisjointRanges f sz.slotSize.toNat q 8 := by
    have hsize := sz.slotSize_pos
    rcases hcells q hqMem with ⟨_, hdisj⟩ | ⟨_, hdisj⟩
    · exact hdisj
    · lia
  have hcurWalked : mqCurmsgs walked = mqCurmsgs m := by
    rw [← hcurFilled]
    exact getLong_congr fun x hx => hframe x (by lia) (by lia)
  let m' := putLong walked offMqCurmsgs (mqCurmsgs walked + 1)
  have hlast' : forall a, a + 8 ≤ offMqCurmsgs ∨ offMqhHead ≤ a ->
      getLong m' a = getLong walked a :=
    fun a ha => getLong_putLong_disjoint (by lia)
  have hfilledMsg : msgLen filled f = buf.length ∧
      messageAt filled f = { prio := prio, data := buf } :=
    mqSendFill_messageAt hf.left (by lia)
  have hmessage := messageAt_congr m'
    (show 0 ≤ msgLen filled f ∧ msgLen filled f ≤ sz.mq_msgsize by
      rw [hfilledMsg.left]
      lia)
    (fun x hx hx' => (putLong_outside (by lia)).trans (hframe x (by lia) (by lia)))
  refine ⟨front, back, q, m', ?_, ?_⟩
  · constructor
    · exact hsplit
    · intro i hi
      rw [← hprioFilled i (by rw [hsplit]; exact List.mem_append_left back hi)]
      exact hfront i hi
    · intro i hi
      have hmem : i ∈ used := by
        rw [hsplit]
        exact List.mem_append_right front (List.mem_of_mem_head? hi)
      rw [← hprioFilled i hmem]
      exact hback i hi
    · exact hlast
    · rw [← hnextFilled q hqMem, ← hnextF]
      exact hlast' f (by lia)
    · exact (hlast' q (by lia)).trans hnextQ
    · calc
        mqhFree m' = mqhFree walked := hlast' offMqhFree (by lia)
        _ = mqhFree filled := getLong_congr fun x hx => hframe x (by lia) (by lia)
        _ = msgNext m f := mqSendFill_free
    · have hfits : FitsInt 8 (mqCurmsgs walked + 1) := by
        rw [hcurWalked, h.curmsgs]
        lia
      rw [← hcurWalked]
      exact getLong_putLong hfits
    · exact hmessage.left.trans hfilledMsg.left
    · exact hmessage.right.trans hfilledMsg.right
    · intro x hx hxq hxc hxf
      calc
        m' x = walked x := putLong_outside hxc
        _ = filled x := hframe x (by lia) hxq
        _ = m x := mqSendFill_outside (by lia) hxf
  · have hwalk' : mqSendWalk prio f ((mqMaxmsg m).toNat + 1) filled offMqhHead
        (mqhHead filled) = some walked := hwalk
    have hsignals : decide (mqCurmsgs walked = 0) = decide (mqCurmsgs m = 0) := by
      rw [hcurWalked]
    unfold mqSendLink
    simp only [hfree, if_neg hfne]
    rw [hwalk']
    show Stretch.mk m' _ (decide (mqCurmsgs walked = 0)) sig = _
    rw [hsignals]

theorem Linked.wellLinked {sz : QueueSizes} {m m' : Mem} {used rest front back : List Int}
    {f q : Int} {buf : List UInt8} {prio : UInt32}
    (h : WellLinked sz m used (f :: rest)) (hlen : (buf.length : Int) ≤ sz.mq_msgsize)
    (hlinked : Linked m used f buf prio front back q m') :
    WellLinked sz m' (front ++ f :: back) rest ∧
      forall i, i ∈ used -> messageAt m' i = messageAt m i := by
  have hslotSize := sz.slotSize_ge
  have hfSlot := h.slot_of_free List.mem_cons_self
  have hf := sz.slot_bounds hfSlot
  have hnodup := List.nodup_append.mp h.nodup
  have hq := hlinked.cell_mem
  have hqf := cell_disjoint h hq
  have hqPlace : q = offMqhHead ∨ sizeofMqHdr ≤ q := by
    rcases hqf with ⟨hhead, _⟩ | ⟨hslot, _⟩
    · exact Or.inl hhead
    · exact Or.inr (sz.slot_bounds hslot).left
  have hfq : DisjointRanges f sz.slotSize.toNat q 8 := by
    rcases hqf with ⟨_, hdisj⟩ | ⟨_, hdisj⟩
    · exact hdisj
    · lia
  have hheader : forall a, a + 8 ≤ offMqCurmsgs -> getLong m' a = getLong m a := by
    intro a ha
    exact getLong_congr fun x hx =>
      hlinked.outside x (by lia) (by lia) (by lia) (by lia)
  -- slots other than `f` keep their bytes, but for the link of `q`
  have hslot : forall i, i ∈ sz.slots -> i ≠ f -> forall x, InRange i sz.slotSize.toNat x ->
      i + 8 ≤ x ∨ i ≠ q -> m' x = m x := by
    intro i hi hif x hx hlink
    have hbounds := sz.slot_bounds hi
    have hdisjoint := sz.slots_disjoint hi hfSlot hif
    have hqi : ¬ InRange q 8 x := by
      rcases hqf with ⟨rfl, _⟩ | ⟨hqSlot, _⟩
      · lia
      · by_cases hiq : i = q
        · subst hiq
          lia
        · have hdisjointQ := sz.slots_disjoint hi hqSlot hiq
          lia
    exact hlinked.outside x (by lia) hqi (by lia) (by lia)
  have hne : forall i, i ∈ used ++ rest -> i ≠ f := by
    intro i hi heq
    subst heq
    rcases List.mem_append.mp hi with hused | hrest
    · exact hnodup.right.right i hused i List.mem_cons_self rfl
    · exact (List.nodup_cons.mp hnodup.right.left).left hrest
  have hmessage : forall i, i ∈ used ->
      msgLen m' i = msgLen m i ∧ messageAt m' i = messageAt m i := by
    intro i hi
    have hif := hne i (List.mem_append_left rest hi)
    exact messageAt_congr m' (h.lengths i hi) fun x hx hx' =>
      hslot i (h.slot_of_used hi) hif x (by lia) (by lia)
  have hnext : forall c, c ∈ offMqhHead :: (used ++ rest) -> c ≠ q ->
      msgNext m' c = msgNext m c := by
    intro c hc hcq
    apply getLong_congr
    intro x hx
    rcases List.mem_cons.mp hc with rfl | hmem
    · exact hlinked.outside x (by lia) (by lia) (by lia) (by lia)
    · have hcSlot : c ∈ sz.slots := by
        rcases List.mem_append.mp hmem with hused | hrest
        · exact h.slot_of_used hused
        · exact h.slot_of_free (List.mem_cons_of_mem f hrest)
      exact hslot c hcSlot (hne c hmem) x (by lia) (Or.inr hcq)
  refine ⟨?_, fun i hi => (hmessage i hi).right⟩
  constructor
  · rw [← h.maxmsg]
    exact hheader _ (by lia)
  · rw [← h.msgsize]
    exact hheader _ (by lia)
  · rw [hlinked.curmsgs, h.curmsgs, hlinked.split]
    simp only [List.length_append, List.length_cons]
    push_cast
    ring
  · have hchain := h.head
    rw [hlinked.split] at hchain
    refine chain_insert hchain hlinked.last ?_ h.freeHead.left hlinked.next hlinked.link ?_
    · rw [← hlinked.split]
      refine List.nodup_cons.mpr ⟨?_, hnodup.left⟩
      intro hmem
      have hbounds := sz.slot_bounds (h.slot_of_used hmem)
      lia
    · intro c hc hcq
      rw [← hlinked.split] at hc
      refine hnext c ?_ hcq
      rcases List.mem_cons.mp hc with rfl | hmem
      · exact List.mem_cons_self
      · exact List.mem_cons_of_mem _ (List.mem_append_left rest hmem)
  · rw [hlinked.freeHead]
    refine chain_congr h.freeHead.right.right fun i hi => ?_
    apply hnext i (List.mem_cons_of_mem _ (List.mem_append_right used hi))
    intro hiq
    subst hiq
    rcases List.mem_cons.mp hq with hhead | hmem
    · have hbounds := sz.slot_bounds (h.slot_of_free (List.mem_cons_of_mem f hi))
      lia
    · exact hnodup.right.right i hmem i (List.mem_cons_of_mem f hi) rfl
  · refine List.Perm.trans ?_ h.slots
    rw [hlinked.split, List.append_assoc, List.append_assoc]
    exact (List.perm_middle.symm).append_left front
  · intro i hi
    rcases List.mem_append.mp hi with hfront | hback
    · have hmem : i ∈ used := by
        rw [hlinked.split]
        exact List.mem_append_left back hfront
      rw [(hmessage i hmem).left]
      exact h.lengths i hmem
    · rcases List.mem_cons.mp hback with rfl | hmemBack
      · rw [hlinked.length]
        exact ⟨by lia, hlen⟩
      · have hmem : i ∈ used := by
          rw [hlinked.split]
          exact List.mem_append_right front hmemBack
        rw [(hmessage i hmem).left]
        exact h.lengths i hmem

theorem Linked.outside_header {sz : QueueSizes} {m m' : Mem}
    {used rest front back : List Int} {f q : Int} {buf : List UInt8} {prio : UInt32}
    (h : WellLinked sz m used (f :: rest))
    (hlinked : Linked m used f buf prio front back q m') {x : Int}
    (hlower : offMqhNwait ≤ x) (hupper : x < sizeofMqHdr) : m' x = m x := by
  have hf := sz.slot_bounds (h.slot_of_free List.mem_cons_self)
  have hq : ¬ InRange q 8 x := by
    rcases List.mem_cons.mp hlinked.cell_mem with rfl | hmem
    · lia
    · have hbounds := sz.slot_bounds (h.slot_of_used hmem)
      lia
  exact hlinked.outside x (by lia) hq (by lia) (by lia)

/-!
## Unlinking the first message
-/

structure Unlinked (m : Mem) (i : Int) (m' : Mem) : Prop where
  head : mqhHead m' = msgNext m i
  next : msgNext m' i = mqhFree m
  freeHead : mqhFree m' = i
  curmsgs : mqCurmsgs m' = mqCurmsgs m - 1
  outside : forall x, ¬ InRange i 8 x -> ¬ InRange offMqhHead 8 x ->
    ¬ InRange offMqCurmsgs 8 x -> ¬ InRange offMqhFree 8 x -> m' x = m x

theorem messageAt_data_length {sz : QueueSizes} {m : Mem} {i : Int}
    (hlen : 0 ≤ msgLen m i ∧ msgLen m i ≤ sz.mq_msgsize) :
    ((messageAt m i).data.length : Int) = msgLen m i := by
  have hcount := toULong_of_length hlen
  unfold messageAt
  rw [readBytes_length, hcount]
  exact Int.toNat_of_nonneg hlen.left

theorem mqReceiveTake_spec {sz : QueueSizes} {m : Mem} {i : Int} {used free : List Int}
    (h : WellLinked sz m (i :: used) free) (priop : Bool) :
    exists m',
      Unlinked m i m' ∧
        mqReceiveTake m priop =
          { mem := m',
            outcome := Outcome.returns (MqReturn.received
              (messageAt m i).data.length (messageAt m i).data
              (if priop then some (messageAt m i).prio else none)),
            signals := decide (mqCurmsgs m = mqMaxmsg m), sigqueue := none } := by
  have hslotSize := sz.slotSize_ge
  have hmsgsize := sz.msgsize_pos
  have hmaxmsg := sz.maxmsg_lt
  have hfile := sz.filesize_lt
  have hiSlot := h.slot_of_used List.mem_cons_self
  have hi := sz.slot_bounds hiSlot
  have hhead : mqhHead m = i := h.head.right.left
  have hine : i ≠ 0 := h.head.left
  have hadd := h.length_add
  rw [List.length_cons] at hadd
  have hcurm := h.curmsgs
  rw [List.length_cons] at hcurm
  let m₁ := putLong m offMqhHead (msgNext m i)
  let m₂ := putLong m₁ i (mqhFree m₁)
  let m₃ := putLong m₂ offMqhFree i
  have hcur : mqCurmsgs m₃ = mqCurmsgs m := by
    apply getLong_congr
    intro x hx
    exact (putLong_outside (by lia)).trans
      ((putLong_outside (by lia)).trans (putLong_outside (by lia)))
  have hmax : mqMaxmsg m₃ = mqMaxmsg m := by
    apply getLong_congr
    intro x hx
    exact (putLong_outside (by lia)).trans
      ((putLong_outside (by lia)).trans (putLong_outside (by lia)))
  have hfree₁ : mqhFree m₁ = mqhFree m := getLong_putLong_disjoint (by lia)
  have hmessage := messageAt_congr m₁ (h.lengths i List.mem_cons_self)
    fun x hx _ => putLong_outside (by lia)
  let m' := putLong m₃ offMqCurmsgs (mqCurmsgs m₃ - 1)
  refine ⟨m', ?_, ?_⟩
  · constructor
    · refine (getLong_congr fun x hx => ?_).trans
        (getLong_putLong (m := m) (a := offMqhHead) (fits_getLong m i))
      exact (putLong_outside (by lia)).trans
        ((putLong_outside (by lia)).trans (putLong_outside (by lia)))
    · rw [← hfree₁]
      refine (getLong_congr fun x hx => ?_).trans
        (getLong_putLong (m := m₁) (a := i) (fits_getLong m₁ offMqhFree))
      exact (putLong_outside (by lia)).trans (putLong_outside (by lia))
    · have hfits : FitsInt 8 i := by lia
      refine (getLong_congr fun x hx => ?_).trans
        (getLong_putLong (m := m₂) (a := offMqhFree) hfits)
      exact putLong_outside (by lia)
    · have hfits : FitsInt 8 (mqCurmsgs m₃ - 1) := by
        rw [hcur, hcurm]
        lia
      rw [← hcur]
      exact getLong_putLong hfits
    · intro x hxi hxh hxc hxf
      exact (putLong_outside hxc).trans ((putLong_outside hxf).trans
        ((putLong_outside hxi).trans (putLong_outside hxh)))
  · have hlen : msgLen m₁ i = (messageAt m i).data.length :=
      hmessage.left.trans (messageAt_data_length (h.lengths i List.mem_cons_self)).symm
    have hdata : readBytes m₁ (i + sizeofMsgHdr) (toULong (msgLen m₁ i)).toNat =
        (messageAt m i).data := by
      rw [← messageAt_data, hmessage.right]
    have hprio : msgPrio m₁ i = (messageAt m i).prio := by
      rw [← messageAt_prio, hmessage.right]
    have hsignals : decide (mqCurmsgs m₃ = mqMaxmsg m₃) =
        decide (mqCurmsgs m = mqMaxmsg m) := by
      rw [hcur, hmax]
    unfold mqReceiveTake
    simp only [hhead, if_neg hine]
    show Stretch.mk m' (Outcome.returns (MqReturn.received (msgLen m₁ i)
      (readBytes m₁ (i + sizeofMsgHdr) (toULong (msgLen m₁ i)).toNat)
      (if priop then some (msgPrio m₁ i) else none)))
      (decide (mqCurmsgs m₃ = mqMaxmsg m₃)) none = _
    rw [hdata, hprio, hlen, hsignals]

theorem Unlinked.wellLinked {sz : QueueSizes} {m m' : Mem} {i : Int} {used free : List Int}
    (h : WellLinked sz m (i :: used) free) (hunlinked : Unlinked m i m') :
    WellLinked sz m' used (i :: free) ∧
      forall j, j ∈ used -> messageAt m' j = messageAt m j := by
  have hslotSize := sz.slotSize_ge
  have hmsgsize := sz.msgsize_pos
  have hiSlot := h.slot_of_used List.mem_cons_self
  have hi := sz.slot_bounds hiSlot
  have hnodup := List.nodup_cons.mp h.nodup
  have hheader : forall a, a + 8 ≤ offMqCurmsgs -> getLong m' a = getLong m a := by
    intro a ha
    exact getLong_congr fun x hx =>
      hunlinked.outside x (by lia) (by lia) (by lia) (by lia)
  have hslot : forall j, j ∈ used ++ free -> forall x, InRange j sz.slotSize.toNat x ->
      m' x = m x := by
    intro j hj x hx
    have hjSlot : j ∈ sz.slots :=
      h.slots.mem_iff.mp (List.mem_cons_of_mem i hj)
    have hji : j ≠ i := by
      intro heq
      subst heq
      exact hnodup.left hj
    have hbounds := sz.slot_bounds hjSlot
    have hdisjoint := sz.slots_disjoint hjSlot hiSlot hji
    exact hunlinked.outside x (by lia) (by lia) (by lia) (by lia)
  have hnext : forall j, j ∈ used ++ free -> msgNext m' j = msgNext m j :=
    fun j hj => getLong_congr fun x hx => hslot j hj x (by lia)
  have hmessage : forall j, j ∈ used ->
      msgLen m' j = msgLen m j ∧ messageAt m' j = messageAt m j := by
    intro j hj
    exact messageAt_congr m' (h.lengths j (List.mem_cons_of_mem i hj))
      fun x hx hx' => hslot j (List.mem_append_left free hj) x (by lia)
  refine ⟨?_, fun j hj => (hmessage j hj).right⟩
  constructor
  · rw [← h.maxmsg]
    exact hheader _ (by lia)
  · rw [← h.msgsize]
    exact hheader _ (by lia)
  · rw [hunlinked.curmsgs, h.curmsgs, List.length_cons]
    push_cast
    ring
  · rw [hunlinked.head]
    exact chain_congr h.head.right.right fun j hj => hnext j (List.mem_append_left free hj)
  · refine ⟨h.head.left, hunlinked.freeHead, ?_⟩
    rw [hunlinked.next]
    exact chain_congr h.freeHead fun j hj => hnext j (List.mem_append_right used hj)
  · exact List.perm_middle.trans h.slots
  · intro j hj
    rw [(hmessage j hj).left]
    exact h.lengths j (List.mem_cons_of_mem i hj)

theorem Unlinked.outside_header {sz : QueueSizes} {m m' : Mem} {i : Int}
    {used free : List Int} (h : WellLinked sz m (i :: used) free)
    (hunlinked : Unlinked m i m') {x : Int}
    (hlower : offMqhNwait ≤ x) (hupper : x < sizeofMqHdr) : m' x = m x := by
  have hi := sz.slot_bounds (h.slot_of_used List.mem_cons_self)
  exact hunlinked.outside x (by lia) (by lia) (by lia) (by lia)

end MessageQueue
end InterprocessComm
