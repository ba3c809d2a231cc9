import InterprocessComm.Lib.ByteMemory
import InterprocessComm.Posix
import Mathlib.Data.List.Nodup

/-!
# The mapped queue file

The layout of `struct mq_hdr` and `struct msg_hdr` in the mapped file, with the
sizes of the 64-bit Linux ABI, and the arithmetic of the message slots.
-/

namespace InterprocessComm
namespace MessageQueue

open Verification

/-!
# Integers in the file
-/

def getLong (m : Mem) (a : Int) : Int := loadInt 8 m a

def putLong (m : Mem) (a v : Int) : Mem := storeInt 8 m a v

def getInt (m : Mem) (a : Int) : Int := loadInt 4 m a

def putInt (m : Mem) (a v : Int) : Mem := storeInt 4 m a v

def getUInt (m : Mem) (a : Int) : UInt32 := UInt32.ofNat (loadNat 4 m a)

def putUInt (m : Mem) (a : Int) (v : UInt32) : Mem := storeInt 4 m a v.toNat

theorem putLong_outside {m : Mem} {a v x : Int} (h : ¬ InRange a 8 x) :
    putLong m a v x = m x :=
  storeInt_outside h

theorem putInt_outside {m : Mem} {a v x : Int} (h : ¬ InRange a 4 x) :
    putInt m a v x = m x :=
  storeInt_outside h

theorem putUInt_outside {m : Mem} {a x : Int} {v : UInt32} (h : ¬ InRange a 4 x) :
    putUInt m a v x = m x :=
  storeInt_outside h

theorem getLong_congr {m m' : Mem} {a : Int}
    (h : forall x, InRange a 8 x -> m' x = m x) : getLong m' a = getLong m a :=
  loadInt_congr h

theorem getInt_congr {m m' : Mem} {a : Int}
    (h : forall x, InRange a 4 x -> m' x = m x) : getInt m' a = getInt m a :=
  loadInt_congr h

theorem getUInt_congr {m m' : Mem} {a : Int}
    (h : forall x, InRange a 4 x -> m' x = m x) : getUInt m' a = getUInt m a := by
  unfold getUInt
  rw [loadNat_congr h]

theorem getLong_putLong {m : Mem} {a v : Int} (h : FitsInt 8 v) :
    getLong (putLong m a v) a = v :=
  loadInt_storeInt h

theorem getLong_putLong_disjoint {m : Mem} {a b v : Int} (h : DisjointRanges a 8 b 8) :
    getLong (putLong m b v) a = getLong m a :=
  loadInt_storeInt_disjoint h

theorem getLong_putInt_disjoint {m : Mem} {a b v : Int} (h : DisjointRanges a 8 b 4) :
    getLong (putInt m b v) a = getLong m a :=
  loadInt_storeInt_disjoint h

theorem getInt_putLong_disjoint {m : Mem} {a b v : Int} (h : DisjointRanges a 4 b 8) :
    getInt (putLong m b v) a = getInt m a :=
  loadInt_storeInt_disjoint h

theorem fits_getLong (m : Mem) (a : Int) : FitsInt 8 (getLong m a) :=
  loadInt_fits 8 m a

theorem getInt_putInt {m : Mem} {a v : Int} (h : FitsInt 4 v) :
    getInt (putInt m a v) a = v :=
  loadInt_storeInt h

theorem getUInt_putUInt (m : Mem) (a : Int) (v : UInt32) :
    getUInt (putUInt m a v) a = v := by
  have hload := loadNat_storeInt 4 m a v.toNat
  have hlt : v.toNat < 2 ^ 32 := v.toNat_lt
  have hnat : loadNat 4 (putUInt m a v) a = v.toNat := by
    unfold putUInt
    lia
  unfold getUInt
  rw [hnat]
  exact UInt32.ofNat_toNat

def toULong (v : Int) : Int := v % 2 ^ 64

def toLong (v : Int) : Int := Int.bmod v (2 ^ 64)

abbrev sizeofLong : Int := 8

/-!
# Structures

`mqh_event` holds `sigev_value`, `sigev_signo` and `sigev_notify`; it is followed
by padding, the mutex and the condition variable, whose bytes only the thread
library touches.
-/

abbrev offMqFlags : Int := 0
abbrev offMqMaxmsg : Int := 8
abbrev offMqMsgsize : Int := 16
abbrev offMqCurmsgs : Int := 24
abbrev offMqhHead : Int := 32
abbrev offMqhFree : Int := 40
abbrev offMqhNwait : Int := 48
abbrev offMqhPid : Int := 56
abbrev offSigevValue : Int := 64
abbrev offSigevSigno : Int := 72
abbrev offSigevNotify : Int := 76
abbrev sizeofMqHdr : Int := 216

abbrev offMsgLen : Int := 8
abbrev offMsgPrio : Int := 16
abbrev sizeofMsgHdr : Int := 24

def mqMaxmsg (m : Mem) : Int := getLong m offMqMaxmsg
def mqMsgsize (m : Mem) : Int := getLong m offMqMsgsize
def mqCurmsgs (m : Mem) : Int := getLong m offMqCurmsgs
def mqhHead (m : Mem) : Int := getLong m offMqhHead
def mqhFree (m : Mem) : Int := getLong m offMqhFree
def mqhNwait (m : Mem) : Int := getLong m offMqhNwait
def mqhPid (m : Mem) : Int := getInt m offMqhPid

structure Sigevent where
  sigev_value : Int
  sigev_signo : Int
  sigev_notify : Int
deriving DecidableEq

def SIGEV_SIGNAL : Int := 0

def mqhEvent (m : Mem) : Sigevent :=
  { sigev_value := getLong m offSigevValue,
    sigev_signo := getInt m offSigevSigno,
    sigev_notify := getInt m offSigevNotify }

def putMqhEvent (m : Mem) (ev : Sigevent) : Mem :=
  putInt
    (putInt (putLong m offSigevValue ev.sigev_value) offSigevSigno ev.sigev_signo)
    offSigevNotify ev.sigev_notify

/-- `msg_next` is the first member, so the link of a message and the header field
`mqh_head` are read and written alike. -/
def msgNext (m : Mem) (i : Int) : Int := getLong m i
def msgLen (m : Mem) (i : Int) : Int := getLong m (i + offMsgLen)
def msgPrio (m : Mem) (i : Int) : UInt32 := getUInt m (i + offMsgPrio)

structure Message where
  prio : UInt32
  data : List UInt8
deriving DecidableEq

def messageAt (m : Mem) (i : Int) : Message :=
  { prio := msgPrio m i,
    data := readBytes m (i + sizeofMsgHdr) (toULong (msgLen m i)).toNat }

theorem messageAt_prio (m : Mem) (i : Int) : (messageAt m i).prio = msgPrio m i := by
  simp only [messageAt]

theorem messageAt_data (m : Mem) (i : Int) :
    (messageAt m i).data =
      readBytes m (i + sizeofMsgHdr) (toULong (msgLen m i)).toNat := by
  simp only [messageAt]

/-!
# Sizes

`MSGSIZE` is computed in `unsigned long` and assigned to a `long`.
-/

def msgSize (i : Int) : Int :=
  toLong (toULong (i + sizeofLong - 1) / sizeofLong * sizeofLong)

/-- The attributes `mq_open` accepts, small enough that no size computation
wraps. -/
structure QueueSizes where
  mq_maxmsg : Int
  mq_msgsize : Int
  maxmsg_pos : 0 < mq_maxmsg
  msgsize_pos : 0 < mq_msgsize
  noWrap : sizeofMqHdr +
    mq_maxmsg * (sizeofMsgHdr + (mq_msgsize + 7) / 8 * 8) < 2 ^ 63

namespace QueueSizes

variable (sz : QueueSizes)

def slotSize : Int := sizeofMsgHdr + msgSize sz.mq_msgsize

def slotOff (k : Nat) : Int := sizeofMqHdr + k * sz.slotSize

def slots : List Int := (List.range sz.mq_maxmsg.toNat).map sz.slotOff

def filesize : Int := sizeofMqHdr + sz.mq_maxmsg * sz.slotSize

theorem slotFactor_pos : 0 < sizeofMsgHdr + (sz.mq_msgsize + 7) / 8 * 8 := by
  have := sz.msgsize_pos
  unfold sizeofMsgHdr
  lia

theorem slotFactor_lt : sizeofMsgHdr + (sz.mq_msgsize + 7) / 8 * 8 < 2 ^ 63 := by
  have hmax := sz.maxmsg_pos
  have hpos := sz.slotFactor_pos
  have hwrap := sz.noWrap
  have hle : sizeofMsgHdr + (sz.mq_msgsize + 7) / 8 * 8 ≤
      sz.mq_maxmsg * (sizeofMsgHdr + (sz.mq_msgsize + 7) / 8 * 8) := by
    nlinarith
  have hhdr : (0 : Int) < sizeofMqHdr := by decide
  linarith

theorem msgSize_eq : msgSize sz.mq_msgsize = (sz.mq_msgsize + 7) / 8 * 8 := by
  have hpos := sz.msgsize_pos
  have hlt := sz.slotFactor_lt
  unfold sizeofMsgHdr at hlt
  unfold msgSize toLong toULong sizeofLong
  have hmod : (sz.mq_msgsize + 8 - 1) % 2 ^ 64 = sz.mq_msgsize + 7 := by
    rw [Int.emod_eq_of_lt] <;> lia
  rw [hmod]
  apply Int.bmod_eq_of_le_mul_two <;> lia

theorem slotSize_eq : sz.slotSize = sizeofMsgHdr + (sz.mq_msgsize + 7) / 8 * 8 := by
  unfold slotSize
  rw [sz.msgSize_eq]

theorem slotSize_ge : sizeofMsgHdr + sz.mq_msgsize ≤ sz.slotSize := by
  rw [sz.slotSize_eq]
  lia

theorem slotSize_pos : 0 < sz.slotSize := by
  rw [sz.slotSize_eq]
  exact sz.slotFactor_pos

theorem filesize_lt : sz.filesize < 2 ^ 63 := by
  unfold filesize
  rw [sz.slotSize_eq]
  exact sz.noWrap

theorem maxmsg_lt : sz.mq_maxmsg < 2 ^ 63 := by
  have hmax := sz.maxmsg_pos
  have hsize := sz.slotSize_pos
  have hfile := sz.filesize_lt
  have hle : sz.mq_maxmsg ≤ sz.mq_maxmsg * sz.slotSize := by nlinarith
  have hhdr : (0 : Int) < sizeofMqHdr := by decide
  unfold filesize at hfile
  linarith

theorem msgsize_lt : sz.mq_msgsize < 2 ^ 63 := by
  have hge := sz.slotSize_ge
  have hlt := sz.slotFactor_lt
  rw [← sz.slotSize_eq] at hlt
  unfold sizeofMsgHdr at hge
  lia

/-!
# Slots do not overlap
-/

theorem mem_slots {i : Int} :
    i ∈ sz.slots <-> exists k : Nat, (k : Int) < sz.mq_maxmsg ∧ sz.slotOff k = i := by
  unfold slots
  rw [List.mem_map]
  constructor
  · rintro ⟨k, hk, rfl⟩
    have hlt : k < sz.mq_maxmsg.toNat := List.mem_range.mp hk
    exact ⟨k, by lia, rfl⟩
  · rintro ⟨k, hk, rfl⟩
    exact ⟨k, List.mem_range.mpr (by lia), rfl⟩

theorem slotOff_succ (k : Nat) : sz.slotOff (k + 1) = sz.slotOff k + sz.slotSize := by
  unfold slotOff
  push_cast
  ring

theorem slotOff_le {j k : Nat} (h : j < k) : sz.slotOff j + sz.slotSize ≤ sz.slotOff k := by
  have hsize := sz.slotSize_pos
  have hjk : (j : Int) + 1 ≤ k := by lia
  unfold slotOff
  nlinarith

theorem slotOff_injective : Function.Injective sz.slotOff := by
  intro j k heq
  have hsize := sz.slotSize_pos
  rcases Nat.lt_trichotomy j k with hlt | hjk | hgt
  · have := sz.slotOff_le hlt
    lia
  · exact hjk
  · have := sz.slotOff_le hgt
    lia

theorem slots_nodup : sz.slots.Nodup :=
  List.Nodup.map sz.slotOff_injective List.nodup_range

theorem slots_length : (sz.slots.length : Int) = sz.mq_maxmsg := by
  have := sz.maxmsg_pos
  simp [slots]
  lia

theorem slot_bounds {i : Int} (h : i ∈ sz.slots) :
    sizeofMqHdr ≤ i ∧ i + sz.slotSize ≤ sz.filesize := by
  rcases sz.mem_slots.mp h with ⟨k, hk, rfl⟩
  have hsize := sz.slotSize_pos
  have hk' : (k : Int) + 1 ≤ sz.mq_maxmsg := hk
  unfold slotOff filesize
  constructor
  · nlinarith
  · nlinarith

theorem slots_disjoint {i j : Int} (hi : i ∈ sz.slots) (hj : j ∈ sz.slots) (hne : i ≠ j) :
    i + sz.slotSize ≤ j ∨ j + sz.slotSize ≤ i := by
  rcases sz.mem_slots.mp hi with ⟨k, _, rfl⟩
  rcases sz.mem_slots.mp hj with ⟨l, _, rfl⟩
  rcases Nat.lt_trichotomy k l with hlt | rfl | hgt
  · exact Or.inl (sz.slotOff_le hlt)
  · exact absurd rfl hne
  · exact Or.inr (sz.slotOff_le hgt)

end QueueSizes

end MessageQueue
end InterprocessComm
