import InterprocessComm.MessageQueue.Layout

/-!
# Queue operations

The functions of the memory-mapped message queue on the mapped file.  A call is
cut into the stretches it runs under `mqh_lock`: from taking the lock up to
giving it back or waiting on `mqh_wait`, and from coming back out of the wait.
-/

namespace InterprocessComm
namespace MessageQueue

open Verification

/-!
# Creation of the file
-/

/-- The loop that puts all slots on the free list. Its counter is an `int`, so the
loop has no defined result once the counter would pass `INT_MAX`. -/
def freeListLoop (maxmsg slot : Int) : Nat -> Int -> Mem -> Int -> Option (Mem × Int)
  | 0, _, _, _ => none
  | fuel + 1, i, m, index =>
      if i < maxmsg - 1 then
        if i < INT_MAX then
          freeListLoop maxmsg slot fuel (i + 1)
            (putLong m index (toLong (index + slot))) (toLong (index + slot))
        else
          none
      else
        some (m, index)

def mqOpenFilesize (maxmsg msgsize : Int) : Int :=
  toLong (sizeofMqHdr + maxmsg * (sizeofMsgHdr + msgSize msgsize))

def mqOpenFields (maxmsg msgsize : Int) (m : Mem) : Mem :=
  let m := putLong m offMqFlags 0
  let m := putLong m offMqMaxmsg maxmsg
  let m := putLong m offMqMsgsize msgsize
  let m := putLong m offMqCurmsgs 0
  let m := putLong m offMqhNwait 0
  let m := putInt m offMqhPid 0
  let m := putLong m offMqhHead 0
  putLong m offMqhFree sizeofMqHdr

/-- The initialisation of header and free list; the last slot ends the free list. -/
def mqOpenHeader (maxmsg msgsize : Int) (m : Mem) : Option Mem :=
  (freeListLoop maxmsg (sizeofMsgHdr + msgSize msgsize) maxmsg.toNat 0
    (mqOpenFields maxmsg msgsize m) sizeofMqHdr).map fun r => putLong r.1 r.2 0

def defattr : Int × Int := (128, 1024)

/-- The file `mq_open` leaves after creating it with the given attributes: the
attributes must be positive, `lseek` must accept the size, and the new file is
filled with zeros. -/
def mqOpenCreate (maxmsg msgsize : Int) : Option Mem :=
  if maxmsg ≤ 0 ∨ msgsize ≤ 0 then
    none
  else if mqOpenFilesize maxmsg msgsize - 1 < 0 then
    none
  else
    mqOpenHeader maxmsg msgsize (fun _ => 0)

/-!
# Stretches under the lock
-/

structure MqInfo where
  mqi_magic : Int
  mqi_flags : UInt32
  owner : Pid

def MQI_MAGIC : Int := 0x98765432

structure MqAttr where
  mq_flags : UInt64
  mq_maxmsg : Int
  mq_msgsize : Int
  mq_curmsgs : Int
deriving DecidableEq

inductive MqReturn where
  | error (e : Errno)
  | sent
  | received (len : Int) (buf : List UInt8) (prio : Option UInt32)
  | done
  | attributes (attr : MqAttr)
deriving DecidableEq

structure Sigqueue where
  pid : Int
  signo : Int
  value : Int
deriving DecidableEq

/-- How a stretch ends: the call returns with the lock given back, waits on
`mqh_wait`, returns with the lock still taken, or never ends. -/
inductive Outcome where
  | returns (ret : MqReturn)
  | waits
  | returnsLocked (ret : MqReturn)
  | diverges
deriving DecidableEq

/-- What one stretch under the lock does: the file it leaves, how it ends, whether
it calls `pthread_cond_signal`, and the signal it queues. -/
structure Stretch where
  mem : Mem
  outcome : Outcome
  signals : Bool
  sigqueue : Option Sigqueue

def Stretch.ret (m : Mem) (ret : MqReturn) : Stretch :=
  { mem := m, outcome := Outcome.returns ret, signals := false, sigqueue := none }

def Stretch.fail (m : Mem) (e : Errno) : Stretch :=
  Stretch.ret m (MqReturn.error e)

def Stretch.wait (m : Mem) : Stretch :=
  { mem := m, outcome := Outcome.waits, signals := false, sigqueue := none }

/-!
# mq_send
-/

/-- The walk to the place of the new message at `nmsghdr`; `pmsghdr` is the cell
whose link is `index`. -/
def mqSendWalk (prio : UInt32) (nmsghdr : Int) : Nat -> Mem -> Int -> Int -> Option Mem
  | 0, _, _, _ => none
  | fuel + 1, m, pmsghdr, index =>
      if index = 0 then
        -- queue was empty or new goes at end of list
        some (putLong (putLong m pmsghdr nmsghdr) nmsghdr 0)
      else if msgPrio m index < prio then
        some (putLong (putLong m nmsghdr index) pmsghdr nmsghdr)
      else
        mqSendWalk prio nmsghdr fuel m index (msgNext m index)

/-- Fill the slot at `freeindex` and take it off the free list. -/
def mqSendFill (m : Mem) (freeindex : Int) (buf : List UInt8) (prio : UInt32) : Mem :=
  let m := putUInt m (freeindex + offMsgPrio) prio
  let m := putLong m (freeindex + offMsgLen) buf.length
  let m := writeBytes m (freeindex + sizeofMsgHdr) buf
  putLong m offMqhFree (msgNext m freeindex)

def mqSendLink (m : Mem) (buf : List UInt8) (prio : UInt32)
    (sig : Option Sigqueue) : Stretch :=
  let freeindex := mqhFree m
  if freeindex = 0 then
    -- the message about a missing free slot; the lock stays taken
    { mem := m, outcome := Outcome.returnsLocked MqReturn.done,
      signals := false, sigqueue := sig }
  else
    let filled := mqSendFill m freeindex buf prio
    match mqSendWalk prio freeindex ((mqMaxmsg m).toNat + 1) filled offMqhHead
        (mqhHead filled) with
    | none =>
        { mem := filled, outcome := Outcome.diverges, signals := false, sigqueue := sig }
    | some linked =>
        { mem := putLong linked offMqCurmsgs (mqCurmsgs linked + 1),
          outcome := Outcome.returns MqReturn.sent,
          signals := decide (mqCurmsgs linked = 0), sigqueue := sig }

def mqSendRetest (m : Mem) (buf : List UInt8) (prio : UInt32) : Stretch :=
  if mqCurmsgs m ≥ mqMaxmsg m then
    Stretch.wait m
  else
    mqSendLink m buf prio none

def registeredSignal (m : Mem) : Option Sigqueue :=
  if (mqhEvent m).sigev_notify = SIGEV_SIGNAL then
    some { pid := mqhPid m, signo := (mqhEvent m).sigev_signo,
           value := (mqhEvent m).sigev_value }
  else
    none

/-- The registration is consumed when a message goes to an empty queue and nobody
is blocked in `mq_receive`. -/
def mqSendNotify (m : Mem) : Mem × Option Sigqueue :=
  if mqhPid m ≠ 0 ∧ mqhNwait m = 0 then
    (putInt m offMqhPid 0, registeredSignal m)
  else
    (m, none)

def mqSend (m : Mem) (flags : UInt32) (buf : List UInt8) (prio : UInt32) : Stretch :=
  if (buf.length : Int) > toULong (mqMsgsize m) then
    Stretch.fail m Errno.EMSGSIZE
  else if mqCurmsgs m = 0 then
    mqSendLink (mqSendNotify m).1 buf prio (mqSendNotify m).2
  else if mqCurmsgs m ≥ mqMaxmsg m then
    -- queue is full
    if flags &&& O_NONBLOCK ≠ 0 then
      Stretch.fail m Errno.EAGAIN
    else
      mqSendRetest m buf prio
  else
    mqSendLink m buf prio none

/-!
# mq_receive
-/

def mqReceiveTake (m : Mem) (priop : Bool) : Stretch :=
  let index := mqhHead m
  if index = 0 then
    -- the message about a missing first message; the lock stays taken
    { mem := m, outcome := Outcome.returnsLocked (MqReturn.error (Errno.other 0)),
      signals := false, sigqueue := none }
  else
    let m₁ := putLong m offMqhHead (msgNext m index)
    let len := msgLen m₁ index
    let buf := readBytes m₁ (index + sizeofMsgHdr) (toULong len).toNat
    let prio := if priop then some (msgPrio m₁ index) else none
    let m₂ := putLong m₁ index (mqhFree m₁)
    let m₃ := putLong m₂ offMqhFree index
    { mem := putLong m₃ offMqCurmsgs (mqCurmsgs m₃ - 1),
      outcome := Outcome.returns (MqReturn.received len buf prio),
      signals := decide (mqCurmsgs m₃ = mqMaxmsg m₃), sigqueue := none }

def mqReceiveRetest (m : Mem) (priop : Bool) : Stretch :=
  if mqCurmsgs m = 0 then
    Stretch.wait m
  else
    mqReceiveTake (putLong m offMqhNwait (mqhNwait m - 1)) priop

def mqReceive (m : Mem) (flags : UInt32) (maxlen : Nat) (priop : Bool) : Stretch :=
  if (maxlen : Int) < toULong (mqMsgsize m) then
    Stretch.fail m Errno.EMSGSIZE
  else if mqCurmsgs m = 0 then
    -- queue is empty
    if flags &&& O_NONBLOCK ≠ 0 then
      Stretch.fail m Errno.EAGAIN
    else
      mqReceiveRetest (putLong m offMqhNwait (mqhNwait m + 1)) priop
  else
    mqReceiveTake m priop

/-!
# mq_notify, mq_getattr, mq_setattr and mq_close
-/

/-- `kill` gives the result of `kill(pid, 0)`, an error number when it fails. -/
def mqNotify (m : Mem) (pid : Int) (kill : Int -> Option Errno)
    (notification : Option Sigevent) : Stretch :=
  match notification with
  | none =>
      Stretch.ret (if mqhPid m = pid then putInt m offMqhPid 0 else m) MqReturn.done
  | some ev =>
      if mqhPid m ≠ 0 ∧ kill (mqhPid m) ≠ some Errno.ESRCH then
        Stretch.fail m Errno.EBUSY
      else
        Stretch.ret (putMqhEvent (putInt m offMqhPid pid) ev) MqReturn.done

def mqGetattr (m : Mem) (info : MqInfo) : MqAttr :=
  { mq_flags := info.mqi_flags.toUInt64, mq_maxmsg := mqMaxmsg m,
    mq_msgsize := mqMsgsize m, mq_curmsgs := mqCurmsgs m }

def mqSetattr (info : MqInfo) (flags : UInt64) : MqInfo :=
  { info with
    mqi_flags :=
      if flags &&& O_NONBLOCK.toUInt64 ≠ 0 then
        info.mqi_flags ||| O_NONBLOCK
      else
        info.mqi_flags &&& ~~~ O_NONBLOCK }

def mqCloseFilesize (m : Mem) : Int :=
  mqOpenFilesize (mqMaxmsg m) (mqMsgsize m)

end MessageQueue
end InterprocessComm
