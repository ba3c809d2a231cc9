import InterprocessComm.Lib.Monitor
import InterprocessComm.Lib.Transition
import InterprocessComm.MessageQueue.Operations

/-!
# Threads at one queue

Any number of threads in any number of processes work on one mapped queue file
through any number of descriptors.  A step is one stretch of a call under
`mqh_lock`, a spurious wakeup, the opening of a descriptor or the end of a
process.
-/

namespace InterprocessComm
namespace MessageQueue

open Verification

/-- The calls on a descriptor; `close` carries the error of `munmap`, if any. -/
inductive MqCall where
  | send (buf : List UInt8) (prio : UInt32)
  | receive (maxlen : Nat) (priop : Bool)
  | notify (notification : Option Sigevent)
  | getattr
  | setattr (flags : UInt64) (omqstat : Bool)
  | close (munmap : Option Errno)
deriving DecidableEq

inductive BlockedCall where
  | send (d : Nat) (buf : List UInt8) (prio : UInt32)
  | receive (d : Nat) (maxlen : Nat) (priop : Bool)
deriving DecidableEq

structure MqState (tid : Type) where
  mem : Mem
  descs : Nat -> Option MqInfo
  phase : tid -> Phase Unit BlockedCall
  /-- The ids of the processes that exist. -/
  alive : Int -> Bool
  /-- A call has returned, or will never return, with `mqh_lock` taken. -/
  locked : Bool

/-- Where a stretch has no signal to give, `wake` is `none`; otherwise it is the
waiter that `pthread_cond_signal` wakes. A descriptor is not used again by
a thread whose process ended or after it was unmapped. -/
inductive MqAction (tid : Type) where
  | call (t : tid) (d : Nat) (c : MqCall) (wake : Option tid)
  | lockFails (t : tid) (d : Nat) (c : MqCall) (e : Errno)
  | resume (t : tid) (wake : Option tid)
  | spurious (t : tid)
  | opens (t : tid) (d : Nat) (oflag : UInt32)
  | exits (p : Pid)

def mqOpenInfo (owner : Pid) (oflag : UInt32) : MqInfo :=
  { mqi_magic := MQI_MAGIC, mqi_flags := oflag &&& O_NONBLOCK, owner := owner }

structure Effect where
  outcome : Outcome
  signals : Bool
  sigqueue : Option Sigqueue
deriving DecidableEq

def Stretch.effect (r : Stretch) : Effect :=
  { outcome := r.outcome, signals := r.signals, sigqueue := r.sigqueue }

def killZero (alive : Int -> Bool) (pid : Int) : Option Errno :=
  if alive pid then none else some Errno.ESRCH

namespace MqCall

/-- The stretch a call starts with. `mq_close` starts with `mq_notify(mqd, NULL)`,
and touches nothing shared after it. -/
def enter (alive : Int -> Bool) (m : Mem) (info : MqInfo) (c : MqCall) : Stretch :=
  if info.mqi_magic ≠ MQI_MAGIC then
    Stretch.fail m Errno.EBADF
  else
    match c with
    | send buf prio => mqSend m info.mqi_flags buf prio
    | receive maxlen priop => mqReceive m info.mqi_flags maxlen priop
    | notify notification => mqNotify m info.owner.val (killZero alive) notification
    | getattr => Stretch.ret m (MqReturn.attributes (mqGetattr m info))
    | setattr _ omqstat =>
        Stretch.ret m
          (if omqstat then MqReturn.attributes (mqGetattr m info) else MqReturn.done)
    | close munmap =>
        { mqNotify m info.owner.val (killZero alive) none with
          outcome := Outcome.returns
            (match munmap with
              | some e => MqReturn.error e
              | none => MqReturn.done) }

def leaves (info : MqInfo) (c : MqCall) : Option MqInfo :=
  if info.mqi_magic ≠ MQI_MAGIC then
    some info
  else
    match c with
    | setattr flags _ => some (mqSetattr info flags)
    | close none => none
    | _ => some info

def blocked (d : Nat) : MqCall -> Option BlockedCall
  | send buf prio => some (BlockedCall.send d buf prio)
  | receive maxlen priop => some (BlockedCall.receive d maxlen priop)
  | _ => none

end MqCall

namespace BlockedCall

def desc : BlockedCall -> Nat
  | send d _ _ => d
  | receive d _ _ => d

def resume (m : Mem) : BlockedCall -> Stretch
  | send _ buf prio => mqSendRetest m buf prio
  | receive _ _ priop => mqReceiveRetest m priop

end BlockedCall

section Step

variable {tid : Type} [Fintype tid] [DecidableEq tid]

def phaseAfter (k : Option BlockedCall) (outcome : Outcome) : Phase Unit BlockedCall :=
  match outcome, k with
  | Outcome.waits, some k => Phase.asleep () k
  | _, _ => Phase.outside

def Outcome.keepsLock : Outcome -> Bool
  | returnsLocked _ => true
  | diverges => true
  | _ => false

def finish (s : MqState tid) (t : tid) (k : Option BlockedCall) (r : Stretch)
    (wake : Option tid) : Option (MqState tid × Option Effect) :=
  let phase := Function.update s.phase t (phaseAfter k r.outcome)
  let phase' :=
    if r.signals then signal () wake phase else if wake.isNone then some phase else none
  phase'.map fun phase' =>
    ({ s with mem := r.mem, phase := phase', locked := r.outcome.keepsLock },
      some r.effect)

def MayCall (procOf : tid -> Pid) (s : MqState tid) (t : tid) (info : MqInfo) : Prop :=
  s.locked = false ∧ s.alive (procOf t).val = true ∧ s.phase t = Phase.outside ∧
    info.owner = procOf t

instance (procOf : tid -> Pid) (s : MqState tid) (t : tid) (info : MqInfo) :
    Decidable (MayCall procOf s t info) :=
  inferInstanceAs (Decidable (_ ∧ _ ∧ _ ∧ _))

def mqStep (procOf : tid -> Pid) (s : MqState tid) :
    MqAction tid -> Option (MqState tid × Option Effect)
  | MqAction.call t d c wake =>
      match s.descs d with
      | none => none
      | some info =>
          if MayCall procOf s t info then
            finish { s with descs := Function.update s.descs d (c.leaves info) } t
              (c.blocked d) (c.enter s.alive s.mem info) wake
          else
            none
  | MqAction.lockFails t d _ _ =>
      match s.descs d with
      | none => none
      | some info => if MayCall procOf s t info then some (s, none) else none
  | MqAction.resume t wake =>
      match s.phase t with
      | Phase.woken _ _ k =>
          if s.locked = false ∧ s.alive (procOf t).val = true ∧
              (s.descs k.desc).isSome = true then
            finish s t (some k) (k.resume s.mem) wake
          else
            none
      | _ => none
  | MqAction.spurious t =>
      match s.phase t with
      | Phase.asleep _ _ =>
          some ({ s with phase := Function.update s.phase t ((s.phase t).wake false) }, none)
      | _ => none
  | MqAction.opens t d oflag =>
      if s.alive (procOf t).val = true ∧ s.phase t = Phase.outside ∧
          (s.descs d).isNone = true then
        some ({ s with descs := Function.update s.descs d (some (mqOpenInfo (procOf t) oflag)) },
          none)
      else
        none
  | MqAction.exits p =>
      some ({ s with alive := Function.update s.alive p.val false }, none)

structure MqInit (sz : QueueSizes) (s : MqState tid) : Prop where
  created : mqOpenCreate sz.mq_maxmsg sz.mq_msgsize = some s.mem
  descs : forall d, s.descs d = none
  phase : forall t, s.phase t = Phase.outside
  unlocked : s.locked = false

end Step

end MessageQueue
end InterprocessComm
