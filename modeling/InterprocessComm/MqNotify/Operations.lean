import InterprocessComm.Lib.StableQueue
import InterprocessComm.Lib.Transition
import InterprocessComm.Posix

/-!
# Readers that are notified by a signal

Three programs that read a message queue when `SIGUSR1` tells them to: one waits in
`sigsuspend` for its handler to set a flag, one in `sigwait`, and one in `select` for a
byte that its handler writes to a pipe.
-/

namespace InterprocessComm
namespace MqNotify

open Verification

/-!
# The queue
-/

structure Message where
  prio : Nat
  len : Nat
deriving DecidableEq

/-- A queue of the system, with the registration and the pending `SIGUSR1` of its reader. -/
structure MsgQueue where
  messages : List Message
  registered : Bool
  pending : Bool
deriving DecidableEq

namespace MsgQueue

/-- A message that arrives on an empty queue is told of once. -/
def mqSend (q : MsgQueue) (m : Message) : MsgQueue :=
  let messages := stableInsert Message.prio m q.messages
  if q.messages = [] ∧ q.registered = true then
    { messages := messages, registered := false, pending := true }
  else
    { q with messages := messages }

def mqNotify (q : MsgQueue) : MsgQueue × Except Errno Unit :=
  if q.registered = true then
    (q, Except.error Errno.EBUSY)
  else
    ({ q with registered := true }, Except.ok ())

/-- `mq_receive` on a descriptor with `O_NONBLOCK`. -/
def mqReceive (q : MsgQueue) : MsgQueue × Except Errno Message :=
  match q.messages with
  | [] => (q, Except.error Errno.EAGAIN)
  | m :: rest => ({ q with messages := rest }, Except.ok m)

end MsgQueue

/-!
# The programs
-/

inductive ReaderEvent where
  | silent
  | drained
deriving DecidableEq

/-- A program: where it starts, its steps, what it does when `SIGUSR1` is delivered, unless
the signal is blocked, and where it waits to be told of a message. -/
structure Program (loc : Type) where
  start : loc
  step : MsgQueue -> loc -> Option (MsgQueue × loc × ReaderEvent)
  deliver : loc -> Option loc
  blocked : loc -> Bool

/-!
## mqnotifysig3
-/

inductive Sig3Pc where
  | notify
  | block
  | test
  | sigsuspend
  | suspended
  | reset
  | renotify
  | receive
  | testErrno (e : Errno)
  | unblock
  | exited
deriving DecidableEq

/-- `masked` says that `SIGUSR1` is in the signal mask. -/
structure Sig3 where
  pc : Sig3Pc
  masked : Bool
  mqflag : Nat
deriving DecidableEq

def sig3Step (q : MsgQueue) (l : Sig3) : Option (MsgQueue × Sig3 × ReaderEvent) :=
  match l.pc with
  | Sig3Pc.notify => some (q.mqNotify.1, { l with pc := Sig3Pc.block }, ReaderEvent.silent)
  | Sig3Pc.block => some (q, { l with pc := Sig3Pc.test, masked := true }, ReaderEvent.silent)
  | Sig3Pc.test =>
      if l.mqflag = 0 then
        some (q, { l with pc := Sig3Pc.sigsuspend }, ReaderEvent.silent)
      else
        some (q, { l with pc := Sig3Pc.reset }, ReaderEvent.silent)
  | Sig3Pc.sigsuspend => some (q, { l with pc := Sig3Pc.suspended }, ReaderEvent.silent)
  | Sig3Pc.suspended => none
  | Sig3Pc.reset =>
      some (q, { l with pc := Sig3Pc.renotify, mqflag := 0 }, ReaderEvent.silent)
  | Sig3Pc.renotify => some (q.mqNotify.1, { l with pc := Sig3Pc.receive }, ReaderEvent.silent)
  | Sig3Pc.receive =>
      match q.mqReceive with
      | (q', Except.ok _) => some (q', l, ReaderEvent.silent)
      | (q', Except.error e) => some (q', { l with pc := Sig3Pc.testErrno e }, ReaderEvent.drained)
  | Sig3Pc.testErrno e =>
      if e ≠ Errno.EAGAIN then
        some (q, { l with pc := Sig3Pc.exited }, ReaderEvent.silent)
      else
        some (q, { l with pc := Sig3Pc.unblock }, ReaderEvent.silent)
  | Sig3Pc.unblock => some (q, { l with pc := Sig3Pc.block, masked := false }, ReaderEvent.silent)
  | Sig3Pc.exited => none

/-- `sigsuspend` has an empty mask, and returns with the old one when the handler has run. -/
def sig3Deliver (l : Sig3) : Option Sig3 :=
  if l.pc = Sig3Pc.suspended then
    some { l with pc := Sig3Pc.test, mqflag := 1 }
  else if l.masked = true then
    none
  else
    some { l with mqflag := 1 }

def sig3 : Program Sig3 :=
  { start := { pc := Sig3Pc.notify, masked := false, mqflag := 0 },
    step := sig3Step,
    deliver := sig3Deliver,
    blocked := fun l => l.pc = Sig3Pc.suspended ∧ l.mqflag = 0 }

/-!
## mqnotifysig4
-/

def SIGUSR1 : Nat := 10

inductive Sig4Pc where
  | block
  | notify
  | sigwait
  | test (signo : Nat)
  | renotify
  | receive
  | testErrno (e : Errno)
  | killed
deriving DecidableEq

structure Sig4 where
  pc : Sig4Pc
  masked : Bool
deriving DecidableEq

def sig4Step (q : MsgQueue) (l : Sig4) : Option (MsgQueue × Sig4 × ReaderEvent) :=
  match l.pc with
  | Sig4Pc.block => some (q, { pc := Sig4Pc.notify, masked := true }, ReaderEvent.silent)
  | Sig4Pc.notify => some (q.mqNotify.1, { l with pc := Sig4Pc.sigwait }, ReaderEvent.silent)
  | Sig4Pc.sigwait =>
      if q.pending = true then
        some ({ q with pending := false }, { l with pc := Sig4Pc.test SIGUSR1 },
          ReaderEvent.silent)
      else
        none
  | Sig4Pc.test signo =>
      if signo = SIGUSR1 then
        some (q, { l with pc := Sig4Pc.renotify }, ReaderEvent.silent)
      else
        some (q, { l with pc := Sig4Pc.sigwait }, ReaderEvent.silent)
  | Sig4Pc.renotify => some (q.mqNotify.1, { l with pc := Sig4Pc.receive }, ReaderEvent.silent)
  | Sig4Pc.receive =>
      match q.mqReceive with
      | (q', Except.ok _) => some (q', l, ReaderEvent.silent)
      | (q', Except.error e) => some (q', { l with pc := Sig4Pc.testErrno e }, ReaderEvent.drained)
  | Sig4Pc.testErrno _ =>
      -- another error is printed, and the loop goes on
      some (q, { l with pc := Sig4Pc.sigwait }, ReaderEvent.silent)
  | Sig4Pc.killed => none

/-- There is no handler: the signal would end the program. -/
def sig4Deliver (l : Sig4) : Option Sig4 :=
  if l.masked = true then
    none
  else
    some { l with pc := Sig4Pc.killed }

def sig4 : Program Sig4 :=
  { start := { pc := Sig4Pc.block, masked := false },
    step := sig4Step,
    deliver := sig4Deliver,
    blocked := fun l => l.pc = Sig4Pc.sigwait }

/-!
## mqnotifysig5
-/

inductive Sig5Pc where
  | notify
  | fdZero
  | fdSet
  | select
  | selecting
  | test
  | read
  | renotify
  | receive
  | testErrno (e : Errno)
  | exited
deriving DecidableEq

/-- `rset` says that the reading end of the pipe is in the set, and `pipe` is the number of
bytes in the pipe. -/
structure Sig5 where
  pc : Sig5Pc
  rset : Bool
  pipe : Nat
deriving DecidableEq

def sig5Step (q : MsgQueue) (l : Sig5) : Option (MsgQueue × Sig5 × ReaderEvent) :=
  match l.pc with
  | Sig5Pc.notify => some (q.mqNotify.1, { l with pc := Sig5Pc.fdZero }, ReaderEvent.silent)
  | Sig5Pc.fdZero => some (q, { l with pc := Sig5Pc.fdSet, rset := false }, ReaderEvent.silent)
  | Sig5Pc.fdSet => some (q, { l with pc := Sig5Pc.select, rset := true }, ReaderEvent.silent)
  | Sig5Pc.select => some (q, { l with pc := Sig5Pc.selecting }, ReaderEvent.silent)
  | Sig5Pc.selecting =>
      -- the set keeps the end that is ready
      if 0 < l.pipe then
        some (q, { l with pc := Sig5Pc.test }, ReaderEvent.silent)
      else
        none
  | Sig5Pc.test =>
      if l.rset = true then
        some (q, { l with pc := Sig5Pc.read }, ReaderEvent.silent)
      else
        some (q, { l with pc := Sig5Pc.fdSet }, ReaderEvent.silent)
  | Sig5Pc.read =>
      if 0 < l.pipe then
        some (q, { l with pc := Sig5Pc.renotify, pipe := l.pipe - 1 }, ReaderEvent.silent)
      else
        none
  | Sig5Pc.renotify => some (q.mqNotify.1, { l with pc := Sig5Pc.receive }, ReaderEvent.silent)
  | Sig5Pc.receive =>
      match q.mqReceive with
      | (q', Except.ok _) => some (q', l, ReaderEvent.silent)
      | (q', Except.error e) => some (q', { l with pc := Sig5Pc.testErrno e }, ReaderEvent.drained)
  | Sig5Pc.testErrno e =>
      if e ≠ Errno.EAGAIN then
        some (q, { l with pc := Sig5Pc.exited }, ReaderEvent.silent)
      else
        some (q, { l with pc := Sig5Pc.fdSet }, ReaderEvent.silent)
  | Sig5Pc.exited => none

/-- A `select` that waits is interrupted and leaves the set as it is. -/
def sig5Deliver (l : Sig5) : Option Sig5 :=
  match l.pc with
  | Sig5Pc.exited => none
  | Sig5Pc.selecting => some { l with pc := Sig5Pc.test, pipe := l.pipe + 1 }
  | _ => some { l with pipe := l.pipe + 1 }

def sig5 : Program Sig5 :=
  { start := { pc := Sig5Pc.notify, rset := false, pipe := 0 },
    step := sig5Step,
    deliver := sig5Deliver,
    blocked := fun l => l.pc = Sig5Pc.selecting ∧ l.pipe = 0 }

/-!
# The system
-/

structure ReaderState (loc : Type) where
  queue : MsgQueue
  loc : loc
deriving DecidableEq

inductive ReaderAction where
  | send (m : Message)
  | deliver
  | step
deriving DecidableEq

abbrev ReaderTransition (loc : Type) : Type :=
  Transition (ReaderState loc) ReaderAction ReaderEvent

section System

variable {loc : Type}

def readerStep (P : Program loc) (maxmsg : Nat) (s : ReaderState loc) :
    ReaderAction -> Option (ReaderState loc × ReaderEvent)
  | ReaderAction.send m =>
      if s.queue.messages.length < maxmsg then
        some ({ s with queue := s.queue.mqSend m }, ReaderEvent.silent)
      else
        none
  | ReaderAction.deliver =>
      if s.queue.pending = true then
        (P.deliver s.loc).map fun l =>
          ({ queue := { s.queue with pending := false }, loc := l }, ReaderEvent.silent)
      else
        none
  | ReaderAction.step =>
      (P.step s.queue s.loc).map fun r => ({ queue := r.1, loc := r.2.1 }, r.2.2)

structure ReaderInit (P : Program loc) (s : ReaderState loc) : Prop where
  registered : s.queue.registered = false
  pending : s.queue.pending = false
  loc : s.loc = P.start

def HasDrained (tr : List (ReaderTransition loc)) : Prop :=
  exists e, e ∈ tr ∧ e.event = ReaderEvent.drained

end System

end MqNotify
end InterprocessComm
