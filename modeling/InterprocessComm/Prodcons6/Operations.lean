import InterprocessComm.Lib.Threads
import InterprocessComm.Lib.Transition
import Mathlib.Logic.Function.Basic

/-!
# The announced items of prodcons6

Producers store the items 0, 1, 2, ... in an array under one mutex and announce them under
another, where the consumer waits on a condition variable while nothing is announced.
-/

namespace InterprocessComm
namespace Prodcons6

open Verification

def MAXNITEMS : Nat := 1000000

/-- The condition variable: whether the consumer, which alone waits on it, sleeps or has been
woken. -/
inductive Cond where
  | idle
  | asleep
  | woken
deriving DecidableEq

def Cond.signal : Cond -> Cond
  | asleep => woken
  | c => c

structure Put where
  mutex : Bool
  nput : Nat
  nval : Nat

structure NReady where
  mutex : Bool
  cond : Cond
  nready : Nat

structure Shared where
  buff : Nat -> Nat
  put : Put
  nready : NReady

inductive ProducerPc where
  | lockPut
  | testPut
  | store
  | incrementPut
  | incrementVal
  | unlockPut
  | lockReady
  | testReady
  | signal
  | incrementReady
  | unlockReady
  | count
  | finishUnlock
  | returned
deriving DecidableEq

inductive ConsumerPc where
  | test
  | lock
  | testReady
  | wait
  | decrement
  | unlock
  | check
  | increment
  | returned
deriving DecidableEq

/-- A producer and the counter its argument points to. -/
structure Producer where
  pc : ProducerPc
  arg : Nat
deriving DecidableEq

structure Consumer where
  pc : ConsumerPc
  i : Nat
deriving DecidableEq

def lock (mutex : Bool) : Option Bool :=
  if mutex then none else some true

/-- A store behind the array has no result. -/
def producerStep (nitems : Nat) (sh : Shared) (t : Producer) : Option (Shared × Producer) :=
  match t.pc with
  | ProducerPc.lockPut =>
      (lock sh.put.mutex).map fun m =>
        ({ sh with put := { sh.put with mutex := m } }, { t with pc := ProducerPc.testPut })
  | ProducerPc.testPut =>
      if sh.put.nput ≥ nitems then
        some (sh, { t with pc := ProducerPc.finishUnlock })
      else
        some (sh, { t with pc := ProducerPc.store })
  | ProducerPc.store =>
      if sh.put.nput < MAXNITEMS then
        some ({ sh with buff := Function.update sh.buff sh.put.nput sh.put.nval },
          { t with pc := ProducerPc.incrementPut })
      else
        none
  | ProducerPc.incrementPut =>
      some ({ sh with put := { sh.put with nput := sh.put.nput + 1 } },
        { t with pc := ProducerPc.incrementVal })
  | ProducerPc.incrementVal =>
      some ({ sh with put := { sh.put with nval := sh.put.nval + 1 } },
        { t with pc := ProducerPc.unlockPut })
  | ProducerPc.unlockPut =>
      some ({ sh with put := { sh.put with mutex := false } },
        { t with pc := ProducerPc.lockReady })
  | ProducerPc.lockReady =>
      (lock sh.nready.mutex).map fun m =>
        ({ sh with nready := { sh.nready with mutex := m } },
          { t with pc := ProducerPc.testReady })
  | ProducerPc.testReady =>
      if sh.nready.nready = 0 then
        some (sh, { t with pc := ProducerPc.signal })
      else
        some (sh, { t with pc := ProducerPc.incrementReady })
  | ProducerPc.signal =>
      some ({ sh with nready := { sh.nready with cond := sh.nready.cond.signal } },
        { t with pc := ProducerPc.incrementReady })
  | ProducerPc.incrementReady =>
      some ({ sh with nready := { sh.nready with nready := sh.nready.nready + 1 } },
        { t with pc := ProducerPc.unlockReady })
  | ProducerPc.unlockReady =>
      some ({ sh with nready := { sh.nready with mutex := false } },
        { t with pc := ProducerPc.count })
  | ProducerPc.count => some (sh, { pc := ProducerPc.lockPut, arg := t.arg + 1 })
  | ProducerPc.finishUnlock =>
      some ({ sh with put := { sh.put with mutex := false } },
        { t with pc := ProducerPc.returned })
  | ProducerPc.returned => none

/-- The consumer reports an item that is not in its place. -/
inductive CheckEvent where
  | silent
  | reported (i value : Nat)
deriving DecidableEq

/-- `pthread_cond_wait` gives the mutex up and sleeps in one step; a woken consumer returns from
it with the mutex. -/
def consumerStep (nitems : Nat) (sh : Shared) (t : Consumer) :
    Option (Shared × Consumer × CheckEvent) :=
  match t.pc with
  | ConsumerPc.test =>
      if t.i < nitems then
        some (sh, { t with pc := ConsumerPc.lock }, CheckEvent.silent)
      else
        some (sh, { t with pc := ConsumerPc.returned }, CheckEvent.silent)
  | ConsumerPc.lock =>
      (lock sh.nready.mutex).map fun m =>
        ({ sh with nready := { sh.nready with mutex := m } },
          { t with pc := ConsumerPc.testReady }, CheckEvent.silent)
  | ConsumerPc.testReady =>
      if sh.nready.nready = 0 then
        some ({ sh with nready := { sh.nready with mutex := false, cond := Cond.asleep } },
          { t with pc := ConsumerPc.wait }, CheckEvent.silent)
      else
        some (sh, { t with pc := ConsumerPc.decrement }, CheckEvent.silent)
  | ConsumerPc.wait =>
      if sh.nready.cond = Cond.woken then
        (lock sh.nready.mutex).map fun m =>
          ({ sh with nready := { sh.nready with mutex := m, cond := Cond.idle } },
            { t with pc := ConsumerPc.testReady }, CheckEvent.silent)
      else
        none
  | ConsumerPc.decrement =>
      some ({ sh with nready := { sh.nready with nready := sh.nready.nready - 1 } },
        { t with pc := ConsumerPc.unlock }, CheckEvent.silent)
  | ConsumerPc.unlock =>
      some ({ sh with nready := { sh.nready with mutex := false } },
        { t with pc := ConsumerPc.check }, CheckEvent.silent)
  | ConsumerPc.check =>
      some (sh, { t with pc := ConsumerPc.increment },
        if sh.buff t.i ≠ t.i then CheckEvent.reported t.i (sh.buff t.i) else CheckEvent.silent)
  | ConsumerPc.increment =>
      some (sh, { pc := ConsumerPc.test, i := t.i + 1 }, CheckEvent.silent)
  | ConsumerPc.returned => none

/-!
# The system
-/

structure State (producer : Type) where
  shared : Shared
  producers : producer -> Producer
  consumer : Consumer

/-- A thread takes a step, or the consumer wakes up for no reason. -/
inductive Action (producer : Type) where
  | produce (p : producer)
  | consume
  | spurious

section System

variable {producer : Type}

def start : State producer :=
  { shared := { buff := fun _ => 0,
                put := { mutex := false, nput := 0, nval := 0 },
                nready := { mutex := false, cond := Cond.idle, nready := 0 } },
    producers := fun _ => { pc := ProducerPc.lockPut, arg := 0 },
    consumer := { pc := ConsumerPc.test, i := 0 } }

def Init (s : State producer) : Prop := s = start

variable [DecidableEq producer]

def step (nitems : Nat) (s : State producer) :
    Action producer -> Option (State producer × CheckEvent)
  | Action.produce p =>
      (producerStep nitems s.shared (s.producers p)).map fun r =>
        ({ s with shared := r.1, producers := Function.update s.producers p r.2 },
          CheckEvent.silent)
  | Action.consume =>
      (consumerStep nitems s.shared s.consumer).map fun r =>
        ({ s with shared := r.1, consumer := r.2.1 }, r.2.2)
  | Action.spurious =>
      if s.shared.nready.cond = Cond.asleep then
        some ({ s with shared := { s.shared with
          nready := { s.shared.nready with cond := Cond.woken } } }, CheckEvent.silent)
      else
        none

/-- No thread can take a step; a spurious wakeup is none. -/
def Stuck (nitems : Nat) (s : State producer) : Prop :=
  (forall p, step nitems s (Action.produce p) = none) ∧ step nitems s Action.consume = none

end System

/-!
# What the announcements are for
-/

def Consumer.passed (t : Consumer) : Nat :=
  match t.pc with
  | ConsumerPc.decrement => t.i + 1
  | ConsumerPc.unlock => t.i + 1
  | ConsumerPc.check => t.i + 1
  | ConsumerPc.increment => t.i + 1
  | _ => t.i

/-- All threads have returned, and the producers have counted all items. -/
structure AllDone {producer : Type} [Fintype producer] (nitems : Nat) (s : State producer) :
    Prop where
  producers : forall p, (s.producers p).pc = ProducerPc.returned
  consumer : s.consumer.pc = ConsumerPc.returned
  count : ∑ p, (s.producers p).arg = nitems

end Prodcons6
end InterprocessComm
