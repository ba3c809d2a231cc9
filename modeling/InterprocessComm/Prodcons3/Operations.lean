import InterprocessComm.Lib.Ring
import InterprocessComm.Lib.Threads
import InterprocessComm.Lib.Transition
import InterprocessComm.Posix

/-!
# The bounded buffer of prodcons3

Producers store the items 0, 1, 2, ... in a circular buffer, and a single consumer reads a
number of them that is known before.  A producer that finds nothing left gives its token of
`nempty` back.
-/

namespace InterprocessComm
namespace Prodcons3

open Verification

def NBUFF : Nat := 10

structure Shared where
  buff : Nat -> Nat
  nput : Nat
  nputval : Nat
  mutex : Nat
  nempty : Nat
  nstored : Nat

/-- The steps of `produce`; `finish...` are those of a producer that finds no item left. -/
inductive ProducerPc where
  | waitEmpty
  | lock
  | test
  | store
  | incrementPut
  | incrementPutval
  | unlock
  | postStored
  | count
  | finishEmpty
  | finishUnlock
  | returned
deriving DecidableEq

inductive ConsumerPc where
  | test
  | waitStored
  | lock
  | read
  | unlock
  | postEmpty
  | increment
  | returned
deriving DecidableEq

/-- A producer and the counter its argument points to. -/
structure Producer where
  pc : ProducerPc
  arg : Nat
deriving DecidableEq

structure Consumer where
  pc : ConsumerPc
  i : Nat
deriving DecidableEq

/-- The read with number `i` finds a value. -/
inductive ItemEvent where
  | silent
  | get (i value : Nat)
deriving DecidableEq

def producerStep (nitems : Nat) (sh : Shared) (t : Producer) : Option (Shared × Producer) :=
  match t.pc with
  | ProducerPc.waitEmpty =>
      (semWait sh.nempty).map fun n => ({ sh with nempty := n }, { t with pc := ProducerPc.lock })
  | ProducerPc.lock =>
      (semWait sh.mutex).map fun n => ({ sh with mutex := n }, { t with pc := ProducerPc.test })
  | ProducerPc.test =>
      if sh.nput ≥ nitems then
        some (sh, { t with pc := ProducerPc.finishEmpty })
      else
        some (sh, { t with pc := ProducerPc.store })
  | ProducerPc.store =>
      some ({ sh with buff := Function.update sh.buff (sh.nput % NBUFF) sh.nputval },
        { t with pc := ProducerPc.incrementPut })
  | ProducerPc.incrementPut =>
      some ({ sh with nput := sh.nput + 1 }, { t with pc := ProducerPc.incrementPutval })
  | ProducerPc.incrementPutval =>
      some ({ sh with nputval := sh.nputval + 1 }, { t with pc := ProducerPc.unlock })
  | ProducerPc.unlock =>
      some ({ sh with mutex := semPost sh.mutex }, { t with pc := ProducerPc.postStored })
  | ProducerPc.postStored =>
      some ({ sh with nstored := semPost sh.nstored }, { t with pc := ProducerPc.count })
  | ProducerPc.count => some (sh, { pc := ProducerPc.waitEmpty, arg := t.arg + 1 })
  | ProducerPc.finishEmpty =>
      some ({ sh with nempty := semPost sh.nempty }, { t with pc := ProducerPc.finishUnlock })
  | ProducerPc.finishUnlock =>
      some ({ sh with mutex := semPost sh.mutex }, { t with pc := ProducerPc.returned })
  | ProducerPc.returned => none

def consumerStep (nitems : Nat) (sh : Shared) (t : Consumer) :
    Option (Shared × Consumer × ItemEvent) :=
  match t.pc with
  | ConsumerPc.test =>
      if t.i < nitems then
        some (sh, { t with pc := ConsumerPc.waitStored }, ItemEvent.silent)
      else
        some (sh, { t with pc := ConsumerPc.returned }, ItemEvent.silent)
  | ConsumerPc.waitStored =>
      (semWait sh.nstored).map fun n =>
        ({ sh with nstored := n }, { t with pc := ConsumerPc.lock }, ItemEvent.silent)
  | ConsumerPc.lock =>
      (semWait sh.mutex).map fun n =>
        ({ sh with mutex := n }, { t with pc := ConsumerPc.read }, ItemEvent.silent)
  | ConsumerPc.read =>
      some (sh, { t with pc := ConsumerPc.unlock }, ItemEvent.get t.i (sh.buff (t.i % NBUFF)))
  | ConsumerPc.unlock =>
      some ({ sh with mutex := semPost sh.mutex }, { t with pc := ConsumerPc.postEmpty },
        ItemEvent.silent)
  | ConsumerPc.postEmpty =>
      some ({ sh with nempty := semPost sh.nempty }, { t with pc := ConsumerPc.increment },
        ItemEvent.silent)
  | ConsumerPc.increment =>
      some (sh, { pc := ConsumerPc.test, i := t.i + 1 }, ItemEvent.silent)
  | ConsumerPc.returned => none

/-!
# The system
-/

structure BufferState (producer : Type) where
  shared : Shared
  producers : producer -> Producer
  consumer : Consumer

inductive BufferAction (producer : Type) where
  | produce (p : producer)
  | consume

abbrev BufferTransition (producer : Type) : Type :=
  Transition (BufferState producer) (BufferAction producer) ItemEvent

section System

variable {producer : Type}

def bufferStart : BufferState producer :=
  { shared := { buff := fun _ => 0, nput := 0, nputval := 0,
                mutex := 1, nempty := NBUFF, nstored := 0 },
    producers := fun _ => { pc := ProducerPc.waitEmpty, arg := 0 },
    consumer := { pc := ConsumerPc.test, i := 0 } }

def BufferInit (s : BufferState producer) : Prop := s = bufferStart

variable [DecidableEq producer]

def bufferStep (nitems : Nat) (s : BufferState producer) :
    BufferAction producer -> Option (BufferState producer × ItemEvent)
  | BufferAction.produce p =>
      (producerStep nitems s.shared (s.producers p)).map fun r =>
        ({ s with shared := r.1, producers := Function.update s.producers p r.2 },
          ItemEvent.silent)
  | BufferAction.consume =>
      (consumerStep nitems s.shared s.consumer).map fun r =>
        ({ s with shared := r.1, consumer := r.2.1 }, r.2.2)

def Stuck (nitems : Nat) (s : BufferState producer) : Prop :=
  forall a, bufferStep nitems s a = none

end System

/-!
# What the buffer is for
-/

def observeItem (consumed : List Nat) : ItemEvent -> List Nat
  | ItemEvent.get _ value => consumed ++ [value]
  | ItemEvent.silent => consumed

def consumedOf {producer : Type} (tr : List (BufferTransition producer)) : List Nat :=
  observed observeItem [] tr

/-- The read with number `i` comes after `i` others and finds `i`. -/
def ItemLaw (consumed : List Nat) : ItemEvent -> Prop
  | ItemEvent.get i value => value = i ∧ consumed = List.range i
  | ItemEvent.silent => True

/-- All threads have returned, and all items have been stored and read. -/
structure AllDone {producer : Type} [Fintype producer] (nitems : Nat) (consumed : List Nat)
    (s : BufferState producer) : Prop where
  producers : forall p, (s.producers p).pc = ProducerPc.returned
  consumer : s.consumer.pc = ConsumerPc.returned
  nput : s.shared.nput = nitems
  count : ∑ p, (s.producers p).arg = nitems
  consumed : consumed = List.range nitems

end Prodcons3
end InterprocessComm
