import InterprocessComm.Lib.Threads
import InterprocessComm.Lib.Transition
import InterprocessComm.Posix

/-!
# The bounded buffer of prodcons4

Producers store the items 0, 1, 2, ... in a circular buffer and consumers fetch them.
Each semaphore operation and each access to the shared structure is a step.
-/

namespace InterprocessComm
namespace Prodcons4

open Verification

def NBUFF : Nat := 10

structure Shared where
  buff : Nat -> Nat
  nput : Nat
  nputval : Nat
  nget : Nat
  ngetval : Nat
  mutex : Nat
  nempty : Nat
  nstored : Nat

/-- The steps of `produce`; `finish...` are those of a producer that finds no item left. -/
inductive ProducerPc where
  | waitEmpty
  | lock
  | test
  | store
  | incrementPut
  | incrementPutval
  | unlock
  | postStored
  | count
  | finishStored
  | finishEmpty
  | finishUnlock
  | returned
deriving DecidableEq

inductive ConsumerPc where
  | waitStored
  | lock
  | test
  | index
  | fetch (i : Nat)
  | incrementGet
  | incrementGetval
  | unlock
  | postEmpty
  | count
  | finishStored
  | finishUnlock
  | returned
deriving DecidableEq

/-- A thread and the counter its argument points to. -/
structure Thread (pc : Type) where
  pc : pc
  arg : Nat
deriving DecidableEq

abbrev Producer : Type := Thread ProducerPc

abbrev Consumer : Type := Thread ConsumerPc

/-- Item `j` is stored, or the get with number `j` reads a value. -/
inductive ItemEvent where
  | silent
  | put (j : Nat)
  | get (j value : Nat)
deriving DecidableEq

def producerStep (nitems : Nat) (sh : Shared) (t : Producer) :
    Option (Shared × Producer × ItemEvent) :=
  match t.pc with
  | ProducerPc.waitEmpty =>
      (semWait sh.nempty).map fun n =>
        ({ sh with nempty := n }, { t with pc := ProducerPc.lock }, ItemEvent.silent)
  | ProducerPc.lock =>
      (semWait sh.mutex).map fun n =>
        ({ sh with mutex := n }, { t with pc := ProducerPc.test }, ItemEvent.silent)
  | ProducerPc.test =>
      if sh.nput ≥ nitems then
        some (sh, { t with pc := ProducerPc.finishStored }, ItemEvent.silent)
      else
        some (sh, { t with pc := ProducerPc.store }, ItemEvent.silent)
  | ProducerPc.store =>
      some ({ sh with buff := Function.update sh.buff (sh.nput % NBUFF) sh.nputval },
        { t with pc := ProducerPc.incrementPut }, ItemEvent.put sh.nput)
  | ProducerPc.incrementPut =>
      some ({ sh with nput := sh.nput + 1 }, { t with pc := ProducerPc.incrementPutval },
        ItemEvent.silent)
  | ProducerPc.incrementPutval =>
      some ({ sh with nputval := sh.nputval + 1 }, { t with pc := ProducerPc.unlock },
        ItemEvent.silent)
  | ProducerPc.unlock =>
      some ({ sh with mutex := semPost sh.mutex }, { t with pc := ProducerPc.postStored },
        ItemEvent.silent)
  | ProducerPc.postStored =>
      some ({ sh with nstored := semPost sh.nstored }, { t with pc := ProducerPc.count },
        ItemEvent.silent)
  | ProducerPc.count =>
      some (sh, { pc := ProducerPc.waitEmpty, arg := t.arg + 1 }, ItemEvent.silent)
  | ProducerPc.finishStored =>
      some ({ sh with nstored := semPost sh.nstored }, { t with pc := ProducerPc.finishEmpty },
        ItemEvent.silent)
  | ProducerPc.finishEmpty =>
      some ({ sh with nempty := semPost sh.nempty }, { t with pc := ProducerPc.finishUnlock },
        ItemEvent.silent)
  | ProducerPc.finishUnlock =>
      some ({ sh with mutex := semPost sh.mutex }, { t with pc := ProducerPc.returned },
        ItemEvent.silent)
  | ProducerPc.returned => none

def consumerStep (nitems : Nat) (sh : Shared) (t : Consumer) :
    Option (Shared × Consumer × ItemEvent) :=
  match t.pc with
  | ConsumerPc.waitStored =>
      (semWait sh.nstored).map fun n =>
        ({ sh with nstored := n }, { t with pc := ConsumerPc.lock }, ItemEvent.silent)
  | ConsumerPc.lock =>
      (semWait sh.mutex).map fun n =>
        ({ sh with mutex := n }, { t with pc := ConsumerPc.test }, ItemEvent.silent)
  | ConsumerPc.test =>
      if sh.nget ≥ nitems then
        some (sh, { t with pc := ConsumerPc.finishStored }, ItemEvent.silent)
      else
        some (sh, { t with pc := ConsumerPc.index }, ItemEvent.silent)
  | ConsumerPc.index =>
      some (sh, { t with pc := ConsumerPc.fetch (sh.nget % NBUFF) }, ItemEvent.silent)
  | ConsumerPc.fetch i =>
      some (sh, { t with pc := ConsumerPc.incrementGet }, ItemEvent.get sh.nget (sh.buff i))
  | ConsumerPc.incrementGet =>
      some ({ sh with nget := sh.nget + 1 }, { t with pc := ConsumerPc.incrementGetval },
        ItemEvent.silent)
  | ConsumerPc.incrementGetval =>
      some ({ sh with ngetval := sh.ngetval + 1 }, { t with pc := ConsumerPc.unlock },
        ItemEvent.silent)
  | ConsumerPc.unlock =>
      some ({ sh with mutex := semPost sh.mutex }, { t with pc := ConsumerPc.postEmpty },
        ItemEvent.silent)
  | ConsumerPc.postEmpty =>
      some ({ sh with nempty := semPost sh.nempty }, { t with pc := ConsumerPc.count },
        ItemEvent.silent)
  | ConsumerPc.count =>
      some (sh, { pc := ConsumerPc.waitStored, arg := t.arg + 1 }, ItemEvent.silent)
  | ConsumerPc.finishStored =>
      some ({ sh with nstored := semPost sh.nstored }, { t with pc := ConsumerPc.finishUnlock },
        ItemEvent.silent)
  | ConsumerPc.finishUnlock =>
      some ({ sh with mutex := semPost sh.mutex }, { t with pc := ConsumerPc.returned },
        ItemEvent.silent)
  | ConsumerPc.returned => none

/-!
# The system
-/

structure BufferState (producer consumer : Type) where
  shared : Shared
  producers : producer -> Producer
  consumers : consumer -> Consumer

inductive BufferAction (producer consumer : Type) where
  | produce (p : producer)
  | consume (c : consumer)

abbrev BufferTransition (producer consumer : Type) : Type :=
  Transition (BufferState producer consumer) (BufferAction producer consumer) ItemEvent

section System

variable {producer consumer : Type}

def bufferStart : BufferState producer consumer :=
  { shared := { buff := fun _ => 0, nput := 0, nputval := 0, nget := 0, ngetval := 0,
                mutex := 1, nempty := NBUFF, nstored := 0 },
    producers := fun _ => { pc := ProducerPc.waitEmpty, arg := 0 },
    consumers := fun _ => { pc := ConsumerPc.waitStored, arg := 0 } }

def BufferInit (s : BufferState producer consumer) : Prop := s = bufferStart

variable [DecidableEq producer] [DecidableEq consumer]

def bufferStep (nitems : Nat) (s : BufferState producer consumer) :
    BufferAction producer consumer ->
      Option (BufferState producer consumer × ItemEvent)
  | BufferAction.produce p =>
      (producerStep nitems s.shared (s.producers p)).map fun r =>
        ({ s with shared := r.1, producers := Function.update s.producers p r.2.1 }, r.2.2)
  | BufferAction.consume c =>
      (consumerStep nitems s.shared (s.consumers c)).map fun r =>
        ({ s with shared := r.1, consumers := Function.update s.consumers c r.2.1 }, r.2.2)

def Stuck (nitems : Nat) (s : BufferState producer consumer) : Prop :=
  forall a, bufferStep nitems s a = none

end System

/-!
# What the buffer is for
-/

def observeItem (fetched : List Nat) : ItemEvent -> List Nat
  | ItemEvent.get _ value => fetched ++ [value]
  | _ => fetched

def fetchedOf {producer consumer : Type} (tr : List (BufferTransition producer consumer)) :
    List Nat :=
  observed observeItem [] tr

/-- The get with number `j` reads `j`, after 0, ..., `j - 1`; and an item is stored only in
a slot whose earlier items have been fetched. -/
def ItemLaw (fetched : List Nat) : ItemEvent -> Prop
  | ItemEvent.get j value => value = j ∧ fetched = List.range j
  | ItemEvent.put j => forall k, k < j -> k % NBUFF = j % NBUFF -> k ∈ fetched
  | ItemEvent.silent => True

/-- All threads have returned, and the items have been stored and fetched by them. -/
structure AllDone {producer consumer : Type} [Fintype producer] [Fintype consumer]
    (nitems : Nat) (fetched : List Nat) (s : BufferState producer consumer) : Prop where
  producers : forall p, (s.producers p).pc = ProducerPc.returned
  consumers : forall c, (s.consumers c).pc = ConsumerPc.returned
  prodcount : ∑ p, (s.producers p).arg = nitems
  conscount : ∑ c, (s.consumers c).arg = nitems
  fetched : fetched = List.range nitems

end Prodcons4
end InterprocessComm
