import InterprocessComm.Lib.Threads
import InterprocessComm.Lib.Transition
import Mathlib.Logic.Function.Basic

/-!
# The shared array of prodcons2 and prodcons3

Producers store the items 0, 1, 2, ... in an array under one mutex, each of them counts its own
items, and a consumer checks the array.  In prodcons2 it is started when the producers have been
joined; in prodcons3 it runs beside them and asks for each item until it is there.
-/

namespace InterprocessComm
namespace Prodcons2

open Verification

def MAXNITEMS : Nat := 1000000

def MAXNTHREADS : Int := 100

structure Args where
  items : Int
  threads : Int

def Args.nitems (a : Args) : Int := min a.items MAXNITEMS

def Args.nthreads (a : Args) : Int := min a.threads MAXNTHREADS

/-- What the two programs differ in: whether `main` starts the consumer before it joins the
producers, and whether `consume` calls `consume_wait`. -/
structure Program where
  early : Bool
  consume_wait : Bool

def prodcons2 : Program :=
  { early := false, consume_wait := false }

def prodcons3 : Program :=
  { early := true, consume_wait := true }

structure Shared where
  mutex : Bool
  buff : Nat -> Nat
  nput : Nat
  nval : Nat

/-- The steps of `produce`, before them the time until the thread is created. -/
inductive ProducerPc where
  | uncreated
  | lock
  | test
  | store
  | incrementPut
  | incrementVal
  | unlock
  | count
  | finishUnlock
  | returned
deriving DecidableEq

inductive ConsumerPc where
  | uncreated
  | test
  | lock
  | testPut
  | unlockReady
  | unlockRetry
  | check
  | increment
  | returned
deriving DecidableEq

inductive MainPc where
  | create
  | start
  | join
  | print
  | wait
  | exited
deriving DecidableEq

/-- A producer and the counter its argument points to. -/
structure Producer where
  pc : ProducerPc
  arg : Nat
deriving DecidableEq

structure Consumer where
  pc : ConsumerPc
  i : Nat
deriving DecidableEq

structure Main where
  pc : MainPc
  i : Nat
deriving DecidableEq

structure State (n : Nat) where
  shared : Shared
  producers : Fin n -> Producer
  consumer : Consumer
  main : Main

/-- A line of output: the count of a producer, or an item that is not in its place. -/
inductive Line where
  | count (i count : Nat)
  | differs (i value : Nat)
deriving DecidableEq

/-- A store behind the array has no result. -/
def producerStep (nitems : Int) (sh : Shared) (t : Producer) : Option (Shared × Producer) :=
  match t.pc with
  | ProducerPc.uncreated => none
  | ProducerPc.lock =>
      if sh.mutex then none
      else some ({ sh with mutex := true }, { t with pc := ProducerPc.test })
  | ProducerPc.test =>
      if nitems ≤ sh.nput then some (sh, { t with pc := ProducerPc.finishUnlock })
      else some (sh, { t with pc := ProducerPc.store })
  | ProducerPc.store =>
      if sh.nput < MAXNITEMS then
        some ({ sh with buff := Function.update sh.buff sh.nput sh.nval },
          { t with pc := ProducerPc.incrementPut })
      else none
  | ProducerPc.incrementPut =>
      some ({ sh with nput := sh.nput + 1 }, { t with pc := ProducerPc.incrementVal })
  | ProducerPc.incrementVal =>
      some ({ sh with nval := sh.nval + 1 }, { t with pc := ProducerPc.unlock })
  | ProducerPc.unlock =>
      some ({ sh with mutex := false }, { t with pc := ProducerPc.count })
  | ProducerPc.count => some (sh, { pc := ProducerPc.lock, arg := t.arg + 1 })
  | ProducerPc.finishUnlock =>
      some ({ sh with mutex := false }, { t with pc := ProducerPc.returned })
  | ProducerPc.returned => none

def consumerStep (prog : Program) (nitems : Int) (sh : Shared) (t : Consumer) :
    Option (Shared × Consumer × Option Line) :=
  match t.pc with
  | ConsumerPc.uncreated => none
  | ConsumerPc.test =>
      if (t.i : Int) < nitems then
        if prog.consume_wait then some (sh, { t with pc := ConsumerPc.lock }, none)
        else some (sh, { t with pc := ConsumerPc.check }, none)
      else some (sh, { t with pc := ConsumerPc.returned }, none)
  | ConsumerPc.lock =>
      if sh.mutex then none
      else some ({ sh with mutex := true }, { t with pc := ConsumerPc.testPut }, none)
  | ConsumerPc.testPut =>
      if t.i < sh.nput then some (sh, { t with pc := ConsumerPc.unlockReady }, none)
      else some (sh, { t with pc := ConsumerPc.unlockRetry }, none)
  | ConsumerPc.unlockReady =>
      some ({ sh with mutex := false }, { t with pc := ConsumerPc.check }, none)
  | ConsumerPc.unlockRetry =>
      some ({ sh with mutex := false }, { t with pc := ConsumerPc.lock }, none)
  | ConsumerPc.check =>
      some (sh, { t with pc := ConsumerPc.increment },
        if sh.buff t.i ≠ t.i then some (Line.differs t.i (sh.buff t.i)) else none)
  | ConsumerPc.increment =>
      some (sh, { pc := ConsumerPc.test, i := t.i + 1 }, none)
  | ConsumerPc.returned => none

section System

variable {n : Nat}

/-- `pthread_join` of a producer has no result before the producer has returned. -/
def mainStep (prog : Program) (s : State n) : Option (State n × Option Line) :=
  match s.main.pc with
  | MainPc.create =>
      if h : s.main.i < n then
        some ({ s with
          producers := Function.update s.producers ⟨s.main.i, h⟩ ⟨ProducerPc.lock, 0⟩,
          main := { s.main with i := s.main.i + 1 } }, none)
      else some ({ s with main := ⟨if prog.early then MainPc.start else MainPc.join, 0⟩ }, none)
  | MainPc.start =>
      some ({ s with
        consumer := ⟨ConsumerPc.test, 0⟩,
        main := ⟨if prog.early then MainPc.join else MainPc.wait, 0⟩ }, none)
  | MainPc.join =>
      if h : s.main.i < n then
        if (s.producers ⟨s.main.i, h⟩).pc = ProducerPc.returned then
          some ({ s with main := { s.main with pc := MainPc.print } }, none)
        else none
      else some ({ s with main := ⟨if prog.early then MainPc.wait else MainPc.start, 0⟩ }, none)
  | MainPc.print =>
      if h : s.main.i < n then
        some ({ s with main := ⟨MainPc.join, s.main.i + 1⟩ },
          some (Line.count s.main.i (s.producers ⟨s.main.i, h⟩).arg))
      else none
  | MainPc.wait =>
      if s.consumer.pc = ConsumerPc.returned then
        some ({ s with main := { s.main with pc := MainPc.exited } }, none)
      else none
  | MainPc.exited => none

inductive Action (n : Nat) where
  | main
  | produce (p : Fin n)
  | consume

def step (prog : Program) (nitems : Int) (s : State n) :
    Action n -> Option (State n × Option Line)
  | Action.main => mainStep prog s
  | Action.produce p =>
      (producerStep nitems s.shared (s.producers p)).map fun r =>
        ({ s with shared := r.1, producers := Function.update s.producers p r.2 }, none)
  | Action.consume =>
      (consumerStep prog nitems s.shared s.consumer).map fun r =>
        ({ s with shared := r.1, consumer := r.2.1 }, r.2.2)

def start : State n :=
  { shared := { mutex := false, buff := fun _ => 0, nput := 0, nval := 0 },
    producers := fun _ => { pc := ProducerPc.uncreated, arg := 0 },
    consumer := { pc := ConsumerPc.uncreated, i := 0 },
    main := { pc := MainPc.create, i := 0 } }

def Init (s : State n) : Prop := s = start

def lines (tr : List (Transition (State n) (Action n) (Option Line))) : List Line :=
  tr.filterMap fun e => e.event

end System

end Prodcons2
end InterprocessComm
