import InterprocessComm.Lib.Transition
import InterprocessComm.Posix
import Mathlib.Logic.Function.Basic

/-!
# The two threads of mycat2

One thread reads a file block by block into a ring of buffers, the other writes the
blocks out.  The bytes of a `read` and of a `write` move one at a time, so that the
steps of the other thread fall between them.
-/

namespace InterprocessComm
namespace Mycat2

open Verification

def NBUFF : Nat := 8

def BUFFSIZE : Nat := 256

/-- What a `read` of `BUFFSIZE` bytes gives. -/
structure Block where
  bytes : List UInt8
  fits : bytes.length ≤ BUFFSIZE
deriving DecidableEq

def Block.eof : Block :=
  { bytes := [], fits := Nat.zero_le _ }

structure Slot where
  data : Nat -> UInt8
  n : Nat

structure Shared where
  buff : Nat -> Slot
  mutex : Nat
  nempty : Nat
  nstored : Nat

def Slot.store (x : Slot) (k : Nat) (b : UInt8) : Slot :=
  { x with data := Function.update x.data k b }

def Shared.set (sh : Shared) (i : Nat) (x : Slot) : Shared :=
  { sh with buff := Function.update sh.buff i x }

/-- The steps of `produce`; `fill block k` is a `read` that gives `block` and has stored
its first `k` bytes. -/
inductive ProducePc where
  | waitEmpty
  | lock
  | unlock
  | read
  | fill (block : Block) (k : Nat)
  | test
  | postLast
  | increment
  | postStored
  | returned
deriving DecidableEq

/-- The steps of `consume`; `write n k` is a `write` of `n` bytes that has written `k`. -/
inductive ConsumePc where
  | waitStored
  | lock
  | unlock
  | test
  | call
  | write (n k : Nat)
  | increment
  | postEmpty
  | returned
deriving DecidableEq

structure Thread (pc : Type) where
  pc : pc
  i : Nat
deriving DecidableEq

abbrev Producer : Type := Thread ProducePc

abbrev Consumer : Type := Thread ConsumePc

/-- `if (++i >= NBUFF) i = 0`. -/
def advance (i : Nat) : Nat :=
  if i + 1 ≥ NBUFF then 0 else i + 1

/-- `next` is the number of reads there have been on `fd`, and `output` what has been
written to `fd2`. -/
structure CopyState where
  shared : Shared
  next : Nat
  output : List UInt8
  producer : Producer
  consumer : Consumer

/-- What the read with number `k` gives: nothing once the results are used up. -/
def result (reads : List Block) (k : Nat) : Block :=
  reads.getD k Block.eof

def produceStep (reads : List Block) (sh : Shared) (next : Nat) (t : Producer) :
    Option (Shared × Nat × Producer) :=
  match t.pc with
  | ProducePc.waitEmpty =>
      (semWait sh.nempty).map fun v =>
        ({ sh with nempty := v }, next, { t with pc := ProducePc.lock })
  | ProducePc.lock =>
      (semWait sh.mutex).map fun v =>
        ({ sh with mutex := v }, next, { t with pc := ProducePc.unlock })
  | ProducePc.unlock =>
      some ({ sh with mutex := semPost sh.mutex }, next, { t with pc := ProducePc.read })
  | ProducePc.read =>
      some (sh, next + 1, { t with pc := ProducePc.fill (result reads next) 0 })
  | ProducePc.fill block k =>
      match block.bytes[k]? with
      | some b =>
          some (sh.set t.i ((sh.buff t.i).store k b), next,
            { t with pc := ProducePc.fill block (k + 1) })
      | none =>
          some (sh.set t.i { sh.buff t.i with n := block.bytes.length }, next,
            { t with pc := ProducePc.test })
  | ProducePc.test =>
      if (sh.buff t.i).n = 0 then
        some (sh, next, { t with pc := ProducePc.postLast })
      else
        some (sh, next, { t with pc := ProducePc.increment })
  | ProducePc.postLast =>
      some ({ sh with nstored := semPost sh.nstored }, next, { t with pc := ProducePc.returned })
  | ProducePc.increment =>
      some (sh, next, { pc := ProducePc.postStored, i := advance t.i })
  | ProducePc.postStored =>
      some ({ sh with nstored := semPost sh.nstored }, next, { t with pc := ProducePc.waitEmpty })
  | ProducePc.returned => none

def consumeStep (sh : Shared) (output : List UInt8) (t : Consumer) :
    Option (Shared × List UInt8 × Consumer) :=
  match t.pc with
  | ConsumePc.waitStored =>
      (semWait sh.nstored).map fun v =>
        ({ sh with nstored := v }, output, { t with pc := ConsumePc.lock })
  | ConsumePc.lock =>
      (semWait sh.mutex).map fun v =>
        ({ sh with mutex := v }, output, { t with pc := ConsumePc.unlock })
  | ConsumePc.unlock =>
      some ({ sh with mutex := semPost sh.mutex }, output, { t with pc := ConsumePc.test })
  | ConsumePc.test =>
      if (sh.buff t.i).n = 0 then
        some (sh, output, { t with pc := ConsumePc.returned })
      else
        some (sh, output, { t with pc := ConsumePc.call })
  | ConsumePc.call =>
      some (sh, output, { t with pc := ConsumePc.write (sh.buff t.i).n 0 })
  | ConsumePc.write n k =>
      if k < n then
        some (sh, output ++ [(sh.buff t.i).data k], { t with pc := ConsumePc.write n (k + 1) })
      else
        some (sh, output, { t with pc := ConsumePc.increment })
  | ConsumePc.increment =>
      some (sh, output, { pc := ConsumePc.postEmpty, i := advance t.i })
  | ConsumePc.postEmpty =>
      some ({ sh with nempty := semPost sh.nempty }, output, { t with pc := ConsumePc.waitStored })
  | ConsumePc.returned => none

/-!
# The system
-/

inductive CopyAction where
  | produce
  | consume
deriving DecidableEq

def copyStep (reads : List Block) (s : CopyState) : CopyAction -> Option (CopyState × Unit)
  | CopyAction.produce =>
      (produceStep reads s.shared s.next s.producer).map fun r =>
        ({ s with shared := r.1, next := r.2.1, producer := r.2.2 }, ())
  | CopyAction.consume =>
      (consumeStep s.shared s.output s.consumer).map fun r =>
        ({ s with shared := r.1, output := r.2.1, consumer := r.2.2 }, ())

/-- What `main` does before the threads run; the buffers hold anything. -/
structure CopyInit (s : CopyState) : Prop where
  mutex : s.shared.mutex = 1
  nempty : s.shared.nempty = NBUFF
  nstored : s.shared.nstored = 0
  next : s.next = 0
  output : s.output = []
  producer : s.producer = { pc := ProducePc.waitEmpty, i := 0 }
  consumer : s.consumer = { pc := ConsumePc.waitStored, i := 0 }

def Stuck (reads : List Block) (s : CopyState) : Prop :=
  forall a, copyStep reads s a = none

/-!
# What the copy is for
-/

def Producer.slot (t : Producer) : Option Nat :=
  match t.pc with
  | ProducePc.read => some t.i
  | ProducePc.fill _ _ => some t.i
  | ProducePc.test => some t.i
  | _ => none

def Consumer.slot (t : Consumer) : Option Nat :=
  match t.pc with
  | ConsumePc.test => some t.i
  | ConsumePc.call => some t.i
  | ConsumePc.write _ _ => some t.i
  | _ => none

def blocks (reads : List Block) (count : Nat) : List UInt8 :=
  (List.range count).flatMap fun k => (result reads k).bytes

/-- The bytes before the first read that gives none. -/
def contents (reads : List Block) : List UInt8 :=
  (reads.takeWhile fun b => b.bytes ≠ []).flatMap Block.bytes

end Mycat2
end InterprocessComm
