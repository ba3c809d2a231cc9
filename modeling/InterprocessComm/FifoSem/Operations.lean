import InterprocessComm.Lib.Transition
import InterprocessComm.Posix
import Mathlib.Logic.Function.Basic

/-!
# Semaphores in a FIFO

A semaphore whose value is the number of bytes in a FIFO.  A post writes one byte, a
wait reads one; reading blocks while the FIFO is empty, and writing fails with `EAGAIN`
while it is full.
-/

namespace InterprocessComm
namespace FifoSem

open Verification

def SEM_MAGIC : UInt32 := 0x89674523

/-- The two descriptors are open on the FIFO; `sem_magic` is compared as an unsigned
value. -/
structure SemT where
  sem_magic : UInt32
deriving DecidableEq

inductive SemCall where
  | post
  | wait
deriving DecidableEq

def semPost (sem : SemT) (write : Int) : Int :=
  if sem.sem_magic ≠ SEM_MAGIC then
    -1
  else if write = -1 then
    0
  else
    -1

def semWait (sem : SemT) (read : Int) : Int :=
  if sem.sem_magic ≠ SEM_MAGIC then
    -1
  else if read = -1 then
    0
  else
    -1

/-- `write(fd, &c, 1)` on a FIFO that holds `bytes`; `fault` makes it fail for a reason of
its own. -/
def fifoWrite (capacity bytes : Nat) (fault : Bool) : Nat × Int :=
  if fault = false ∧ bytes < capacity then (bytes + 1, 1) else (bytes, -1)

/-- `read(fd, &c, 1)`, which does not return while the FIFO is empty and has a writer. -/
def fifoRead (bytes : Nat) (fault : Bool) : Option (Nat × Int) :=
  if fault then
    some (bytes, -1)
  else if 0 < bytes then
    some (bytes - 1, 1)
  else
    none

/-!
# Processes at one FIFO
-/

/-- The bytes in the FIFO, the initial bytes its creator has still to write, and the
semaphores of the processes whose `sem_open` has returned; beside them the numbers of
posts and of waits that returned 0. -/
structure FifoState (proc : Type) where
  bytes : Nat
  left : Nat
  sems : proc -> Option SemT
  posts : Nat
  waits : Nat

/-- `fill` is a step of the loop of the creator's `sem_open`. -/
inductive FifoAction (proc : Type) where
  | fill
  | opened (p : proc)
  | post (p : proc) (fault : Bool)
  | wait (p : proc) (fault : Bool)

structure FifoEvent where
  call : SemCall
  result : Int
  io : Option Int
deriving DecidableEq

abbrev FifoTransition (proc : Type) : Type :=
  Transition (FifoState proc) (FifoAction proc) (Option FifoEvent)

section Step

variable {proc : Type} [DecidableEq proc]

def postEnd (s : FifoState proc) (sem : SemT) (io : Nat × Int) : FifoState proc × FifoEvent :=
  let result := semPost sem io.2
  ({ s with bytes := io.1, posts := if result = 0 then s.posts + 1 else s.posts },
    { call := SemCall.post, result := result, io := some io.2 })

def waitEnd (s : FifoState proc) (sem : SemT) (io : Nat × Int) : FifoState proc × FifoEvent :=
  let result := semWait sem io.2
  ({ s with bytes := io.1, waits := if result = 0 then s.waits + 1 else s.waits },
    { call := SemCall.wait, result := result, io := some io.2 })

/-- The processes open the FIFO and keep it open; the creator's `sem_open` returns after
its last write, and each process calls once its own has returned. -/
def fifoStep (capacity : Nat) (creator : proc) (s : FifoState proc) :
    FifoAction proc -> Option (FifoState proc × Option FifoEvent)
  | FifoAction.fill =>
      if 0 < s.left ∧ s.bytes < capacity then
        some ({ s with bytes := s.bytes + 1, left := s.left - 1 }, none)
      else
        none
  | FifoAction.opened p =>
      if p = creator -> s.left = 0 then
        some ({ s with sems := Function.update s.sems p (some { sem_magic := SEM_MAGIC }) },
          none)
      else
        none
  | FifoAction.post p fault =>
      match s.sems p with
      | none => none
      | some sem =>
          if sem.sem_magic ≠ SEM_MAGIC then
            some (s, some { call := SemCall.post, result := semPost sem 0, io := none })
          else
            let r := postEnd s sem (fifoWrite capacity s.bytes fault)
            some (r.1, some r.2)
  | FifoAction.wait p fault =>
      match s.sems p with
      | none => none
      | some sem =>
          if sem.sem_magic ≠ SEM_MAGIC then
            some (s, some { call := SemCall.wait, result := semWait sem 0, io := none })
          else
            (fifoRead s.bytes fault).map fun io =>
              let r := waitEnd s sem io
              (r.1, some r.2)

/-- The creator has made the FIFO and opened it, and has written nothing. -/
structure FifoInit (value : Nat) (s : FifoState proc) : Prop where
  bytes : s.bytes = 0
  left : s.left = value
  sems : forall p, s.sems p = none
  posts : s.posts = 0
  waits : s.waits = 0

end Step

end FifoSem
end InterprocessComm
