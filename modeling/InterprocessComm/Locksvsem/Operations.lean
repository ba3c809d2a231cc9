import InterprocessComm.Lib.Lock
import InterprocessComm.SvSem.Operations

/-!
# A lock over a System V semaphore

`my_lock` creates the semaphore when a process locks for the first time, or waits until
its creator has initialised and used it.  It returns nothing, so its caller cannot tell
how it went.
-/

namespace InterprocessComm
namespace Locksvsem

open Verification
open SvSem (Kernel Syscall SysResult)

def MAX_TRIES : Nat := 10

/-- `struct sembuf` of an operation on the only member; the undo flag of `sem_flg` has no
effect while the processes run. -/
structure Sembuf where
  sem_op : Int
deriving DecidableEq

/-- The global variables of a process, zero at first; a `semid` of -1 is no id. -/
structure Globals where
  semid : Option Nat
  initflag : Bool
  postop : Sembuf
  waitop : Sembuf
deriving DecidableEq

/-- The call `my_lock` makes next. `otime` is what `seminfo` says about `sem_otime`. -/
inductive LockPc where
  | semgetNew
  | setval
  | semgetOld
  | stat (i : Nat) (otime : Bool)
  | sleep (i : Nat) (otime : Bool)
  | semop
deriving DecidableEq

/-- A call may fail for a reason of its own; `junk` is what the uninitialised `seminfo`
happens to say. -/
structure Choice where
  fault : Option Errno
  junk : Bool

def myLockStart (x : Globals) : LockPc :=
  if x.initflag = false then LockPc.semgetNew else LockPc.semop

def myLockRequest (x : Globals) : LockPc -> Syscall
  | LockPc.semgetNew => Syscall.semgetExcl
  | LockPc.setval => Syscall.setval x.semid 1
  | LockPc.semgetOld => Syscall.semget false
  | LockPc.stat _ _ => Syscall.stat x.semid
  | LockPc.sleep _ _ => Syscall.sleep
  | LockPc.semop => Syscall.semop x.semid x.waitop.sem_op false

def Globals.init (x : Globals) : Globals :=
  { x with initflag := true, postop := { sem_op := 1 }, waitop := { sem_op := -1 } }

/-- Whether `sem_otime` is not 0 after `IPC_STAT`; a failed call leaves it as it was. -/
def polled (otime : Bool) : SysResult -> Bool
  | SysResult.status b => b
  | _ => otime

/-- What `my_lock` does with the result; without a call to make next it returns. -/
def myLockNext (x : Globals) (pc : LockPc) (r : SysResult) (junk : Bool) :
    Globals × Option LockPc :=
  match pc with
  | LockPc.semgetNew =>
      match r with
      | SysResult.id n => ({ x with semid := some n }, some LockPc.setval)
      | SysResult.failed Errno.EEXIST => ({ x with semid := none }, some LockPc.semgetOld)
      | _ => ({ x with semid := none }, none)
  | LockPc.setval => (x.init, some LockPc.semop)
  | LockPc.semgetOld =>
      match r with
      | SysResult.id n => ({ x with semid := some n }, some (LockPc.stat 0 junk))
      | _ => ({ x with semid := none }, some (LockPc.stat 0 junk))
  | LockPc.stat i otime =>
      if polled otime r = true then
        (x.init, some LockPc.semop)
      else
        (x, some (LockPc.sleep i (polled otime r)))
  | LockPc.sleep i otime =>
      if i + 1 < MAX_TRIES then
        (x, some (LockPc.stat (i + 1) otime))
      else
        -- the message that the semaphore is not initialised
        (x, none)
  | LockPc.semop => (x, none)

def myUnlockRequest (x : Globals) : Syscall :=
  Syscall.semop x.semid x.postop.sem_op false

abbrev locksvsem (fresh : Nat -> Nat) (proc : Type) : LockImpl proc where
  shared := Kernel
  own := Globals
  choice := Choice
  lockPc := LockPc
  unlockPc := Unit
  init := fun k own => k.key = none ∧ k.next = 0 ∧
    forall p, (own p).initflag = false ∧ (own p).postop = { sem_op := 0 } ∧
      (own p).waitop = { sem_op := 0 }
  lock := myLockStart
  unlock := fun _ => ()
  lockStep := fun _ k x pc c =>
    (k.exec fresh (myLockRequest x pc) c.fault).map fun r =>
      (r.1, myLockNext x pc r.2 c.junk)
  unlockStep := fun _ k x _ c =>
    (k.exec fresh (myUnlockRequest x) c.fault).map fun r => (r.1, x, none)

/-- `my_lock` goes on as if a failed call had succeeded, or returns without the semaphore.
After a failed `stat` it goes on if `seminfo` happens to have a time. -/
def abandons : LockPc -> SysResult -> Bool
  | LockPc.semgetNew, SysResult.failed e => decide (e ≠ Errno.EEXIST)
  | LockPc.setval, SysResult.failed _ => true
  | LockPc.stat _ otime, SysResult.failed _ => otime
  | LockPc.sleep i _, _ => decide (MAX_TRIES ≤ i + 1)
  | LockPc.semop, SysResult.failed _ => true
  | _, _ => false

abbrev SvLockState (fresh : Nat -> Nat) (proc : Type) : Type :=
  LockState (locksvsem fresh proc)

abbrev SvLockAction (fresh : Nat -> Nat) (proc : Type) : Type :=
  LockAction (locksvsem fresh proc)

def perseveres {fresh : Nat -> Nat} {proc : Type}
    (e : Transition (SvLockState fresh proc) (SvLockAction fresh proc) Unit) : Bool :=
  match e.action with
  | LockAction.call _ => true
  | LockAction.step p c =>
      match e.source.phase p with
      | LockPhase.locking pc =>
          (e.source.shared.exec fresh (myLockRequest (e.source.own p) pc) c.fault).all
            fun r => ! abandons pc r.2
      | _ => true

end Locksvsem
end InterprocessComm
