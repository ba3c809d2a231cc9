import InterprocessComm.Lib.Transition
import InterprocessComm.SvSem.Operations

/-!
# Processes at one pathname

Any number of processes open the semaphore of one pathname and use what they get.  The
history of a run says which call created a set, how far it has come in initialising
it, and how many posts and waits have been made on it.
-/

namespace InterprocessComm
namespace SvSem

open Verification

/-- `sems` are the semaphores that have been returned; whoever has one may hand it to
threads and children. -/
structure SvState (proc : Type) where
  kernel : Kernel
  calls : proc -> Option SvOpenLoc
  sems : List SemT

/-- A process calls `sem_open`, or makes the next system call of it with or without a
fault; somebody uses or closes the semaphore with number `k`, or removes a set. -/
inductive SvAction (proc : Type) where
  | call (p : proc) (a : SvOpenArgs)
  | syscall (p : proc) (fault : Option Errno)
  | use (k : Nat) (c : SvCall) (fault : Option Errno)
  | close (k : Nat)
  | remove (id : Nat)

inductive SvEvent (proc : Type) where
  | silent
  | called (p : proc) (value : Nat)
  | created (p : proc) (id : Nat)
  | zeroed (p : proc) (id : Nat)
  | incremented (p : proc) (id : Nat)
  | returned (p : proc) (ret : Except Errno SemT)
  | posted (id : Nat)
  | waited (id : Nat)

abbrev SvTransition (proc : Type) : Type :=
  Transition (SvState proc) (SvAction proc) (SvEvent proc)

section Step

variable {proc : Type} [DecidableEq proc]

def openEvent (p : proc) : Syscall -> SysResult -> SvEvent proc
  | Syscall.semgetExcl, SysResult.id n => SvEvent.created p n
  | Syscall.setval (some n) _, SysResult.ok => SvEvent.zeroed p n
  | Syscall.semop (some n) _ _, SysResult.ok => SvEvent.incremented p n
  | _, _ => SvEvent.silent

def useEvent (c : SvCall) : Option Nat -> SysResult -> SvEvent proc
  | some n, SysResult.ok =>
      match c with
      | SvCall.post => SvEvent.posted n
      | SvCall.wait => SvEvent.waited n
      | SvCall.trywait => SvEvent.waited n
      | SvCall.getvalue => SvEvent.silent
  | _, _ => SvEvent.silent

def svStep (fresh : Nat -> Nat) (s : SvState proc) :
    SvAction proc -> Option (SvState proc × SvEvent proc)
  | SvAction.call p a =>
      match s.calls p with
      | some _ => none
      | none =>
          some ({ s with calls := Function.update s.calls p (some (svOpenStart a)) },
            SvEvent.called p a.value)
  | SvAction.syscall p fault =>
      match s.calls p with
      | none => none
      | some l =>
          (s.kernel.exec fresh (svOpenRequest l) fault).map fun done =>
            match svOpenNext l done.2 with
            | SvAfter.goes l' =>
                ({ s with kernel := done.1, calls := Function.update s.calls p (some l') },
                  openEvent p (svOpenRequest l) done.2)
            | SvAfter.returns (Except.ok sem) =>
                ({ kernel := done.1, calls := Function.update s.calls p none,
                   sems := s.sems ++ [sem] }, SvEvent.returned p (Except.ok sem))
            | SvAfter.returns (Except.error e) =>
                ({ s with kernel := done.1, calls := Function.update s.calls p none },
                  SvEvent.returned p (Except.error e))
  | SvAction.use k c fault =>
      match s.sems[k]? with
      | none => none
      | some sem =>
          match c.request sem with
          | none => some (s, SvEvent.silent)
          | some request =>
              (s.kernel.exec fresh request fault).map fun done =>
                ({ s with kernel := done.1 }, useEvent c sem.sem_semid done.2)
  | SvAction.close k =>
      some ({ s with sems := s.sems.modify k svClose }, SvEvent.silent)
  | SvAction.remove id =>
      (s.kernel.exec fresh (Syscall.rmid (some id)) none).map fun done =>
        ({ s with kernel := done.1 }, SvEvent.silent)

structure SvInit (s : SvState proc) : Prop where
  key : s.kernel.key = none
  next : s.kernel.next = 0
  calls : forall p, s.calls p = none
  sems : s.sems = []

end Step

/-!
# Histories
-/

/-- `value` is the argument of the `sem_open` a process has called last; `creator` is the
process whose present call has made a set; `initial` is the value with which that call
has initialised it. -/
structure SvHistory (proc : Type) where
  value : proc -> Option Nat
  creator : Nat -> Option proc
  zeroed : Nat -> Bool
  initial : Nat -> Option Nat
  posts : Nat -> Nat
  waits : Nat -> Nat

namespace SvHistory

variable {proc : Type} [DecidableEq proc]

def empty : SvHistory proc :=
  { value := fun _ => none, creator := fun _ => none, zeroed := fun _ => false,
    initial := fun _ => none, posts := fun _ => 0, waits := fun _ => 0 }

def observe (h : SvHistory proc) : SvEvent proc -> SvHistory proc
  | SvEvent.called p v =>
      { h with value := Function.update h.value p (some v),
               creator := fun id => if h.creator id = some p then none else h.creator id }
  | SvEvent.created p id => { h with creator := Function.update h.creator id (some p) }
  | SvEvent.zeroed p id =>
      if h.creator id = some p then
        { h with zeroed := Function.update h.zeroed id true }
      else
        h
  | SvEvent.incremented p id =>
      if h.creator id = some p ∧ h.zeroed id = true then
        { h with initial := Function.update h.initial id (h.value p) }
      else
        h
  | SvEvent.posted id => { h with posts := Function.update h.posts id (h.posts id + 1) }
  | SvEvent.waited id => { h with waits := Function.update h.waits id (h.waits id + 1) }
  | _ => h

end SvHistory

/-- A semaphore is returned only for a set whose creating call has made its `SETVAL` and its
first `semop`, and nothing is posted to or taken from a set before that. -/
def InitialisedFirst {proc : Type} (h : SvHistory proc) : SvEvent proc -> Prop
  | SvEvent.returned _ (Except.ok sem) =>
      exists id, sem.sem_semid = some id ∧ h.zeroed id = true ∧ (h.initial id).isSome = true
  | SvEvent.posted id => h.zeroed id = true ∧ (h.initial id).isSome = true
  | SvEvent.waited id => h.zeroed id = true ∧ (h.initial id).isSome = true
  | _ => True

/-- The value of an initialised set is the creator's value plus the posts minus the waits. -/
def CountsValue {proc : Type} (h : SvHistory proc) (s : SvState proc) : Prop :=
  forall id v, h.initial id = some v ->
    ((s.kernel.sets id).semval : Int) = v + h.posts id - h.waits id

end SvSem
end InterprocessComm
