import InterprocessComm.Lib.Monitor
import InterprocessComm.Lib.Transition
import InterprocessComm.RwLock.Operations

/-!
# Threads at one read-write lock

Any number of threads lock and unlock one read-write lock.  A step is one stretch
of a call under `rw_mutex` or a spurious wakeup; the holds of the threads are kept
beside the counters of the lock.
-/

namespace InterprocessComm
namespace RwLock

open Verification

structure RwState (tid : Type) where
  rw : PthreadRwlock
  phase : tid -> Phase RwCond Unit
  /-- The read locks each thread has taken and not given back. -/
  reads : tid -> Nat
  /-- The write locks each thread has taken and not given back. -/
  writes : tid -> Nat
  /-- A call has returned with `rw_mutex` taken. -/
  locked : Bool

/-- `resume` carries what `pthread_cond_wait` returns. -/
inductive RwAction (tid : Type) where
  | call (t : tid) (c : RwCall) (wake : Option tid)
  | lockFails (t : tid) (c : RwCall) (e : Errno)
  | resume (t : tid) (result : Option Errno)
  | spurious (t : tid)

structure RwEvent where
  call : RwCall
  outcome : RwOutcome
deriving DecidableEq

def RwCall.enter (rw : PthreadRwlock) : RwCall -> Option RwStretch
  | rdlock => pthreadRwlockRdlock rw
  | wrlock => pthreadRwlockWrlock rw
  | tryrdlock => pthreadRwlockTryrdlock rw
  | trywrlock => pthreadRwlockTrywrlock rw
  | unlock => pthreadRwlockUnlock rw

namespace RwCond

def call : RwCond -> RwCall
  | condreaders => RwCall.rdlock
  | condwriters => RwCall.wrlock

def resume (rw : PthreadRwlock) (result : Option Errno) : RwCond -> Option RwStretch
  | condreaders => rdlockResume rw result
  | condwriters => wrlockResume rw result

end RwCond

def RwCall.cond : RwCall -> Option RwCond
  | rdlock => some RwCond.condreaders
  | wrlock => some RwCond.condwriters
  | _ => none

section Step

variable {tid : Type} [Fintype tid] [DecidableEq tid]

def rwPhaseAfter (c : RwCall) (outcome : RwOutcome) : Phase RwCond Unit :=
  match outcome, c.cond with
  | RwOutcome.waits, some d => Phase.asleep d ()
  | _, _ => Phase.outside

def readsAfter (s : RwState tid) (t : tid) (c : RwCall) (outcome : RwOutcome) : tid -> Nat :=
  match c, outcome with
  | RwCall.rdlock, RwOutcome.returns RwResult.zero =>
      Function.update s.reads t (s.reads t + 1)
  | RwCall.tryrdlock, RwOutcome.returns RwResult.zero =>
      Function.update s.reads t (s.reads t + 1)
  | RwCall.unlock, RwOutcome.returns RwResult.zero =>
      if s.writes t = 0 then Function.update s.reads t (s.reads t - 1) else s.reads
  | _, _ => s.reads

def writesAfter (s : RwState tid) (t : tid) (c : RwCall) (outcome : RwOutcome) : tid -> Nat :=
  match c, outcome with
  | RwCall.wrlock, RwOutcome.returns RwResult.zero =>
      Function.update s.writes t (s.writes t + 1)
  | RwCall.trywrlock, RwOutcome.returns RwResult.zero =>
      Function.update s.writes t (s.writes t + 1)
  | RwCall.unlock, RwOutcome.returns RwResult.zero =>
      if s.writes t = 0 then s.writes else Function.update s.writes t (s.writes t - 1)
  | _, _ => s.writes

def RwOutcome.keepsMutex : RwOutcome -> Bool
  | returnsLocked _ => true
  | _ => false

def RwNotice.give (phase : tid -> Phase RwCond Unit) (wake : Option tid) :
    RwNotice -> Option (tid -> Phase RwCond Unit)
  | nothing => some phase
  | signalWriters => signal RwCond.condwriters wake phase
  | broadcastReaders => some (broadcast RwCond.condreaders phase)

def rwFinish (s : RwState tid) (t : tid) (c : RwCall) (r : RwStretch) (wake : Option tid) :
    Option (RwState tid × Option RwEvent) :=
  (r.notice.give (Function.update s.phase t (rwPhaseAfter c r.outcome)) wake).map fun phase =>
    ({ rw := r.rw, phase := phase, reads := readsAfter s t c r.outcome,
       writes := writesAfter s t c r.outcome, locked := r.outcome.keepsMutex },
      some { call := c, outcome := r.outcome })

/-- A thread calls from outside of the lock, and unlocks only what it holds. -/
def RwMayCall (s : RwState tid) (t : tid) (c : RwCall) : Prop :=
  s.phase t = Phase.outside ∧ (c = RwCall.unlock -> 0 < s.reads t + s.writes t)

instance (s : RwState tid) (t : tid) (c : RwCall) : Decidable (RwMayCall s t c) :=
  inferInstanceAs (Decidable (_ ∧ _))

def rwStep (s : RwState tid) : RwAction tid -> Option (RwState tid × Option RwEvent)
  | RwAction.call t c wake =>
      if s.locked = false ∧ RwMayCall s t c then
        match c.enter s.rw with
        | none => none
        | some r => rwFinish s t c r wake
      else
        none
  | RwAction.lockFails t c e =>
      if RwMayCall s t c then
        some (s, some { call := c, outcome := RwOutcome.returns (RwResult.error e) })
      else
        none
  | RwAction.resume t result =>
      match s.phase t with
      | Phase.woken _ d _ =>
          if s.locked = false then
            match d.resume s.rw result with
            | none => none
            | some r => rwFinish s t d.call r none
          else
            none
      | _ => none
  | RwAction.spurious t =>
      match s.phase t with
      | Phase.asleep _ _ =>
          some ({ s with phase := Function.update s.phase t ((s.phase t).wake false) }, none)
      | _ => none

structure RwInit (s : RwState tid) : Prop where
  rw : pthreadRwlockInit false none none none = Except.ok s.rw
  phase : forall t, s.phase t = Phase.outside
  reads : forall t, s.reads t = 0
  writes : forall t, s.writes t = 0
  unlocked : s.locked = false

end Step

end RwLock
end InterprocessComm
