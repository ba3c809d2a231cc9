import InterprocessComm.Lib.Monitor
import InterprocessComm.Lib.Transition
import InterprocessComm.Posix

/-!
# Semaphores in mapped memory

A semaphore made of a counter, a mutex and a condition variable in a mapped file.  A
call is cut into the stretches it runs under `sem_mutex`: from taking the mutex up to
giving it back or waiting, and from coming back out of `pthread_cond_wait`.
-/

namespace InterprocessComm
namespace MmapSem

open Verification

/-- What the statement `sem->sem_cond ++` of `sem_post` increments: the member it names,
or the count that it seems to be meant for. -/
inductive PostReading where
  | asWritten
  | semCount
deriving DecidableEq

/-- The mutex, and who waits on the condition variable, are in the state of the threads;
`sem_cond` holds the number of increments of that member. -/
structure SemT where
  sem_cond : Nat
  sem_count : UInt32
  sem_magic : Int
deriving DecidableEq

def SEM_MAGIC : Int := 0x67458923

inductive SemCall where
  | post
  | wait
  | trywait
  | getvalue
deriving DecidableEq

/-- What a call returns; `value` is 0 together with the value stored at `pvalue`. -/
inductive SemReturn where
  | zero
  | value (v : Int)
  | error (e : Errno)
deriving DecidableEq

inductive SemOutcome where
  | returns (result : SemReturn)
  | waits
deriving DecidableEq

structure SemStretch where
  sem : SemT
  outcome : SemOutcome
  signals : Bool
deriving DecidableEq

def SemStretch.ret (sem : SemT) (result : SemReturn) : SemStretch :=
  { sem := sem, outcome := SemOutcome.returns result, signals := false }

/-- What the `sem_open` that creates the file leaves in it, or the error it gives up with. -/
def semOpenCreate (value : UInt32) : Except Errno SemT :=
  if (value.toNat : Int) > SEM_VALUE_MAX then
    Except.error Errno.EINVAL
  else
    Except.ok { sem_cond := 0, sem_count := value, sem_magic := SEM_MAGIC }

def SemT.increment (reading : PostReading) (sem : SemT) : SemT :=
  match reading with
  | PostReading.asWritten => { sem with sem_cond := sem.sem_cond + 1 }
  | PostReading.semCount => { sem with sem_count := sem.sem_count + 1 }

def semPost (reading : PostReading) (sem : SemT) : SemStretch :=
  { sem := sem.increment reading, outcome := SemOutcome.returns SemReturn.zero,
    signals := decide (sem.sem_count = 0) }

def semWaitLoop (sem : SemT) : SemStretch :=
  if sem.sem_count = 0 then
    { sem := sem, outcome := SemOutcome.waits, signals := false }
  else
    SemStretch.ret { sem with sem_count := sem.sem_count - 1 } SemReturn.zero

def semTrywait (sem : SemT) : SemStretch :=
  if sem.sem_count > 0 then
    SemStretch.ret { sem with sem_count := sem.sem_count - 1 } SemReturn.zero
  else
    SemStretch.ret sem (SemReturn.error Errno.EAGAIN)

/-- The count is converted to an `int`. -/
def semGetvalue (sem : SemT) : SemStretch :=
  SemStretch.ret sem (SemReturn.value (Int.bmod sem.sem_count.toNat (2 ^ 32)))

def SemCall.enter (reading : PostReading) (sem : SemT) (c : SemCall) : SemStretch :=
  if sem.sem_magic ≠ SEM_MAGIC then
    SemStretch.ret sem (SemReturn.error Errno.EINVAL)
  else
    match c with
    | post => semPost reading sem
    | wait => semWaitLoop sem
    | trywait => semTrywait sem
    | getvalue => semGetvalue sem

/-!
# Threads at one semaphore
-/

/-- The semaphore and its threads, with the numbers of completed posts and of waits that
returned 0 beside it. -/
structure SemState (tid : Type) where
  sem : SemT
  phase : tid -> Phase Unit Unit
  posts : Nat
  waits : Nat

inductive SemAction (tid : Type) where
  | call (t : tid) (c : SemCall) (wake : Option tid)
  | lockFails (t : tid) (c : SemCall) (e : Errno)
  | resume (t : tid)
  | spurious (t : tid)

structure SemEvent where
  call : SemCall
  outcome : SemOutcome
deriving DecidableEq

abbrev SemTransition (tid : Type) : Type :=
  Transition (SemState tid) (SemAction tid) (Option SemEvent)

section Step

variable {tid : Type} [Fintype tid] [DecidableEq tid]

def semPhaseAfter : SemOutcome -> Phase Unit Unit
  | SemOutcome.waits => Phase.asleep () ()
  | SemOutcome.returns _ => Phase.outside

def completedPosts : SemCall -> SemOutcome -> Nat
  | SemCall.post, SemOutcome.returns SemReturn.zero => 1
  | _, _ => 0

def completedWaits : SemCall -> SemOutcome -> Nat
  | SemCall.wait, SemOutcome.returns SemReturn.zero => 1
  | SemCall.trywait, SemOutcome.returns SemReturn.zero => 1
  | _, _ => 0

def semFinish (s : SemState tid) (t : tid) (c : SemCall) (r : SemStretch) (wake : Option tid) :
    Option (SemState tid × Option SemEvent) :=
  let phase := Function.update s.phase t (semPhaseAfter r.outcome)
  let phase' :=
    if r.signals then signal () wake phase else if wake.isNone then some phase else none
  phase'.map fun phase' =>
    ({ sem := r.sem, phase := phase', posts := s.posts + completedPosts c r.outcome,
       waits := s.waits + completedWaits c r.outcome },
      some { call := c, outcome := r.outcome })

def semStep (reading : PostReading) (s : SemState tid) :
    SemAction tid -> Option (SemState tid × Option SemEvent)
  | SemAction.call t c wake =>
      if s.phase t = Phase.outside then
        semFinish s t c (c.enter reading s.sem) wake
      else
        none
  | SemAction.lockFails t c e =>
      if s.phase t = Phase.outside then
        some (s, some { call := c, outcome := SemOutcome.returns (SemReturn.error e) })
      else
        none
  | SemAction.resume t =>
      match s.phase t with
      | Phase.woken _ _ _ => semFinish s t SemCall.wait (semWaitLoop s.sem) none
      | _ => none
  | SemAction.spurious t =>
      match s.phase t with
      | Phase.asleep _ _ =>
          some ({ s with phase := Function.update s.phase t ((s.phase t).wake false) }, none)
      | _ => none

structure SemInit (value : UInt32) (s : SemState tid) : Prop where
  sem : semOpenCreate value = Except.ok s.sem
  phase : forall t, s.phase t = Phase.outside
  posts : s.posts = 0
  waits : s.waits = 0

def number (value : UInt32) (s : SemState tid) : Int :=
  value.toNat + s.posts - s.waits

end Step

end MmapSem
end InterprocessComm
