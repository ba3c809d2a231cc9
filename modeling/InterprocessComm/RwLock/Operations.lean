import InterprocessComm.Posix

/-!
# Read-write lock operations

The read-write lock built from one mutex and two condition variables.  A call is
cut into the stretches it runs under `rw_mutex`: from taking the mutex up to
giving it back or waiting, and from coming back out of `pthread_cond_wait`.
`pthread_cond_signal` and `pthread_cond_broadcast` return 0.
-/

namespace InterprocessComm
namespace RwLock

inductive RwCond where
  | condreaders
  | condwriters
deriving DecidableEq

structure PthreadRwlock where
  rw_magic : Int
  rw_nwaitreaders : Int
  rw_nwaitwriters : Int
  rw_refcount : Int
deriving DecidableEq

def RW_MAGIC : Int := 0x19283746

inductive RwCall where
  | rdlock
  | wrlock
  | tryrdlock
  | trywrlock
  | unlock
deriving DecidableEq

inductive RwResult where
  | zero
  | error (e : Errno)
  | minusOne
deriving DecidableEq

/-- How a stretch ends: the call returns with the mutex given back, waits, or returns
with the mutex still taken. -/
inductive RwOutcome where
  | returns (result : RwResult)
  | waits
  | returnsLocked (result : RwResult)
deriving DecidableEq

inductive RwNotice where
  | nothing
  | signalWriters
  | broadcastReaders
deriving DecidableEq

structure RwStretch where
  rw : PthreadRwlock
  outcome : RwOutcome
  notice : RwNotice
deriving DecidableEq

def RwStretch.ret (rw : PthreadRwlock) (result : RwResult) : RwStretch :=
  { rw := rw, outcome := RwOutcome.returns result, notice := RwNotice.nothing }

def RwStretch.wait (rw : PthreadRwlock) : RwStretch :=
  { rw := rw, outcome := RwOutcome.waits, notice := RwNotice.nothing }

/-!
# Initialisation
-/

/-- `attr` says whether attributes were given; the others are the results of the
initialisers of the mutex and the condition variables. -/
def pthreadRwlockInit (attr : Bool) (mutex condreaders condwriters : Option Errno) :
    Except Errno PthreadRwlock :=
  if attr then
    Except.error Errno.EINVAL
  else
    match mutex, condreaders, condwriters with
    | some e, _, _ => Except.error e
    | none, some e, _ => Except.error e
    | none, none, some e => Except.error e
    | none, none, none =>
        Except.ok
          { rw_magic := RW_MAGIC, rw_nwaitreaders := 0, rw_nwaitwriters := 0,
            rw_refcount := 0 }

/-!
# Locking
-/

def rdlockLoop (rw : PthreadRwlock) : Option RwStretch :=
  -- give preference to waiting writers
  if rw.rw_refcount < 0 ∨ rw.rw_nwaitwriters > 0 then
    (increment rw.rw_nwaitreaders).map fun n =>
      RwStretch.wait { rw with rw_nwaitreaders := n }
  else
    (increment rw.rw_refcount).map fun n =>
      RwStretch.ret { rw with rw_refcount := n } RwResult.zero

def pthreadRwlockRdlock (rw : PthreadRwlock) : Option RwStretch :=
  if rw.rw_magic ≠ RW_MAGIC then
    some (RwStretch.ret rw (RwResult.error Errno.EINVAL))
  else
    rdlockLoop rw

/-- `pthread_cond_wait` has returned `result` in `pthread_rwlock_rdlock`. -/
def rdlockResume (rw : PthreadRwlock) (result : Option Errno) : Option RwStretch :=
  let rw := { rw with rw_nwaitreaders := rw.rw_nwaitreaders - 1 }
  match result with
  | some e => some (RwStretch.ret rw (RwResult.error e))
  | none => rdlockLoop rw

def wrlockLoop (rw : PthreadRwlock) : Option RwStretch :=
  if rw.rw_refcount ≠ 0 then
    (increment rw.rw_nwaitwriters).map fun n =>
      RwStretch.wait { rw with rw_nwaitwriters := n }
  else
    some (RwStretch.ret { rw with rw_refcount := -1 } RwResult.zero)

def pthreadRwlockWrlock (rw : PthreadRwlock) : Option RwStretch :=
  if rw.rw_magic ≠ RW_MAGIC then
    some (RwStretch.ret rw (RwResult.error Errno.EINVAL))
  else
    wrlockLoop rw

/-- `pthread_cond_wait` has returned `result` in `pthread_rwlock_wrlock`. -/
def wrlockResume (rw : PthreadRwlock) (result : Option Errno) : Option RwStretch :=
  let rw := { rw with rw_nwaitwriters := rw.rw_nwaitwriters - 1 }
  match result with
  | some e => some (RwStretch.ret rw (RwResult.error e))
  | none => wrlockLoop rw

def pthreadRwlockTryrdlock (rw : PthreadRwlock) : Option RwStretch :=
  if rw.rw_magic ≠ RW_MAGIC then
    some (RwStretch.ret rw (RwResult.error Errno.EINVAL))
  else if rw.rw_refcount < 0 ∨ rw.rw_nwaitwriters > 0 then
    -- held by a writer or waiting writers
    some (RwStretch.ret rw (RwResult.error Errno.EBUSY))
  else
    (increment rw.rw_refcount).map fun n =>
      RwStretch.ret { rw with rw_refcount := n } RwResult.zero

def pthreadRwlockTrywrlock (rw : PthreadRwlock) : Option RwStretch :=
  if rw.rw_magic ≠ RW_MAGIC then
    some (RwStretch.ret rw (RwResult.error Errno.EINVAL))
  else if rw.rw_refcount ≠ 0 then
    -- held by either writer or readers
    some (RwStretch.ret rw (RwResult.error Errno.EBUSY))
  else
    some (RwStretch.ret { rw with rw_refcount := -1 } RwResult.zero)

/-!
# Unlocking
-/

/-- Whom an unlock wakes, with preference to waiting writers over waiting readers. -/
def unlockNotice (rw : PthreadRwlock) : RwNotice :=
  if rw.rw_nwaitwriters > 0 then
    if rw.rw_refcount = 0 then RwNotice.signalWriters else RwNotice.nothing
  else if rw.rw_nwaitreaders > 0 then
    RwNotice.broadcastReaders
  else
    RwNotice.nothing

def pthreadRwlockUnlock (rw : PthreadRwlock) : Option RwStretch :=
  if rw.rw_magic ≠ RW_MAGIC then
    some (RwStretch.ret rw (RwResult.error Errno.EINVAL))
  else if rw.rw_refcount > 0 then
    let rw := { rw with rw_refcount := rw.rw_refcount - 1 }
    some { rw := rw, outcome := RwOutcome.returns RwResult.zero, notice := unlockNotice rw }
  else if rw.rw_refcount = -1 then
    let rw := { rw with rw_refcount := 0 }
    some { rw := rw, outcome := RwOutcome.returns RwResult.zero, notice := unlockNotice rw }
  else
    -- the message about the count; the mutex stays taken
    some { rw := rw, outcome := RwOutcome.returnsLocked RwResult.minusOne,
           notice := RwNotice.nothing }

end RwLock
end InterprocessComm
