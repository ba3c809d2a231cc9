import InterprocessComm.FifoSem.Operations
import InterprocessComm.Lib.Outcomes

/-!
# sem_open

The `sem_open` of the semaphores in a FIFO, whatever its system calls and `malloc` answer.
-/

namespace InterprocessComm
namespace FifoSem

open Verification

def O_CREAT : UInt32 := 64

def O_EXCL : UInt32 := 128

/-- What lies at `sem`, and whether what the allocator keeps in front of the block is as `malloc`
has left it. -/
structure SemBlock where
  sem_fd : Int -> Int
  sem_magic : UInt32
  intact : Bool

/-- The assignment `sem_fd[i] = fd`, which does not test the index. -/
def SemBlock.setFd (sem : SemBlock) (i fd : Int) : SemBlock :=
  if i = 0 ∨ i = 1 then
    { sem with sem_fd := Function.update sem.sem_fd i fd }
  else
    { sem with intact := false }

theorem SemBlock.setFd_first (sem : SemBlock) (fd : Int) :
    sem.setFd 0 fd = { sem with sem_fd := Function.update sem.sem_fd 0 fd } :=
  if_pos (Or.inl rfl)

theorem SemBlock.setFd_second (sem : SemBlock) (fd : Int) :
    sem.setFd 1 fd = { sem with sem_fd := Function.update sem.sem_fd 1 fd } :=
  if_pos (Or.inr rfl)

inductive OpenCall where
  | mkfifo
  | malloc
  | openRead
  | openWrite
  | getfl (fd : Int)
  | setfl (fd : Int) (flags : UInt32)
  | write (fd : Int)
  | unlink
  | close (fd : Int)
  | free
deriving DecidableEq

inductive CallResult where
  | failed (e : Errno)
  | value (n : Nat)
  | block (sem : SemBlock)

inductive OpenPc where
  | mkfifo
  | malloc
  | openRead
  | openWrite
  | getfl
  | setfl
  | write
  | errUnlink
  | errClose0
  | errClose1
  | errFree
deriving DecidableEq

structure OpenLoc where
  pc : OpenPc
  oflag : UInt32
  value : UInt32
  sem : SemBlock
  flags : UInt32
  i : Int
  errno : Errno
  save_errno : Errno

/-- A call returns a semaphore or `SEM_FAILED`, or comes to where nothing is defined. -/
inductive OpenRet where
  | sem (sem : SemBlock)
  | failed (e : Errno)
  | undefined

abbrev OpenControl : Type := Control OpenLoc OpenRet

namespace OpenLoc

def creates (l : OpenLoc) : Bool := l.oflag &&& O_CREAT ≠ 0

def request (l : OpenLoc) : OpenCall :=
  match l.pc with
  | OpenPc.mkfifo => OpenCall.mkfifo
  | OpenPc.malloc => OpenCall.malloc
  | OpenPc.openRead => OpenCall.openRead
  | OpenPc.openWrite => OpenCall.openWrite
  | OpenPc.getfl => OpenCall.getfl (l.sem.sem_fd 0)
  | OpenPc.setfl => OpenCall.setfl (l.sem.sem_fd 0) l.flags
  | OpenPc.write => OpenCall.write (l.sem.sem_fd 1)
  | OpenPc.errUnlink => OpenCall.unlink
  | OpenPc.errClose0 => OpenCall.close (l.sem.sem_fd 0)
  | OpenPc.errClose1 => OpenCall.close (l.sem.sem_fd 1)
  | OpenPc.errFree => OpenCall.free

def error (l : OpenLoc) : OpenControl :=
  let l := { l with save_errno := l.errno }
  if l.creates then
    Control.goes { l with pc := OpenPc.errUnlink }
  else
    Control.goes { l with pc := OpenPc.errClose0 }

def succeeds (l : OpenLoc) : OpenControl :=
  Control.returns (OpenRet.sem { l.sem with sem_magic := SEM_MAGIC })

def fill (l : OpenLoc) : OpenControl :=
  if l.i % 2 ^ 32 < l.value.toNat then
    Control.goes { l with pc := OpenPc.write }
  else
    l.succeeds

def next (l : OpenLoc) (r : CallResult) : Option OpenControl :=
  match l.pc, r with
  | OpenPc.mkfifo, CallResult.failed e =>
      if e = Errno.EEXIST ∧ l.oflag &&& O_EXCL = 0 then
        some (Control.goes
          { l with pc := OpenPc.malloc, oflag := l.oflag &&& ~~~O_CREAT, errno := e })
      else
        some (Control.returns (OpenRet.failed e))
  | OpenPc.mkfifo, CallResult.value _ => some (Control.goes { l with pc := OpenPc.malloc })
  | OpenPc.malloc, CallResult.failed e => some (Control.returns (OpenRet.failed e))
  | OpenPc.malloc, CallResult.block sem =>
      -- the index of one of the two assignments is -1 in the source
      some (Control.goes
        { l with
          pc := OpenPc.openRead
          sem := ({ sem with intact := true }.setFd (-1) (-1)).setFd 0 (-1) })
  | OpenPc.openRead, CallResult.failed e =>
      some { l with sem := l.sem.setFd 0 (-1), errno := e }.error
  | OpenPc.openRead, CallResult.value fd =>
      some (Control.goes { l with pc := OpenPc.openWrite, sem := l.sem.setFd 0 fd })
  | OpenPc.openWrite, CallResult.failed e =>
      some { l with sem := l.sem.setFd 1 (-1), errno := e }.error
  | OpenPc.openWrite, CallResult.value fd =>
      some (Control.goes { l with pc := OpenPc.getfl, sem := l.sem.setFd 1 fd })
  | OpenPc.getfl, CallResult.failed e => some { l with errno := e }.error
  | OpenPc.getfl, CallResult.value flags =>
      some (Control.goes
        { l with pc := OpenPc.setfl, flags := UInt32.ofNat flags &&& ~~~O_NONBLOCK })
  | OpenPc.setfl, CallResult.failed e => some { l with errno := e }.error
  | OpenPc.setfl, CallResult.value _ =>
      if l.creates then some { l with i := 0 }.fill else some l.succeeds
  | OpenPc.write, CallResult.failed e => some { l with errno := e }.error
  | OpenPc.write, CallResult.value count =>
      if count ≠ 1 then
        some l.error
      else
        (increment l.i).map fun i => { l with i := i }.fill
  | OpenPc.errUnlink, CallResult.block _ => none
  | OpenPc.errUnlink, _ => some (Control.goes { l with pc := OpenPc.errClose0 })
  | OpenPc.errClose0, CallResult.block _ => none
  | OpenPc.errClose0, _ => some (Control.goes { l with pc := OpenPc.errClose1 })
  | OpenPc.errClose1, CallResult.block _ => none
  | OpenPc.errClose1, _ => some (Control.goes { l with pc := OpenPc.errFree })
  | OpenPc.errFree, CallResult.value _ =>
      if l.sem.intact then
        some (Control.returns (OpenRet.failed l.save_errno))
      else
        -- `free` looks at the words in front of the block
        some (Control.returns OpenRet.undefined)
  | _, _ => none

end OpenLoc

def semOpen : CallProgram OpenLoc OpenCall CallResult OpenRet where
  request := OpenLoc.request
  next := OpenLoc.next

def Opens (oflag value : UInt32) (s : OpenControl) : Prop :=
  exists l : OpenLoc, l.oflag = oflag ∧ l.value = value ∧
    l.pc = (if l.creates then OpenPc.mkfifo else OpenPc.malloc) ∧ s = Control.goes l

abbrev OpenTransition : Type :=
  Transition OpenControl CallResult (OpenCall × CallResult)

end FifoSem
end InterprocessComm
