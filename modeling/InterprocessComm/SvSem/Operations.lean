import InterprocessComm.Posix
import Mathlib.Logic.Function.Basic

/-!
# Semaphores over System V semaphores

A semaphore that is a System V set with one member, found by the key of a pathname.
The set is created and initialised in two calls; the creator's first `semop` sets
`sem_otime`, for which the others wait.
-/

namespace InterprocessComm
namespace SvSem

/-!
# The kernel
-/

def SEMVMX : Nat := 32767

def ERANGE : Errno := Errno.other 34

/-- A semaphore set; `otime` says that `sem_otime` is not zero. -/
structure SemSet where
  semval : Nat
  otime : Bool
  removed : Bool
deriving DecidableEq

/-- The sets there have been, and the one that the key of the pathname denotes. -/
structure Kernel where
  key : Option Nat
  sets : Nat -> SemSet
  next : Nat

inductive Syscall where
  | openFile
  | closeFile
  | ftok
  | semgetExcl
  | semget (creat : Bool)
  | setval (id : Option Nat) (value : Nat)
  | semop (id : Option Nat) (op : Int) (nowait : Bool)
  | getval (id : Option Nat)
  | stat (id : Option Nat)
  | rmid (id : Option Nat)
  | sleep
  | malloc
deriving DecidableEq

inductive SysResult where
  | ok
  | id (n : Nat)
  | status (otime : Bool)
  | value (v : Nat)
  | failed (e : Errno)
deriving DecidableEq

namespace Kernel

def update (k : Kernel) (id : Nat) (x : SemSet) : Kernel :=
  { k with sets := Function.update k.sets id x }

/-- `semop` with one operation; it does not return while it has to wait. -/
def semop (k : Kernel) (id : Nat) (op : Int) (nowait : Bool) : Option (Kernel × SysResult) :=
  let x := k.sets id
  let done := { x with semval := (x.semval + op).toNat, otime := true }
  if op > 0 then
    if x.semval + op > SEMVMX then
      some (k, SysResult.failed ERANGE)
    else
      some (k.update id done, SysResult.ok)
  else if op = 0 then
    if x.semval = 0 then
      some (k.update id done, SysResult.ok)
    else if nowait then
      some (k, SysResult.failed Errno.EAGAIN)
    else
      none
  else if 0 ≤ x.semval + op then
    some (k.update id done, SysResult.ok)
  else if nowait then
    some (k, SysResult.failed Errno.EAGAIN)
  else
    none

def onSet (k : Kernel) (id : Option Nat) (f : Nat -> Option (Kernel × SysResult)) :
    Option (Kernel × SysResult) :=
  match id with
  | some n =>
      if n < k.next ∧ (k.sets n).removed = false then
        f n
      else
        some (k, SysResult.failed Errno.EINVAL)
  | none => some (k, SysResult.failed Errno.EINVAL)

/-- What a call does when nothing else makes it fail. The initial value of a set is not
specified: `fresh` gives it. -/
def run (fresh : Nat -> Nat) (k : Kernel) : Syscall -> Option (Kernel × SysResult)
  | Syscall.semgetExcl =>
      match k.key with
      | some _ => some (k, SysResult.failed Errno.EEXIST)
      | none =>
          some
            ({ key := some k.next,
               sets := Function.update k.sets k.next
                 { semval := fresh k.next, otime := false, removed := false },
               next := k.next + 1 }, SysResult.id k.next)
  | Syscall.semget creat =>
      -- a set cannot be created with no member
      match k.key with
      | some n => some (k, SysResult.id n)
      | none =>
          some (k, SysResult.failed (if creat then Errno.EINVAL else Errno.ENOENT))
  | Syscall.setval id value =>
      k.onSet id fun n =>
        some (k.update n { k.sets n with semval := value }, SysResult.ok)
  | Syscall.semop id op nowait => k.onSet id fun n => k.semop n op nowait
  | Syscall.getval id => k.onSet id fun n => some (k, SysResult.value (k.sets n).semval)
  | Syscall.stat id => k.onSet id fun n => some (k, SysResult.status (k.sets n).otime)
  | Syscall.rmid id =>
      k.onSet id fun n =>
        some
          ({ k.update n { k.sets n with removed := true } with
             key := if k.key = some n then none else k.key }, SysResult.ok)
  | _ => some (k, SysResult.ok)

/-- A call that may fail for a reason of its own, with no effect. -/
def exec (fresh : Nat -> Nat) (k : Kernel) (c : Syscall) (fault : Option Errno) :
    Option (Kernel × SysResult) :=
  match fault with
  | some e => some (k, SysResult.failed e)
  | none => k.run fresh c

end Kernel

/-!
# sem_open
-/

def SEM_MAGIC : Int := 0x45678923

def MAX_TRIES : Nat := 10

structure SemT where
  sem_semid : Option Nat
  sem_magic : Int
deriving DecidableEq

structure SvOpenArgs where
  o_creat : Bool
  o_excl : Bool
  value : Nat

inductive SvOpenPc where
  | openFile
  | closeFile
  | ftokNew
  | semgetNew
  | setval
  | initop
  | ftokOld
  | semgetOld
  | stat
  | sleep
  | malloc
  | rmid
deriving DecidableEq

structure SvOpenLoc where
  pc : SvOpenPc
  args : SvOpenArgs
  semid : Option Nat
  i : Nat
  errno : Errno

inductive SvAfter where
  | goes (l : SvOpenLoc)
  | returns (ret : Except Errno SemT)

namespace SvOpenLoc

/-- `goto err`: a set that the call has found or made is removed. -/
def err (l : SvOpenLoc) (e : Errno) : SvAfter :=
  match l.semid with
  | some _ => SvAfter.goes { l with errno := e, pc := SvOpenPc.rmid }
  | none => SvAfter.returns (Except.error e)

def tries (l : SvOpenLoc) : SvAfter :=
  if l.i < MAX_TRIES then
    SvAfter.goes { l with pc := SvOpenPc.stat }
  else
    l.err Errno.ETIMEDOUT

end SvOpenLoc

def svOpenStart (a : SvOpenArgs) : SvOpenLoc :=
  { pc := if a.o_creat then SvOpenPc.openFile else SvOpenPc.ftokOld, args := a, semid := none,
    i := 0, errno := Errno.other 0 }

def svOpenRequest (l : SvOpenLoc) : Syscall :=
  match l.pc with
  | SvOpenPc.openFile => Syscall.openFile
  | SvOpenPc.closeFile => Syscall.closeFile
  | SvOpenPc.ftokNew => Syscall.ftok
  | SvOpenPc.semgetNew => Syscall.semgetExcl
  | SvOpenPc.setval => Syscall.setval l.semid 0
  | SvOpenPc.initop => Syscall.semop l.semid l.args.value false
  | SvOpenPc.ftokOld => Syscall.ftok
  | SvOpenPc.semgetOld => Syscall.semget l.args.o_creat
  | SvOpenPc.stat => Syscall.stat l.semid
  | SvOpenPc.sleep => Syscall.sleep
  | SvOpenPc.malloc => Syscall.malloc
  | SvOpenPc.rmid => Syscall.rmid l.semid

/-- A result of another kind than the call can have is not given by the kernel. -/
def svOpenNext (l : SvOpenLoc) (r : SysResult) : SvAfter :=
  match l.pc, r with
  | SvOpenPc.openFile, SysResult.failed e => SvAfter.returns (Except.error e)
  | SvOpenPc.openFile, _ => SvAfter.goes { l with pc := SvOpenPc.closeFile }
  | SvOpenPc.closeFile, _ => SvAfter.goes { l with pc := SvOpenPc.ftokNew }
  | SvOpenPc.ftokNew, SysResult.failed e => SvAfter.returns (Except.error e)
  | SvOpenPc.ftokNew, _ => SvAfter.goes { l with pc := SvOpenPc.semgetNew }
  | SvOpenPc.semgetNew, SysResult.id n =>
      SvAfter.goes { l with semid := some n, pc := SvOpenPc.setval }
  | SvOpenPc.semgetNew, SysResult.failed e =>
      if e ≠ Errno.EEXIST ∨ l.args.o_excl = true then
        { l with semid := none }.err e
      else
        SvAfter.goes { l with semid := none, pc := SvOpenPc.ftokOld }
  | SvOpenPc.semgetNew, _ => SvAfter.returns (Except.error Errno.EINVAL)
  | SvOpenPc.setval, SysResult.failed e => l.err e
  | SvOpenPc.setval, _ =>
      if l.args.value > SEMVMX then
        l.err Errno.EINVAL
      else
        SvAfter.goes { l with pc := SvOpenPc.initop }
  | SvOpenPc.initop, SysResult.failed e => l.err e
  | SvOpenPc.initop, _ => SvAfter.goes { l with pc := SvOpenPc.malloc }
  | SvOpenPc.ftokOld, SysResult.failed e => l.err e
  | SvOpenPc.ftokOld, _ => SvAfter.goes { l with pc := SvOpenPc.semgetOld }
  | SvOpenPc.semgetOld, SysResult.id n => { l with semid := some n, i := 0 : SvOpenLoc }.tries
  | SvOpenPc.semgetOld, SysResult.failed e => { l with semid := none : SvOpenLoc }.err e
  | SvOpenPc.semgetOld, _ => SvAfter.returns (Except.error Errno.EINVAL)
  | SvOpenPc.stat, SysResult.status otime =>
      if otime = true then
        SvAfter.goes { l with pc := SvOpenPc.malloc }
      else
        SvAfter.goes { l with pc := SvOpenPc.sleep }
  | SvOpenPc.stat, SysResult.failed e => l.err e
  | SvOpenPc.stat, _ => SvAfter.returns (Except.error Errno.EINVAL)
  | SvOpenPc.sleep, _ => { l with i := l.i + 1 : SvOpenLoc }.tries
  | SvOpenPc.malloc, SysResult.failed e => l.err e
  | SvOpenPc.malloc, _ =>
      SvAfter.returns (Except.ok { sem_semid := l.semid, sem_magic := SEM_MAGIC })
  | SvOpenPc.rmid, _ => SvAfter.returns (Except.error l.errno)

/-!
# The other calls
-/

inductive SvCall where
  | post
  | wait
  | trywait
  | getvalue
deriving DecidableEq

def SvCall.request (sem : SemT) (c : SvCall) : Option Syscall :=
  if sem.sem_magic ≠ SEM_MAGIC then
    none
  else
    match c with
    | post => some (Syscall.semop sem.sem_semid 1 false)
    | wait => some (Syscall.semop sem.sem_semid (-1) false)
    | trywait => some (Syscall.semop sem.sem_semid (-1) true)
    | getvalue => some (Syscall.getval sem.sem_semid)

/-- `sem_close` leaves a wrong magic number behind. -/
def svClose (sem : SemT) : SemT := { sem with sem_magic := 0 }

end SvSem
end InterprocessComm
