import InterprocessComm.Lib.Transition
import InterprocessComm.SvSem.Operations

/-!
# Pathnames and keys

The calls at any number of pathnames.  A pathname denotes a file, `ftok` makes a key of
the file and a project number, and the kernel finds a set by its key.
-/

namespace InterprocessComm
namespace SvSem

open Verification

/-!
# The kernel with its keys
-/

/-- The files that pathnames denote, and the sets that keys denote. -/
structure KeyKernel (path file key : Type) where
  names : path -> Option file
  inUse : file -> Bool
  keys : key -> Option Nat
  sets : Nat -> SemSet
  next : Nat

inductive KeyRequest (path : Type) where
  | openFile (name : path) (excl : Bool)
  | ftok (name : path) (proj : Nat)
  | unlink (name : path)
  | sets (c : Syscall)

namespace KeyKernel

variable {path file key : Type} [DecidableEq path] [DecidableEq file] [DecidableEq key]

/-- A key denotes a set until that is removed. -/
def lookup (k : KeyKernel path file key) (x : key) : Option Nat :=
  match k.keys x with
  | some n => if (k.sets n).removed = true then none else some n
  | none => none

def view (k : KeyKernel path file key) (x : Option key) : Kernel :=
  { key := x.bind k.lookup, sets := k.sets, next := k.next }

def put (k : KeyKernel path file key) (x : Option key) (k' : Kernel) :
    KeyKernel path file key :=
  { k with
    keys :=
      match x with
      | some x => Function.update k.keys x k'.key
      | none => k.keys
    sets := k'.sets
    next := k'.next }

/-- `open` with `O_CREAT`; a new file gets a number that is not in use. -/
def openFile (k : KeyKernel path file key) (name : path) (excl : Bool) (f : file) :
    Option (KeyKernel path file key × SysResult) :=
  match k.names name with
  | some _ => some (k, if excl then SysResult.failed Errno.EEXIST else SysResult.ok)
  | none =>
      if k.inUse f = false then
        some
          ({ k with names := Function.update k.names name (some f),
                    inUse := Function.update k.inUse f true }, SysResult.ok)
      else
        none

def unlink (k : KeyKernel path file key) (name : path) :
    KeyKernel path file key × SysResult :=
  match k.names name with
  | none => (k, SysResult.failed Errno.ENOENT)
  | some f =>
      ({ k with names := Function.update k.names name none,
                inUse := Function.update k.inUse f false }, SysResult.ok)

/-- A call of a process whose variable `key` is `x`; `f` is the number of a new file. -/
def exec (ftok : file -> Nat -> key) (fresh : Nat -> Nat) (k : KeyKernel path file key)
    (x : Option key) (c : KeyRequest path) (fault : Option Errno) (f : file) :
    Option (KeyKernel path file key × Option key × SysResult) :=
  match fault with
  | some e => some (k, x, SysResult.failed e)
  | none =>
      match c with
      | KeyRequest.openFile name excl =>
          (k.openFile name excl f).map fun done => (done.1, x, done.2)
      | KeyRequest.ftok name proj =>
          match k.names name with
          | none => some (k, x, SysResult.failed Errno.ENOENT)
          | some g => some (k, some (ftok g proj), SysResult.ok)
      | KeyRequest.unlink name => some ((k.unlink name).1, x, (k.unlink name).2)
      | KeyRequest.sets c =>
          ((k.view x).run fresh c).map fun done => (k.put x done.1, x, done.2)

end KeyKernel

/-!
# sem_open and sem_unlink
-/

/-- The system call `sem_open` makes next, on its pathname. -/
def svOpenKeyRequest {path : Type} (name : path) (l : SvOpenLoc) : KeyRequest path :=
  match svOpenRequest l with
  | Syscall.openFile => KeyRequest.openFile name l.args.o_excl
  | Syscall.ftok => KeyRequest.ftok name 0
  | c => KeyRequest.sets c

inductive SvUnlinkPc where
  | ftok
  | unlink
  | semget
  | rmid
deriving DecidableEq

structure SvUnlinkLoc where
  pc : SvUnlinkPc
  semid : Option Nat

/-- A call that returns gives an error, or none where it returns 0. -/
inductive SvUnlinkAfter where
  | goes (l : SvUnlinkLoc)
  | returns (ret : Option Errno)

def svUnlinkStart : SvUnlinkLoc := { pc := SvUnlinkPc.ftok, semid := none }

def svUnlinkRequest {path : Type} (name : path) (l : SvUnlinkLoc) : KeyRequest path :=
  match l.pc with
  | SvUnlinkPc.ftok => KeyRequest.ftok name 1
  | SvUnlinkPc.unlink => KeyRequest.unlink name
  | SvUnlinkPc.semget => KeyRequest.sets (Syscall.semget false)
  | SvUnlinkPc.rmid => KeyRequest.sets (Syscall.rmid l.semid)

def svUnlinkNext (l : SvUnlinkLoc) (r : SysResult) : SvUnlinkAfter :=
  match l.pc, r with
  | SvUnlinkPc.ftok, SysResult.failed e => SvUnlinkAfter.returns (some e)
  | SvUnlinkPc.ftok, _ => SvUnlinkAfter.goes { l with pc := SvUnlinkPc.unlink }
  | SvUnlinkPc.unlink, SysResult.failed e => SvUnlinkAfter.returns (some e)
  | SvUnlinkPc.unlink, _ => SvUnlinkAfter.goes { l with pc := SvUnlinkPc.semget }
  | SvUnlinkPc.semget, SysResult.id n =>
      SvUnlinkAfter.goes { l with semid := some n, pc := SvUnlinkPc.rmid }
  | SvUnlinkPc.semget, SysResult.failed e => SvUnlinkAfter.returns (some e)
  | SvUnlinkPc.semget, _ => SvUnlinkAfter.returns (some Errno.EINVAL)
  | SvUnlinkPc.rmid, SysResult.failed e => SvUnlinkAfter.returns (some e)
  | SvUnlinkPc.rmid, _ => SvUnlinkAfter.returns none

/-!
# Processes at the pathnames
-/

inductive KeyCall (path key : Type) where
  | opening (name : path) (x : Option key) (l : SvOpenLoc)
  | unlinking (name : path) (x : Option key) (l : SvUnlinkLoc)

structure KeyState (proc path file key : Type) where
  kernel : KeyKernel path file key
  calls : proc -> Option (KeyCall path key)
  sems : List SemT

inductive KeyAction (proc path file : Type) where
  | opens (p : proc) (name : path) (a : SvOpenArgs)
  | unlinks (p : proc) (name : path)
  | syscall (p : proc) (fault : Option Errno) (f : file)
  | use (n : Nat) (c : SvCall) (fault : Option Errno)
  | close (n : Nat)

inductive KeyEvent (proc path : Type) where
  | silent
  | created (p : proc) (name : path) (id : Nat)
  | opened (p : proc) (name : path) (a : SvOpenArgs) (ret : Except Errno SemT)
  | unlinked (p : proc) (name : path) (ret : Option Errno)

abbrev KeyTransition (proc path file key : Type) : Type :=
  Transition (KeyState proc path file key) (KeyAction proc path file) (KeyEvent proc path)

section Step

variable {proc path file key : Type} [DecidableEq proc] [DecidableEq path] [DecidableEq file]
  [DecidableEq key]

def createdEvent (p : proc) (name : path) : Syscall -> SysResult -> KeyEvent proc path
  | Syscall.semgetExcl, SysResult.id n => KeyEvent.created p name n
  | _, _ => KeyEvent.silent

def openDone (s : KeyState proc path file key) (p : proc) (name : path) (l : SvOpenLoc)
    (done : KeyKernel path file key × Option key × SysResult) :
    KeyState proc path file key × KeyEvent proc path :=
  match svOpenNext l done.2.2 with
  | SvAfter.goes l' =>
      ({ s with kernel := done.1,
                calls := Function.update s.calls p (some (KeyCall.opening name done.2.1 l')) },
        createdEvent p name (svOpenRequest l) done.2.2)
  | SvAfter.returns (Except.ok sem) =>
      ({ kernel := done.1, calls := Function.update s.calls p none, sems := s.sems ++ [sem] },
        KeyEvent.opened p name l.args (Except.ok sem))
  | SvAfter.returns (Except.error e) =>
      ({ s with kernel := done.1, calls := Function.update s.calls p none },
        KeyEvent.opened p name l.args (Except.error e))

def unlinkDone (s : KeyState proc path file key) (p : proc) (name : path) (l : SvUnlinkLoc)
    (done : KeyKernel path file key × Option key × SysResult) :
    KeyState proc path file key × KeyEvent proc path :=
  match svUnlinkNext l done.2.2 with
  | SvUnlinkAfter.goes l' =>
      ({ s with kernel := done.1,
                calls := Function.update s.calls p (some (KeyCall.unlinking name done.2.1 l')) },
        KeyEvent.silent)
  | SvUnlinkAfter.returns ret =>
      ({ s with kernel := done.1, calls := Function.update s.calls p none },
        KeyEvent.unlinked p name ret)

def keyStep (ftok : file -> Nat -> key) (fresh : Nat -> Nat) (s : KeyState proc path file key) :
    KeyAction proc path file -> Option (KeyState proc path file key × KeyEvent proc path)
  | KeyAction.opens p name a =>
      match s.calls p with
      | some _ => none
      | none =>
          some ({ s with calls :=
            Function.update s.calls p (some (KeyCall.opening name none (svOpenStart a))) },
              KeyEvent.silent)
  | KeyAction.unlinks p name =>
      match s.calls p with
      | some _ => none
      | none =>
          some ({ s with calls :=
            Function.update s.calls p (some (KeyCall.unlinking name none svUnlinkStart)) },
              KeyEvent.silent)
  | KeyAction.syscall p fault f =>
      match s.calls p with
      | none => none
      | some (KeyCall.opening name x l) =>
          (s.kernel.exec ftok fresh x (svOpenKeyRequest name l) fault f).map
            (openDone s p name l)
      | some (KeyCall.unlinking name x l) =>
          (s.kernel.exec ftok fresh x (svUnlinkRequest name l) fault f).map
            (unlinkDone s p name l)
  | KeyAction.use n c fault =>
      match s.sems[n]? with
      | none => none
      | some sem =>
          match c.request sem with
          | none => some (s, KeyEvent.silent)
          | some request =>
              ((s.kernel.view none).exec fresh request fault).map fun done =>
                ({ s with kernel := s.kernel.put none done.1 }, KeyEvent.silent)
  | KeyAction.close n =>
      some ({ s with sems := s.sems.modify n svClose }, KeyEvent.silent)

structure KeyInit (s : KeyState proc path file key) : Prop where
  keys : forall x, s.kernel.keys x = none
  next : s.kernel.next = 0
  calls : forall p, s.calls p = none
  sems : s.sems = []

end Step

end SvSem
end InterprocessComm
