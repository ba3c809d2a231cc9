import InterprocessComm.Posix
import Mathlib.Logic.Function.Basic

/-!
# One pathname and its files

The part of the file system that an open protocol with a permission bit for an
initialisation in progress can see: one pathname, the files it has denoted, and
the system calls on them.  A descriptor is named by the file it is open on, and a
mapping by the file that is mapped; `none` is the descriptor -1 and `MAP_FAILED`.
-/

namespace InterprocessComm
namespace Opening

structure File where
  xusr : Bool
  size : Int
  stored : Bool
  mutex : Bool
  cond : Bool
deriving DecidableEq

/-- The file `open` creates with `mode | S_IXUSR`; the umask leaves the bit alone. -/
def File.created : File :=
  { xusr := true, size := 0, stored := false, mutex := false, cond := false }

def File.Complete (f : File) : Prop :=
  f.xusr = false ∧ f.stored = true ∧ f.mutex = true ∧ f.cond = true

instance (f : File) : Decidable f.Complete :=
  inferInstanceAs (Decidable (_ ∧ _ ∧ _ ∧ _))

/-- Files are numbered in the order of their creation. -/
structure Fs where
  name : Option Nat
  files : Nat -> File
  next : Nat

/-- The calls the open functions make; `store` stands for the plain stores with which the
creator fills the mapped header, `storeMagic` for that of the magic number. -/
inductive Syscall where
  | openExcl
  | openRdwr
  | lseek (fd : Option Nat) (offset : Int)
  | write (fd : Option Nat) (size : Int)
  | mmap (fd : Option Nat) (length : Int)
  | malloc
  | store (fd : Option Nat)
  | storeMagic (fd : Option Nat)
  | mutexattrInit
  | mutexInit (fd : Option Nat)
  | condattrInit
  | condInit (fd : Option Nat)
  | fchmod (fd : Option Nat)
  | stat
  | sleep
  | close (fd : Option Nat)
  | unlink
  | munmap (fd : Option Nat) (length : Int)
  | free
deriving DecidableEq

inductive SysResult where
  | ok
  | opened (fd : Nat)
  | status (xusr : Bool) (size : Int)
  | failed (e : Errno)
deriving DecidableEq

def SysResult.Success (r : SysResult) : Prop :=
  forall e, r ≠ SysResult.failed e

namespace Fs

def update (fs : Fs) (f : Nat) (change : File -> File) : Fs :=
  { fs with files := Function.update fs.files f (change (fs.files f)) }

def modify (fs : Fs) (fd : Option Nat) (change : File -> File) : Fs × SysResult :=
  match fd with
  | some f => (fs.update f change, SysResult.ok)
  | none => (fs, SysResult.failed Errno.EBADF)

/-- What a call does when nothing else makes it fail. -/
def run (fs : Fs) : Syscall -> Fs × SysResult
  | Syscall.openExcl =>
      match fs.name with
      | some _ => (fs, SysResult.failed Errno.EEXIST)
      | none =>
          ({ name := some fs.next, files := Function.update fs.files fs.next File.created,
             next := fs.next + 1 }, SysResult.opened fs.next)
  | Syscall.openRdwr =>
      match fs.name with
      | some f => (fs, SysResult.opened f)
      | none => (fs, SysResult.failed Errno.ENOENT)
  | Syscall.stat =>
      match fs.name with
      | some f => (fs, SysResult.status (fs.files f).xusr (fs.files f).size)
      | none => (fs, SysResult.failed Errno.ENOENT)
  | Syscall.lseek _ offset =>
      if offset < 0 then (fs, SysResult.failed Errno.EINVAL) else (fs, SysResult.ok)
  | Syscall.write fd size => fs.modify fd fun x => { x with size := size }
  | Syscall.store fd => fs.modify fd fun x => { x with stored := true }
  | Syscall.mutexInit fd => fs.modify fd fun x => { x with mutex := true }
  | Syscall.condInit fd => fs.modify fd fun x => { x with cond := true }
  | Syscall.fchmod fd => fs.modify fd fun x => { x with xusr := false }
  | Syscall.unlink => ({ fs with name := none }, SysResult.ok)
  | _ => (fs, SysResult.ok)

/-- A call that may fail for a reason of its own, with no effect. A plain store does
not fail. -/
def exec (fs : Fs) (c : Syscall) (fault : Option Errno) : Fs × SysResult :=
  match fault, c with
  | some _, Syscall.store fd => fs.run (Syscall.store fd)
  | some _, Syscall.storeMagic fd => fs.run (Syscall.storeMagic fd)
  | some e, _ => (fs, SysResult.failed e)
  | none, c => fs.run c

/-- No page of an empty file can be stored to: the signal is fatal. -/
def unbacked (fs : Fs) : Option Nat -> Bool
  | some f => (fs.files f).size ≤ 0
  | none => true

/-- The call stores to a mapping that has no page. -/
def kills (fs : Fs) : Syscall -> Bool
  | Syscall.store fd => fs.unbacked fd
  | Syscall.storeMagic fd => fs.unbacked fd
  | Syscall.mutexInit fd => fs.unbacked fd
  | Syscall.condInit fd => fs.unbacked fd
  | _ => false

end Fs

def Syscall.changes : Syscall -> Option Nat
  | write fd _ => fd
  | store fd => fd
  | mutexInit fd => fd
  | condInit fd => fd
  | fchmod fd => fd
  | _ => none

end Opening
end InterprocessComm
