import InterprocessComm.Lib.RecordLock
import InterprocessComm.Posix

/-!
# lock_reg

The function that all record locks of `lock/` go through, and the macros over it.
-/

namespace InterprocessComm
namespace LockReg

open Verification

inductive Whence where
  | SEEK_SET
  | SEEK_CUR
  | SEEK_END
deriving DecidableEq

inductive LType where
  | F_RDLCK
  | F_WRLCK
  | F_UNLCK
deriving DecidableEq

inductive Cmd where
  | F_SETLK
  | F_SETLKW
deriving DecidableEq

structure Flock where
  l_type : LType
  l_start : Int
  l_whence : Whence
  l_len : Int
deriving DecidableEq

/-- The file as `fcntl` sees it through a descriptor. -/
structure Position where
  offset : Nat
  size : Nat

/-- The bytes that a lock is about; a negative length is about those in front of the start. -/
def Flock.range (l : Flock) (pos : Position) : Except Errno ByteRange :=
  let base : Int := match l.l_whence with
    | Whence.SEEK_SET => 0
    | Whence.SEEK_CUR => pos.offset
    | Whence.SEEK_END => pos.size
  let start := base + l.l_start
  let lo := if l.l_len < 0 then start + l.l_len else start
  if lo < 0 then
    Except.error Errno.EINVAL
  else if l.l_len = 0 then
    Except.ok ⟨lo.toNat, none⟩
  else if l.l_len < 0 then
    Except.ok ⟨lo.toNat, some start.toNat⟩
  else
    Except.ok ⟨lo.toNat, some (start + l.l_len).toNat⟩

inductive Outcome (proc : Type) where
  | waits
  | error (e : Errno)
  | ok (locks : List (RecordLock proc))

section Calls

variable {proc : Type} [DecidableEq proc]

def setlk (locks : List (RecordLock proc)) (p : proc) (cmd : Cmd) (t : LockType)
    (r : ByteRange) : Outcome proc :=
  if refused locks p t r then
    match cmd with
    | Cmd.F_SETLK => Outcome.error Errno.EAGAIN
    | Cmd.F_SETLKW => Outcome.waits
  else
    Outcome.ok (acquire locks p t r)

def fcntl (locks : List (RecordLock proc)) (p : proc) (pos : Position) (cmd : Cmd) (l : Flock) :
    Outcome proc :=
  match l.range pos with
  | Except.error e => Outcome.error e
  | Except.ok r =>
      match l.l_type with
      | LType.F_RDLCK => setlk locks p cmd LockType.read r
      | LType.F_WRLCK => setlk locks p cmd LockType.write r
      | LType.F_UNLCK => Outcome.ok (release locks p r)

def lock_reg (locks : List (RecordLock proc)) (p : proc) (pos : Position) (cmd : Cmd)
    (type : LType) (offset : Int) (whence : Whence) (len : Int) : Outcome proc :=
  fcntl locks p pos cmd { l_type := type, l_start := offset, l_whence := whence, l_len := len }

variable (locks : List (RecordLock proc)) (p : proc) (pos : Position) (offset : Int)
  (whence : Whence) (len : Int)

def read_lock : Outcome proc :=
  lock_reg locks p pos Cmd.F_SETLK LType.F_RDLCK offset whence len

def readw_lock : Outcome proc :=
  lock_reg locks p pos Cmd.F_SETLKW LType.F_RDLCK offset whence len

def write_lock : Outcome proc :=
  lock_reg locks p pos Cmd.F_SETLK LType.F_WRLCK offset whence len

def writew_lock : Outcome proc :=
  lock_reg locks p pos Cmd.F_SETLKW LType.F_WRLCK offset whence len

def un_lock : Outcome proc :=
  lock_reg locks p pos Cmd.F_SETLK LType.F_UNLCK offset whence len

end Calls

end LockReg
end InterprocessComm
