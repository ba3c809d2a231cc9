import InterprocessComm.Lib.CString
import InterprocessComm.Lib.Lock
import InterprocessComm.Posix

/-!
# The sequence number program

Each process takes a number from a file, writes the next one back over it, and does so
twenty times.  Every system call, `sscanf`, `printf` and `snprintf` is a step; only
`my_lock` and `my_unlock` keep the processes apart.
-/

namespace InterprocessComm
namespace Lockmain

open Verification

def MAXLINE : Nat := 256

def ROUNDS : Nat := 20

def NEWLINE : UInt8 := 10

/-- `write` of `bs` at an offset into a file with the given bytes; a gap is filled with
zeros. -/
def overwrite (file : List UInt8) (off : Nat) (bs : List UInt8) : List UInt8 :=
  file.take off ++ List.replicate (off - file.length) 0 ++ bs ++ file.drop (off + bs.length)

/-- `seqno++` on a `long`, which has no defined result beyond `LONG_MAX`. -/
def incrementLong (n : Int) : Option Int :=
  if n < LONG_MAX then some (n + 1) else none

/-- The call a process makes next; `idle` is the head of the loop, and the time in
`my_lock`. -/
inductive MainPc where
  | idle
  | lseekRead
  | read
  | terminate
  | sscanf
  | print
  | add
  | snprintf
  | lseekWrite
  | write
  | unlock
  | unlocking
deriving DecidableEq

/-- The variables of `main`, with the offset of the process's open file. `line` is an
array of `MAXLINE + 1` bytes at address 0. -/
structure Main where
  i : Nat
  pc : MainPc
  seqno : Int
  n : Nat
  line : Mem
  offset : Nat

/-- One call between `my_lock` and `my_unlock`: the file, the variables, and the number
that is printed. -/
def mainStep (file : List UInt8) (x : Main) : Option (List UInt8 × Main × Option Int) :=
  match x.pc with
  | MainPc.lseekRead => some (file, { x with pc := MainPc.read, offset := 0 }, none)
  | MainPc.read =>
      let got := (file.drop x.offset).take MAXLINE
      some (file, { x with pc := MainPc.terminate, n := got.length,
                           line := writeBytes x.line 0 got,
                           offset := x.offset + got.length }, none)
  | MainPc.terminate =>
      some (file, { x with pc := MainPc.sscanf, line := writeBytes x.line x.n [0] }, none)
  | MainPc.sscanf =>
      -- the string in `line` ends at the zero that was put there
      (cString x.line 0 (MAXLINE + 1)).map fun text =>
        (file, { x with pc := MainPc.print, seqno := (scanLong text).getD x.seqno }, none)
  | MainPc.print => some (file, { x with pc := MainPc.add }, some x.seqno)
  | MainPc.add =>
      (incrementLong x.seqno).map fun seqno =>
        (file, { x with pc := MainPc.snprintf, seqno := seqno }, none)
  | MainPc.snprintf =>
      some (file, { x with pc := MainPc.lseekWrite,
                           line := Verification.snprintf x.line 0 (MAXLINE + 1)
                             (longText x.seqno ++ [NEWLINE]) }, none)
  | MainPc.lseekWrite => some (file, { x with pc := MainPc.write, offset := 0 }, none)
  | MainPc.write =>
      (cString x.line 0 (MAXLINE + 1)).map fun text =>
        (overwrite file x.offset text,
          { x with pc := MainPc.unlock, offset := x.offset + text.length }, none)
  | _ => none

/-!
# Processes with one file and one lock
-/

section System

variable {proc : Type} (L : LockImpl proc)

structure SeqState where
  lock : LockState L
  file : List UInt8
  procs : proc -> Main

inductive SeqAction where
  | call (p : proc)
  | lock (p : proc) (c : L.choice)
  | work (p : proc)

abbrev SeqTransition : Type :=
  Transition (SeqState L) (SeqAction L) (Option Int)

variable {L}

def afterLock (x : Main) (phase : LockPhase L.lockPc L.unlockPc) : Main :=
  match x.pc, phase with
  | MainPc.idle, LockPhase.inside => { x with pc := MainPc.lseekRead }
  | MainPc.unlocking, LockPhase.outside => { x with pc := MainPc.idle, i := x.i + 1 }
  | _, _ => x

variable [DecidableEq proc]

def SeqState.setProc (s : SeqState L) (p : proc) (x : Main) : SeqState L :=
  { s with procs := Function.update s.procs p x }

variable (L) in
def seqStep (s : SeqState L) : SeqAction L -> Option (SeqState L × Option Int)
  | SeqAction.call p =>
      match s.lock.phase p with
      | LockPhase.outside =>
          if (s.procs p).i < ROUNDS then
            (L.next s.lock (LockAction.call p)).map fun r => ({ s with lock := r.1 }, none)
          else
            none
      | _ => none
  | SeqAction.lock p c =>
      (L.next s.lock (LockAction.step p c)).map fun r =>
        (({ s with lock := r.1 } : SeqState L).setProc p
          (afterLock (s.procs p) (r.1.phase p)), none)
  | SeqAction.work p =>
      match s.lock.phase p, (s.procs p).pc with
      | LockPhase.inside, MainPc.unlock =>
          (L.next s.lock (LockAction.call p)).map fun r =>
            (({ s with lock := r.1 } : SeqState L).setProc p
              { s.procs p with pc := MainPc.unlocking }, none)
      | LockPhase.inside, _ =>
          (mainStep s.file (s.procs p)).map fun r =>
            (({ s with file := r.1 } : SeqState L).setProc p r.2.1, r.2.2)
      | _, _ => none

omit [DecidableEq proc] in
variable (L) in
/-- The processes have opened the file and are in front of their loops; the other
variables have any values. -/
structure SeqInit (content : List UInt8) (s : SeqState L) : Prop where
  lock : L.Starts s.lock
  file : s.file = content
  idle : forall p, (s.procs p).pc = MainPc.idle
  start : forall p, (s.procs p).i = 0

end System

/-!
# What is in the file
-/

def fileNumber (file : List UInt8) : Option Int :=
  scanLong (beforeNul (file.take MAXLINE))

/-- The first number and the numbers of all rounds of `k` processes are values of `long`. -/
structure InLong (first : Int) (k : Nat) : Prop where
  low : -(2 ^ 63) ≤ first
  high : first + ROUNDS * k < 2 ^ 63

/-- The file starts with a number that stays a `long` through all rounds, and `line` has
room for what it contains. -/
structure Numbered (content : List UInt8) (first : Int) (k : Nat) : Prop where
  number : fileNumber content = some first
  short : content.length ≤ MAXLINE
  inLong : InLong first k

def obtained {proc : Type} {L : LockImpl proc} (tr : List (SeqTransition L)) : List Int :=
  tr.filterMap fun e => e.event

end Lockmain
end InterprocessComm
