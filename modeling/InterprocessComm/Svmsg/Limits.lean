import InterprocessComm.Lib.Outcomes
import InterprocessComm.Posix
import Mathlib.Logic.Function.Basic

/-!
# limits

The program that probes the limits of the message queues, whatever its system calls answer: the
size of a message, the number of messages on a queue, and the number of queues.
-/

namespace InterprocessComm
namespace Svmsg
namespace Limits

open Verification

def MAX_DATA : Nat := 64 * 1024

def MAX_NMESG : Nat := 4096

def MAX_NIDS : Nat := 4096

/-- The calls with the arguments that vary; `rmid` is `msgctl` with `IPC_RMID`. -/
inductive Call where
  | msgget
  | msgsnd (msqid : Int) (size : Nat) (nowait : Bool)
  | rmid (msqid : Int)
deriving DecidableEq

inductive CallResult where
  | failed (e : Errno)
  | value (n : Nat)
deriving DecidableEq

namespace CallResult

def ret : CallResult -> Int
  | failed _ => -1
  | value n => n

def isFailed : CallResult -> Bool
  | failed _ => true
  | value _ => false

end CallResult

inductive Line where
  | maximum (i : Nat)
  | sendError (i : Nat)
  | zero
  | fillError (i j : Nat)
  | placed (i j total : Nat)
  | identifiers (i : Nat)
  | last (i : Nat)
deriving DecidableEq

/-- The call that is next: `create`, `probe` and `remove` are those of the first queue, the next
three those of a queue that is filled, the last two those of the identifiers. -/
inductive Pc where
  | create
  | probe
  | remove
  | createSized
  | fill
  | removeSized
  | openId
  | removeId
deriving DecidableEq

/-- `qid` are the words at `qid`, of which those with indices below `MAX_NIDS` are the array. -/
structure Locals where
  pc : Pc
  i : Nat
  j : Nat
  msqid : Int
  max_mesg : Nat
  qid : Nat -> Int
  printed : List Line

/-- `main` returns 0, with what it has printed. -/
abbrev LimitsControl : Type := Control Locals (Int × List Line)

namespace Locals

def print (l : Locals) (line : Line) : Locals := { l with printed := l.printed ++ [line] }

def printIf (l : Locals) (b : Bool) (line : Line) : Locals :=
  { l with printed := if b then l.printed ++ [line] else l.printed }

/-- The assignment `qid[i] = id`, which does not test the index. -/
def setQid (l : Locals) (id : Int) : Locals := { l with qid := Function.update l.qid l.i id }

def request (l : Locals) : Call :=
  match l.pc with
  | Pc.create => Call.msgget
  | Pc.probe => Call.msgsnd l.msqid l.i false
  | Pc.remove => Call.rmid l.msqid
  | Pc.createSized => Call.msgget
  | Pc.fill => Call.msgsnd l.msqid l.i true
  | Pc.removeSized => Call.rmid l.msqid
  | Pc.openId => Call.msgget
  | Pc.removeId => Call.rmid (l.qid l.j)

def ends (l : Locals) : LimitsControl := Control.returns (0, l.printed)

def probed (l : Locals) : LimitsControl :=
  if l.i = 0 then
    (l.print Line.zero).ends
  else
    Control.goes { l with pc := Pc.remove }

/-- The head of the first loop; `i` is a multiple of 128. -/
def probeLoop (l : Locals) : LimitsControl :=
  if l.i > 0 then
    Control.goes { l with pc := Pc.probe }
  else
    l.probed

def filled (l : Locals) : LimitsControl :=
  Control.goes { l.print (Line.placed l.i l.j (l.i * l.j)) with pc := Pc.removeSized }

def fillLoop (l : Locals) : LimitsControl :=
  if l.j < MAX_NMESG then
    Control.goes { l with pc := Pc.fill }
  else
    l.filled

def removeLoop (l : Locals) : LimitsControl :=
  if l.j < l.i then
    Control.goes { l with pc := Pc.removeId }
  else
    l.ends

def opened (l : Locals) : LimitsControl :=
  { l.print (Line.last l.i) with j := 0 }.removeLoop

def openLoop (l : Locals) : LimitsControl :=
  if l.i ≤ MAX_NIDS then
    Control.goes { l with pc := Pc.openId }
  else
    l.opened

def sizeLoop (l : Locals) : LimitsControl :=
  if l.i ≤ l.max_mesg then
    Control.goes { l with pc := Pc.createSized }
  else
    { l with i := 0 }.openLoop

/-- `msgsnd` returns 0 or fails; what `msgctl` returns is not tested. -/
def next (l : Locals) (r : CallResult) : Option LimitsControl :=
  match l.pc, r with
  | Pc.create, r => some { l with msqid := r.ret, i := MAX_DATA }.probeLoop
  | Pc.probe, CallResult.value 0 =>
      some { l.print (Line.maximum l.i) with max_mesg := l.i }.probed
  | Pc.probe, CallResult.failed e =>
      some { l.printIf (e ≠ Errno.EINVAL) (Line.sendError l.i) with i := l.i - 128 }.probeLoop
  | Pc.remove, _ => some { l with i := 8 }.sizeLoop
  | Pc.createSized, r => some { l with msqid := r.ret, j := 0 }.fillLoop
  | Pc.fill, CallResult.value 0 => some { l with j := l.j + 1 }.fillLoop
  | Pc.fill, CallResult.failed e =>
      some (l.printIf (e ≠ Errno.EAGAIN) (Line.fillError l.i l.j)).filled
  | Pc.removeSized, _ => some { l with i := l.i * 2 }.sizeLoop
  | Pc.openId, CallResult.value n => some { l.setQid n with i := l.i + 1 }.openLoop
  | Pc.openId, CallResult.failed _ => some ((l.setQid (-1)).print (Line.identifiers l.i)).opened
  | Pc.removeId, _ => some { l with j := l.j + 1 }.removeLoop
  | _, _ => none

end Locals

def limits : CallProgram Locals Call CallResult (Int × List Line) where
  request := Locals.request
  next := Locals.next

/-- Nothing is printed, the global variable is 0, and the others hold anything. -/
def Starts (s : LimitsControl) : Prop :=
  exists l : Locals, l.pc = Pc.create ∧ l.max_mesg = 0 ∧ l.printed = [] ∧ s = Control.goes l

abbrev LimitsTransition : Type := Transition LimitsControl CallResult (Call × CallResult)

end Limits
end Svmsg
end InterprocessComm
