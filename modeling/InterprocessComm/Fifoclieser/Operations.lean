import InterprocessComm.Lib.BytePipe
import InterprocessComm.Lib.Transition
import InterprocessComm.Svmsg.Requests

/-!
# A file service over FIFOs

Clients write their requests, a process id and a pathname, into the FIFO of the server; the
server reads them byte by byte and sends each file into the FIFO of its client.
-/

namespace InterprocessComm
namespace Fifoclieser

open Verification
open Svmsg (NUL NEWLINE BLANK idText toInt)

def MAXLINE : Nat := 256

def PIPE_BUF : Nat := 4096

/-- What a `char` holds that is equal to `EOF`. -/
def EOF : UInt8 := 255

/-!
# mainclient.c
-/

/-- A client, what is in its array at the start, and what its user types: a line and what
comes behind it. -/
structure Client where
  pid : Pid
  buff : Mem
  line : List UInt8
  more : List UInt8
  no_nul : 0 ∉ line
  no_newline : NEWLINE ∉ line

namespace Client

def stdin (c : Client) : List UInt8 :=
  c.line ++ NEWLINE :: c.more

/-- The bytes that the client writes to the server; `none` when `fgets` puts bytes behind the
end of `buff`. -/
def request (c : Client) : Option (List UInt8) :=
  let buff := snprintf c.buff 0 MAXLINE (decimal c.pid.val.toNat ++ [BLANK])
  (strlen buff 0 MAXLINE).bind fun (len : Nat) =>
    if len + (lineOf (MAXLINE - 1) c.stdin).length + 1 ≤ MAXLINE then
      let buff := afterFgets buff len MAXLINE c.stdin
      (strlen buff 0 MAXLINE).map fun (len : Nat) => readBytes buff 0 len
    else
      none

end Client

/-!
# mainserver.c
-/

inductive Readline where
  | more (buff : Mem) (count : Nat)
  | returned (buff : Mem) (count : Nat)

/-- What `readline` does with a byte in an array of `maxnum + 1` bytes. -/
def readByte (maxnum : Nat) (buff : Mem) (count : Nat) (c : UInt8) : Readline :=
  if count = maxnum then
    Readline.returned buff count
  else
    let buff := writeBytes buff count [c]
    if c = NEWLINE ∨ c = EOF then
      Readline.returned (writeBytes buff (count + 1) [NUL]) (count + 1)
    else
      Readline.more buff (count + 1)

inductive Handled where
  | bogus (buff : Mem)
  | request (buff : Mem) (pid : Int) (path : List UInt8) (ptr n : Nat)

def handle (buff : Mem) (n : Nat) : Option Handled :=
  let n := if buff (n - 1) = NEWLINE then n - 1 else n
  (Svmsg.parseRequest (MAXLINE + 1) ⟨n, 0, buff⟩ n).bind fun parsed =>
    match parsed with
    | Svmsg.Request.bogus mesg => some (Handled.bogus mesg.mesg_data)
    | Svmsg.Request.named mesg pid ptr =>
        (cString mesg.mesg_data ptr (MAXLINE + 1 - ptr)).map fun path =>
          Handled.request mesg.mesg_data (toInt pid) path ptr n

/-- What comes of the pathname of a request: a reply, after which something is in the array;
a second descriptor of the server's own FIFO, which the server then reads as a file; or a call
that never returns, as `open` or `read` of a FIFO that nobody else writes to. -/
inductive Opened where
  | replied (buff : Mem)
  | serverFifo
  | never

def Opened.Returns : Opened -> Prop
  | replied _ => True
  | serverFifo => False
  | never => False

abbrev Opens : Type := Nat -> Int -> List UInt8 -> Opened

inductive ServerPc where
  | readline (count : Nat)
  | copying
  | blocked
  | exited
deriving DecidableEq

/-!
# The system
-/

structure ServiceState where
  fifo : BytePipe
  buff : Mem
  pc : ServerPc
  requests : Nat

inductive ServiceAction where
  | request (c : Client)
  | read

inductive ServiceEvent where
  | silent
  | written (c : Client)
  | overrun (c : Client)
  | handled (pid : Int) (path : List UInt8)

def serve (opens : Opens) (s : ServiceState) (fifo : BytePipe) (buff : Mem) (n : Nat) :
    Option (ServiceState × ServiceEvent) :=
  if n = 0 then
    some ({ s with fifo := fifo, buff := buff, pc := ServerPc.exited }, ServiceEvent.silent)
  else
    (handle buff n).map fun handled =>
      match handled with
      | Handled.bogus buff =>
          ({ s with fifo := fifo, buff := buff, pc := ServerPc.readline 0 }, ServiceEvent.silent)
      | Handled.request buff pid path _ _ =>
          match opens s.requests pid path with
          | Opened.replied buff =>
              (⟨fifo, buff, ServerPc.readline 0, s.requests + 1⟩, ServiceEvent.handled pid path)
          | Opened.serverFifo =>
              (⟨fifo, buff, ServerPc.copying, s.requests + 1⟩, ServiceEvent.handled pid path)
          | Opened.never =>
              (⟨fifo, buff, ServerPc.blocked, s.requests + 1⟩, ServiceEvent.handled pid path)

def serviceStep (opens : Opens) (s : ServiceState) :
    ServiceAction -> Option (ServiceState × ServiceEvent)
  | ServiceAction.request c =>
      match c.request with
      | none => some (s, ServiceEvent.overrun c)
      | some request =>
          ((s.fifo.openWrite c.pid.val.toNat).write PIPE_BUF c.pid.val.toNat request).map
            fun fifo => ({ s with fifo := fifo }, ServiceEvent.written c)
  | ServiceAction.read =>
      match s.pc with
      | ServerPc.readline count =>
          (s.fifo.read 1).bind fun (bytes, fifo) =>
            match bytes with
            | [] => serve opens s fifo (writeBytes s.buff count [NUL]) count
            | c :: _ =>
                match readByte MAXLINE s.buff count c with
                | Readline.more buff count =>
                    some ({ s with fifo := fifo, buff := buff, pc := ServerPc.readline count },
                      ServiceEvent.silent)
                | Readline.returned buff n => serve opens s fifo buff n
      | ServerPc.copying =>
          (s.fifo.read MAXLINE).map fun (bytes, fifo) =>
            let pc := if bytes = [] then ServerPc.readline 0 else ServerPc.copying
            ({ s with fifo := fifo, buff := writeBytes s.buff 0 bytes, pc := pc },
              ServiceEvent.silent)
      | ServerPc.blocked => none
      | ServerPc.exited => none

/-- The server has its FIFO open for reading and, as `dumyfd`, for writing. -/
def ServiceInit (s : ServiceState) : Prop :=
  s.fifo = ⟨[], [0]⟩ ∧ s.pc = ServerPc.readline 0 ∧ s.requests = 0

abbrev ServiceTransition : Type :=
  Transition ServiceState ServiceAction ServiceEvent

def requested (tr : List ServiceTransition) : List Client :=
  tr.filterMap fun e =>
    match e.event with
    | ServiceEvent.written c => some c
    | ServiceEvent.overrun c => some c
    | _ => none

def handled (tr : List ServiceTransition) : List (Int × List UInt8) :=
  tr.filterMap fun e =>
    match e.event with
    | ServiceEvent.handled pid path => some (pid, path)
    | _ => none

def reads (tr : List ServiceTransition) : Nat :=
  tr.countP fun e =>
    match e.action with
    | ServiceAction.read => true
    | ServiceAction.request _ => false

end Fifoclieser
end InterprocessComm
