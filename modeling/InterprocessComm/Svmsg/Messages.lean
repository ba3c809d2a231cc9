import InterprocessComm.Lib.CString
import InterprocessComm.Posix

/-!
# Messages of the file services

Two clients and servers transfer a file in messages of a System V queue.  They differ in
the size of a message and in where the replies go; what they do inside the message buffer
is the same.
-/

namespace InterprocessComm
namespace Svmsg

open Verification

def NUL : UInt8 := 0

def NEWLINE : UInt8 := 10

def BLANK : UInt8 := 32

/-- `struct mymesg`; the addresses of `mesg_data` are its indices. -/
structure Mesg where
  mesg_len : Int
  mesg_type : Int
  mesg_data : Mem

/-- A message in the queue. -/
structure Msg where
  mtype : Int
  mtext : List UInt8
deriving DecidableEq

namespace Mesg

def sent (mesg : Mesg) : Msg :=
  { mtype := mesg.mesg_type, mtext := readBytes mesg.mesg_data 0 mesg.mesg_len.toNat }

def received (mesg : Mesg) (m : Msg) : Mesg :=
  { mesg_len := m.mtext.length, mesg_type := m.mtype,
    mesg_data := writeBytes mesg.mesg_data 0 m.mtext }

end Mesg

/-- What `fopen` finds at a pathname: the bytes of a file, or the text of the error. -/
abbrev Files : Type := List UInt8 -> Except (List UInt8) (List UInt8)

def toInt (x : Int) : Int := x.bmod (2 ^ 32)

/-!
# The client
-/

def clientRequest (size : Nat) (mesg : Mesg) (id : Nat) (stdin : List UInt8) : Option Mesg :=
  let data := snprintf mesg.mesg_data 0 size (decimal id ++ [BLANK])
  (strlen data 0 size).bind fun (len : Nat) =>
    let data := afterFgets data len (size - len) stdin
    (strlen data 0 size).map fun (len : Nat) =>
      let len : Int := if data (len - 1) = NEWLINE then len - 1 else len
      { mesg_len := len, mesg_type := 1, mesg_data := data }

/-- `while ((n = mesg_recv(readfd, &mesg)) > 0) write(STDOUT_FILENO, mesg.mesg_data, n)`, on
the messages that arrive. -/
def clientOutput (mesg : Mesg) : List Msg -> List UInt8
  | [] => []
  | m :: rest =>
      let mesg := mesg.received m
      if mesg.mesg_len > 0 then
        readBytes mesg.mesg_data 0 mesg.mesg_len.toNat ++ clientOutput mesg rest
      else
        []

/-!
# The server
-/

inductive Request where
  | bogus (mesg : Mesg)
  | named (mesg : Mesg) (id : Int) (ptr : Nat)

/-- The server ends the request with a zero, which has to be in the array, and cuts it at the
first blank; `ptr` is the index of the pathname. -/
def parseRequest (size : Nat) (mesg : Mesg) (n : Int) : Option Request :=
  if 0 ≤ n ∧ n < size then
    let data := writeBytes mesg.mesg_data n [NUL]
    (cString data 0 size).bind fun s =>
      match s.idxOf? BLANK with
      | none => some (Request.bogus { mesg with mesg_data := data })
      | some k =>
          let data := writeBytes data k [NUL]
          (cString data 0 size).map fun id =>
            Request.named { mesg with mesg_data := data } (atol id) (k + 1)
  else
    none

/-- Where the server is in its reply: before one of its `mesg_send`, with what is left of the
file, or at the end. -/
inductive ServePc where
  | sendError
  | sendLine (rest : List UInt8)
  | sendEnd
  | done
deriving DecidableEq

structure Serving where
  mesg : Mesg
  pc : ServePc

def serveLine (size : Nat) (mesg : Mesg) (file : List UInt8) : Option Serving :=
  match fgets mesg.mesg_data 0 size file with
  | none => some { mesg := { mesg with mesg_len := 0 }, pc := ServePc.sendEnd }
  | some (data, rest) =>
      (strlen data 0 size).map fun (len : Nat) =>
        { mesg := { mesg with mesg_len := len, mesg_data := data }, pc := ServePc.sendLine rest }

/-- `": can't open, "` -/
def CANT_OPEN : List UInt8 :=
  [58, 32, 99, 97, 110, 39, 116, 32, 111, 112, 101, 110, 44, 32]

/-- The server opens the file; the text of an error goes behind the pathname, and both to the
beginning of the buffer. -/
def serveFile (size : Nat) (files : Files) (mesg : Mesg) (ptr : Nat) (n : Int) :
    Option Serving :=
  (cString mesg.mesg_data ptr (size - ptr)).bind fun path =>
    match files path with
    | Except.ok file => serveLine size mesg file
    | Except.error text =>
        let data := snprintf mesg.mesg_data n (size - n).toNat (CANT_OPEN ++ text ++ [NEWLINE])
        (strlen data ptr (size - ptr)).map fun (len : Nat) =>
          { mesg := { mesg with mesg_len := len,
                                mesg_data := writeBytes data 0 (readBytes data ptr len) },
            pc := ServePc.sendError }

namespace Serving

def outgoing (srv : Serving) : Option Msg :=
  match srv.pc with
  | ServePc.done => none
  | _ => some srv.mesg.sent

def afterSend (size : Nat) (srv : Serving) : Option Serving :=
  match srv.pc with
  | ServePc.sendError =>
      some { mesg := { srv.mesg with mesg_len := 0 }, pc := ServePc.sendEnd }
  | ServePc.sendLine rest => serveLine size srv.mesg rest
  | ServePc.sendEnd => some { srv with pc := ServePc.done }
  | ServePc.done => none

def replies (size : Nat) : Nat -> Serving -> Option (List Msg)
  | 0, _ => none
  | fuel + 1, srv =>
      match srv.outgoing with
      | none => some []
      | some m =>
          (srv.afterSend size).bind fun srv' =>
            (replies size fuel srv').map (m :: ·)

end Serving

/-!
# The two programs
-/

namespace Cliserv

def MAXMESGDATA : Nat := 256

def request (mesg : Mesg) (pid : Pid) (stdin : List UInt8) : Option Mesg :=
  clientRequest MAXMESGDATA mesg pid.val.toNat stdin

/-- What the server does with a message of type 1: the replies get the type that the request
names. -/
def serve (files : Files) (mesg : Mesg) (m : Msg) : Option Serving :=
  let mesg := mesg.received m
  if mesg.mesg_len = 0 then
    some { mesg := mesg, pc := ServePc.done }
  else
    (parseRequest MAXMESGDATA mesg mesg.mesg_len).bind fun parsed =>
      match parsed with
      | Request.bogus mesg => some { mesg := mesg, pc := ServePc.done }
      | Request.named mesg id ptr =>
          serveFile MAXMESGDATA files { mesg with mesg_type := toInt id } ptr m.mtext.length

end Cliserv

namespace Mpxnq

def MAXMESGDATA : Nat := 1008

def request (mesg : Mesg) (readid : Nat) (stdin : List UInt8) : Option Mesg :=
  clientRequest MAXMESGDATA mesg readid stdin

/-- What the child does that the server makes for a request, and the queue it replies on. -/
def serve (files : Files) (mesg : Mesg) (m : Msg) : Option (Option (Serving × Int)) :=
  let mesg := mesg.received m
  if mesg.mesg_len = 0 then
    some none
  else
    (parseRequest MAXMESGDATA mesg mesg.mesg_len).bind fun parsed =>
      match parsed with
      | Request.bogus _ => some none
      | Request.named mesg id ptr =>
          (serveFile MAXMESGDATA files mesg ptr m.mtext.length).map fun srv =>
            some (srv, toInt id)

end Mpxnq

end Svmsg
end InterprocessComm
