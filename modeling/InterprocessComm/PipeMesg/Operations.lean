import InterprocessComm.Lib.CString

/-!
# Messages over a byte pipe

Client and server copy a `struct mymesg` to and from a FIFO: a header with the length and
the type, and as many bytes as the length says.  The structure lies in byte-addressed
memory, at address 0.
-/

namespace InterprocessComm
namespace PipeMesg

open Verification

def MAXMESGDATA : Nat := 1008

def MESGHDRSIZE : Nat := 16

def MAXLINE : Nat := 256

def NUL : UInt8 := 0

def NEWLINE : UInt8 := 10

/-!
## The fields of the structure
-/

def MESG_LEN : Int := 0

def MESG_TYPE : Int := 8

def MESG_DATA : Int := 16

/-!
# mesg.c
-/

/-- What `mesg_send` writes; the count is a `size_t`. -/
def mesgSend (m : Mem) : List UInt8 :=
  readBytes m 0 ((MESGHDRSIZE + loadNat 8 m MESG_LEN) % 2 ^ 64)

inductive ReadResult where
  | failed
  | stored (bytes : List UInt8)
deriving DecidableEq

namespace ReadResult

def value : ReadResult -> Int
  | failed => -1
  | stored bytes => bytes.length

def bytes : ReadResult -> List UInt8
  | failed => []
  | stored bytes => bytes

end ReadResult

def SSIZE_MAX : Nat := 2 ^ 63 - 1

/-- `read` of `count` bytes from a stream. -/
def readStream (stream : List UInt8) (count : Nat) : ReadResult :=
  if count > SSIZE_MAX then ReadResult.failed else ReadResult.stored (stream.take count)

inductive Received where
  | exited
  | returned (m : Mem) (n : Int) (rest : List UInt8)

/-- `mesg_recv` on the bytes that come out of the FIFO until its end; the second test compares
the result as a `size_t`. -/
def mesgRecv (m : Mem) (stream : List UInt8) : Received :=
  let header := stream.take MESGHDRSIZE
  let m := writeBytes m 0 header
  if header.length = 0 then
    Received.returned m 0 stream
  else if header.length ≠ MESGHDRSIZE then
    Received.exited
  else
    let rest := stream.drop MESGHDRSIZE
    let len := loadNat 8 m MESG_LEN
    if len > 0 then
      let data := readStream rest len
      if data.value % 2 ^ 64 ≠ len then
        Received.exited
      else
        Received.returned (writeBytes m MESG_DATA data.bytes) (Int.bmod len (2 ^ 64))
          (rest.drop data.bytes.length)
    else
      Received.returned m 0 rest

theorem readStream_of_le {stream : List UInt8} {count : Nat} (h : count ≤ SSIZE_MAX) :
    readStream stream count = ReadResult.stored (stream.take count) :=
  if_neg (Nat.not_lt.mpr h)

theorem ReadResult.value_stored {bytes : List UInt8} (h : bytes.length ≤ SSIZE_MAX) :
    (ReadResult.stored bytes).value % 2 ^ 64 = bytes.length := by
  unfold SSIZE_MAX at h
  unfold ReadResult.value
  lia

/-!
# The client
-/

def clientRequest (m : Mem) (stdin : List UInt8) : Option Mem :=
  let m := afterFgets m MESG_DATA MAXMESGDATA stdin
  (strlen m MESG_DATA MAXMESGDATA).map fun (len : Nat) =>
    let len : Int := if m (MESG_DATA + (len - 1)) = NEWLINE then len - 1 else len
    storeInt 8 (storeInt 8 m MESG_LEN len) MESG_TYPE 1

/-- `while ((n = mesg_recv(readfd, &mesg)) > 0) write(STDOUT_FILENO, mesg.mesg_data, n)`; each
turn takes some of the stream. -/
def clientLoop : Nat -> Mem -> List UInt8 -> List UInt8
  | 0, _, _ => []
  | fuel + 1, m, stream =>
      match mesgRecv m stream with
      | Received.exited => []
      | Received.returned m n rest =>
          if n > 0 then
            readBytes m MESG_DATA n.toNat ++ clientLoop fuel m rest
          else
            []

def clientOutput (m : Mem) (stream : List UInt8) : List UInt8 :=
  clientLoop (stream.length + 1) m stream

/-!
# The server
-/

/-- What `open` and the calls of `read` after it give: the chunks of the file, or the text of
the error. -/
abbrev Files : Type := List UInt8 -> Except (List UInt8) (List (List UInt8))

/-- The loop around `read`: what is sent is measured by `strlen`, which has no defined result
when the array has no zero. -/
def serverLoop (m : Mem) : List (List UInt8) -> Option (List UInt8)
  | [] => some []
  | chunk :: rest =>
      let m := writeBytes m MESG_DATA chunk
      (strlen m MESG_DATA MAXMESGDATA).bind fun (len : Nat) =>
        let m := storeInt 8 m MESG_LEN len
        (serverLoop m rest).map (mesgSend m ++ ·)

/-- `":can't open,"` -/
def CANT_OPEN : List UInt8 :=
  [58, 99, 97, 110, 39, 116, 32, 111, 112, 101, 110, 44]

def server (files : Files) (m : Mem) (stream : List UInt8) : Option (List UInt8) :=
  match mesgRecv (storeInt 8 m MESG_TYPE 1) stream with
  | Received.exited => some []
  | Received.returned m n _ =>
      if n = 0 then
        some []
      else if 0 ≤ n ∧ n < MAXMESGDATA then
        let m := writeBytes m (MESG_DATA + n) [NUL]
        (cString m MESG_DATA MAXMESGDATA).bind fun path =>
          match files path with
          | Except.error text =>
              let m := snprintf m (MESG_DATA + n) (MAXMESGDATA - n).toNat
                (CANT_OPEN ++ text ++ [NEWLINE])
              (strlen m MESG_DATA MAXMESGDATA).map fun (len : Nat) =>
                mesgSend (storeInt 8 m MESG_LEN len)
          | Except.ok chunks => serverLoop m chunks
      else
        none

/-- What the client writes to its standard output, from the memory of the client and of the
server. -/
def transfer (files : Files) (mc ms : Mem) (stdin : List UInt8) : Option (List UInt8) :=
  (clientRequest mc stdin).bind fun mc =>
    (server files ms (mesgSend mc)).map fun stream => clientOutput mc stream

end PipeMesg
end InterprocessComm
