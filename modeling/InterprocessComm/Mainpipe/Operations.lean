import InterprocessComm.Lib.BytePipe
import InterprocessComm.Lib.Transition
import InterprocessComm.PipeMesg.Operations

/-!
# A file over two pipes

The client sends a pathname to the server and copies what comes back to its standard output.
The programs with pipes and with FIFOs differ only in how the two channels come about; both
functions start with the channels open.
-/

namespace InterprocessComm
namespace Mainpipe

open Verification
open PipeMesg (NUL NEWLINE CANT_OPEN)

def MAXLINE : Nat := 256

def PIPE_BUF : Nat := 4096

/-- What `open` finds at a pathname, the bytes of a file or the text of the error, and the room
in a channel. -/
structure System where
  files : List UInt8 -> Except (List UInt8) (List UInt8)
  room : Nat
  room_le : PIPE_BUF ≤ room

/-- A `write` waits until there is room. -/
def System.write (sys : System) (p : BytePipe) (bs : List UInt8) : Option BytePipe :=
  if p.bytes.length + bs.length ≤ sys.room then p.write PIPE_BUF 0 bs else none

/-!
# The client
-/

inductive ClientPc where
  | start
  | copying
  | done
deriving DecidableEq

/-- The bytes of the pathname that the client writes, and its array; a string of no bytes has
no last byte. -/
def clientPathname (buff : Mem) (stdin : List UInt8) : Option (List UInt8 × Mem) :=
  let buff := afterFgets buff 0 MAXLINE stdin
  (strlen buff 0 MAXLINE).bind fun (len : Nat) =>
    if len = 0 then
      none
    else
      let len := if buff (len - 1) = NEWLINE then len - 1 else len
      some (readBytes buff 0 len, buff)

def memset (buff : Mem) : Mem :=
  writeBytes buff 0 (List.replicate MAXLINE NUL)

/-!
# The server
-/

/-- Where the server is: before it reads the pathname, before it writes the `n` bytes of an
error, in its loop with what is left of the file, before it writes `n` bytes of the file, or
at its end. -/
inductive ServerPc where
  | start
  | replying (n : Nat)
  | reading (rest : List UInt8)
  | writing (n : Nat) (rest : List UInt8)
  | exited
deriving DecidableEq

/-!
# The system
-/

/-- Both channels, and the two functions with their arrays. -/
structure PipeState where
  toServer : BytePipe
  toClient : BytePipe
  client : ClientPc
  clientBuff : Mem
  server : ServerPc
  serverBuff : Mem

/-- A read of the client asks for `MAXLINE` bytes and gets at most `k`; a read of the file
gives the server `k` bytes. -/
inductive PipeAction where
  | clientStart
  | clientRead (k : Nat)
  | serverStart
  | serverRead (k : Nat)
  | serverWrite

inductive PipeEvent where
  | silent
  | copied (received written : List UInt8)
  | opened (path file : List UInt8)

namespace PipeState

def exitServer (s : PipeState) : PipeState :=
  { s with server := ServerPc.exited, toClient := s.toClient.closeWrite 0 }

def openFile (sys : System) (s : PipeState) (n : Nat) : Option (PipeState × PipeEvent) :=
  let buff := writeBytes s.serverBuff n [NUL]
  (cString buff 0 (MAXLINE + 1)).bind fun path =>
    match sys.files path with
    | Except.error text =>
        let buff := snprintf buff n (MAXLINE + 1 - n) (CANT_OPEN ++ text ++ [NEWLINE])
        (strlen buff 0 (MAXLINE + 1)).map fun (n : Nat) =>
          ({ s with serverBuff := buff, server := ServerPc.replying n }, PipeEvent.silent)
    | Except.ok file =>
        some ({ s with serverBuff := buff, server := ServerPc.reading file },
          PipeEvent.opened path file)

def writeBuff (sys : System) (s : PipeState) (n : Nat) : Option PipeState :=
  (sys.write s.toClient (readBytes s.serverBuff 0 n)).map fun toClient =>
    { s with toClient := toClient }

end PipeState

def clientStep (sys : System) (stdin : List UInt8) (s : PipeState) :
    PipeAction -> Option (PipeState × PipeEvent)
  | PipeAction.clientStart =>
      if s.client = ClientPc.start then
        (clientPathname s.clientBuff stdin).bind fun (path, buff) =>
          (sys.write s.toServer path).map fun toServer =>
            ({ s with toServer := toServer, clientBuff := buff, client := ClientPc.copying },
              PipeEvent.silent)
      else
        none
  | PipeAction.clientRead k =>
      if s.client = ClientPc.copying ∧ 0 < k ∧ k ≤ MAXLINE then
        (s.toClient.read k).map fun (bytes, toClient) =>
          if bytes = [] then
            ({ s with toClient := toClient, client := ClientPc.done }, PipeEvent.silent)
          else
            let buff := memset (writeBytes s.clientBuff 0 bytes)
            ({ s with toClient := toClient, clientBuff := buff },
              PipeEvent.copied bytes (readBytes buff 0 bytes.length))
      else
        none
  | _ => none

def serverStep (sys : System) (s : PipeState) : PipeAction -> Option (PipeState × PipeEvent)
  | PipeAction.serverStart =>
      if s.server = ServerPc.start then
        (s.toServer.read MAXLINE).bind fun (bytes, toServer) =>
          let s := { s with toServer := toServer }
          if bytes = [] then
            some (s.exitServer, PipeEvent.silent)
          else
            { s with serverBuff := writeBytes s.serverBuff 0 bytes }.openFile sys bytes.length
      else
        none
  | PipeAction.serverRead k =>
      match s.server with
      | ServerPc.reading [] => some (s.exitServer, PipeEvent.silent)
      | ServerPc.reading rest =>
          if 0 < k ∧ k ≤ MAXLINE ∧ k ≤ rest.length then
            some ({ s with serverBuff := writeBytes s.serverBuff 0 (rest.take k),
                           server := ServerPc.writing k (rest.drop k) }, PipeEvent.silent)
          else
            none
      | _ => none
  | PipeAction.serverWrite =>
      match s.server with
      | ServerPc.replying n =>
          (s.writeBuff sys n).map fun s => (s.exitServer, PipeEvent.silent)
      | ServerPc.writing n rest =>
          (s.writeBuff sys n).map fun s =>
            ({ s with server := ServerPc.reading rest }, PipeEvent.silent)
      | _ => none
  | _ => none

def pipeStep (sys : System) (stdin : List UInt8) (s : PipeState) (a : PipeAction) :
    Option (PipeState × PipeEvent) :=
  match a with
  | PipeAction.clientStart | PipeAction.clientRead _ => clientStep sys stdin s a
  | _ => serverStep sys s a

inductive Stepped (sys : System) (stdin : List UInt8) (s : PipeState) :
    PipeState -> PipeEvent -> Prop where
  | asks {path : List UInt8} {buff : Mem} {toServer : BytePipe}
      (hclient : s.client = ClientPc.start)
      (hpath : clientPathname s.clientBuff stdin = some (path, buff))
      (hwrite : sys.write s.toServer path = some toServer) :
      Stepped sys stdin s
        { s with toServer := toServer, clientBuff := buff, client := ClientPc.copying }
        PipeEvent.silent
  | copies {k : Nat} {bytes : List UInt8} {toClient : BytePipe}
      (hclient : s.client = ClientPc.copying) (hmax : k ≤ MAXLINE)
      (hread : s.toClient.read k = some (bytes, toClient)) (hbytes : bytes ≠ []) :
      Stepped sys stdin s
        { s with toClient := toClient, clientBuff := memset (writeBytes s.clientBuff 0 bytes) }
        (PipeEvent.copied bytes
          (readBytes (memset (writeBytes s.clientBuff 0 bytes)) 0 bytes.length))
  | ends {k : Nat} {toClient : BytePipe} (hclient : s.client = ClientPc.copying) (hk : 0 < k)
      (hread : s.toClient.read k = some ([], toClient)) :
      Stepped sys stdin s { s with toClient := toClient, client := ClientPc.done }
        PipeEvent.silent
  | closed {toServer : BytePipe} (hserver : s.server = ServerPc.start)
      (hread : s.toServer.read MAXLINE = some ([], toServer)) :
      Stepped sys stdin s { s with toServer := toServer }.exitServer PipeEvent.silent
  | opens {bytes : List UInt8} {toServer : BytePipe} {t : PipeState} {o : PipeEvent}
      (hserver : s.server = ServerPc.start)
      (hread : s.toServer.read MAXLINE = some (bytes, toServer)) (hbytes : bytes ≠ [])
      (hopen : { s with toServer := toServer,
                        serverBuff := writeBytes s.serverBuff 0 bytes }.openFile sys
        bytes.length = some (t, o)) :
      Stepped sys stdin s t o
  | exits (hserver : s.server = ServerPc.reading []) :
      Stepped sys stdin s s.exitServer PipeEvent.silent
  | reads {k : Nat} {rest : List UInt8} (hserver : s.server = ServerPc.reading rest)
      (hk : 0 < k) (hmax : k ≤ MAXLINE) (hrest : k ≤ rest.length) :
      Stepped sys stdin s
        { s with serverBuff := writeBytes s.serverBuff 0 (rest.take k),
                 server := ServerPc.writing k (rest.drop k) } PipeEvent.silent
  | replies {n : Nat} {u : PipeState} (hserver : s.server = ServerPc.replying n)
      (hwrite : s.writeBuff sys n = some u) :
      Stepped sys stdin s u.exitServer PipeEvent.silent
  | writes {n : Nat} {rest : List UInt8} {u : PipeState}
      (hserver : s.server = ServerPc.writing n rest) (hwrite : s.writeBuff sys n = some u) :
      Stepped sys stdin s { u with server := ServerPc.reading rest } PipeEvent.silent

theorem stepped_of_clientStep {sys : System} {stdin : List UInt8} {s t : PipeState}
    {a : PipeAction} {o : PipeEvent} (hstep : clientStep sys stdin s a = some (t, o)) :
    Stepped sys stdin s t o := by
  cases a with
  | clientStart =>
      rcases Option.ite_none_right_eq_some.mp hstep with ⟨hclient, hnext⟩
      rcases Option.bind_eq_some_iff.mp hnext with ⟨⟨path, buff⟩, hpath, hrest⟩
      rcases Option.map_eq_some_iff.mp hrest with ⟨toServer, hwrite, hlast⟩
      cases hlast
      exact Stepped.asks hclient hpath hwrite
  | clientRead k =>
      rcases Option.ite_none_right_eq_some.mp hstep with ⟨⟨hclient, hk, hmax⟩, hnext⟩
      rcases Option.map_eq_some_iff.mp hnext with ⟨⟨bytes, toClient⟩, hread, hlast⟩
      simp only at hlast
      split at hlast
      · rename_i hempty
        cases hlast
        rw [hempty] at hread
        exact Stepped.ends hclient hk hread
      · rename_i hbytes
        cases hlast
        exact Stepped.copies hclient hmax hread hbytes
  | serverStart => cases hstep
  | serverRead k => cases hstep
  | serverWrite => cases hstep

theorem stepped_of_serverStep {sys : System} {stdin : List UInt8} {s t : PipeState}
    {a : PipeAction} {o : PipeEvent} (hstep : serverStep sys s a = some (t, o)) :
    Stepped sys stdin s t o := by
  cases a with
  | serverStart =>
      rcases Option.ite_none_right_eq_some.mp hstep with ⟨hserver, hnext⟩
      rcases Option.bind_eq_some_iff.mp hnext with ⟨⟨bytes, toServer⟩, hread, hlast⟩
      simp only at hlast
      split at hlast
      · rename_i hempty
        cases hlast
        rw [hempty] at hread
        exact Stepped.closed hserver hread
      · rename_i hbytes
        exact Stepped.opens hserver hread hbytes hlast
  | serverRead k =>
      simp only [serverStep] at hstep
      split at hstep
      · rename_i hserver
        cases hstep
        exact Stepped.exits hserver
      · rename_i rest _ hserver
        rcases Option.ite_none_right_eq_some.mp hstep with ⟨⟨hk, hmax, hrest⟩, hlast⟩
        cases hlast
        exact Stepped.reads hserver hk hmax hrest
      · cases hstep
  | serverWrite =>
      simp only [serverStep] at hstep
      split at hstep
      · rename_i n hserver
        rcases Option.map_eq_some_iff.mp hstep with ⟨u, hwrite, hlast⟩
        cases hlast
        exact Stepped.replies hserver hwrite
      · rename_i n rest hserver
        rcases Option.map_eq_some_iff.mp hstep with ⟨u, hwrite, hlast⟩
        cases hlast
        exact Stepped.writes hserver hwrite
      · cases hstep
  | clientStart => cases hstep
  | clientRead k => cases hstep

theorem stepped_of_step {sys : System} {stdin : List UInt8} {s t : PipeState} {a : PipeAction}
    {o : PipeEvent} (hstep : pipeStep sys stdin s a = some (t, o)) : Stepped sys stdin s t o := by
  unfold pipeStep at hstep
  split at hstep
  · exact stepped_of_clientStep hstep
  · exact stepped_of_clientStep hstep
  · exact stepped_of_serverStep hstep

def PipeInit (s : PipeState) : Prop :=
  s.toServer = ⟨[], [0]⟩ ∧ s.toClient = ⟨[], [0]⟩ ∧ s.client = ClientPc.start ∧
    s.server = ServerPc.start

abbrev PipeTransition : Type :=
  Transition PipeState PipeAction PipeEvent

namespace PipeEvent

def received : PipeEvent -> List UInt8
  | copied bytes _ => bytes
  | _ => []

def output : PipeEvent -> List UInt8
  | copied _ bytes => bytes
  | _ => []

end PipeEvent

def received (tr : List PipeTransition) : List UInt8 :=
  tr.flatMap fun e => e.event.received

/-- What the client has passed to `write(STDOUT_FILENO, ...)`. -/
def output (tr : List PipeTransition) : List UInt8 :=
  tr.flatMap fun e => e.event.output

end Mainpipe
end InterprocessComm
