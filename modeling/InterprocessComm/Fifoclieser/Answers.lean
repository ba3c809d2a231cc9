import InterprocessComm.Fifoclieser.Requests

/-!
# The answers through the clients' FIFOs

Each client makes a FIFO, sends its request, opens its FIFO and reads to the end.  The server takes
one request after the other, opens the FIFO of the client and writes the file or an error.  An
`open` waits until the other side has opened; the FIFO of the server is there from the start.
-/

namespace InterprocessComm
namespace Fifoclieser
namespace Answers

open Verification
open Svmsg (NUL NEWLINE BLANK idText)

/-- `":can't open, "` -/
def CANT_OPEN : List UInt8 := [58, 99, 97, 110, 39, 116, 32, 111, 112, 101, 110, 44, 32]

/-- The error goes behind the pathname at `ptr`, at the end `n` of the line. -/
def errorReply (buff : Mem) (ptr n : Nat) (text : List UInt8) : Option (Mem × List UInt8) :=
  let buff := snprintf buff n (MAXLINE + 1 - n) (CANT_OPEN ++ text ++ [NEWLINE])
  (strlen buff ptr (MAXLINE + 1 - ptr)).map fun (n : Nat) => (buff, readBytes buff ptr n)

def errorText (n : Nat) (path text : List UInt8) : List UInt8 :=
  path ++ beforeNul ((CANT_OPEN ++ text ++ [NEWLINE]).take (MAXLINE - n))

theorem errorReply_eq {buff : Mem} {ptr n : Nat} {path : List UInt8} (text : List UInt8)
    (hcontains : Contains buff ptr (path ++ [0])) (hpath : 0 ∉ path)
    (hn : n = ptr + path.length) (hroom : n ≤ MAXLINE) :
    exists buff', errorReply buff ptr n text = some (buff', errorText n path text) := by
  have hplace : ((n : Nat) : Int) = ptr + path.length := by lia
  have hdata : Contains (snprintf buff n (MAXLINE + 1 - n) (CANT_OPEN ++ text ++ [NEWLINE])) ptr
      (path ++ ((CANT_OPEN ++ text ++ [NEWLINE]).take (MAXLINE - n) ++ [0])) := by
    unfold snprintf
    rw [if_neg (by lia), show MAXLINE + 1 - n - 1 = MAXLINE - n by lia, contains_append, hplace]
    exact ⟨(contains_append.mp hcontains).1.frame (Or.inl (by lia)), contains_write _ _ _⟩
  unfold errorReply
  simp only
  generalize snprintf buff n (MAXLINE + 1 - n) (CANT_OPEN ++ text ++ [NEWLINE]) = data at hdata ⊢
  have hstring : cString data ptr (MAXLINE + 1 - ptr) = some (errorText n path text) := by
    rw [cString_of_contains hdata (by simp) (by simp; lia), beforeNul_append hpath, beforeNul_snoc]
    rfl
  rw [strlen, hstring]
  refine ⟨data, ?_⟩
  simp only [Option.map_some, readBytes_of_contains (cString_spec hstring).1]

theorem errorText_length_le {n : Nat} {path : List UInt8} (text : List UInt8)
    (hpath : path.length ≤ n) (hn : n ≤ MAXLINE) : (errorText n path text).length ≤ MAXLINE := by
  have hle : (beforeNul ((CANT_OPEN ++ text ++ [NEWLINE]).take (MAXLINE - n))).length ≤
      MAXLINE - n :=
    Nat.le_trans (List.takeWhile_prefix _).length_le (List.length_take_le _ _)
  rw [errorText, List.length_append]
  lia

/-- What a pathname leads to; an error has the text of `strerror`. -/
inductive Entry where
  | file (content : List UInt8)
  | error (text : List UInt8)
  | fifo
deriving DecidableEq

/-- The clients, with process ids of their own and requests that fit and arrive whole, the files,
and the room in a FIFO. No client asks for a FIFO. -/
structure System (client : Type) where
  info : client -> Client
  pid_injective : Function.Injective fun c => (info c).pid
  fits : forall c, (info c).Fits
  no_eof : forall c, EOF ∉ (info c).line
  files : List UInt8 -> Entry
  no_fifo : forall c, files (info c).line ≠ Entry.fifo
  room : Nat
  room_le : MAXLINE ≤ room

namespace System

variable {client : Type}

def pid (sys : System client) (c : client) : Int := (sys.info c).pid.val

def line (sys : System client) (c : client) : List UInt8 := (sys.info c).line

def ptr (sys : System client) (c : client) : Nat := (idText (sys.info c).id).length

def answer (sys : System client) (c : client) : List UInt8 :=
  match sys.files (sys.line c) with
  | Entry.file content => content
  | Entry.error text => errorText (sys.ptr c + (sys.line c).length) (sys.line c) text
  | Entry.fifo => []

end System

/-- A FIFO, whether a reader and a writer have it open, and whether a writer has ever had. -/
structure Fifo where
  bytes : List UInt8
  reader : Bool
  writer : Bool
  written : Bool
deriving DecidableEq

def Fifo.made : Fifo := { bytes := [], reader := false, writer := false, written := false }

inductive ClientPc where
  | mkfifo
  | openServer
  | openFifo
  | opening
  | read
  | ended
deriving DecidableEq

structure ClientState where
  pc : ClientPc
  received : List UInt8
deriving DecidableEq

inductive ServerPc where
  | openFifo
  | readline
  | opening (pid : Int) (path : List UInt8) (ptr n : Nat)
  | copy (pid : Int) (rest : List UInt8)
  | reply (pid : Int) (text : List UInt8)
deriving DecidableEq

/-- The FIFO of the server has the bytes of the requests. -/
structure State (client : Type) where
  requests : List UInt8
  fifos : Int -> Option Fifo
  buff : Mem
  server : ServerPc
  clients : client -> ClientState

inductive Action (client : Type) where
  | client (c : client)
  | meet (c : client)
  | server

section Step

variable {client : Type} [DecidableEq client]

def State.goes (s : State client) (c : client) (x : ClientState) : State client :=
  { s with clients := Function.update s.clients c x }

def State.fifo (s : State client) (pid : Int) (f : Option Fifo) : State client :=
  { s with fifos := Function.update s.fifos pid f }

def clientStep (sys : System client) (s : State client) (c : client) : Option (State client) :=
  let x := s.clients c
  match x.pc with
  | ClientPc.mkfifo =>
      some ((s.goes c { x with pc := ClientPc.openServer }).fifo (sys.pid c)
        (some ((s.fifos (sys.pid c)).getD Fifo.made)))
  | ClientPc.openServer =>
      if s.server = ServerPc.openFifo then
        none
      else
        (sys.info c).request.map fun request =>
          { s.goes c { x with pc := ClientPc.openFifo } with requests := s.requests ++ request }
  | ClientPc.openFifo =>
      (s.fifos (sys.pid c)).map fun f =>
        (s.goes c { x with pc := ClientPc.opening }).fifo (sys.pid c)
          (some { f with reader := true })
  | ClientPc.opening =>
      (s.fifos (sys.pid c)).bind fun f =>
        if f.written then some (s.goes c { x with pc := ClientPc.read }) else none
  | ClientPc.read =>
      (s.fifos (sys.pid c)).bind fun f =>
        if f.bytes ≠ [] then
          some ((s.goes c { x with received := x.received ++ f.bytes.take MAXLINE }).fifo
            (sys.pid c) (some { f with bytes := f.bytes.drop MAXLINE }))
        else if f.writer then
          none
        else
          some ((s.goes c { x with pc := ClientPc.ended }).fifo (sys.pid c) none)
  | ClientPc.ended => none

omit [DecidableEq client] in
def State.found (s : State client) : Handled -> State client
  | Handled.bogus buff => { s with buff := buff }
  | Handled.request buff pid path ptr n =>
      match s.fifos pid with
      | none => { s with buff := buff }
      | some f =>
          { s.fifo pid (some { f with writer := true, written := true }) with
            buff := buff, server := ServerPc.opening pid path ptr n }

omit [DecidableEq client] in
/-- The FIFO of the client is open; the server opens the file. A FIFO keeps it for ever. -/
def State.answers (sys : System client) (s : State client) (pid : Int) (path : List UInt8)
    (ptr n : Nat) : Option (State client) :=
  match sys.files path with
  | Entry.file content => some { s with server := ServerPc.copy pid content }
  | Entry.error text =>
      (errorReply s.buff ptr n text).map fun r =>
        { s with buff := r.1, server := ServerPc.reply pid r.2 }
  | Entry.fifo => none

omit [DecidableEq client] in
def serverStep (sys : System client) (s : State client) : Option (State client) :=
  match s.server with
  | ServerPc.openFifo => none
  | ServerPc.readline =>
      if s.requests = [] then
        none
      else
        let read := readlineLoop MAXLINE s.buff 0 s.requests
        (handle read.1 read.2.1).map fun handled =>
          { s with requests := read.2.2 }.found handled
  | ServerPc.opening pid path ptr n =>
      (s.fifos pid).bind fun f => if f.reader then s.answers sys pid path ptr n else none
  | ServerPc.copy pid rest =>
      (s.fifos pid).bind fun f =>
        if rest = [] then
          some { s.fifo pid (some { f with writer := false }) with server := ServerPc.readline }
        else if f.bytes.length + (rest.take MAXLINE).length ≤ sys.room then
          some { s.fifo pid (some { f with bytes := f.bytes ++ rest.take MAXLINE }) with
            buff := writeBytes s.buff 0 (rest.take MAXLINE)
            server := ServerPc.copy pid (rest.drop MAXLINE) }
        else
          none
  | ServerPc.reply pid text =>
      (s.fifos pid).bind fun f =>
        if f.bytes.length + text.length ≤ sys.room then
          some { s.fifo pid (some { f with bytes := f.bytes ++ text }) with
            server := ServerPc.copy pid [] }
        else
          none

def step (sys : System client) (s : State client) : Action client -> Option (State client × Unit)
  | Action.client c => (clientStep sys s c).map fun t => (t, ())
  | Action.server => (serverStep sys s).map fun t => (t, ())
  | Action.meet c =>
      if s.server = ServerPc.openFifo ∧ (s.clients c).pc = ClientPc.openServer then
        some ({ s with server := ServerPc.readline }, ())
      else
        none

inductive Stepped (sys : System client) (s : State client) : State client -> Prop where
  | mkfifo (c : client) (hpc : (s.clients c).pc = ClientPc.mkfifo) :
      Stepped sys s
        ((s.goes c { s.clients c with pc := ClientPc.openServer }).fifo (sys.pid c)
          (some ((s.fifos (sys.pid c)).getD Fifo.made)))
  | ask (c : client) {request : List UInt8} (hpc : (s.clients c).pc = ClientPc.openServer)
      (hserver : s.server ≠ ServerPc.openFifo) (hrequest : (sys.info c).request = some request) :
      Stepped sys s
        { s.goes c { s.clients c with pc := ClientPc.openFifo } with
          requests := s.requests ++ request }
  | openFifo (c : client) {f : Fifo} (hpc : (s.clients c).pc = ClientPc.openFifo)
      (hfifo : s.fifos (sys.pid c) = some f) :
      Stepped sys s
        ((s.goes c { s.clients c with pc := ClientPc.opening }).fifo (sys.pid c)
          (some { f with reader := true }))
  | opened (c : client) {f : Fifo} (hpc : (s.clients c).pc = ClientPc.opening)
      (hfifo : s.fifos (sys.pid c) = some f) (hwritten : f.written = true) :
      Stepped sys s (s.goes c { s.clients c with pc := ClientPc.read })
  | read (c : client) {f : Fifo} (hpc : (s.clients c).pc = ClientPc.read)
      (hfifo : s.fifos (sys.pid c) = some f) (hbytes : f.bytes ≠ []) :
      Stepped sys s
        ((s.goes c { s.clients c with
            received := (s.clients c).received ++ f.bytes.take MAXLINE }).fifo
          (sys.pid c) (some { f with bytes := f.bytes.drop MAXLINE }))
  | finish (c : client) {f : Fifo} (hpc : (s.clients c).pc = ClientPc.read)
      (hfifo : s.fifos (sys.pid c) = some f) (hbytes : f.bytes = [])
      (hwriter : f.writer = false) :
      Stepped sys s
        ((s.goes c { s.clients c with pc := ClientPc.ended }).fifo (sys.pid c) none)
  | meet (c : client) (hserver : s.server = ServerPc.openFifo)
      (hpc : (s.clients c).pc = ClientPc.openServer) :
      Stepped sys s { s with server := ServerPc.readline }
  | found {buff : Mem} {n : Nat} {rest : List UInt8} {handled : Handled}
      (hserver : s.server = ServerPc.readline)
      (hread : readlineLoop MAXLINE s.buff 0 s.requests = (buff, n, rest))
      (hrequests : s.requests ≠ []) (hhandle : handle buff n = some handled) :
      Stepped sys s ({ s with requests := rest }.found handled)
  | answers {pid : Int} {path : List UInt8} {ptr n : Nat} {f : Fifo} {t : State client}
      (hserver : s.server = ServerPc.opening pid path ptr n) (hfifo : s.fifos pid = some f)
      (hreader : f.reader = true) (hanswer : s.answers sys pid path ptr n = some t) :
      Stepped sys s t
  | close {pid : Int} {f : Fifo} (hserver : s.server = ServerPc.copy pid [])
      (hfifo : s.fifos pid = some f) :
      Stepped sys s
        { s.fifo pid (some { f with writer := false }) with server := ServerPc.readline }
  | write {pid : Int} {rest : List UInt8} {f : Fifo} (hserver : s.server = ServerPc.copy pid rest)
      (hfifo : s.fifos pid = some f) (hrest : rest ≠ []) :
      Stepped sys s
        { s.fifo pid (some { f with bytes := f.bytes ++ rest.take MAXLINE }) with
          buff := writeBytes s.buff 0 (rest.take MAXLINE)
          server := ServerPc.copy pid (rest.drop MAXLINE) }
  | reply {pid : Int} {text : List UInt8} {f : Fifo} (hserver : s.server = ServerPc.reply pid text)
      (hfifo : s.fifos pid = some f) :
      Stepped sys s
        { s.fifo pid (some { f with bytes := f.bytes ++ text }) with
          server := ServerPc.copy pid [] }

theorem stepped_of_clientStep {sys : System client} {s t : State client} {c : client}
    (hstep : clientStep sys s c = some t) : Stepped sys s t := by
  simp only [clientStep] at hstep
  split at hstep
  · rename_i hpc
    cases hstep
    exact Stepped.mkfifo c hpc
  · rename_i hpc
    rcases Option.ite_none_left_eq_some.mp hstep with ⟨hserver, hnext⟩
    rcases Option.map_eq_some_iff.mp hnext with ⟨request, hrequest, hlast⟩
    cases hlast
    exact Stepped.ask c hpc hserver hrequest
  · rename_i hpc
    rcases Option.map_eq_some_iff.mp hstep with ⟨f, hfifo, hnext⟩
    cases hnext
    exact Stepped.openFifo c hpc hfifo
  · rename_i hpc
    rcases Option.bind_eq_some_iff.mp hstep with ⟨f, hfifo, hnext⟩
    rcases Option.ite_none_right_eq_some.mp hnext with ⟨hwritten, hlast⟩
    cases hlast
    exact Stepped.opened c hpc hfifo hwritten
  · rename_i hpc
    rcases Option.bind_eq_some_iff.mp hstep with ⟨f, hfifo, hnext⟩
    split at hnext
    · rename_i hbytes
      cases hnext
      exact Stepped.read c hpc hfifo hbytes
    · rename_i hbytes
      rcases Option.ite_none_left_eq_some.mp hnext with ⟨hwriter, hlast⟩
      cases hlast
      exact Stepped.finish c hpc hfifo (not_not.mp hbytes) (Bool.eq_false_iff.mpr hwriter)
  · cases hstep

theorem stepped_of_serverStep {sys : System client} {s t : State client}
    (hstep : serverStep sys s = some t) : Stepped sys s t := by
  simp only [serverStep] at hstep
  split at hstep
  · cases hstep
  · rename_i hserver
    rcases Option.ite_none_left_eq_some.mp hstep with ⟨hrequests, hnext⟩
    rcases Option.map_eq_some_iff.mp hnext with ⟨handled, hhandle, hlast⟩
    cases hlast
    exact Stepped.found hserver rfl hrequests hhandle
  · rename_i hserver
    rcases Option.bind_eq_some_iff.mp hstep with ⟨f, hfifo, hnext⟩
    rcases Option.ite_none_right_eq_some.mp hnext with ⟨hreader, hlast⟩
    exact Stepped.answers hserver hfifo hreader hlast
  · rename_i pid rest hserver
    rcases Option.bind_eq_some_iff.mp hstep with ⟨f, hfifo, hnext⟩
    split at hnext
    · rename_i hrest
      cases hnext
      rw [hrest] at hserver
      exact Stepped.close hserver hfifo
    · rename_i hrest
      rcases Option.ite_none_right_eq_some.mp hnext with ⟨_, hlast⟩
      cases hlast
      exact Stepped.write hserver hfifo hrest
  · rename_i hserver
    rcases Option.bind_eq_some_iff.mp hstep with ⟨f, hfifo, hnext⟩
    rcases Option.ite_none_right_eq_some.mp hnext with ⟨_, hlast⟩
    cases hlast
    exact Stepped.reply hserver hfifo

theorem stepped_of_step {sys : System client} {s t : State client} {a : Action client} {o : Unit}
    (hstep : step sys s a = some (t, o)) : Stepped sys s t := by
  cases a with
  | client c =>
      rcases Option.map_eq_some_iff.mp hstep with ⟨u, hnext, heq⟩
      cases heq
      exact stepped_of_clientStep hnext
  | server =>
      rcases Option.map_eq_some_iff.mp hstep with ⟨u, hnext, heq⟩
      cases heq
      exact stepped_of_serverStep hnext
  | meet c =>
      rcases Option.ite_none_right_eq_some.mp hstep with ⟨⟨hserver, hpc⟩, hnext⟩
      cases hnext
      exact Stepped.meet c hserver hpc

structure Init (s : State client) : Prop where
  requests : s.requests = []
  fifos : forall pid, s.fifos pid = none
  server : s.server = ServerPc.openFifo
  clients : forall c, s.clients c = ⟨ClientPc.mkfifo, []⟩

end Step

end Answers
end Fifoclieser
end InterprocessComm
