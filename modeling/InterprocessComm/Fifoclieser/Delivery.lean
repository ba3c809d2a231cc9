import InterprocessComm.Fifoclieser.Answers
import Mathlib.Data.List.Nodup

/-!
# Every client gets its answer

The FIFO of a client has what the server has written for it and the client has not read.  No `open`
waits for ever: the server opens for the clients in the order of their requests, and a client that
has sent its request opens its FIFO.
-/

namespace InterprocessComm
namespace Fifoclieser
namespace Answers

open Verification
open Svmsg (NUL NEWLINE BLANK idText)

section Delivery

variable {client : Type} [DecidableEq client]

def ServerPc.pid : ServerPc -> Option Int
  | openFifo => none
  | readline => none
  | opening pid _ _ _ => some pid
  | copy pid _ => some pid
  | reply pid _ => some pid

def ServerPc.writes : ServerPc -> Option (Int × List UInt8)
  | copy pid rest => some (pid, rest)
  | reply pid text => some (pid, text)
  | _ => none

def System.opening (sys : System client) (c : client) : ServerPc :=
  ServerPc.opening (sys.pid c) (sys.line c) (sys.ptr c) (sys.ptr c + (sys.line c).length)

/-- How far a client has come, with its FIFO and what the server does for it; the requests of the
clients in the queue are in the FIFO of the server. -/
inductive Placed (sys : System client) (queue : List client) (s : State client) (c : client) :
    Prop where
  | starts (hclient : s.clients c = ⟨ClientPc.mkfifo, []⟩) (hfifo : s.fifos (sys.pid c) = none)
      (hqueue : c ∉ queue) (hserver : s.server.pid ≠ some (sys.pid c))
  | asks (hclient : s.clients c = ⟨ClientPc.openServer, []⟩)
      (hfifo : s.fifos (sys.pid c) = some Fifo.made) (hqueue : c ∉ queue)
      (hserver : s.server.pid ≠ some (sys.pid c))
  | queued {reader : Bool}
      (hclient : s.clients c = ⟨if reader then ClientPc.opening else ClientPc.openFifo, []⟩)
      (hfifo : s.fifos (sys.pid c) = some { Fifo.made with reader := reader })
      (hqueue : c ∈ queue) (hserver : s.server.pid ≠ some (sys.pid c))
  | opens {pc : ClientPc} (hclient : s.clients c = ⟨pc, []⟩)
      (hpc : pc = ClientPc.openFifo ∨ pc = ClientPc.opening ∨ pc = ClientPc.read)
      (hfifo : s.fifos (sys.pid c) =
        some { bytes := [], reader := pc ≠ ClientPc.openFifo, writer := true, written := true })
      (hqueue : c ∉ queue) (hserver : s.server = sys.opening c)
      (hline : Contains s.buff (sys.ptr c) (sys.line c ++ [0]))
  | copies {pc : ClientPc} {received bytes rest : List UInt8}
      (hclient : s.clients c = ⟨pc, received⟩) (hpc : pc = ClientPc.opening ∨ pc = ClientPc.read)
      (hfifo : s.fifos (sys.pid c) =
        some { bytes := bytes, reader := true, writer := true, written := true })
      (hqueue : c ∉ queue) (hserver : s.server.writes = some (sys.pid c, rest))
      (hanswer : received ++ bytes ++ rest = sys.answer c)
  | closed {pc : ClientPc} {received bytes : List UInt8}
      (hclient : s.clients c = ⟨pc, received⟩) (hpc : pc = ClientPc.opening ∨ pc = ClientPc.read)
      (hfifo : s.fifos (sys.pid c) =
        some { bytes := bytes, reader := true, writer := false, written := true })
      (hqueue : c ∉ queue) (hserver : s.server.pid ≠ some (sys.pid c))
      (hanswer : received ++ bytes = sys.answer c)
  | ended (hclient : s.clients c = ⟨ClientPc.ended, sys.answer c⟩)
      (hfifo : s.fifos (sys.pid c) = none) (hqueue : c ∉ queue)
      (hserver : s.server.pid ≠ some (sys.pid c))

structure Inv (sys : System client) (queue : List client) (s : State client) : Prop where
  placed : forall c, Placed sys queue s c
  nodup : queue.Nodup
  requests : s.requests = queue.flatMap fun c => (sys.info c).requestText
  server : forall pid, s.server.pid = some pid -> exists c, pid = sys.pid c
  short : forall pid text, s.server = ServerPc.reply pid text -> text.length ≤ MAXLINE
  idle : s.server = ServerPc.openFifo -> queue = [] ∧
    forall c, (s.clients c).pc = ClientPc.mkfifo ∨ (s.clients c).pc = ClientPc.openServer

variable {sys : System client} {queue queue' : List client} {s t : State client} {c d : client}

omit [DecidableEq client] in
theorem System.pid_ne (sys : System client) (h : d ≠ c) : sys.pid d ≠ sys.pid c :=
  fun heq => h (sys.pid_injective (Subtype.ext heq))

theorem ServerPc.pid_of_writes {pc : ServerPc} {pid : Int} {rest : List UInt8}
    (h : pc.writes = some (pid, rest)) : pc.pid = some pid := by
  cases pc <;> cases h <;> rfl

/-!
# The server and a request
-/

omit [DecidableEq client] in
theorem System.line_end_le (sys : System client) (c : client) :
    sys.ptr c + (sys.line c).length ≤ MAXLINE := by
  have hfits := sys.fits c
  unfold Client.Fits at hfits
  unfold System.ptr System.line
  lia

omit [DecidableEq client] in
theorem found_request (sys : System client) (c : client) (buff : Mem) (rest : List UInt8) :
    exists line found n,
      readlineLoop MAXLINE buff 0 ((sys.info c).requestText ++ rest) = (line, n, rest) ∧
      handle line n = some (Handled.request found (sys.pid c) (sys.line c) (sys.ptr c)
        (sys.ptr c + (sys.line c).length)) ∧
      Contains found (sys.ptr c) (sys.line c ++ [0]) := by
  have hbody : forall b, b ∈ idText (sys.info c).id ++ sys.line c -> isEnd b = false := by
    intro b hb
    refine decide_eq_false ?_
    rcases List.mem_append.mp hb with hid | hline
    · exact (sys.info c).no_terminator_idText hid
    · rintro (rfl | rfl)
      · exact (sys.info c).no_newline hline
      · exact sys.no_eof c hline
  have hroom : (idText (sys.info c).id ++ sys.line c).length < MAXLINE := by
    have hfits := sys.fits c
    unfold Client.Fits at hfits
    rw [List.length_append]
    unfold System.line
    lia
  rcases readlineLoop_line hbody hroom (show isEnd NEWLINE = true by decide) buff rest with
    ⟨line, hread, hline⟩
  have hfront := (contains_append.mp (contains_append.mp hline).1).1
  have hcut : (if line (((idText (sys.info c).id ++ sys.line c ++ [NEWLINE]).length : Nat) - 1) =
        NEWLINE then (idText (sys.info c).id ++ sys.line c ++ [NEWLINE]).length - 1
      else (idText (sys.info c).id ++ sys.line c ++ [NEWLINE]).length) =
      (idText (sys.info c).id ++ sys.line c).length := by
    have hlength : (idText (sys.info c).id ++ sys.line c ++ [NEWLINE]).length =
        (idText (sys.info c).id ++ sys.line c).length + 1 :=
      List.length_append
    rw [hlength]
    have hplace : (((idText (sys.info c).id ++ sys.line c).length + 1 : Nat) : Int) - 1 =
        (0 : Int) + (idText (sys.info c).id ++ sys.line c).length := by
      lia
    have hlast := (contains_cons.mp (contains_append.mp (contains_append.mp hline).1).2).1
    rw [hplace, if_pos hlast, Nat.add_sub_cancel]
  rcases handle_request (sys.info c).id_lt (sys.info c).no_nul hfront (Nat.le_of_lt hroom) hcut with
    ⟨found, hhandle, hfound⟩
  refine ⟨line, found, (idText (sys.info c).id ++ sys.line c ++ [NEWLINE]).length, ?_, ?_, hfound⟩
  · rw [← hread]
    simp [Client.requestText, System.line]
  · rw [hhandle, (sys.info c).id_cast, List.length_append]
    rfl

omit [DecidableEq client] in
theorem answers_cases (hline : Contains s.buff (sys.ptr c) (sys.line c ++ [0]))
    (h : s.answers sys (sys.pid c) (sys.line c) (sys.ptr c)
      (sys.ptr c + (sys.line c).length) = some t) :
    exists buff server, t = { s with buff := buff, server := server } ∧
      server.writes = some (sys.pid c, sys.answer c) ∧
      (forall pid text, server = ServerPc.reply pid text -> text.length ≤ MAXLINE) := by
  cases hentry : sys.files (sys.line c) with
  | file content =>
      simp only [State.answers, hentry, Option.some.injEq] at h
      refine ⟨s.buff, _, h.symm, ?_, fun pid text heq => by cases heq⟩
      simp only [System.answer, hentry]
      rfl
  | error text =>
      rcases errorReply_eq text hline (sys.info c).no_nul rfl (sys.line_end_le c) with
        ⟨buff, hreply⟩
      simp only [State.answers, hentry, hreply, Option.map_some, Option.some.injEq] at h
      refine ⟨buff, _, h.symm, ?_, ?_⟩
      · simp only [System.answer, hentry]
        rfl
      · intro pid reply heq
        cases heq
        exact errorText_length_le text (Nat.le_add_left _ _) (sys.line_end_le c)
  | fifo => exact absurd hentry (sys.no_fifo c)

omit [DecidableEq client] in
theorem answers_some (hline : Contains s.buff (sys.ptr c) (sys.line c ++ [0])) :
    s.answers sys (sys.pid c) (sys.line c) (sys.ptr c) (sys.ptr c + (sys.line c).length) ≠
      none := by
  unfold State.answers
  cases hentry : sys.files (sys.line c) with
  | file content => simp
  | error text =>
      rcases errorReply_eq text hline (sys.info c).no_nul rfl (sys.line_end_le c) with
        ⟨buff, hreply⟩
      simp [hreply]
  | fifo => exact absurd hentry (sys.no_fifo c)

/-!
# What one step keeps
-/

omit [DecidableEq client] in
theorem Placed.frame (h : Placed sys queue s d) (hclient : t.clients d = s.clients d)
    (hfifo : t.fifos (sys.pid d) = s.fifos (sys.pid d)) (hqueue : d ∈ queue' <-> d ∈ queue)
    (hserver : (t.server = s.server ∧ t.buff = s.buff) ∨
      (s.server.pid ≠ some (sys.pid d) ∧ t.server.pid ≠ some (sys.pid d))) :
    Placed sys queue' t d := by
  have hother : s.server.pid ≠ some (sys.pid d) -> t.server.pid ≠ some (sys.pid d) := by
    intro hne
    rcases hserver with ⟨heq, _⟩ | ⟨_, hnew⟩
    · rwa [heq]
    · exact hnew
  cases h with
  | starts hc hf hq hs =>
      exact Placed.starts (hclient.trans hc) (hfifo.trans hf) (fun h => hq (hqueue.mp h))
        (hother hs)
  | asks hc hf hq hs =>
      exact Placed.asks (hclient.trans hc) (hfifo.trans hf) (fun h => hq (hqueue.mp h))
        (hother hs)
  | queued hc hf hq hs =>
      exact Placed.queued (hclient.trans hc) (hfifo.trans hf) (hqueue.mpr hq) (hother hs)
  | opens hc hpc hf hq hs hline =>
      rcases hserver with ⟨heq, hbuff⟩ | ⟨hold, _⟩
      · exact Placed.opens (hclient.trans hc) hpc (hfifo.trans hf) (fun h => hq (hqueue.mp h))
          (heq.trans hs) (by rw [hbuff]; exact hline)
      · rw [hs] at hold
        exact absurd rfl hold
  | copies hc hpc hf hq hs ha =>
      rcases hserver with ⟨heq, _⟩ | ⟨hold, _⟩
      · exact Placed.copies (hclient.trans hc) hpc (hfifo.trans hf) (fun h => hq (hqueue.mp h))
          (by rw [heq]; exact hs) ha
      · exact absurd (ServerPc.pid_of_writes hs) hold
  | closed hc hpc hf hq hs ha =>
      exact Placed.closed (hclient.trans hc) hpc (hfifo.trans hf) (fun h => hq (hqueue.mp h))
        (hother hs) ha
  | ended hc hf hq hs =>
      exact Placed.ended (hclient.trans hc) (hfifo.trans hf) (fun h => hq (hqueue.mp h))
        (hother hs)

theorem Inv.goes (h : Inv sys queue s) {x : ClientState} {f : Option Fifo}
    (hplaced : Placed sys queue ((s.goes c x).fifo (sys.pid c) f) c)
    (hidle : s.server = ServerPc.openFifo ->
      x.pc = ClientPc.mkfifo ∨ x.pc = ClientPc.openServer) :
    Inv sys queue ((s.goes c x).fifo (sys.pid c) f) := by
  constructor
  · intro d
    rcases eq_or_ne d c with rfl | hne
    · exact hplaced
    · exact (h.placed d).frame (Function.update_of_ne hne ..)
        (Function.update_of_ne (sys.pid_ne hne) ..) Iff.rfl (Or.inl ⟨rfl, rfl⟩)
  · exact h.nodup
  · exact h.requests
  · exact h.server
  · exact h.short
  · intro hserver
    refine ⟨(h.idle hserver).1, ?_⟩
    intro d
    rcases eq_or_ne d c with rfl | hne
    · show (Function.update s.clients d x d).pc = _ ∨ (Function.update s.clients d x d).pc = _
      rw [Function.update_self]
      exact hidle hserver
    · show (Function.update s.clients c x d).pc = _ ∨ (Function.update s.clients c x d).pc = _
      rw [Function.update_of_ne hne]
      exact (h.idle hserver).2 d

omit [DecidableEq client] in
theorem Inv.serves (h : Inv sys queue s) {requests : List UInt8} {fifos : Int -> Option Fifo}
    {buff : Mem} {server : ServerPc}
    (hplaced : Placed sys queue'
      { s with requests := requests, fifos := fifos, buff := buff, server := server } c)
    (hfifos : forall pid, pid ≠ sys.pid c -> fifos pid = s.fifos pid)
    (hrequests : requests = queue'.flatMap fun c => (sys.info c).requestText)
    (hnodup : queue'.Nodup) (hothers : forall d, d ≠ c -> (d ∈ queue' <-> d ∈ queue))
    (hbefore : s.server.pid = none ∨ s.server.pid = some (sys.pid c))
    (hafter : server.pid = none ∨ server.pid = some (sys.pid c))
    (hshort : forall pid text, server = ServerPc.reply pid text -> text.length ≤ MAXLINE)
    (hopen : server ≠ ServerPc.openFifo) :
    Inv sys queue'
      { s with requests := requests, fifos := fifos, buff := buff, server := server } := by
  have hfree : forall d, d ≠ c -> forall pc : ServerPc, pc.pid = none ∨ pc.pid = some (sys.pid c) ->
      pc.pid ≠ some (sys.pid d) := by
    intro d hne pc hpc heq
    rcases hpc with hnone | hsome
    · rw [hnone] at heq
      cases heq
    · rw [hsome] at heq
      exact sys.pid_ne hne (Option.some.inj heq).symm
  constructor
  · intro d
    rcases eq_or_ne d c with rfl | hne
    · exact hplaced
    · exact (h.placed d).frame rfl (hfifos _ (sys.pid_ne hne)) (hothers d hne)
        (Or.inr ⟨hfree d hne _ hbefore, hfree d hne _ hafter⟩)
  · exact hnodup
  · exact hrequests
  · intro pid hpid
    rcases hafter with hnone | hsome
    · cases hnone.symm.trans hpid
    · exact ⟨c, (Option.some.inj (hsome.symm.trans hpid)).symm⟩
  · exact hshort
  · exact fun hserver => absurd hserver hopen

omit [DecidableEq client] in
theorem Inv.queued (h : Inv sys queue s) (hc : c ∈ queue) :
    exists reader, s.clients c = ⟨if reader then ClientPc.opening else ClientPc.openFifo, []⟩ ∧
      s.fifos (sys.pid c) = some { Fifo.made with reader := reader } := by
  cases h.placed c with
  | @queued reader hclient hfifo _ _ => exact ⟨reader, hclient, hfifo⟩
  | starts _ _ hqueue _ => exact absurd hc hqueue
  | asks _ _ hqueue _ => exact absurd hc hqueue
  | opens _ _ _ hqueue _ _ => exact absurd hc hqueue
  | copies _ _ _ hqueue _ _ => exact absurd hc hqueue
  | closed _ _ _ hqueue _ _ => exact absurd hc hqueue
  | ended _ _ hqueue _ => exact absurd hc hqueue

theorem goes_self (s : State client) (c : client) (x : ClientState) (f : Option Fifo) (pid : Int) :
    ((s.goes c x).fifo pid f).clients c = x :=
  Function.update_self ..

theorem fifo_self (s : State client) (c : client) (x : ClientState) (f : Option Fifo) (pid : Int) :
    ((s.goes c x).fifo pid f).fifos pid = f :=
  Function.update_self ..

omit [DecidableEq client] in
theorem fifo_eq_self {pid : Int} {f : Option Fifo} (h : s.fifos pid = f) : s.fifo pid f = s := by
  rw [State.fifo, ← h, Function.update_eq_self]

omit [DecidableEq client] in
theorem Inv.opening (h : Inv sys queue s) {pid : Int} {path : List UInt8} {ptr n : Nat}
    (hserver : s.server = ServerPc.opening pid path ptr n) :
    exists c pc, ServerPc.opening pid path ptr n = sys.opening c ∧ s.clients c = ⟨pc, []⟩ ∧
      (pc = ClientPc.openFifo ∨ pc = ClientPc.opening ∨ pc = ClientPc.read) ∧
      s.fifos (sys.pid c) = some { bytes := [], reader := pc ≠ ClientPc.openFifo,
                                   writer := true, written := true } ∧
      c ∉ queue ∧ Contains s.buff (sys.ptr c) (sys.line c ++ [0]) := by
  have hpid : s.server.pid = some pid := by
    rw [hserver]
    rfl
  rcases h.server pid hpid with ⟨c, rfl⟩
  cases h.placed c with
  | @opens pc hclient hpc hfifo hqueue hsame hline =>
      exact ⟨c, pc, hserver.symm.trans hsame, hclient, hpc, hfifo, hqueue, hline⟩
  | copies _ _ _ _ hsame _ =>
      rw [hserver] at hsame
      cases hsame
  | starts _ _ _ hne => exact absurd hpid hne
  | asks _ _ _ hne => exact absurd hpid hne
  | queued _ _ _ hne => exact absurd hpid hne
  | closed _ _ _ _ hne _ => exact absurd hpid hne
  | ended _ _ _ hne => exact absurd hpid hne

omit [DecidableEq client] in
theorem Inv.copying (h : Inv sys queue s) {pid : Int} {rest : List UInt8}
    (hserver : s.server.writes = some (pid, rest)) :
    exists c pc received bytes, pid = sys.pid c ∧ s.clients c = ⟨pc, received⟩ ∧
      (pc = ClientPc.opening ∨ pc = ClientPc.read) ∧
      s.fifos (sys.pid c) = some { bytes := bytes, reader := true, writer := true,
                                   written := true } ∧
      c ∉ queue ∧ received ++ bytes ++ rest = sys.answer c := by
  have hpid := ServerPc.pid_of_writes hserver
  rcases h.server pid hpid with ⟨c, rfl⟩
  cases h.placed c with
  | @copies pc received bytes rest' hclient hpc hfifo hqueue hsame hanswer =>
      cases hserver.symm.trans hsame
      exact ⟨c, pc, received, bytes, rfl, hclient, hpc, hfifo, hqueue, hanswer⟩
  | opens _ _ _ _ hsame _ =>
      rw [hsame] at hserver
      cases hserver
  | starts _ _ _ hne => exact absurd hpid hne
  | asks _ _ _ hne => exact absurd hpid hne
  | queued _ _ _ hne => exact absurd hpid hne
  | closed _ _ _ _ hne _ => exact absurd hpid hne
  | ended _ _ _ hne => exact absurd hpid hne

theorem Inv.ask (h : Inv sys queue s) (hpc : (s.clients c).pc = ClientPc.openServer)
    (hopen : s.server ≠ ServerPc.openFifo) :
    Inv sys (queue ++ [c]) { s.goes c { s.clients c with pc := ClientPc.openFifo } with
      requests := s.requests ++ (sys.info c).requestText } := by
  have hasks : s.clients c = ⟨ClientPc.openServer, []⟩ ∧
      s.fifos (sys.pid c) = some Fifo.made ∧ c ∉ queue ∧
      s.server.pid ≠ some (sys.pid c) := by
    cases h.placed c with
    | asks hclient hfifo hqueue hserver => exact ⟨hclient, hfifo, hqueue, hserver⟩
    | @queued reader => cases reader <;> simp_all
    | _ => simp_all
  rcases hasks with ⟨hclient, hfifo, hqueue, hserver⟩
  constructor
  · intro d
    rcases eq_or_ne d c with rfl | hne
    · refine @Placed.queued _ _ _ _ _ false ?_ hfifo (by simp) hserver
      show Function.update s.clients d _ d = _
      rw [Function.update_self, hclient]
      rfl
    · exact (h.placed d).frame (Function.update_of_ne hne ..) rfl (by simp [hne])
        (Or.inl ⟨rfl, rfl⟩)
  · refine List.nodup_append.mpr ⟨h.nodup, List.nodup_singleton _, ?_⟩
    intro d hd e he heq
    rw [heq, List.mem_singleton.mp he] at hd
    exact hqueue hd
  · show s.requests ++ _ = _
    rw [h.requests, List.flatMap_append, List.flatMap_singleton]
  · exact h.server
  · exact h.short
  · exact fun hidle => absurd hidle hopen

omit [DecidableEq client] in
theorem Inv.meet (h : Inv sys queue s) (hserver : s.server = ServerPc.openFifo) :
    Inv sys queue { s with server := ServerPc.readline } := by
  constructor
  · intro d
    refine (h.placed d).frame rfl rfl Iff.rfl (Or.inr ⟨?_, ?_⟩)
    · rw [hserver]
      simp [ServerPc.pid]
    · simp [ServerPc.pid]
  · exact h.nodup
  · exact h.requests
  · intro pid hpid
    cases hpid
  · intro pid text heq
    cases heq
  · intro hidle
    cases hidle

omit [DecidableEq client] in
theorem Inv.found (h : Inv sys queue s) {buff : Mem} {n : Nat} {rest : List UInt8}
    {handled : Handled} (hserver : s.server = ServerPc.readline)
    (hread : readlineLoop MAXLINE s.buff 0 s.requests = (buff, n, rest))
    (hrequests : s.requests ≠ []) (hhandle : handle buff n = some handled) :
    exists c queue' reader found, queue = c :: queue' ∧
      s.fifos (sys.pid c) = some { Fifo.made with reader := reader } ∧
      { s with requests := rest }.found handled =
        { s with
          requests := rest
          fifos := Function.update s.fifos (sys.pid c)
            (some { bytes := [], reader := reader, writer := true, written := true })
          buff := found
          server := sys.opening c } ∧
      Inv sys queue' ({ s with requests := rest }.found handled) := by
  cases queue with
  | nil => exact absurd h.requests hrequests
  | cons c queue' =>
      rcases h.queued List.mem_cons_self with ⟨reader, hclient, hmade⟩
      have htext := h.requests
      rw [List.flatMap_cons] at htext
      rw [htext] at hread
      rcases found_request sys c s.buff (queue'.flatMap fun c => (sys.info c).requestText) with
        ⟨line, found, k, hline, hfound, hcontains⟩
      cases hread.symm.trans hline
      cases hhandle.symm.trans hfound
      have hnext : { s with requests := queue'.flatMap fun c => (sys.info c).requestText }.found
          (Handled.request found (sys.pid c) (sys.line c) (sys.ptr c)
            (sys.ptr c + (sys.line c).length)) =
          { s with
            requests := queue'.flatMap fun c => (sys.info c).requestText
            fifos := Function.update s.fifos (sys.pid c)
              (some { bytes := [], reader := reader, writer := true, written := true })
            buff := found
            server := sys.opening c } := by
        simp only [State.found, hmade]
        rfl
      refine ⟨c, queue', reader, found, rfl, hmade, hnext, ?_⟩
      rw [hnext]
      have hnodup := List.nodup_cons.mp h.nodup
      refine h.serves ?_ (fun _ hne => Function.update_of_ne hne ..) rfl hnodup.2 ?_
        (Or.inl (by rw [hserver]; rfl)) (Or.inr rfl) (fun pid text heq => by cases heq)
        (fun heq => by cases heq)
      · refine Placed.opens hclient ?_ ?_ hnodup.1 rfl hcontains
        · cases reader <;> simp
        · show Function.update s.fifos (sys.pid c) _ (sys.pid c) = _
          rw [Function.update_self]
          cases reader <;> rfl
      · intro d hne
        simp [hne]

theorem Inv.mkfifo (h : Inv sys queue s) (hpc : (s.clients c).pc = ClientPc.mkfifo) :
    Inv sys queue ((s.goes c { s.clients c with pc := ClientPc.openServer }).fifo (sys.pid c)
      (some ((s.fifos (sys.pid c)).getD Fifo.made))) := by
  refine h.goes ?_ (fun _ => Or.inr rfl)
  cases h.placed c with
  | starts hclient hfifo hqueue hserver =>
      refine Placed.asks ?_ ?_ hqueue hserver
      · rw [goes_self, hclient]
      · rw [fifo_self, hfifo]
        rfl
  | @queued reader => cases reader <;> simp_all
  | _ => simp_all

omit [DecidableEq client] in
theorem Inv.not_idle (h : Inv sys queue s) (hmkfifo : (s.clients c).pc ≠ ClientPc.mkfifo)
    (hasks : (s.clients c).pc ≠ ClientPc.openServer) : s.server ≠ ServerPc.openFifo := by
  intro hserver
  rcases (h.idle hserver).2 c with hpc | hpc
  · exact hmkfifo hpc
  · exact hasks hpc

/-- The server does not wait for its own FIFO while a client is behind its request. -/
theorem Inv.goes_on (h : Inv sys queue s) {x : ClientState} {f : Option Fifo}
    (hmkfifo : (s.clients c).pc ≠ ClientPc.mkfifo)
    (hasks : (s.clients c).pc ≠ ClientPc.openServer)
    (hplaced : Placed sys queue ((s.goes c x).fifo (sys.pid c) f) c) :
    Inv sys queue ((s.goes c x).fifo (sys.pid c) f) :=
  h.goes hplaced fun hserver => absurd hserver (h.not_idle hmkfifo hasks)

theorem Inv.openFifo {f : Fifo} (h : Inv sys queue s)
    (hpc : (s.clients c).pc = ClientPc.openFifo) (hfifo : s.fifos (sys.pid c) = some f) :
    Inv sys queue ((s.goes c { s.clients c with pc := ClientPc.opening }).fifo (sys.pid c)
      (some { f with reader := true })) := by
  refine h.goes_on (by simp [hpc]) (by simp [hpc]) ?_
  cases h.placed c with
  | @queued reader hclient hmade hqueue hserver =>
      cases reader with
      | true => simp_all
      | false =>
          cases hmade.symm.trans hfifo
          exact @Placed.queued _ _ _ _ _ true (by rw [goes_self, hclient]; rfl)
            (fifo_self ..) hqueue hserver
  | opens hclient hplace hopen hqueue hserver hline =>
      rw [hclient] at hpc
      cases hpc
      cases hopen.symm.trans hfifo
      exact Placed.opens (by rw [goes_self, hclient]) (Or.inr (Or.inl rfl))
        (by rw [fifo_self]; rfl) hqueue hserver hline
  | _ => simp_all

theorem Inv.opened {f : Fifo} (h : Inv sys queue s)
    (hpc : (s.clients c).pc = ClientPc.opening) (hfifo : s.fifos (sys.pid c) = some f)
    (hwritten : f.written = true) :
    Inv sys queue (s.goes c { s.clients c with pc := ClientPc.read }) := by
  have hsame : s.goes c { s.clients c with pc := ClientPc.read } =
      (s.goes c { s.clients c with pc := ClientPc.read }).fifo (sys.pid c) (some f) :=
    (@fifo_eq_self _ (s.goes c { s.clients c with pc := ClientPc.read }) _ _ hfifo).symm
  rw [hsame]
  refine h.goes_on (by simp [hpc]) (by simp [hpc]) ?_
  cases h.placed c with
  | opens hclient hplace hopen hqueue hserver hline =>
      rw [hclient] at hpc
      cases hpc
      cases hopen.symm.trans hfifo
      exact Placed.opens (by rw [goes_self, hclient]) (Or.inr (Or.inr rfl))
        (by rw [fifo_self]; rfl) hqueue hserver hline
  | copies hclient hplace hopen hqueue hserver hanswer =>
      cases hopen.symm.trans hfifo
      exact Placed.copies (by rw [goes_self, hclient]) (Or.inr rfl) (fifo_self ..) hqueue
        hserver hanswer
  | closed hclient hplace hopen hqueue hserver hanswer =>
      cases hopen.symm.trans hfifo
      exact Placed.closed (by rw [goes_self, hclient]) (Or.inr rfl) (fifo_self ..) hqueue
        hserver hanswer
  | @queued reader _ hmade =>
      cases hmade.symm.trans hfifo
      cases hwritten
  | _ => simp_all

theorem Inv.read {f : Fifo} (h : Inv sys queue s) (hpc : (s.clients c).pc = ClientPc.read)
    (hfifo : s.fifos (sys.pid c) = some f) (hbytes : f.bytes ≠ []) :
    Inv sys queue ((s.goes c { s.clients c with
        received := (s.clients c).received ++ f.bytes.take MAXLINE }).fifo
      (sys.pid c) (some { f with bytes := f.bytes.drop MAXLINE })) := by
  refine h.goes_on (by simp [hpc]) (by simp [hpc]) ?_
  cases h.placed c with
  | @copies pc received bytes rest hclient hplace hopen hqueue hserver hanswer =>
      cases hopen.symm.trans hfifo
      rw [hclient] at hpc
      refine Placed.copies (by rw [goes_self, hclient]) (Or.inr hpc) (fifo_self ..) hqueue
        hserver ?_
      rw [← hanswer, List.append_assoc received, List.take_append_drop]
  | @closed pc received bytes hclient hplace hopen hqueue hserver hanswer =>
      cases hopen.symm.trans hfifo
      rw [hclient] at hpc
      refine Placed.closed (by rw [goes_self, hclient]) (Or.inr hpc) (fifo_self ..) hqueue
        hserver ?_
      rw [← hanswer, List.append_assoc received, List.take_append_drop]
  | opens _ _ hopen =>
      cases hopen.symm.trans hfifo
      exact absurd rfl hbytes
  | @queued reader => cases reader <;> simp_all
  | _ => simp_all

theorem Inv.finish {f : Fifo} (h : Inv sys queue s) (hpc : (s.clients c).pc = ClientPc.read)
    (hfifo : s.fifos (sys.pid c) = some f) (hbytes : f.bytes = []) (hwriter : f.writer = false) :
    Inv sys queue ((s.goes c { s.clients c with pc := ClientPc.ended }).fifo (sys.pid c) none) := by
  refine h.goes_on (by simp [hpc]) (by simp [hpc]) ?_
  cases h.placed c with
  | @closed pc received bytes hclient hplace hopen hqueue hserver hanswer =>
      cases hopen.symm.trans hfifo
      change bytes = [] at hbytes
      rw [hbytes, List.append_nil] at hanswer
      exact Placed.ended (by rw [goes_self, hclient, hanswer]) (fifo_self ..) hqueue hserver
  | copies _ _ hopen =>
      cases hopen.symm.trans hfifo
      cases hwriter
  | opens _ _ hopen =>
      cases hopen.symm.trans hfifo
      cases hwriter
  | @queued reader => cases reader <;> simp_all
  | _ => simp_all

omit [DecidableEq client] in
theorem Inv.answers {pid : Int} {path : List UInt8} {ptr n : Nat} {f : Fifo}
    (h : Inv sys queue s) (hserver : s.server = ServerPc.opening pid path ptr n)
    (hfifo : s.fifos pid = some f) (hreader : f.reader = true)
    (hanswer : s.answers sys pid path ptr n = some t) : Inv sys queue t := by
  rcases h.opening hserver with ⟨c, pc, heq, hclient, hpc, hopen, hqueue, hline⟩
  cases heq
  cases hopen.symm.trans hfifo
  rcases answers_cases hline hanswer with ⟨buff, server, rfl, hwrites, hshort⟩
  have hpid := ServerPc.pid_of_writes hwrites
  have hplace : pc = ClientPc.opening ∨ pc = ClientPc.read := by
    rcases hpc with rfl | hpc
    · cases hreader
    · exact hpc
  refine h.serves ?_ (fun _ _ => rfl) h.requests h.nodup (fun _ _ => Iff.rfl)
    (Or.inr (by rw [hserver]; rfl)) (Or.inr hpid) hshort ?_
  · have hread : s.fifos (sys.pid c) =
        some { bytes := [], reader := true, writer := true, written := true } := by
      rw [hopen]
      rcases hplace with rfl | rfl <;> rfl
    exact Placed.copies hclient hplace hread hqueue hwrites rfl
  · rintro rfl
    cases hpid

omit [DecidableEq client] in
theorem Inv.close {pid : Int} {f : Fifo} (h : Inv sys queue s)
    (hserver : s.server = ServerPc.copy pid []) (hfifo : s.fifos pid = some f) :
    Inv sys queue
      { s.fifo pid (some { f with writer := false }) with server := ServerPc.readline } := by
  rcases h.copying (by rw [hserver]; rfl) with
    ⟨c, pc, received, bytes, rfl, hclient, hpc, hopen, hqueue, hanswer⟩
  cases hopen.symm.trans hfifo
  rw [List.append_nil] at hanswer
  refine h.serves ?_ (fun _ hne => Function.update_of_ne hne ..) h.requests h.nodup
    (fun _ _ => Iff.rfl) (Or.inr (by rw [hserver]; rfl)) (Or.inl rfl)
    (fun pid text heq => by cases heq) (by simp)
  refine Placed.closed hclient hpc ?_ hqueue (by simp [ServerPc.pid]) hanswer
  exact Function.update_self ..

omit [DecidableEq client] in
/-- A piece of the answer goes from the server into the FIFO. -/
theorem Inv.writes {pid : Int} {front rest : List UInt8} {f : Fifo} {buff : Mem}
    (h : Inv sys queue s) (hserver : s.server.writes = some (pid, front ++ rest))
    (hfifo : s.fifos pid = some f) :
    Inv sys queue { s.fifo pid (some { f with bytes := f.bytes ++ front }) with
      buff := buff
      server := ServerPc.copy pid rest } := by
  rcases h.copying hserver with
    ⟨c, pc, received, bytes, rfl, hclient, hpc, hopen, hqueue, hanswer⟩
  cases hopen.symm.trans hfifo
  refine h.serves ?_ (fun _ hne => Function.update_of_ne hne ..) h.requests h.nodup
    (fun _ _ => Iff.rfl) (Or.inr (ServerPc.pid_of_writes hserver)) (Or.inr rfl)
    (fun pid text heq => by cases heq) (by simp)
  refine Placed.copies hclient hpc (Function.update_self ..) hqueue rfl ?_
  rw [← hanswer]
  simp

theorem Inv.step {a : Action client} {o : Unit} (h : Inv sys queue s)
    (hstep : step sys s a = some (t, o)) : exists queue', Inv sys queue' t := by
  cases stepped_of_step hstep with
  | mkfifo c hpc => exact ⟨queue, h.mkfifo hpc⟩
  | ask c hpc hserver hrequest =>
      rw [Client.request_eq (sys.fits c)] at hrequest
      cases hrequest
      exact ⟨_, h.ask hpc hserver⟩
  | openFifo c hpc hfifo => exact ⟨queue, h.openFifo hpc hfifo⟩
  | opened c hpc hfifo hwritten => exact ⟨queue, h.opened hpc hfifo hwritten⟩
  | read c hpc hfifo hbytes => exact ⟨queue, h.read hpc hfifo hbytes⟩
  | finish c hpc hfifo hbytes hwriter => exact ⟨queue, h.finish hpc hfifo hbytes hwriter⟩
  | meet c hserver hpc => exact ⟨queue, h.meet hserver⟩
  | found hserver hread hrequests hhandle =>
      rcases h.found hserver hread hrequests hhandle with ⟨c, queue', _, _, _, _, _, hinv⟩
      exact ⟨queue', hinv⟩
  | answers hserver hfifo hreader hanswer => exact ⟨queue, h.answers hserver hfifo hreader hanswer⟩
  | close hserver hfifo => exact ⟨queue, h.close hserver hfifo⟩
  | @write pid rest f hserver hfifo hrest =>
      refine ⟨queue, h.writes ?_ hfifo⟩
      rw [hserver, List.take_append_drop]
      rfl
  | @reply pid text f hserver hfifo =>
      refine ⟨queue, h.writes ?_ hfifo⟩
      rw [hserver, List.append_nil]
      rfl

omit [DecidableEq client] in
theorem inv_init (hs : Init s) : Inv sys [] s := by
  have hserver : s.server.pid = none := by
    rw [hs.server]
    rfl
  constructor
  · intro c
    refine Placed.starts (hs.clients c) (hs.fifos _) List.not_mem_nil ?_
    rw [hserver]
    simp
  · exact List.nodup_nil
  · exact hs.requests
  · intro pid hpid
    cases hserver.symm.trans hpid
  · intro pid text heq
    cases hs.server.symm.trans heq
  · intro _
    refine ⟨rfl, fun c => Or.inl ?_⟩
    rw [hs.clients c]

end Delivery

end Answers
end Fifoclieser
end InterprocessComm
