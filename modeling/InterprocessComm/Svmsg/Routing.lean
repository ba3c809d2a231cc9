import InterprocessComm.Svmsg.Cliserv
import Mathlib.Data.List.Nodup

/-!
# Replies reach their clients

The queue holds the requests that the server has not received, in the order in which they were
sent, and for each client the replies that it has not received.
-/

namespace InterprocessComm
namespace Svmsg
namespace Cliserv

open Verification

/-!
# Histories
-/

/-- Who has sent its request, what each client has received, which requests the server has
received, and what it has sent, each with the request it had received last. -/
structure History (client : Type) where
  requested : List client
  received : client -> List Msg
  accepted : List Msg
  produced : List (Option Msg × Msg)

namespace History

variable {client : Type} [DecidableEq client]

def empty : History client :=
  { requested := [], received := fun _ => [], accepted := [], produced := [] }

def observe (h : History client) : Event client -> History client
  | Event.silent => h
  | Event.requested c => { h with requested := h.requested ++ [c] }
  | Event.received c m =>
      { h with received := Function.update h.received c (h.received c ++ [m]) }
  | Event.accepted m => { h with accepted := h.accepted ++ [m] }
  | Event.replied m => { h with produced := h.produced ++ [(h.accepted.getLast?, m)] }

end History

/-- The messages that the server has produced for a request. -/
def producedFor (produced : List (Option Msg × Msg)) (r : Msg) : List Msg :=
  (ofType Prod.fst (some r) produced).map Prod.snd

/-!
# The invariant
-/

section Invariant

variable {client : Type} (sys : System client)

/-- A client that has, or has not, sent its request and has received some messages. -/
structure ClientOk (c : client) (l : Client) (sent : Prop) (received : List Msg) : Prop where
  sent : sent <-> l.pc = ClientPc.receive ∨ l.pc = ClientPc.stopped
  request : l.pc = ClientPc.send -> l.mesg.sent = sys.requestMsg c
  asking : l.pc = ClientPc.receive -> l.mesg.mesg_type = (sys.pid c).val
  reading : l.pc ≠ ClientPc.stopped -> forall m, m ∈ received -> m.mtext ≠ []
  ended : l.pc = ClientPc.stopped -> exists front m, received = front ++ [m] ∧ m.mtext = [] ∧
    forall x, x ∈ front -> x.mtext ≠ []
  output : l.output = (received.map Msg.mtext).flatten

/-- The server receives the requests in the order in which they are sent. -/
structure RequestsOk (requested : List client) (accepted queue : List Msg) : Prop where
  nodup : requested.Nodup
  fifo : accepted ++ ofType Msg.mtype 1 queue = requested.map sys.requestMsg

/-- What the server owes to the client whose request it has received last. -/
def owedTo (accepted : List Msg) (server : Serving) (c : client) : List Msg :=
  if accepted.getLast? = some (sys.requestMsg c) then
    (server.owed MAXMESGDATA).map (Msg.mk (sys.pid c).val)
  else
    []

/-- What has been produced for a client has been received by it or is in the queue, and is with
what the server owes the whole of the replies. -/
structure RepliesOk (received : client -> List Msg) (accepted : List Msg)
    (produced : List (Option Msg × Msg)) (queue : List Msg) (server : Serving) : Prop where
  addressed : forall m, m ∈ queue -> m.mtype = 1 ∨ exists c, m.mtype = (sys.pid c).val
  delivered : forall c, received c ++ ofType Msg.mtype (sys.pid c).val queue =
    producedFor produced (sys.requestMsg c)
  owed : forall c, producedFor produced (sys.requestMsg c) ++ owedTo sys accepted server c =
    if sys.requestMsg c ∈ accepted then sys.replies c else []
  serving : server.outgoing ≠ none -> exists c, accepted.getLast? = some (sys.requestMsg c) ∧
    server.mesg.mesg_type = (sys.pid c).val

structure Routed (h : History client) (s : State client) : Prop where
  room : Fits sys.msg_qbytes s.queue
  clients : forall c, ClientOk sys c (s.clients c) (c ∈ h.requested) (h.received c)
  requests : RequestsOk sys h.requested h.accepted s.queue
  replies : RepliesOk sys h.received h.accepted h.produced s.queue s.server

end Invariant

/-!
## The clients
-/

section Clients

variable {client : Type} {sys : System client} {c : client} {l : Client} {sent : Prop}
  {received : List Msg}

theorem ClientOk.build (hl : ClientOk sys c l sent received) (hpc : l.pc = ClientPc.start)
    {mesg : Mesg} (hmesg : mesg.sent = sys.requestMsg c) :
    ClientOk sys c { l with mesg := mesg, pc := ClientPc.send } sent received := by
  have hsent := hl.sent
  rw [hpc] at hsent
  exact {
    sent := by simpa using hsent
    request := fun _ => hmesg
    asking := fun h => by cases h
    reading := fun _ => hl.reading (by rw [hpc]; simp)
    ended := fun h => by cases h
    output := hl.output }

theorem ClientOk.send (hl : ClientOk sys c l sent received) (hpc : l.pc = ClientPc.send) :
    ClientOk sys c { l with mesg := { l.mesg with mesg_type := (sys.pid c).val },
                            pc := ClientPc.receive } True received :=
  { sent := by simp
    request := fun h => by cases h
    asking := fun _ => rfl
    reading := fun _ => hl.reading (by rw [hpc]; simp)
    ended := fun h => by cases h
    output := hl.output }

theorem ClientOk.unsent (hl : ClientOk sys c l sent received) (hpc : l.pc = ClientPc.send) :
    ¬ sent := by
  intro hsent
  have hafter := hl.sent.mp hsent
  simp [hpc] at hafter

theorem ClientOk.congr {sent' : Prop} (hl : ClientOk sys c l sent received)
    (hsent : sent' <-> sent) : ClientOk sys c l sent' received :=
  { hl with sent := hsent.trans hl.sent }

theorem receives_pc (l : Client) (m : Msg) :
    (l.receives m).pc = if m.mtext = [] then ClientPc.stopped else l.pc := by
  rcases m with ⟨t, text⟩
  unfold Client.receives Mesg.received
  cases text with
  | nil => simp
  | cons b text =>
      rw [if_pos (by simp), if_neg (by simp)]

theorem ClientOk.receive (hl : ClientOk sys c l sent received) (hpc : l.pc = ClientPc.receive)
    {m : Msg} (hm : m.mtype = (sys.pid c).val) :
    ClientOk sys c (l.receives m) sent (received ++ [m]) := by
  have hsent := hl.sent
  have hreading := hl.reading (by rw [hpc]; simp)
  have houtput := hl.output
  rw [hpc] at hsent
  rcases m with ⟨t, text⟩
  unfold Client.receives
  cases text with
  | nil =>
      rw [if_neg (by simp [Mesg.received])]
      exact {
        sent := by simpa using hsent
        request := fun h => by cases h
        asking := fun h => by cases h
        reading := fun h => absurd rfl h
        ended := fun _ => ⟨received, ⟨t, []⟩, rfl, rfl, hreading⟩
        output := by simpa using houtput }
  | cons b text =>
      have hlen : (l.mesg.received ⟨t, b :: text⟩).mesg_len > 0 := by
        show ((b :: text).length : Int) > 0
        rw [List.length_cons]
        lia
      have hread : readBytes (l.mesg.received ⟨t, b :: text⟩).mesg_data 0
          (l.mesg.received ⟨t, b :: text⟩).mesg_len.toNat = b :: text :=
        readBytes_writeBytes l.mesg.mesg_data 0 (b :: text)
      simp only [hlen, if_true, hread]
      exact {
        sent := by simpa [hpc] using hsent
        request := fun h => by simp [hpc] at h
        asking := fun _ => hm
        reading := by
          intro _ x hx
          rcases List.mem_append.mp hx with hx | hx
          · exact hreading x hx
          · rw [List.mem_singleton.mp hx]
            simp
        ended := fun h => by simp [hpc] at h
        output := by simp [houtput] }

end Clients

/-!
## The requests
-/

section Requests

variable {client : Type} {sys : System client} {requested : List client}
  {accepted queue : List Msg}

theorem RequestsOk.send (h : RequestsOk sys requested accepted queue) {c : client}
    (hc : c ∉ requested) :
    RequestsOk sys (requested ++ [c]) accepted (queue ++ [sys.requestMsg c]) := by
  have hqueue : ofType Msg.mtype 1 (queue ++ [sys.requestMsg c]) =
      ofType Msg.mtype 1 queue ++ [sys.requestMsg c] := ofType_snoc_self queue rfl
  constructor
  · rw [← List.concat_eq_append]
    exact List.Nodup.concat hc h.nodup
  · rw [hqueue, ← List.append_assoc, h.fifo, List.map_append]
    rfl

theorem RequestsOk.reply (h : RequestsOk sys requested accepted queue) {m : Msg}
    (hm : m.mtype ≠ 1) : RequestsOk sys requested accepted (queue ++ [m]) :=
  { nodup := h.nodup
    fifo := by rw [ofType_snoc_other _ hm, h.fifo] }

theorem RequestsOk.receive (h : RequestsOk sys requested accepted queue) {t : Int} {m : Msg}
    {queue' : List Msg} (ht : 1 ≠ t) (htake : takeType Msg.mtype t queue = some (m, queue')) :
    RequestsOk sys requested accepted queue' :=
  { nodup := h.nodup
    fifo := by rw [takeType_other htake ht, h.fifo] }

theorem RequestsOk.accept (h : RequestsOk sys requested accepted queue) {m : Msg}
    {queue' : List Msg} (htake : takeType Msg.mtype 1 queue = some (m, queue')) :
    RequestsOk sys requested (accepted ++ [m]) queue' ∧ m ∉ accepted ∧
      exists c, m = sys.requestMsg c := by
  have hfifo := h.fifo
  rw [(takeType_self htake).2] at hfifo
  have hnodup := List.Nodup.map (f := sys.requestMsg) System.requestMsg_injective h.nodup
  have hmem : m ∈ requested.map sys.requestMsg := by
    rw [← hfifo]
    simp
  rw [← hfifo] at hnodup
  rcases List.mem_map.mp hmem with ⟨c, _, hc⟩
  refine ⟨⟨h.nodup, by simpa using hfifo⟩, ?_, c, hc.symm⟩
  intro hold
  exact (List.nodup_append.mp hnodup).2.2 m hold m (by simp) rfl

end Requests

/-!
## The replies
-/

section Replies

variable {client : Type} {sys : System client} {received : client -> List Msg}
  {accepted queue queue' : List Msg} {produced : List (Option Msg × Msg)} {server : Serving}

theorem RepliesOk.send (h : RepliesOk sys received accepted produced queue server) (c : client) :
    RepliesOk sys received accepted produced (queue ++ [sys.requestMsg c]) server :=
  { h with
    addressed := by
      intro m hm
      rcases List.mem_append.mp hm with hm | hm
      · exact h.addressed m hm
      · rw [List.mem_singleton.mp hm]
        exact Or.inl rfl
    delivered := by
      intro d
      rw [ofType_snoc_other]
      · exact h.delivered d
      · exact System.pid_ne_one.symm }

theorem RepliesOk.receive [DecidableEq client]
    (h : RepliesOk sys received accepted produced queue server) {c : client} {m : Msg}
    (htake : takeType Msg.mtype (sys.pid c).val queue = some (m, queue')) :
    RepliesOk sys (Function.update received c (received c ++ [m])) accepted produced queue'
      server :=
  { h with
    addressed := fun x hx => h.addressed x (mem_of_takeType htake x hx)
    delivered := by
      intro d
      have hd := h.delivered d
      rcases eq_or_ne d c with rfl | hne
      · rw [(takeType_self htake).2] at hd
        rw [Function.update_self, List.append_assoc]
        exact hd
      · rw [Function.update_of_ne hne, takeType_other htake]
        · exact hd
        · exact fun heq => hne (System.pid_val_inj heq) }

theorem owedTo_done (hserver : server.outgoing = none) (c : client) :
    owedTo sys accepted server c = [] := by
  unfold owedTo
  rw [outgoing_none hserver]
  split <;> rfl

theorem RepliesOk.accept (h : RepliesOk sys received accepted produced queue server)
    {server' : Serving} {c : client} (hserver : server.outgoing = none)
    (htake : takeType Msg.mtype 1 queue = some (sys.requestMsg c, queue'))
    (hnew : sys.requestMsg c ∉ accepted)
    (howed : (server'.owed MAXMESGDATA).map (Msg.mk (sys.pid c).val) = sys.replies c)
    (htype : server'.mesg.mesg_type = (sys.pid c).val) :
    RepliesOk sys received (accepted ++ [sys.requestMsg c]) produced queue' server' := by
  constructor
  · intro m hm
    exact h.addressed m (mem_of_takeType htake m hm)
  · intro d
    rw [takeType_other htake System.pid_ne_one]
    exact h.delivered d
  · intro d
    have hd := h.owed d
    rw [owedTo_done hserver, List.append_nil] at hd
    unfold owedTo
    rw [List.getLast?_concat, hd]
    rcases eq_or_ne c d with rfl | hne
    · rw [if_neg hnew, if_pos rfl, howed, if_pos (by simp)]
      rfl
    · have hreq : sys.requestMsg c ≠ sys.requestMsg d := fun heq =>
        hne (System.requestMsg_injective heq)
      rw [if_neg (fun heq => hreq (Option.some.inj heq)), List.append_nil]
      simp [hreq.symm]
  · intro _
    exact ⟨c, List.getLast?_concat, htype⟩

theorem producedFor_snoc (produced : List (Option Msg × Msg)) (r m : Msg) (o : Option Msg) :
    producedFor (produced ++ [(o, m)]) r =
      producedFor produced r ++ (if o = some r then [m] else []) := by
  unfold producedFor
  rw [ofType_append, ofType_single, List.map_append]
  split <;> rfl

theorem RepliesOk.reply (h : RepliesOk sys received accepted produced queue server)
    {server' : Serving} {m : Msg} (hm : server.outgoing = some m)
    (hserver' : server.afterSend MAXMESGDATA = some server') :
    RepliesOk sys received accepted (produced ++ [(accepted.getLast?, m)]) (queue ++ [m])
      server' ∧ m.mtype ≠ 1 := by
  rcases h.serving (by rw [hm]; simp) with ⟨c, hlast, htype⟩
  rcases afterSend_spec one_lt_MAXMESGDATA hm with ⟨srv, hsrv, howed, hmtype, htype'⟩
  cases hserver'.symm.trans hsrv
  rw [htype] at hmtype htype'
  have hmsg : Msg.mk (sys.pid c).val m.mtext = m := by
    rw [← hmtype]
  have hiff : forall d, accepted.getLast? = some (sys.requestMsg d) <-> c = d := by
    intro d
    rw [hlast]
    exact ⟨fun heq => System.requestMsg_injective (Option.some.inj heq), fun heq => by rw [heq]⟩
  refine ⟨?_, fun hone => System.pid_ne_one (hmtype.symm.trans hone)⟩
  constructor
  · intro x hx
    rcases List.mem_append.mp hx with hx | hx
    · exact h.addressed x hx
    · rw [List.mem_singleton.mp hx]
      exact Or.inr ⟨c, hmtype⟩
  · intro d
    rw [producedFor_snoc, ← h.delivered d]
    rcases eq_or_ne c d with rfl | hne
    · rw [if_pos hlast, ofType_snoc_self _ hmtype, List.append_assoc]
    · rw [if_neg (fun heq => hne ((hiff d).mp heq)), ofType_snoc_other]
      · simp
      · exact fun heq => hne (System.pid_val_inj (hmtype.symm.trans heq))
  · intro d
    rw [← h.owed d, producedFor_snoc]
    unfold owedTo
    rcases eq_or_ne c d with rfl | hne
    · rw [if_pos hlast, if_pos hlast, if_pos hlast, howed, List.map_cons, hmsg]
      simp
    · have hother : ¬ accepted.getLast? = some (sys.requestMsg d) := fun heq =>
        hne ((hiff d).mp heq)
      rw [if_neg hother, if_neg hother, if_neg hother, List.append_nil]
  · intro _
    exact ⟨c, hlast, htype'⟩

end Replies

/-!
# Runs
-/

section Runs

variable {client : Type} [DecidableEq client] {sys : System client} {h : History client}
  {s t : State client}

omit [DecidableEq client] in
theorem routed_init (hs : Init s) : Routed sys History.empty s := by
  constructor
  · rw [hs.queue]
    exact ⟨Nat.zero_le _, Nat.zero_le _⟩
  · intro c
    rcases hs.clients c with ⟨hpc, houtput⟩
    constructor <;> simp [hpc, houtput, History.empty]
  · constructor
    · exact List.nodup_nil
    · rw [hs.queue]
      rfl
  · constructor
    · rw [hs.queue]
      intro m hm
      cases hm
    · rw [hs.queue]
      intro c
      rfl
    · intro c
      rfl
    · rw [hs.server]
      intro hout
      exact absurd rfl hout

theorem clients_update {requested requested' : List client} {received : client -> List Msg}
    {clients : client -> Client} {c : client} {l : Client} {r : List Msg}
    (hclients : forall d, ClientOk sys d (clients d) (d ∈ requested) (received d))
    (hothers : forall d, d ≠ c -> (d ∈ requested' <-> d ∈ requested))
    (hc : ClientOk sys c l (c ∈ requested') r) (d : client) :
    ClientOk sys d (Function.update clients c l d) (d ∈ requested')
      (Function.update received c r d) := by
  rcases eq_or_ne d c with rfl | hne
  · rw [Function.update_self, Function.update_self]
    exact hc
  · rw [Function.update_of_ne hne, Function.update_of_ne hne]
    exact (hclients d).congr (hothers d hne)

theorem routed_step (hr : Routed sys h s) {a : Action client} {o : Event client}
    (hstep : step sys s a = some (t, o)) : Routed sys (h.observe o) t := by
  cases stepped_of_step hstep with
  | @build c mesg hpc hmesg =>
      rcases sys.request_spec (s.clients c).mesg c with ⟨mesg', hmesg', hsent⟩
      cases hmesg.symm.trans hmesg'
      have hc := (hr.clients c).build hpc hsent
      have hclients := clients_update hr.clients (fun _ _ => Iff.rfl) hc
      rw [Function.update_eq_self] at hclients
      exact { hr with clients := hclients }
  | @send c hpc hfits =>
      have hnew : c ∉ h.requested := (hr.clients c).unsent hpc
      rw [(hr.clients c).request hpc] at hfits ⊢
      have hc := ((hr.clients c).send hpc).congr
        (show c ∈ h.requested ++ [c] <-> True by simp)
      have hclients := clients_update hr.clients (fun d hne => by simp [hne]) hc
      rw [Function.update_eq_self] at hclients
      exact {
        room := hfits
        clients := hclients
        requests := hr.requests.send hnew
        replies := hr.replies.send c }
  | @receive c m queue hpc htake =>
      rw [(hr.clients c).asking hpc] at htake
      have hc := (hr.clients c).receive hpc (takeType_self htake).1
      exact {
        room := hr.room.sublist (takeType_sublist htake)
        clients := clients_update hr.clients (fun _ _ => Iff.rfl) hc
        requests := hr.requests.receive System.pid_ne_one.symm htake
        replies := hr.replies.receive htake }
  | accept hpc htake hserve =>
      rcases hr.requests.accept htake with ⟨hrequests, hnew, c, rfl⟩
      rcases sys.serve_spec s.server.mesg c with ⟨srv, hsrv, howed, htype⟩
      cases hserve.symm.trans hsrv
      exact {
        room := hr.room.sublist (takeType_sublist htake)
        clients := hr.clients
        requests := hrequests
        replies := hr.replies.accept (outgoing_of_done hpc) htake hnew howed htype }
  | reply hm hfits hserver =>
      rcases hr.replies.reply hm hserver with ⟨hreplies, htype⟩
      exact {
        room := hfits
        clients := hr.clients
        requests := hr.requests.reply htype
        replies := hreplies }

theorem routed_run {tr : List (Transition (State client) (Action client) (Event client))}
    (hrun : Run Init (step sys) tr s) :
    Routed sys (observed History.observe History.empty tr) s := by
  apply run_induction (I := fun tr s => Routed sys (observed History.observe History.empty tr) s)
    ?_ ?_ hrun
  · intro s hs
    exact routed_init hs
  · intro tr s a o t _ hr hstep
    rw [observed_snoc]
    exact routed_step hr hstep

theorem routed_reachable (hs : Reachable Init (step sys) s) : exists h, Routed sys h s := by
  rcases hs with ⟨tr, hrun⟩
  exact ⟨_, routed_run hrun⟩

end Runs

/-!
# The ends of the replies
-/

section Ends

variable {client : Type} {sys : System client} {c : client}

/-- The only empty reply is the last one if no line of the file begins with a zero byte. -/
theorem replies_ended (sys : System client) (c : client)
    (hlines : forall file, sys.files (sys.path c) = Except.ok file ->
      [] ∉ lineTexts MAXMESGDATA file) :
    exists front, sys.replies c = front ++ [⟨(sys.pid c).val, []⟩] ∧
      forall m, m ∈ front -> m.mtext ≠ [] := by
  have htexts : exists texts, replyTexts MAXMESGDATA sys.files (sys.requestMsg c).mtext.length
      (sys.path c) = texts ++ [[]] ∧ [] ∉ texts := by
    unfold replyTexts
    cases hfile : sys.files (sys.path c) with
    | ok file => exact ⟨_, rfl, hlines file hfile⟩
    | error text =>
        refine ⟨[errorText MAXMESGDATA (sys.requestMsg c).mtext.length (sys.path c) text], rfl, ?_⟩
        intro hnil
        refine errorText_ne_nil ?_ (List.mem_singleton.mp hnil).symm
        intro hpath
        have hid := idText_length_le (sys.id_lt c)
        have hlen : (sys.requestMsg c).mtext.length =
            (idText (sys.id c)).length + (sys.path c).length := List.length_append
        rw [hlen, hpath]
        unfold MAXMESGDATA
        simp only [List.length_nil]
        lia
  rcases htexts with ⟨texts, hreplies, hnil⟩
  refine ⟨texts.map (Msg.mk (sys.pid c).val), ?_, ?_⟩
  · unfold System.replies
    rw [hreplies, List.map_append]
    rfl
  · intro m hm
    rcases List.mem_map.mp hm with ⟨s, hs, rfl⟩
    exact fun h => hnil (h ▸ hs)

end Ends

/-!
# Routing
-/

section Routing

variable {client : Type} [DecidableEq client]

/-- What a client receives is what has been produced for its own request; a client that has
stopped has received all of it, with the empty message at the end. -/
structure Served (sys : System client) (h : History client) (s : State client) (c : client) :
    Prop where
  in_order : h.received c <+: producedFor h.produced (sys.requestMsg c)
  no_request : forall m, m ∈ h.received c -> forall d, m ≠ sys.requestMsg d
  no_other : forall m, m ∈ h.received c -> forall d, d ≠ c ->
    m ∉ producedFor h.produced (sys.requestMsg d)
  all : (s.clients c).pc = ClientPc.stopped ->
    h.received c = producedFor h.produced (sys.requestMsg c) ∧ h.received c = sys.replies c
  ended : (s.clients c).pc = ClientPc.stopped -> exists front m, h.received c = front ++ [m] ∧
    m.mtext = [] ∧ forall x, x ∈ front -> x.mtext ≠ []
  drained : (s.clients c).pc = ClientPc.stopped ->
    ofType Msg.mtype (sys.pid c).val s.queue = []

/-- Two clients with the process ids 7 and 8 that ask for the same file. -/
def twoClients (file : List UInt8) : System (Fin 2) :=
  { pid := fun c => ⟨c.val + 7, by lia, by have hc := c.isLt; lia⟩
    pid_injective := by
      intro c d h
      have hval := congrArg Pid.val h
      simp only [Pid.val] at hval
      apply Fin.ext
      lia
    one_lt_pid := by
      intro c
      show (1 : Int) < c.val + 7
      lia
    stdin := fun _ => [97, 10]
    files := fun _ => Except.ok file
    msg_qbytes := 16384 }

end Routing

end Cliserv
end Svmsg
end InterprocessComm
