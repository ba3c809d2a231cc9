import InterprocessComm.Svmsg.FileTransfer
import InterprocessComm.Svmsg.Mpxnq
import Mathlib.Data.List.Nodup

/-!
# Every client gets its replies

Each child owes its client the replies that it has not sent.  What it has sent is in the queue of
the client, in front of that what the client has received, until the client removes the queue.
-/

namespace InterprocessComm
namespace Svmsg
namespace Mpxnq

open Verification

/-!
# Histories
-/

/-- Who has sent its request, which requests the server has received and for which of them there
was no child, what each client has received, and what has been sent to each queue. -/
structure History (client : Type) where
  requested : List client
  accepted : List Msg
  refused : List Msg
  received : client -> List Msg
  sent : Int -> List Msg

namespace History

variable {client : Type} [DecidableEq client]

def empty : History client :=
  { requested := [], accepted := [], refused := [], received := fun _ => [], sent := fun _ => [] }

def observe (h : History client) : Event client -> History client
  | Event.silent => h
  | Event.requested c => { h with requested := h.requested ++ [c] }
  | Event.received c m =>
      { h with received := Function.update h.received c (h.received c ++ [m]) }
  | Event.accepted m forked =>
      { h with accepted := h.accepted ++ [m]
               refused := if forked then h.refused else h.refused ++ [m] }
  | Event.replied id m => { h with sent := Function.update h.sent id (h.sent id ++ [m]) }

end History

/-!
# The invariant
-/

section Invariant

variable {client : Type} (sys : System client)

/-- A client that has, or has not, sent its request and has received some messages. -/
structure ClientOk (c : client) (l : Client) (sent : Prop) (received : List Msg) : Prop where
  sent : sent <->
    l.pc = ClientPc.receive ∨ l.pc = ClientPc.remove ∨ l.pc = ClientPc.stopped
  request : l.pc = ClientPc.send -> l.mesg.sent = sys.requestMsg c
  asking : l.pc = ClientPc.receive -> l.mesg.mesg_type = 1
  reading : l.pc = ClientPc.receive -> forall m, m ∈ received -> m.mtext ≠ []
  ended : l.pc = ClientPc.remove ∨ l.pc = ClientPc.stopped ->
    exists front m, received = front ++ [m] ∧ m.mtext = [] ∧ forall x, x ∈ front -> x.mtext ≠ []
  output : l.output = (received.map Msg.mtext).flatten

/-- The queue of a client exists between its creation and its removal, and holds what has been
sent and not received. -/
structure QueueOk (pc : ClientPc) (queue : Option (List Msg)) (received sent : List Msg) : Prop
    where
  absent : queue = none <-> pc = ClientPc.create ∨ pc = ClientPc.stopped
  held : forall q, queue = some q -> received ++ q = sent
  earlier : received <+: sent

/-- The server receives the requests in the order in which they are sent. -/
structure RequestsOk (requested : List client) (accepted : List Msg) (queue : Option (List Msg)) :
    Prop where
  nodup : requested.Nodup
  fifo : exists q, queue = some q ∧ accepted ++ q = requested.map sys.requestMsg

/-- What a child owes to the client whose request it was made for. -/
structure ChildOk (accepted : List Msg) (sent : Int -> List Msg) (child : ChildProcess)
    (c : client) : Prop where
  writeid : child.writeid = sys.readid c
  accepted : sys.requestMsg c ∈ accepted
  owed : sent child.writeid ++ (child.srv.owed MAXMESGDATA).map (Msg.mk 1) = sys.replies c
  mesg_type : child.srv.mesg.mesg_type = 1

/-- There is one child for each request that the server has received, unless there was none. -/
structure ChildrenOk (accepted refused : List Msg) (sent : Int -> List Msg)
    (children : List ChildProcess) : Prop where
  nodup : (children.map ChildProcess.writeid).Nodup
  each : forall child, child ∈ children -> exists c, ChildOk sys accepted sent child c
  forked : forall c, sys.requestMsg c ∈ accepted ->
    (sys.readid c : Int) ∈ children.map ChildProcess.writeid ∨ sys.requestMsg c ∈ refused
  refused : forall c, sys.requestMsg c ∈ refused ->
    sys.requestMsg c ∈ accepted ∧ (sys.readid c : Int) ∉ children.map ChildProcess.writeid
  silent : forall id, id ∉ children.map ChildProcess.writeid -> sent id = []

structure Routed (h : History client) (s : State client) : Prop where
  clients : forall c, ClientOk sys c (s.clients c) (c ∈ h.requested) (h.received c)
  queues : forall c,
    QueueOk (s.clients c).pc (s.queues (sys.readid c)) (h.received c) (h.sent (sys.readid c))
  requests : RequestsOk sys h.requested h.accepted (s.queues sys.msqid)
  children : ChildrenOk sys h.accepted h.refused h.sent s.children

end Invariant

/-!
## The clients
-/

section Clients

variable {client : Type} {sys : System client} {c : client} {l : Client} {sent : Prop}
  {received : List Msg}

theorem ClientOk.congr {sent' : Prop} (hl : ClientOk sys c l sent received)
    (hsent : sent' <-> sent) : ClientOk sys c l sent' received :=
  { hl with sent := hsent.trans hl.sent }

theorem ClientOk.create (hl : ClientOk sys c l sent received) (hpc : l.pc = ClientPc.create) :
    ClientOk sys c { l with pc := ClientPc.start } sent received :=
  { sent := by simpa [hpc] using hl.sent
    request := fun h => by cases h
    asking := fun h => by cases h
    reading := fun h => by cases h
    ended := by simp
    output := hl.output }

theorem ClientOk.build (hl : ClientOk sys c l sent received) (hpc : l.pc = ClientPc.start)
    {mesg : Mesg} (hmesg : mesg.sent = sys.requestMsg c) :
    ClientOk sys c { l with mesg := mesg, pc := ClientPc.send } sent received :=
  { sent := by simpa [hpc] using hl.sent
    request := fun _ => hmesg
    asking := fun h => by cases h
    reading := fun h => by cases h
    ended := by simp
    output := hl.output }

theorem ClientOk.send (hl : ClientOk sys c l sent received) (hpc : l.pc = ClientPc.send)
    (hreceived : received = []) :
    ClientOk sys c { l with pc := ClientPc.receive } True received :=
  { sent := by simp
    request := fun h => by cases h
    asking := fun _ => congrArg Msg.mtype (hl.request hpc)
    reading := fun _ => by simp [hreceived]
    ended := by simp
    output := hl.output }

theorem ClientOk.remove (hl : ClientOk sys c l sent received) (hpc : l.pc = ClientPc.remove) :
    ClientOk sys c { l with pc := ClientPc.stopped } sent received :=
  { sent := by simpa [hpc] using hl.sent
    request := fun h => by cases h
    asking := fun h => by cases h
    reading := fun h => by cases h
    ended := fun _ => hl.ended (Or.inl hpc)
    output := hl.output }

theorem receives_pc (l : Client) (m : Msg) :
    (l.receives m).pc = if m.mtext = [] then ClientPc.remove else l.pc := by
  rcases m with ⟨t, text⟩
  unfold Client.receives Mesg.received
  cases text with
  | nil => simp
  | cons b text =>
      rw [if_pos (by simp), if_neg (by simp)]

theorem ClientOk.receive (hl : ClientOk sys c l sent received) (hpc : l.pc = ClientPc.receive)
    {m : Msg} (hm : m.mtype = 1) :
    ClientOk sys c (l.receives m) sent (received ++ [m]) := by
  have hsent := hl.sent
  have hreading := hl.reading hpc
  have houtput := hl.output
  rw [hpc] at hsent
  rcases m with ⟨t, text⟩
  unfold Client.receives
  cases text with
  | nil =>
      rw [if_neg (by simp [Mesg.received])]
      exact {
        sent := by simpa using hsent
        request := fun h => by cases h
        asking := fun h => by cases h
        reading := fun h => by cases h
        ended := fun _ => ⟨received, ⟨t, []⟩, rfl, rfl, hreading⟩
        output := by simpa using houtput }
  | cons b text =>
      have hlen : (l.mesg.received ⟨t, b :: text⟩).mesg_len > 0 := by
        show ((b :: text).length : Int) > 0
        rw [List.length_cons]
        lia
      have hread : readBytes (l.mesg.received ⟨t, b :: text⟩).mesg_data 0
          (l.mesg.received ⟨t, b :: text⟩).mesg_len.toNat = b :: text :=
        readBytes_writeBytes l.mesg.mesg_data 0 (b :: text)
      simp only [hlen, if_true, hread]
      exact {
        sent := by simpa [hpc] using hsent
        request := fun h => by simp [hpc] at h
        asking := fun _ => hm
        reading := by
          intro _ x hx
          rcases List.mem_append.mp hx with hx | hx
          · exact hreading x hx
          · rw [List.mem_singleton.mp hx]
            simp
        ended := by simp [hpc]
        output := by simp [houtput] }

end Clients

/-!
## The queues of the clients
-/

section Queues

variable {pc pc' : ClientPc} {queue : Option (List Msg)} {received sent : List Msg} {m : Msg}

theorem QueueOk.go (h : QueueOk pc queue received sent)
    (hpc : (pc' = ClientPc.create ∨ pc' = ClientPc.stopped) <->
      (pc = ClientPc.create ∨ pc = ClientPc.stopped)) : QueueOk pc' queue received sent :=
  { h with absent := h.absent.trans hpc.symm }

theorem QueueOk.create (h : QueueOk pc queue received sent) (hsent : sent = []) :
    QueueOk ClientPc.start (some []) received sent :=
  { absent := by simp
    held := by
      intro q hq
      cases hq
      have hnone : received = [] := List.prefix_nil.mp (hsent ▸ h.earlier)
      rw [hnone, hsent]
      rfl
    earlier := h.earlier }

theorem QueueOk.remove (h : QueueOk pc queue received sent) :
    QueueOk ClientPc.stopped none received sent :=
  { absent := by simp
    held := fun q hq => by cases hq
    earlier := h.earlier }

theorem QueueOk.receive {q : List Msg} (h : QueueOk pc (some (m :: q)) received sent)
    (hpc : pc' ≠ ClientPc.create ∧ pc' ≠ ClientPc.stopped) :
    QueueOk pc' (some q) (received ++ [m]) sent := by
  have hheld := h.held _ rfl
  have hsplit : (received ++ [m]) ++ q = sent := by
    rw [← hheld]
    simp
  constructor
  · simp [hpc.1, hpc.2]
  · intro q' hq'
    cases hq'
    exact hsplit
  · exact ⟨q, hsplit⟩

theorem QueueOk.reply {queue' : Option (List Msg)} (h : QueueOk pc queue received sent)
    (hqueue : queue' = queue.map (· ++ [m])) : QueueOk pc queue' received (sent ++ [m]) := by
  constructor
  · rw [hqueue, Option.map_eq_none_iff]
    exact h.absent
  · intro q' hq'
    rw [hqueue] at hq'
    rcases Option.map_eq_some_iff.mp hq' with ⟨q, hq, rfl⟩
    rw [← h.held q hq, List.append_assoc]
  · exact h.earlier.trans (List.prefix_append _ _)

theorem msgsnd_spec {qbytes : Nat} {queues queues' : Int -> Option (List Msg)} {id : Int}
    (hsend : msgsnd qbytes queues id m = some queues') :
    queues' id = (queues id).map (· ++ [m]) ∧
      forall id', id' ≠ id -> queues' id' = queues id' := by
  unfold msgsnd at hsend
  cases hqueue : queues id with
  | none =>
      rw [hqueue] at hsend
      cases hsend
      exact ⟨hqueue, fun _ _ => rfl⟩
  | some q =>
      rw [hqueue] at hsend
      simp only at hsend
      split at hsend
      · cases hsend
        exact ⟨Function.update_self .., fun _ hne => Function.update_of_ne hne ..⟩
      · cases hsend

end Queues

/-!
## The requests
-/

section Requests

variable {client : Type} {sys : System client} {requested : List client} {accepted : List Msg}
  {queue : Option (List Msg)}

theorem RequestsOk.send (h : RequestsOk sys requested accepted queue) {c : client}
    (hc : c ∉ requested) {queue' : Option (List Msg)}
    (hqueue : queue' = queue.map (· ++ [sys.requestMsg c])) :
    RequestsOk sys (requested ++ [c]) accepted queue' := by
  rcases h.fifo with ⟨q, rfl, hfifo⟩
  constructor
  · rw [← List.concat_eq_append]
    exact List.Nodup.concat hc h.nodup
  · refine ⟨q ++ [sys.requestMsg c], hqueue, ?_⟩
    rw [← List.append_assoc, hfifo, List.map_append]
    rfl

theorem RequestsOk.mtype {q : List Msg} (h : RequestsOk sys requested accepted (some q)) :
    forall m, m ∈ q -> m.mtype = 1 := by
  rcases h.fifo with ⟨q', hq', hfifo⟩
  cases hq'
  intro m hm
  have hmem : m ∈ requested.map sys.requestMsg := by
    rw [← hfifo]
    exact List.mem_append_right accepted hm
  rcases List.mem_map.mp hmem with ⟨c, _, rfl⟩
  rfl

theorem RequestsOk.accept {q q' : List Msg} {m : Msg}
    (h : RequestsOk sys requested accepted (some q))
    (htake : takeType Msg.mtype 1 q = some (m, q')) :
    RequestsOk sys requested (accepted ++ [m]) (some q') ∧ m ∉ accepted ∧
      exists c, m = sys.requestMsg c := by
  rw [takeType_all h.mtype] at htake
  rcases h.fifo with ⟨_, hq, hfifo⟩
  cases hq
  cases q with
  | nil => cases htake
  | cons first rest =>
      cases htake
      have hnodup := List.Nodup.map (f := sys.requestMsg) System.requestMsg_injective h.nodup
      have hmem : m ∈ requested.map sys.requestMsg := by
        rw [← hfifo]
        simp
      rw [← hfifo] at hnodup
      rcases List.mem_map.mp hmem with ⟨c, _, hc⟩
      refine ⟨⟨h.nodup, q', rfl, by simpa using hfifo⟩, ?_, c, hc.symm⟩
      intro hold
      exact (List.nodup_append.mp hnodup).2.2 m hold m (by simp) rfl

theorem RequestsOk.requested_of_accepted (h : RequestsOk sys requested accepted queue)
    {c : client} (hc : sys.requestMsg c ∈ accepted) : c ∈ requested := by
  rcases h.fifo with ⟨q, _, hfifo⟩
  have hmem : sys.requestMsg c ∈ requested.map sys.requestMsg := by
    rw [← hfifo]
    exact List.mem_append_left q hc
  rcases List.mem_map.mp hmem with ⟨d, hd, heq⟩
  rwa [← System.requestMsg_injective heq]

end Requests

/-!
## The children
-/

section Children

variable {client : Type} {sys : System client} {accepted refused : List Msg}
  {sent : Int -> List Msg} {children : List ChildProcess}

theorem ChildrenOk.no_child (h : ChildrenOk sys accepted refused sent children) {c : client}
    (hc : sys.requestMsg c ∉ accepted) :
    (sys.readid c : Int) ∉ children.map ChildProcess.writeid := by
  intro hmem
  rcases List.mem_map.mp hmem with ⟨child, hchild, hid⟩
  rcases h.each child hchild with ⟨d, hd⟩
  have hsame : d = c := System.readid_inj (hd.writeid.symm.trans hid)
  exact hc (hsame ▸ hd.accepted)

theorem ChildrenOk.fork (h : ChildrenOk sys accepted refused sent children) {c : client}
    {child : ChildProcess} (hnew : sys.requestMsg c ∉ accepted)
    (howed : (child.srv.owed MAXMESGDATA).map (Msg.mk 1) = sys.replies c)
    (htype : child.srv.mesg.mesg_type = 1) (hwriteid : child.writeid = sys.readid c) :
    ChildrenOk sys (accepted ++ [sys.requestMsg c]) refused sent (children ++ [child]) := by
  have hfresh : child.writeid ∉ children.map ChildProcess.writeid := by
    rw [hwriteid]
    exact h.no_child hnew
  constructor
  · rw [List.map_append, List.map_singleton, ← List.concat_eq_append]
    exact List.Nodup.concat hfresh h.nodup
  · intro x hx
    rcases List.mem_append.mp hx with hx | hx
    · rcases h.each x hx with ⟨d, hd⟩
      exact ⟨d, { hd with accepted := List.mem_append_left _ hd.accepted }⟩
    · cases List.mem_singleton.mp hx
      exact ⟨c, hwriteid, by simp, by rw [h.silent _ hfresh]; exact howed, htype⟩
  · intro d hd
    rw [List.map_append, List.mem_append]
    rcases List.mem_append.mp hd with hd | hd
    · rcases h.forked d hd with hmem | hmem
      · exact Or.inl (Or.inl hmem)
      · exact Or.inr hmem
    · have hsame : d = c := System.requestMsg_injective (List.mem_singleton.mp hd)
      exact Or.inl (Or.inr (by simp [hsame, hwriteid]))
  · intro d hd
    rcases h.refused d hd with ⟨hacc, hnone⟩
    refine ⟨List.mem_append_left _ hacc, ?_⟩
    rw [List.map_append, List.mem_append, not_or]
    refine ⟨hnone, ?_⟩
    intro hmem
    have hsame : d = c := System.readid_inj ((List.mem_singleton.mp hmem).trans hwriteid)
    exact hnew (hsame ▸ hacc)
  · intro id hid
    rw [List.map_append, List.mem_append, not_or] at hid
    exact h.silent id hid.1

theorem ChildrenOk.refuse (h : ChildrenOk sys accepted refused sent children) {c : client}
    (hnew : sys.requestMsg c ∉ accepted) :
    ChildrenOk sys (accepted ++ [sys.requestMsg c]) (refused ++ [sys.requestMsg c]) sent
      children := by
  constructor
  · exact h.nodup
  · intro x hx
    rcases h.each x hx with ⟨d, hd⟩
    exact ⟨d, { hd with accepted := List.mem_append_left _ hd.accepted }⟩
  · intro d hd
    rcases List.mem_append.mp hd with hd | hd
    · rcases h.forked d hd with hmem | hmem
      · exact Or.inl hmem
      · exact Or.inr (List.mem_append_left _ hmem)
    · exact Or.inr (List.mem_append_right _ hd)
  · intro d hd
    rcases List.mem_append.mp hd with hd | hd
    · rcases h.refused d hd with ⟨hacc, hnone⟩
      exact ⟨List.mem_append_left _ hacc, hnone⟩
    · have hsame : d = c := System.requestMsg_injective (List.mem_singleton.mp hd)
      exact ⟨List.mem_append_right _ hd, hsame ▸ h.no_child hnew⟩
  · exact h.silent

theorem mem_set_child {i : Nat} {child child' x : ChildProcess}
    (hnodup : (children.map ChildProcess.writeid).Nodup) (hchild : children[i]? = some child)
    (hx : x ∈ children.set i child') :
    x = child' ∨ x ∈ children ∧ x.writeid ≠ child.writeid := by
  rcases List.mem_iff_getElem?.mp hx with ⟨j, hj⟩
  rw [List.getElem?_set] at hj
  split at hj
  · split at hj
    · cases hj
      exact Or.inl rfl
    · cases hj
  · rename_i hne
    refine Or.inr ⟨List.mem_of_getElem? hj, ?_⟩
    intro hsame
    apply hne
    have hi : (children.map ChildProcess.writeid)[i]? = some child.writeid := by simp [hchild]
    have hj' : (children.map ChildProcess.writeid)[j]? = some child.writeid := by
      simp [hj, hsame]
    rcases List.getElem?_eq_some_iff.mp hi with ⟨hi, hiv⟩
    rcases List.getElem?_eq_some_iff.mp hj' with ⟨hj', hjv⟩
    exact (List.Nodup.getElem_inj_iff hnodup).mp (hiv.trans hjv.symm)

theorem map_writeid_set {i : Nat} {child : ChildProcess} (hchild : children[i]? = some child)
    (srv : Serving) :
    (children.set i { child with srv := srv }).map ChildProcess.writeid =
      children.map ChildProcess.writeid := by
  rw [List.map_set]
  have hi : (children.map ChildProcess.writeid)[i]? = some child.writeid := by simp [hchild]
  rcases List.getElem?_eq_some_iff.mp hi with ⟨hlt, hval⟩
  show (children.map ChildProcess.writeid).set i child.writeid = _
  rw [← hval, List.set_getElem_self]

theorem ChildrenOk.reply (h : ChildrenOk sys accepted refused sent children) {i : Nat}
    {child : ChildProcess} {m : Msg} {srv : Serving} (hchild : children[i]? = some child)
    (hm : child.srv.outgoing = some m) (hsrv : child.srv.afterSend MAXMESGDATA = some srv) :
    (exists c, child.writeid = sys.readid c ∧ sys.requestMsg c ∈ accepted) ∧
      ChildrenOk sys accepted refused
        (Function.update sent child.writeid (sent child.writeid ++ [m]))
        (children.set i { child with srv := srv }) := by
  rcases h.each child (List.mem_of_getElem? hchild) with ⟨c, hc⟩
  rcases afterSend_spec one_lt_MAXMESGDATA hm with ⟨srv', hsrv', howed, hmtype, htype⟩
  cases hsrv.symm.trans hsrv'
  have hmsg : Msg.mk 1 m.mtext = m := by
    rw [← hc.mesg_type, ← hmtype]
  refine ⟨⟨c, hc.writeid, hc.accepted⟩, ?_⟩
  constructor
  · rw [map_writeid_set hchild]
    exact h.nodup
  · intro x hx
    rcases mem_set_child h.nodup hchild hx with rfl | ⟨hold, hne⟩
    · refine ⟨c, hc.writeid, hc.accepted, ?_, htype.trans hc.mesg_type⟩
      have htotal := hc.owed
      rw [howed, List.map_cons, hmsg] at htotal
      rw [Function.update_self, List.append_assoc]
      exact htotal
    · rcases h.each x hold with ⟨d, hd⟩
      refine ⟨d, { hd with owed := ?_ }⟩
      rw [Function.update_of_ne hne]
      exact hd.owed
  · rw [map_writeid_set hchild]
    exact h.forked
  · rw [map_writeid_set hchild]
    exact h.refused
  · intro id hid
    rw [map_writeid_set hchild] at hid
    have hne : id ≠ child.writeid := by
      rintro rfl
      exact hid (List.mem_map.mpr ⟨child, List.mem_of_getElem? hchild, rfl⟩)
    rw [Function.update_of_ne hne]
    exact h.silent id hid

theorem ChildrenOk.sent_prefix (h : ChildrenOk sys accepted refused sent children) (c : client) :
    sent (sys.readid c) <+: sys.replies c := by
  by_cases hmem : (sys.readid c : Int) ∈ children.map ChildProcess.writeid
  · rcases List.mem_map.mp hmem with ⟨child, hchild, hid⟩
    rcases h.each child hchild with ⟨d, hd⟩
    have hsame : d = c := System.readid_inj (hd.writeid.symm.trans hid)
    subst hsame
    have howed := hd.owed
    rw [hid] at howed
    exact ⟨_, howed⟩
  · rw [h.silent _ hmem]
    exact List.nil_prefix

theorem ChildrenOk.sent_nil (h : ChildrenOk sys accepted refused sent children) {c : client}
    (hc : sys.requestMsg c ∉ accepted) : sent (sys.readid c) = [] :=
  h.silent _ (h.no_child hc)

end Children

/-!
# Runs
-/

section Runs

variable {client : Type} [DecidableEq client] {sys : System client} {h : History client}
  {s t : State client}

omit [DecidableEq client] in
theorem routed_init (hs : Init sys s) : Routed sys History.empty s := by
  constructor
  · intro c
    rcases hs.clients c with ⟨hpc, houtput⟩
    constructor <;> simp [hpc, houtput, History.empty]
  · intro c
    rw [hs.replies c, (hs.clients c).1]
    constructor <;> simp [History.empty]
  · rw [hs.requests]
    exact ⟨List.nodup_nil, [], rfl, rfl⟩
  · rw [hs.children]
    constructor <;> simp [History.empty]

theorem clients_update {requested requested' : List client} {received : client -> List Msg}
    {clients : client -> Client} {c : client} {l : Client} {r : List Msg}
    (hclients : forall d, ClientOk sys d (clients d) (d ∈ requested) (received d))
    (hothers : forall d, d ≠ c -> (d ∈ requested' <-> d ∈ requested))
    (hc : ClientOk sys c l (c ∈ requested') r) (d : client) :
    ClientOk sys d (Function.update clients c l d) (d ∈ requested')
      (Function.update received c r d) := by
  rcases eq_or_ne d c with rfl | hne
  · rw [Function.update_self, Function.update_self]
    exact hc
  · rw [Function.update_of_ne hne, Function.update_of_ne hne]
    exact (hclients d).congr (hothers d hne)

theorem queues_update {clients : client -> Client} {queues : Int -> Option (List Msg)}
    {received : client -> List Msg} {sent : Int -> List Msg} {c : client} {r : List Msg}
    (queues' : Int -> Option (List Msg)) (l : Client)
    (hqueues : forall d,
      QueueOk (clients d).pc (queues (sys.readid d)) (received d) (sent (sys.readid d)))
    (hothers : forall d, d ≠ c -> queues' (sys.readid d) = queues (sys.readid d))
    (hc : QueueOk l.pc (queues' (sys.readid c)) r (sent (sys.readid c))) (d : client) :
    QueueOk (Function.update clients c l d).pc (queues' (sys.readid d))
      (Function.update received c r d) (sent (sys.readid d)) := by
  rcases eq_or_ne d c with rfl | hne
  · rw [Function.update_self, Function.update_self]
    exact hc
  · rw [Function.update_of_ne hne, Function.update_of_ne hne, hothers d hne]
    exact hqueues d

omit [DecidableEq client] in
theorem readid_ne_of_ne {c d : client} (h : d ≠ c) : (sys.readid d : Int) ≠ sys.readid c :=
  fun heq => h (System.readid_inj heq)

omit [DecidableEq client] in
theorem Routed.reply_mtype (hr : Routed sys h s) {c : client} {q : List Msg}
    (hqueue : s.queues (sys.readid c) = some q) : forall m, m ∈ q -> m.mtype = 1 := by
  intro m hm
  have hsent : m ∈ h.sent (sys.readid c) := by
    rw [← (hr.queues c).held q hqueue]
    exact List.mem_append_right _ hm
  rcases List.mem_map.mp ((hr.children.sent_prefix c).subset hsent) with ⟨text, _, rfl⟩
  rfl

theorem routed_step (hr : Routed sys h s) {a : Action client} {o : Event client}
    (hstep : step sys s a = some (t, o)) : Routed sys (h.observe o) t := by
  cases stepped_of_step hstep with
  | @create c hpc =>
      have hunsent : c ∉ h.requested := by
        intro hsent
        simpa [hpc] using (hr.clients c).sent.mp hsent
      have hnone := hr.children.sent_nil fun hacc =>
        hunsent (hr.requests.requested_of_accepted hacc)
      have hclients := clients_update hr.clients (fun _ _ => Iff.rfl) ((hr.clients c).create hpc)
      have hqueues := queues_update (Function.update s.queues (sys.readid c) (some []))
        { s.clients c with pc := ClientPc.start } hr.queues
        (fun d hne => Function.update_of_ne (readid_ne_of_ne hne) ..)
        (by rw [Function.update_self]; exact (hr.queues c).create hnone)
      rw [Function.update_eq_self] at hclients hqueues
      exact {
        clients := hclients
        queues := hqueues
        requests := by
          show RequestsOk sys h.requested h.accepted (Function.update s.queues _ _ sys.msqid)
          rw [Function.update_of_ne (sys.readid_ne c).symm]
          exact hr.requests
        children := hr.children }
  | @build c mesg hpc hmesg =>
      rcases sys.request_spec (s.clients c).mesg c with ⟨mesg', hmesg', hsent⟩
      cases hmesg.symm.trans hmesg'
      have hclients := clients_update hr.clients (fun _ _ => Iff.rfl)
        ((hr.clients c).build hpc hsent)
      have hqueues := queues_update s.queues
        { s.clients c with mesg := mesg, pc := ClientPc.send } hr.queues (fun _ _ => rfl)
        ((hr.queues c).go (by simp [hpc]))
      rw [Function.update_eq_self] at hclients hqueues
      exact { hr with clients := hclients, queues := hqueues }
  | @send c queues hpc hsend =>
      have hunsent : c ∉ h.requested := by
        intro hsent
        simpa [hpc] using (hr.clients c).sent.mp hsent
      have hnone := hr.children.sent_nil fun hacc =>
        hunsent (hr.requests.requested_of_accepted hacc)
      rw [(hr.clients c).request hpc] at hsend
      rcases msgsnd_spec hsend with ⟨hqueue, hothers⟩
      have hreceived : h.received c = [] := by
        have hearlier := (hr.queues c).earlier
        rw [hnone] at hearlier
        exact List.prefix_nil.mp hearlier
      have hc := ((hr.clients c).send hpc hreceived).congr
        (show c ∈ h.requested ++ [c] <-> True by simp)
      have hclients := clients_update hr.clients (fun d hne => by simp [hne]) hc
      have hqueues := queues_update queues
        { s.clients c with pc := ClientPc.receive } hr.queues
        (fun d _ => hothers _ (sys.readid_ne d))
        (by rw [hothers _ (sys.readid_ne c)]; exact (hr.queues c).go (by simp [hpc]))
      rw [Function.update_eq_self] at hclients hqueues
      exact {
        clients := hclients
        queues := hqueues
        requests := hr.requests.send hunsent hqueue
        children := hr.children }
  | @receiveNone c hpc hqueue =>
      rcases (hr.queues c).absent.mp hqueue with hplace | hplace
      · cases hpc.symm.trans hplace
      · cases hpc.symm.trans hplace
  | @receive c m q q' hpc hqueue htake =>
      rw [(hr.clients c).asking hpc, takeType_all (hr.reply_mtype hqueue)] at htake
      cases q with
      | nil => cases htake
      | cons first rest =>
          cases htake
          have hold := hr.queues c
          rw [hqueue] at hold
          have hplace : ((s.clients c).receives m).pc ≠ ClientPc.create ∧
              ((s.clients c).receives m).pc ≠ ClientPc.stopped := by
            rw [receives_pc, hpc]
            split <;> simp
          have hclients := clients_update hr.clients (fun _ _ => Iff.rfl)
            ((hr.clients c).receive hpc (hr.reply_mtype hqueue m (by simp)))
          have hqueues := queues_update
            (Function.update s.queues (sys.readid c) (some q')) ((s.clients c).receives m) hr.queues
            (fun d hne => Function.update_of_ne (readid_ne_of_ne hne) ..)
            (by rw [Function.update_self]; exact hold.receive hplace)
          exact {
            clients := hclients
            queues := hqueues
            requests := by
              show RequestsOk sys h.requested h.accepted (Function.update s.queues _ _ sys.msqid)
              rw [Function.update_of_ne (sys.readid_ne c).symm]
              exact hr.requests
            children := hr.children }
  | @remove c hpc =>
      have hclients := clients_update hr.clients (fun _ _ => Iff.rfl) ((hr.clients c).remove hpc)
      have hqueues := queues_update (Function.update s.queues (sys.readid c) none)
        { s.clients c with pc := ClientPc.stopped } hr.queues
        (fun d hne => Function.update_of_ne (readid_ne_of_ne hne) ..)
        (by rw [Function.update_self]; exact (hr.queues c).remove)
      rw [Function.update_eq_self] at hclients hqueues
      exact {
        clients := hclients
        queues := hqueues
        requests := by
          show RequestsOk sys h.requested h.accepted (Function.update s.queues _ _ sys.msqid)
          rw [Function.update_of_ne (sys.readid_ne c).symm]
          exact hr.requests
        children := hr.children }
  | @accept m q q' mesg child forked hqueue htake haccept =>
      have hold := hr.requests
      rw [hqueue] at hold
      rcases hold.accept htake with ⟨hrequests, hnew, c, rfl⟩
      rcases sys.accept_spec s.mesg c with ⟨mesg', child', haccept', howed, htype, hwriteid⟩
      cases haccept.symm.trans haccept'
      refine {
        clients := hr.clients
        queues := ?_
        requests := ?_
        children := ?_ }
      · intro d
        show QueueOk _ (Function.update s.queues sys.msqid (some q') (sys.readid d)) _ _
        rw [Function.update_of_ne (sys.readid_ne d)]
        exact hr.queues d
      · show RequestsOk sys h.requested _ (Function.update s.queues sys.msqid (some q') sys.msqid)
        rw [Function.update_self]
        exact hrequests
      · cases forked with
        | true => exact hr.children.fork hnew howed htype hwriteid
        | false => exact hr.children.refuse hnew
  | @reply i child m queues srv hchild hm hsend hsrv =>
      rcases hr.children.reply hchild hm hsrv with ⟨⟨c, hwriteid, _⟩, hchildren⟩
      rcases msgsnd_spec hsend with ⟨hqueue, hothers⟩
      refine {
        clients := hr.clients
        queues := ?_
        requests := ?_
        children := hchildren }
      · intro d
        show QueueOk _ (queues (sys.readid d)) _
          (Function.update h.sent child.writeid (h.sent child.writeid ++ [m]) (sys.readid d))
        rcases eq_or_ne d c with rfl | hne
        · rw [← hwriteid, Function.update_self]
          have hold := hr.queues d
          rw [← hwriteid] at hold
          exact hold.reply hqueue
        · have hother : (sys.readid d : Int) ≠ child.writeid := by
            rw [hwriteid]
            exact readid_ne_of_ne hne
          rw [Function.update_of_ne hother, hothers _ hother]
          exact hr.queues d
      · show RequestsOk sys h.requested h.accepted (queues sys.msqid)
        rw [hothers _ (by rw [hwriteid]; exact (sys.readid_ne c).symm)]
        exact hr.requests

theorem routed_run {tr : List (Transition (State client) (Action client) (Event client))}
    (hrun : Run (Init sys) (step sys) tr s) :
    Routed sys (observed History.observe History.empty tr) s := by
  apply run_induction (I := fun tr s => Routed sys (observed History.observe History.empty tr) s)
    ?_ ?_ hrun
  · intro s hs
    exact routed_init hs
  · intro tr s a o t _ hr hstep
    rw [observed_snoc]
    exact routed_step hr hstep

omit [DecidableEq client] in
theorem Routed.received_prefix (hr : Routed sys h s) (c : client) :
    h.received c <+: sys.replies c :=
  (hr.queues c).earlier.trans (hr.children.sent_prefix c)

omit [DecidableEq client] in
/-- Before it removes its queue a client has received no empty message. -/
theorem Routed.received_ne_nil (hr : Routed sys h s) {c : client}
    (hremove : (s.clients c).pc ≠ ClientPc.remove)
    (hstopped : (s.clients c).pc ≠ ClientPc.stopped) :
    forall m, m ∈ h.received c -> m.mtext ≠ [] := by
  by_cases hpc : (s.clients c).pc = ClientPc.receive
  · exact (hr.clients c).reading hpc
  · have hunsent : c ∉ h.requested := by
      intro hsent
      rcases (hr.clients c).sent.mp hsent with hplace | hplace | hplace
      · exact hpc hplace
      · exact hremove hplace
      · exact hstopped hplace
    have hnone := hr.children.sent_nil fun hacc =>
      hunsent (hr.requests.requested_of_accepted hacc)
    have hearlier := (hr.queues c).earlier
    rw [hnone] at hearlier
    rw [List.prefix_nil.mp hearlier]
    intro m hm
    cases hm

end Runs

/-!
# Delivery
-/

section Delivery

variable {client : Type} [DecidableEq client]

/-- What a client has written is the beginning of the replies to it up to the first empty one, and
all of it at the end, as if it had been alone with the server. -/
structure Delivered (sys : System client) (s : State client) (c : client) : Prop where
  written : (s.clients c).output <+: readUntilEmpty (sys.texts c)
  addressed : forall q, s.queues (sys.readid c) = some q -> forall m, m ∈ q -> m ∈ sys.replies c
  all : (s.clients c).pc = ClientPc.stopped -> (s.clients c).output = readUntilEmpty (sys.texts c)
  alone : (s.clients c).pc = ClientPc.stopped -> forall file,
    sys.files (sys.path c) = Except.ok file -> forall mesg mesg' fuel, file.length + 2 ≤ fuel ->
      transfer sys.files mesg mesg' (sys.readid c) (sys.stdin c) fuel =
        some (s.clients c).output
  exact : (s.clients c).pc = ClientPc.stopped -> forall file,
    sys.files (sys.path c) = Except.ok file -> ((s.clients c).output = file <-> 0 ∉ file)

omit [DecidableEq client] in
theorem texts_of_file {sys : System client} {c : client} {file : List UInt8}
    (hfile : sys.files (sys.path c) = Except.ok file) :
    sys.texts c = lineTexts MAXMESGDATA file ++ [[]] := by
  unfold System.texts replyTexts
  rw [hfile]

/-- Whatever the order in which clients, server and children go on, each client receives the
replies to its own request. -/
theorem replies_delivered (sys : System client)
    {tr : List (Transition (State client) (Action client) (Event client))} {s : State client}
    (hrun : Run (Init sys) (step sys) tr s) (c : client) : Delivered sys s c := by
  have hr := routed_run hrun
  generalize observed History.observe History.empty tr = h at hr
  rcases hr.received_prefix c with ⟨rest, hreplies⟩
  have htexts : sys.texts c = (h.received c).map Msg.mtext ++ rest.map Msg.mtext := by
    rw [← List.map_append, hreplies]
    simp [System.replies, Function.comp_def]
  -- the empty message that has ended the loop is the first one
  have hended : ((s.clients c).pc = ClientPc.remove ∨ (s.clients c).pc = ClientPc.stopped) ->
      (s.clients c).output = readUntilEmpty (sys.texts c) := by
    intro hpc
    rcases (hr.clients c).ended hpc with ⟨front, m, hreceived, hempty, hfront⟩
    have hlines : forall line, line ∈ front.map Msg.mtext -> line ≠ [] := by
      intro line hline
      rcases List.mem_map.mp hline with ⟨x, hx, rfl⟩
      exact hfront x hx
    rw [(hr.clients c).output, htexts, hreceived]
    simp only [List.map_append, List.map_cons, List.map_nil, hempty, List.append_assoc]
    rw [readUntilEmpty_append hlines]
    simp [readUntilEmpty_cons]
  have hall : (s.clients c).pc = ClientPc.stopped ->
      (s.clients c).output = readUntilEmpty (sys.texts c) := fun hpc => hended (Or.inr hpc)
  constructor
  · by_cases hpc : (s.clients c).pc = ClientPc.remove ∨ (s.clients c).pc = ClientPc.stopped
    · exact ⟨[], by rw [List.append_nil, hended hpc]⟩
    · rw [not_or] at hpc
      have hlines : forall line, line ∈ (h.received c).map Msg.mtext -> line ≠ [] := by
        intro line hline
        rcases List.mem_map.mp hline with ⟨x, hx, rfl⟩
        exact hr.received_ne_nil hpc.1 hpc.2 x hx
      rw [(hr.clients c).output, htexts, readUntilEmpty_append hlines]
      exact List.prefix_append _ _
  · intro q hqueue m hm
    apply (hr.children.sent_prefix c).subset
    rw [← (hr.queues c).held q hqueue]
    exact List.mem_append_right _ hm
  · exact hall
  · intro hpc file hfile mesg mesg' fuel hfuel
    rw [transfer_spec mesg mesg' (sys.readid_lt c) hfile hfuel, hall hpc, texts_of_file hfile]
  · intro hpc file hfile
    rw [hall hpc, texts_of_file hfile]
    exact readUntilEmpty_lineTexts_iff one_lt_MAXMESGDATA

/-- Two clients whose queues have the identifiers 1 and 2. -/
def twoClients (files : Files) : System (Fin 2) :=
  { msqid := 0
    readid := fun c => c.val + 1
    readid_injective := by
      intro c d h
      apply Fin.ext
      lia
    readid_ne := by
      intro c
      lia
    readid_lt := by
      intro c
      have hc := c.isLt
      lia
    stdin := fun _ => [97, 10]
    files := files
    msg_qbytes := 16384 }

/-- The second client removes its queue in the middle of the replies, whose second line begins
with a zero byte, and the children send by turns. -/
theorem replies_delivered_twoClients :
    exists s : State (Fin 2), (s.clients 0).pc = ClientPc.receive ∧
      (s.clients 0).output <+: [97, 10] ∧ (s.clients 1).pc = ClientPc.stopped ∧
      (s.clients 1).output = [97, 10] ∧ (s.clients 1).output ≠ [97, 10, 0, 10, 98] ∧
      forall mesg mesg', transfer (fun _ => Except.ok [97, 10, 0, 10, 98]) mesg mesg' 2 [97, 10] 7 =
        some (s.clients 1).output := by
  have hreplay : exists (tr : List (Transition (State (Fin 2)) (Action (Fin 2)) (Event (Fin 2))))
      (s : State (Fin 2)),
      Run (Init (twoClients fun _ => Except.ok [97, 10, 0, 10, 98]))
          (step (twoClients fun _ => Except.ok [97, 10, 0, 10, 98])) tr s ∧
        decide ((s.clients 0).pc = ClientPc.receive ∧
          (s.clients 1).pc = ClientPc.stopped) = true :=
    run_of_replay
      [Action.create 0, Action.create 1, Action.build 1, Action.build 0, Action.send 1,
        Action.send 0, Action.accept true, Action.accept true, Action.reply 0, Action.reply 1,
        Action.reply 0, Action.receive 1, Action.receive 0, Action.receive 1, Action.remove 1,
        Action.reply 0, Action.reply 0]
      (init_firstState _) (by decide +kernel)
  rcases hreplay with ⟨tr, s, hrun, htest⟩
  rcases of_decide_eq_true htest with ⟨hreceive, hstopped⟩
  have hfirst := replies_delivered _ hrun 0
  have hsecond := replies_delivered _ hrun 1
  have hexact := hsecond.exact hstopped _ rfl
  refine ⟨s, hreceive, hfirst.written, hstopped, hsecond.all hstopped, ?_,
    fun mesg mesg' => hsecond.alone hstopped _ rfl mesg mesg' 7 (by decide)⟩
  rw [ne_eq, hexact]
  decide

end Delivery

end Mpxnq
end Svmsg
end InterprocessComm
