import InterprocessComm.Svmsg.Cliserv
import InterprocessComm.Svmsg.Encoding

/-!
# Clients with queues of their own

Any number of clients and one server.  The requests arrive on the well-known queue; a client
creates a queue for its replies, whose identifier is in its request, and removes it at the end.
The server makes a child for each request, and the children send side by side.
-/

namespace InterprocessComm
namespace Svmsg
namespace Mpxnq

open Verification

/-- The clients with the identifiers that their queues get and the lines that they read, the
well-known queue, the files, and the limit of a queue. -/
structure System (client : Type) where
  msqid : Int
  readid : client -> Nat
  readid_injective : Function.Injective readid
  readid_ne : forall c, (readid c : Int) ≠ msqid
  readid_lt : forall c, readid c < 2 ^ 31
  stdin : client -> List UInt8
  files : Files
  msg_qbytes : Nat

inductive ClientPc where
  | create
  | start
  | send
  | receive
  | remove
  | stopped
deriving DecidableEq

structure Client where
  mesg : Mesg
  pc : ClientPc
  output : List UInt8

structure ChildProcess where
  srv : Serving
  writeid : Int

/-- The queues that exist, the server's structure, and the processes. -/
structure State (client : Type) where
  queues : Int -> Option (List Msg)
  mesg : Mesg
  children : List ChildProcess
  clients : client -> Client

/-!
# Steps
-/

/-- `msgsnd` waits while the message does not fit, and fails without the queue. -/
def msgsnd (qbytes : Nat) (queues : Int -> Option (List Msg)) (id : Int) (m : Msg) :
    Option (Int -> Option (List Msg)) :=
  match queues id with
  | none => some queues
  | some q =>
      if Cliserv.Fits qbytes (q ++ [m]) then
        some (Function.update queues id (some (q ++ [m])))
      else
        none

def Client.receives (l : Client) (m : Msg) : Client :=
  let mesg := l.mesg.received m
  if mesg.mesg_len > 0 then
    { l with mesg := mesg,
             output := l.output ++ readBytes mesg.mesg_data 0 mesg.mesg_len.toNat }
  else
    { l with mesg := mesg, pc := ClientPc.remove }

def accept (files : Files) (mesg : Mesg) (m : Msg) : Option (Mesg × Option ChildProcess) :=
  let mesg := mesg.received m
  if mesg.mesg_len = 0 then
    some (mesg, none)
  else
    (parseRequest MAXMESGDATA mesg mesg.mesg_len).bind fun parsed =>
      match parsed with
      | Request.bogus mesg => some (mesg, none)
      | Request.named mesg id ptr =>
          (serveFile MAXMESGDATA files mesg ptr m.mtext.length).map fun srv =>
            (mesg, some ⟨srv, toInt id⟩)

theorem accept_serve (files : Files) (mesg : Mesg) (m : Msg) :
    (accept files mesg m).map (fun r => r.2.map fun child => (child.srv, child.writeid)) =
      serve files mesg m := by
  simp only [accept, serve]
  split
  · rfl
  · cases parseRequest MAXMESGDATA (mesg.received m) (mesg.received m).mesg_len with
    | none => rfl
    | some parsed =>
        cases parsed with
        | bogus mesg' => rfl
        | named mesg' id ptr =>
            simp only [Option.bind_some]
            cases serveFile MAXMESGDATA files mesg' ptr m.mtext.length with
            | none => rfl
            | some srv => rfl

inductive Action (client : Type) where
  | create (c : client)
  | build (c : client)
  | send (c : client)
  | receive (c : client)
  | remove (c : client)
  | accept (forked : Bool)
  | reply (i : Nat)

inductive Event (client : Type) where
  | silent
  | requested (c : client)
  | received (c : client) (m : Msg)
  | accepted (m : Msg) (forked : Bool)
  | replied (id : Int) (m : Msg)

section Step

variable {client : Type} [DecidableEq client]

def State.withClient (s : State client) (c : client) (l : Client) : State client :=
  { s with clients := Function.update s.clients c l }

section WithClient

variable (s : State client) {c d : client} (l : Client)

@[simp] theorem withClient_queues : (s.withClient c l).queues = s.queues := rfl

@[simp] theorem withClient_children : (s.withClient c l).children = s.children := rfl

@[simp] theorem withClient_self : (s.withClient c l).clients c = l :=
  Function.update_self ..

@[simp] theorem withClient_of_ne (h : d ≠ c) : (s.withClient c l).clients d = s.clients d :=
  Function.update_of_ne h ..

end WithClient

/-- `msgrcv` waits while there is no message of the type, and fails without the queue. -/
def step (sys : System client) (s : State client) :
    Action client -> Option (State client × Event client)
  | Action.create c =>
      match (s.clients c).pc with
      | ClientPc.create =>
          some ({ s.withClient c { s.clients c with pc := ClientPc.start } with
                    queues := Function.update s.queues (sys.readid c) (some []) }, Event.silent)
      | _ => none
  | Action.build c =>
      match (s.clients c).pc with
      | ClientPc.start =>
          (request (s.clients c).mesg (sys.readid c) (sys.stdin c)).map fun mesg =>
            (s.withClient c { s.clients c with mesg := mesg, pc := ClientPc.send }, Event.silent)
      | _ => none
  | Action.send c =>
      match (s.clients c).pc with
      | ClientPc.send =>
          (msgsnd sys.msg_qbytes s.queues sys.msqid (s.clients c).mesg.sent).map fun queues =>
            ({ s.withClient c { s.clients c with pc := ClientPc.receive } with queues := queues },
              Event.requested c)
      | _ => none
  | Action.receive c =>
      match (s.clients c).pc with
      | ClientPc.receive =>
          match s.queues (sys.readid c) with
          | none =>
              let mesg := { (s.clients c).mesg with mesg_len := -1 }
              some (s.withClient c { s.clients c with mesg := mesg, pc := ClientPc.remove },
                Event.silent)
          | some q =>
              (takeType Msg.mtype (s.clients c).mesg.mesg_type q).map fun r =>
                ({ s.withClient c ((s.clients c).receives r.1) with
                    queues := Function.update s.queues (sys.readid c) (some r.2) },
                  Event.received c r.1)
      | _ => none
  | Action.remove c =>
      match (s.clients c).pc with
      | ClientPc.remove =>
          some ({ s.withClient c { s.clients c with pc := ClientPc.stopped } with
                    queues := Function.update s.queues (sys.readid c) none }, Event.silent)
      | _ => none
  | Action.accept forked =>
      (s.queues sys.msqid).bind fun q =>
        (takeType Msg.mtype 1 q).bind fun r =>
          (accept sys.files s.mesg r.1).map fun done =>
            ({ s with
                queues := Function.update s.queues sys.msqid (some r.2), mesg := done.1
                children := if forked then s.children ++ done.2.toList else s.children },
              Event.accepted r.1 forked)
  | Action.reply i =>
      s.children[i]?.bind fun child =>
        child.srv.outgoing.bind fun m =>
          (msgsnd sys.msg_qbytes s.queues child.writeid m).bind fun queues =>
            (child.srv.afterSend MAXMESGDATA).map fun srv =>
              ({ s with queues := queues, children := s.children.set i { child with srv := srv } },
                Event.replied child.writeid m)

inductive Stepped (sys : System client) (s : State client) :
    Event client -> State client -> Prop where
  | create {c : client} (hpc : (s.clients c).pc = ClientPc.create) :
      Stepped sys s Event.silent
        { s.withClient c { s.clients c with pc := ClientPc.start } with
          queues := Function.update s.queues (sys.readid c) (some []) }
  | build {c : client} {mesg : Mesg} (hpc : (s.clients c).pc = ClientPc.start)
      (hmesg : request (s.clients c).mesg (sys.readid c) (sys.stdin c) = some mesg) :
      Stepped sys s Event.silent
        (s.withClient c { s.clients c with mesg := mesg, pc := ClientPc.send })
  | send {c : client} {queues : Int -> Option (List Msg)}
      (hpc : (s.clients c).pc = ClientPc.send)
      (hsend : msgsnd sys.msg_qbytes s.queues sys.msqid (s.clients c).mesg.sent = some queues) :
      Stepped sys s (Event.requested c)
        { s.withClient c { s.clients c with pc := ClientPc.receive } with queues := queues }
  | receiveNone {c : client} (hpc : (s.clients c).pc = ClientPc.receive)
      (hqueue : s.queues (sys.readid c) = none) :
      Stepped sys s Event.silent
        (s.withClient c { s.clients c with mesg := { (s.clients c).mesg with mesg_len := -1 },
                                           pc := ClientPc.remove })
  | receive {c : client} {m : Msg} {q q' : List Msg}
      (hpc : (s.clients c).pc = ClientPc.receive) (hqueue : s.queues (sys.readid c) = some q)
      (htake : takeType Msg.mtype (s.clients c).mesg.mesg_type q = some (m, q')) :
      Stepped sys s (Event.received c m)
        { s.withClient c ((s.clients c).receives m) with
          queues := Function.update s.queues (sys.readid c) (some q') }
  | remove {c : client} (hpc : (s.clients c).pc = ClientPc.remove) :
      Stepped sys s Event.silent
        { s.withClient c { s.clients c with pc := ClientPc.stopped } with
          queues := Function.update s.queues (sys.readid c) none }
  | accept {m : Msg} {q q' : List Msg} {mesg : Mesg} {child : Option ChildProcess} (forked : Bool)
      (hqueue : s.queues sys.msqid = some q) (htake : takeType Msg.mtype 1 q = some (m, q'))
      (haccept : accept sys.files s.mesg m = some (mesg, child)) :
      Stepped sys s (Event.accepted m forked)
        { s with
          queues := Function.update s.queues sys.msqid (some q'), mesg := mesg
          children := if forked then s.children ++ child.toList else s.children }
  | reply {i : Nat} {child : ChildProcess} {m : Msg} {queues : Int -> Option (List Msg)}
      {srv : Serving}
      (hchild : s.children[i]? = some child) (hm : child.srv.outgoing = some m)
      (hsend : msgsnd sys.msg_qbytes s.queues child.writeid m = some queues)
      (hsrv : child.srv.afterSend MAXMESGDATA = some srv) :
      Stepped sys s (Event.replied child.writeid m)
        { s with queues := queues, children := s.children.set i { child with srv := srv } }

theorem stepped_of_step {sys : System client} {s t : State client} {a : Action client}
    {o : Event client} (hstep : step sys s a = some (t, o)) : Stepped sys s o t := by
  cases a with
  | create c =>
      simp only [step] at hstep
      split at hstep
      · rename_i hpc
        cases hstep
        exact Stepped.create hpc
      · cases hstep
  | build c =>
      simp only [step] at hstep
      split at hstep
      · rename_i hpc
        rcases Option.map_eq_some_iff.mp hstep with ⟨mesg, hmesg, hdone⟩
        cases hdone
        exact Stepped.build hpc hmesg
      · cases hstep
  | send c =>
      simp only [step] at hstep
      split at hstep
      · rename_i hpc
        rcases Option.map_eq_some_iff.mp hstep with ⟨queues, hsend, hdone⟩
        cases hdone
        exact Stepped.send hpc hsend
      · cases hstep
  | receive c =>
      simp only [step] at hstep
      split at hstep
      · rename_i hpc
        split at hstep
        · rename_i hqueue
          cases hstep
          exact Stepped.receiveNone hpc hqueue
        · rename_i q hqueue
          rcases Option.map_eq_some_iff.mp hstep with ⟨⟨m, q'⟩, htake, hdone⟩
          cases hdone
          exact Stepped.receive hpc hqueue htake
      · cases hstep
  | remove c =>
      simp only [step] at hstep
      split at hstep
      · rename_i hpc
        cases hstep
        exact Stepped.remove hpc
      · cases hstep
  | accept forked =>
      rcases Option.bind_eq_some_iff.mp hstep with ⟨q, hqueue, hrest⟩
      rcases Option.bind_eq_some_iff.mp hrest with ⟨⟨m, q'⟩, htake, hlast⟩
      rcases Option.map_eq_some_iff.mp hlast with ⟨⟨mesg, child⟩, haccept, hdone⟩
      cases hdone
      exact Stepped.accept forked hqueue htake haccept
  | reply i =>
      rcases Option.bind_eq_some_iff.mp hstep with ⟨child, hchild, hrest⟩
      rcases Option.bind_eq_some_iff.mp hrest with ⟨m, hm, hrest⟩
      rcases Option.bind_eq_some_iff.mp hrest with ⟨queues, hsend, hlast⟩
      rcases Option.map_eq_some_iff.mp hlast with ⟨srv, hsrv, hdone⟩
      cases hdone
      exact Stepped.reply hchild hm hsend hsrv

/-- The server has created the well-known queue and waits; its structure and those of the clients
have what was in the memory. -/
structure Init (sys : System client) (s : State client) : Prop where
  requests : s.queues sys.msqid = some []
  replies : forall c, s.queues (sys.readid c) = none
  children : s.children = []
  clients : forall c, (s.clients c).pc = ClientPc.create ∧ (s.clients c).output = []

def firstState (sys : System client) : State client :=
  { queues := Function.update (fun _ => none) sys.msqid (some [])
    mesg := { mesg_len := 0, mesg_type := 0, mesg_data := fun _ => 255 }
    children := []
    clients := fun _ => ⟨{ mesg_len := 0, mesg_type := 0, mesg_data := fun _ => 255 },
      ClientPc.create, []⟩ }

omit [DecidableEq client] in
theorem init_firstState (sys : System client) : Init sys (firstState sys) :=
  { requests := by simp [firstState]
    replies := fun c => by simp [firstState, sys.readid_ne c]
    children := rfl
    clients := fun _ => ⟨rfl, rfl⟩ }

end Step

/-!
# Requests and replies
-/

namespace System

variable {client : Type} (sys : System client)

def path (c : client) : List UInt8 :=
  pathname MAXMESGDATA (sys.readid c) (sys.stdin c)

def requestMsg (c : client) : Msg :=
  { mtype := 1, mtext := requestText MAXMESGDATA (sys.readid c) (sys.stdin c) }

def texts (c : client) : List (List UInt8) :=
  replyTexts MAXMESGDATA sys.files (sys.requestMsg c).mtext.length (sys.path c)

def replies (c : client) : List Msg :=
  (sys.texts c).map (Msg.mk 1)

variable {sys} {c d : client}

theorem idText_length_lt : (idText (sys.readid c)).length < MAXMESGDATA :=
  Nat.lt_of_le_of_lt (idText_length_le (sys.readid_lt c)) (by decide)

theorem readid_inj (h : (sys.readid c : Int) = sys.readid d) : c = d :=
  sys.readid_injective (Int.ofNat_inj.mp h)

theorem requestMsg_injective : Function.Injective sys.requestMsg := by
  intro c d h
  have hdecode : forall c, decode MAXMESGDATA ⟨0, 0, fun _ => 0⟩ (sys.requestMsg c) =
      some ((sys.readid c : Int), sys.path c) := fun c =>
    decode_requestText _ (sys.stdin c) (sys.readid_lt c) idText_length_lt
  have hsame := hdecode c
  rw [h, hdecode d, Option.some.injEq, Prod.mk.injEq] at hsame
  exact (readid_inj hsame.1).symm

theorem request_spec (sys : System client) (mesg : Mesg) (c : client) :
    exists mesg', request mesg (sys.readid c) (sys.stdin c) = some mesg' ∧
      mesg'.sent = sys.requestMsg c :=
  clientRequest_spec mesg (sys.stdin c) idText_length_lt

theorem requestMsg_length_lt (sys : System client) (c : client) :
    (sys.requestMsg c).mtext.length < MAXMESGDATA :=
  requestText_length_lt (sys.stdin c) idText_length_lt

/-- The child for a request owes the replies to it, and sends them to the queue of the client. -/
theorem accept_spec (sys : System client) (mesg : Mesg) (c : client) :
    exists mesg' child, accept sys.files mesg (sys.requestMsg c) = some (mesg', some child) ∧
      (child.srv.owed MAXMESGDATA).map (Msg.mk 1) = sys.replies c ∧
      child.srv.mesg.mesg_type = 1 ∧ child.writeid = sys.readid c := by
  rcases serve_spec sys.files mesg (sys.readid_lt c) zero_not_mem_pathname
    (requestText_length_lt (sys.stdin c) idText_length_lt) with ⟨srv, hsrv, howed, htype⟩
  have haccept := accept_serve sys.files mesg (sys.requestMsg c)
  rw [show serve sys.files mesg (sys.requestMsg c) = some (some (srv, (sys.readid c : Int)))
    from hsrv] at haccept
  rcases Option.map_eq_some_iff.mp haccept with ⟨⟨mesg', child⟩, hdone, hchild⟩
  rcases Option.map_eq_some_iff.mp hchild with ⟨⟨srv', writeid⟩, rfl, hpair⟩
  injection hpair with hserving hid
  subst hserving
  exact ⟨mesg', _, hdone, congrArg (List.map (Msg.mk 1)) howed, htype, hid⟩

theorem texts_ended (sys : System client) (c : client) : [] ∈ sys.texts c := by
  unfold texts replyTexts
  split <;> simp

end System

end Mpxnq
end Svmsg
end InterprocessComm
