import InterprocessComm.Lib.Transition
import InterprocessComm.Lib.TypedQueue
import InterprocessComm.Svmsg.Replies
import Mathlib.Algebra.Order.BigOperators.Group.List
import Mathlib.Logic.Function.Basic

/-!
# Clients and the server on one queue

Any number of clients and one server send and receive on the same System V queue.  A request has
the type 1, and the replies to a client have its process id as type.
-/

namespace InterprocessComm
namespace Svmsg
namespace Cliserv

open Verification

/-- The clients with their process ids and the lines that they read, the files, and the limit of
the queue. -/
structure System (client : Type) where
  pid : client -> Pid
  pid_injective : Function.Injective pid
  one_lt_pid : forall c, 1 < (pid c).val
  stdin : client -> List UInt8
  files : Files
  msg_qbytes : Nat

inductive ClientPc where
  | start
  | send
  | receive
  | stopped
deriving DecidableEq

structure Client where
  mesg : Mesg
  pc : ClientPc
  output : List UInt8

structure State (client : Type) where
  queue : List Msg
  server : Serving
  clients : client -> Client

/-!
# Steps
-/

/-- A queue within its limit, which bounds the bytes and the number of the messages. -/
def Fits (qbytes : Nat) (queue : List Msg) : Prop :=
  (queue.map fun m => m.mtext.length).sum ≤ qbytes ∧ queue.length ≤ qbytes

instance (qbytes : Nat) (queue : List Msg) : Decidable (Fits qbytes queue) :=
  inferInstanceAs (Decidable (_ ∧ _))

theorem Fits.sublist {qbytes : Nat} {queue queue' : List Msg} (h : Fits qbytes queue)
    (hsub : queue'.Sublist queue) : Fits qbytes queue' := by
  have hbytes := (hsub.map fun m => m.mtext.length).sum_le_sum fun _ _ => Nat.zero_le _
  exact ⟨Nat.le_trans hbytes h.1, Nat.le_trans hsub.length_le h.2⟩

theorem Fits.perm {qbytes : Nat} {queue queue' : List Msg} (h : Fits qbytes queue)
    (hperm : queue.Perm queue') : Fits qbytes queue' := by
  have hbytes := (hperm.map fun m => m.mtext.length).sum_eq
  exact ⟨Nat.le_trans (Nat.le_of_eq hbytes.symm) h.1,
    Nat.le_trans (Nat.le_of_eq hperm.length_eq.symm) h.2⟩

def Client.receives (l : Client) (m : Msg) : Client :=
  let mesg := l.mesg.received m
  if mesg.mesg_len > 0 then
    { l with mesg := mesg,
             output := l.output ++ readBytes mesg.mesg_data 0 mesg.mesg_len.toNat }
  else
    { l with mesg := mesg, pc := ClientPc.stopped }

inductive Action (client : Type) where
  | build (c : client)
  | send (c : client)
  | receive (c : client)
  | accept
  | reply

inductive Event (client : Type) where
  | silent
  | requested (c : client)
  | received (c : client) (m : Msg)
  | accepted (m : Msg)
  | replied (m : Msg)

section Step

variable {client : Type} [DecidableEq client]

def State.withClient (s : State client) (c : client) (l : Client) : State client :=
  { s with clients := Function.update s.clients c l }

section WithClient

variable (s : State client) {c d : client} (l : Client)

@[simp] theorem withClient_queue : (s.withClient c l).queue = s.queue := rfl

@[simp] theorem withClient_server : (s.withClient c l).server = s.server := rfl

@[simp] theorem withClient_self : (s.withClient c l).clients c = l :=
  Function.update_self ..

@[simp] theorem withClient_of_ne (h : d ≠ c) : (s.withClient c l).clients d = s.clients d :=
  Function.update_of_ne h ..

end WithClient

/-- `msgsnd` waits while the message does not fit, and `msgrcv` while there is no message of the
type. -/
def step (sys : System client) (s : State client) :
    Action client -> Option (State client × Event client)
  | Action.build c =>
      match (s.clients c).pc with
      | ClientPc.start =>
          (request (s.clients c).mesg (sys.pid c) (sys.stdin c)).map fun mesg =>
            (s.withClient c { s.clients c with mesg := mesg, pc := ClientPc.send }, Event.silent)
      | _ => none
  | Action.send c =>
      match (s.clients c).pc with
      | ClientPc.send =>
          let m := (s.clients c).mesg.sent
          let mesg := { (s.clients c).mesg with mesg_type := (sys.pid c).val }
          if Fits sys.msg_qbytes (s.queue ++ [m]) then
            some ({ s.withClient c { s.clients c with mesg := mesg, pc := ClientPc.receive } with
                    queue := s.queue ++ [m] }, Event.requested c)
          else
            none
      | _ => none
  | Action.receive c =>
      match (s.clients c).pc with
      | ClientPc.receive =>
          (takeType Msg.mtype (s.clients c).mesg.mesg_type s.queue).map fun r =>
            ({ s.withClient c ((s.clients c).receives r.1) with queue := r.2 },
              Event.received c r.1)
      | _ => none
  | Action.accept =>
      match s.server.pc with
      | ServePc.done =>
          (takeType Msg.mtype 1 s.queue).bind fun r =>
            (serve sys.files s.server.mesg r.1).map fun srv =>
              ({ s with queue := r.2, server := srv }, Event.accepted r.1)
      | _ => none
  | Action.reply =>
      s.server.outgoing.bind fun m =>
        if Fits sys.msg_qbytes (s.queue ++ [m]) then
          (s.server.afterSend MAXMESGDATA).map fun srv =>
            ({ s with queue := s.queue ++ [m], server := srv }, Event.replied m)
        else
          none

inductive Stepped (sys : System client) (s : State client) :
    Event client -> State client -> Prop where
  | build {c : client} {mesg : Mesg} (hpc : (s.clients c).pc = ClientPc.start)
      (hmesg : request (s.clients c).mesg (sys.pid c) (sys.stdin c) = some mesg) :
      Stepped sys s Event.silent
        (s.withClient c { s.clients c with mesg := mesg, pc := ClientPc.send })
  | send {c : client} (hpc : (s.clients c).pc = ClientPc.send)
      (hfits : Fits sys.msg_qbytes (s.queue ++ [(s.clients c).mesg.sent])) :
      Stepped sys s (Event.requested c)
        { s.withClient c
            { s.clients c with mesg := { (s.clients c).mesg with mesg_type := (sys.pid c).val },
                               pc := ClientPc.receive } with
          queue := s.queue ++ [(s.clients c).mesg.sent] }
  | receive {c : client} {m : Msg} {queue : List Msg}
      (hpc : (s.clients c).pc = ClientPc.receive)
      (htake : takeType Msg.mtype (s.clients c).mesg.mesg_type s.queue = some (m, queue)) :
      Stepped sys s (Event.received c m)
        { s.withClient c ((s.clients c).receives m) with queue := queue }
  | accept {m : Msg} {queue : List Msg} {srv : Serving} (hpc : s.server.pc = ServePc.done)
      (htake : takeType Msg.mtype 1 s.queue = some (m, queue))
      (hserve : serve sys.files s.server.mesg m = some srv) :
      Stepped sys s (Event.accepted m) { s with queue := queue, server := srv }
  | reply {m : Msg} {srv : Serving} (hm : s.server.outgoing = some m)
      (hfits : Fits sys.msg_qbytes (s.queue ++ [m]))
      (hserver : s.server.afterSend MAXMESGDATA = some srv) :
      Stepped sys s (Event.replied m) { s with queue := s.queue ++ [m], server := srv }

theorem stepped_of_step {sys : System client} {s t : State client} {a : Action client}
    {o : Event client} (hstep : step sys s a = some (t, o)) : Stepped sys s o t := by
  cases a with
  | build c =>
      simp only [step] at hstep
      split at hstep
      · rename_i hpc
        rcases Option.map_eq_some_iff.mp hstep with ⟨mesg, hmesg, hdone⟩
        cases hdone
        exact Stepped.build hpc hmesg
      · cases hstep
  | send c =>
      simp only [step] at hstep
      split at hstep
      · rename_i hpc
        split at hstep
        · rename_i hfits
          cases hstep
          exact Stepped.send hpc hfits
        · cases hstep
      · cases hstep
  | receive c =>
      simp only [step] at hstep
      split at hstep
      · rename_i hpc
        rcases Option.map_eq_some_iff.mp hstep with ⟨⟨m, queue⟩, htake, hdone⟩
        cases hdone
        exact Stepped.receive hpc htake
      · cases hstep
  | accept =>
      simp only [step] at hstep
      split at hstep
      · rename_i hpc
        rcases Option.bind_eq_some_iff.mp hstep with ⟨⟨m, queue⟩, htake, hrest⟩
        rcases Option.map_eq_some_iff.mp hrest with ⟨srv, hserve, hdone⟩
        cases hdone
        exact Stepped.accept hpc htake hserve
      · cases hstep
  | reply =>
      rcases Option.bind_eq_some_iff.mp hstep with ⟨m, hm, hsend⟩
      split at hsend
      · rename_i hfits
        rcases Option.map_eq_some_iff.mp hsend with ⟨srv, hserver, hdone⟩
        cases hdone
        exact Stepped.reply hm hfits hserver
      · cases hsend

structure Init (s : State client) : Prop where
  queue : s.queue = []
  server : s.server =
    { mesg := { mesg_len := 0, mesg_type := 0, mesg_data := fun _ => 0 }, pc := ServePc.done }
  clients : forall c, (s.clients c).pc = ClientPc.start ∧ (s.clients c).output = []

def emptyQueue : State client :=
  { queue := []
    server := ⟨{ mesg_len := 0, mesg_type := 0, mesg_data := fun _ => 0 }, ServePc.done⟩
    clients := fun _ => ⟨{ mesg_len := 0, mesg_type := 0, mesg_data := fun _ => 255 },
      ClientPc.start, []⟩ }

omit [DecidableEq client] in
theorem init_emptyQueue : Init (emptyQueue : State client) :=
  ⟨rfl, rfl, fun _ => ⟨rfl, rfl⟩⟩

end Step

/-!
# Requests and replies
-/

namespace System

variable {client : Type} (sys : System client)

def id (c : client) : Nat := (sys.pid c).val.toNat

def path (c : client) : List UInt8 :=
  pathname MAXMESGDATA (sys.id c) (sys.stdin c)

def requestMsg (c : client) : Msg :=
  { mtype := 1, mtext := requestText MAXMESGDATA (sys.id c) (sys.stdin c) }

def replies (c : client) : List Msg :=
  (replyTexts MAXMESGDATA sys.files (sys.requestMsg c).mtext.length (sys.path c)).map
    (Msg.mk (sys.pid c).val)

theorem id_lt (c : client) : sys.id c < 2 ^ 31 :=
  (sys.pid c).toNat_lt

variable {sys} {c d : client}

theorem id_cast : ((sys.id c : Nat) : Int) = (sys.pid c).val :=
  (sys.pid c).toNat_cast

theorem idText_length_lt : (idText (sys.id c)).length < MAXMESGDATA :=
  Nat.lt_of_le_of_lt (idText_length_le (sys.id_lt c)) (by decide)

theorem pid_ne_one : (sys.pid c).val ≠ 1 := by
  have hpid := sys.one_lt_pid c
  lia

theorem pid_val_inj (h : (sys.pid c).val = (sys.pid d).val) : c = d :=
  sys.pid_injective (Subtype.ext h)

theorem requestMsg_injective : Function.Injective sys.requestMsg := by
  have hid : forall c, (sys.requestMsg c).mtext.takeWhile (fun b => b ≠ BLANK) =
      decimal (sys.id c) := by
    intro c
    have hsplit : (sys.requestMsg c).mtext = decimal (sys.id c) ++ BLANK :: sys.path c := by
      simp [requestMsg, requestText, idText, path]
    rw [hsplit, List.takeWhile_append_of_pos]
    · simp
    · intro b hb
      simpa using fun hblank : b = BLANK => blank_not_mem_decimal _ (hblank ▸ hb)
  intro c d h
  have hdigits := hid c
  rw [h, hid d] at hdigits
  have hlong : forall c, sys.id c ≤ LONG_MAX := fun c =>
    Nat.le_of_lt (Nat.lt_of_lt_of_le (sys.id_lt c) (by decide))
  have hvalue := congrArg atol hdigits
  rw [atol_decimal (hlong c), atol_decimal (hlong d), id_cast, id_cast] at hvalue
  exact (pid_val_inj hvalue).symm

theorem request_spec (sys : System client) (mesg : Mesg) (c : client) :
    exists mesg', request mesg (sys.pid c) (sys.stdin c) = some mesg' ∧
      mesg'.sent = sys.requestMsg c :=
  clientRequest_spec mesg (sys.stdin c) idText_length_lt

theorem serve_spec (sys : System client) (mesg : Mesg) (c : client) :
    exists srv, serve sys.files mesg (sys.requestMsg c) = some srv ∧
      (srv.owed MAXMESGDATA).map (Msg.mk (sys.pid c).val) = sys.replies c ∧
      srv.mesg.mesg_type = (sys.pid c).val := by
  rcases Cliserv.serve_spec sys.files mesg (sys.id_lt c) zero_not_mem_pathname
    (requestText_length_lt (sys.stdin c) idText_length_lt) with ⟨srv, hsrv, howed, htype⟩
  refine ⟨srv, hsrv, ?_, htype.trans id_cast⟩
  rw [howed]
  rfl

theorem requestMsg_length_lt (sys : System client) (c : client) :
    (sys.requestMsg c).mtext.length < MAXMESGDATA :=
  requestText_length_lt (sys.stdin c) idText_length_lt

theorem reply_length_lt {m : Msg} (hm : m ∈ sys.replies c) : m.mtext.length < MAXMESGDATA := by
  have hrequest := sys.requestMsg_length_lt c
  have hlength : (sys.requestMsg c).mtext.length =
      (idText (sys.id c)).length + (sys.path c).length := List.length_append
  rcases List.mem_map.mp hm with ⟨text, htext, rfl⟩
  exact replyText_length_lt hrequest (by lia) htext

end System

end Cliserv
end Svmsg
end InterprocessComm
