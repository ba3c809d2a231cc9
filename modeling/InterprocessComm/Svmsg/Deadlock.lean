import InterprocessComm.Svmsg.Backlog
import Mathlib.Algebra.Group.Action.Defs
import Mathlib.Data.Fintype.EquivFin

/-!
# Deadlock freedom of the file service

Whenever a backlog leaves no room for the next reply, there is a run that puts it into the queue
and ends in a deadlock.  So the room for the replies is all that deadlock freedom needs.
-/

namespace InterprocessComm
namespace Svmsg
namespace Cliserv

open Verification

def DeadlockFree {client : Type} [DecidableEq client] (sys : System client) : Prop :=
  forall s, Reachable Init (step sys) s -> ¬ Deadlocked sys s

/-!
# Steps that can be taken
-/

section Steps

variable {client : Type} [DecidableEq client] {sys : System client} {s : State client}
  {c : client}

theorem build_step (hs : Reachable Init (step sys) s)
    (hpc : (s.clients c).pc = ClientPc.start) :
    exists t, Reachable Init (step sys) t ∧ t.queue = s.queue ∧ t.server = s.server ∧
      (t.clients c).pc = ClientPc.send ∧ forall d, d ≠ c -> t.clients d = s.clients d := by
  rcases sys.request_spec (s.clients c).mesg c with ⟨mesg, hmesg, _⟩
  have hstep : step sys s (Action.build c) =
      some (s.withClient c { s.clients c with mesg := mesg, pc := ClientPc.send },
        Event.silent) := by
    simp only [step, hpc, hmesg, Option.map_some]
  exact ⟨_, reachable_step hs hstep, rfl, rfl, by simp, fun d hd => by simp [hd]⟩

theorem send_step (hs : Reachable Init (step sys) s) (hpc : (s.clients c).pc = ClientPc.send)
    (hfits : Fits sys.msg_qbytes (s.queue ++ [sys.requestMsg c])) :
    exists t, Reachable Init (step sys) t ∧ t.queue = s.queue ++ [sys.requestMsg c] ∧
      t.server = s.server ∧ (t.clients c).pc = ClientPc.receive ∧
      forall d, d ≠ c -> t.clients d = s.clients d := by
  rcases routed_reachable hs with ⟨h, hr⟩
  rw [← (hr.clients c).request hpc] at hfits ⊢
  have hstep : step sys s (Action.send c) =
      some ({ s.withClient c
                { s.clients c with mesg := { (s.clients c).mesg with
                                             mesg_type := (sys.pid c).val },
                                   pc := ClientPc.receive } with
              queue := s.queue ++ [(s.clients c).mesg.sent] }, Event.requested c) := by
    simp only [step, hpc, if_pos hfits]
  exact ⟨_, reachable_step hs hstep, rfl, rfl, by simp [State.withClient], fun d hd => by
    simp [State.withClient, hd]⟩

theorem request_steps (hs : Reachable Init (step sys) s)
    (hpc : (s.clients c).pc = ClientPc.start)
    (hfits : Fits sys.msg_qbytes (s.queue ++ [sys.requestMsg c])) :
    exists t, Reachable Init (step sys) t ∧ t.queue = s.queue ++ [sys.requestMsg c] ∧
      t.server = s.server ∧ (t.clients c).pc = ClientPc.receive ∧
      forall d, d ≠ c -> t.clients d = s.clients d := by
  rcases build_step hs hpc with ⟨s₁, hs₁, hqueue₁, hserver₁, hpc₁, hothers₁⟩
  rw [← hqueue₁] at hfits ⊢
  rcases send_step hs₁ hpc₁ hfits with ⟨t, ht, hqueue, hserver, hpc, hothers⟩
  exact ⟨t, ht, hqueue, hserver.trans hserver₁, hpc, fun d hd => by
    rw [hothers d hd, hothers₁ d hd]⟩

theorem receive_step {m : Msg} {queue : List Msg} (hs : Reachable Init (step sys) s)
    (hpc : (s.clients c).pc = ClientPc.receive)
    (htake : takeType Msg.mtype (sys.pid c).val s.queue = some (m, queue)) :
    exists t, Reachable Init (step sys) t ∧ t.queue = queue ∧ t.server = s.server ∧
      (t.clients c).pc = (if m.mtext = [] then ClientPc.stopped else ClientPc.receive) ∧
      forall d, d ≠ c -> t.clients d = s.clients d := by
  rcases routed_reachable hs with ⟨h, hr⟩
  rw [← (hr.clients c).asking hpc] at htake
  have hstep : step sys s (Action.receive c) =
      some ({ s.withClient c ((s.clients c).receives m) with queue := queue },
        Event.received c m) := by
    simp only [step, hpc, htake, Option.map_some]
  refine ⟨_, reachable_step hs hstep, rfl, rfl, ?_, fun d hd => by simp [State.withClient, hd]⟩
  show (Function.update s.clients c ((s.clients c).receives m) c).pc = _
  rw [Function.update_self, receives_pc, hpc]

theorem accept_step {queue : List Msg} (hs : Reachable Init (step sys) s)
    (hpc : s.server.pc = ServePc.done)
    (htake : takeType Msg.mtype 1 s.queue = some (sys.requestMsg c, queue)) :
    exists t, Reachable Init (step sys) t ∧ t.queue = queue ∧
      (t.server.owed MAXMESGDATA).map (Msg.mk (sys.pid c).val) = sys.replies c ∧
      t.server.mesg.mesg_type = (sys.pid c).val ∧ t.clients = s.clients := by
  rcases sys.serve_spec s.server.mesg c with ⟨srv, hsrv, howed, htype⟩
  have hstep : step sys s Action.accept =
      some ({ s with queue := queue, server := srv }, Event.accepted (sys.requestMsg c)) := by
    simp only [step, hpc, htake, Option.bind_some, hsrv, Option.map_some]
  exact ⟨_, reachable_step hs hstep, rfl, howed, htype, rfl⟩

theorem reply_step {m : Msg} (hs : Reachable Init (step sys) s)
    (hm : s.server.outgoing = some m) (hfits : Fits sys.msg_qbytes (s.queue ++ [m])) :
    exists t, Reachable Init (step sys) t ∧ t.queue = s.queue ++ [m] ∧
      s.server.owed MAXMESGDATA = m.mtext :: t.server.owed MAXMESGDATA ∧
      t.server.mesg.mesg_type = s.server.mesg.mesg_type ∧ t.clients = s.clients := by
  rcases afterSend_spec one_lt_MAXMESGDATA hm with ⟨srv, hsrv, howed, _, htype⟩
  have hstep : step sys s Action.reply =
      some ({ s with queue := s.queue ++ [m], server := srv }, Event.replied m) := by
    simp only [step, hm, Option.bind_some, if_pos hfits, hsrv, Option.map_some]
  exact ⟨_, reachable_step hs hstep, rfl, howed, htype, rfl⟩

end Steps

/-!
# A server that is stuck
-/

section Stuck

variable {client : Type} [DecidableEq client] {sys : System client} {s : State client}
  {c : client}

/-- The server is blocked, and nothing is in the queue for a client that receives. -/
structure Stuck (sys : System client) (s : State client) : Prop where
  reachable : Reachable Init (step sys) s
  server : ServerBlocked sys s
  quiet : forall c, (s.clients c).pc = ClientPc.receive ->
    ofType Msg.mtype (sys.pid c).val s.queue = []

def Settled (sys : System client) (s : State client) (c : client) : Prop :=
  (s.clients c).pc ≠ ClientPc.start ∧
    ((s.clients c).pc = ClientPc.send -> ¬ Fits sys.msg_qbytes (s.queue ++ [sys.requestMsg c]))

omit [DecidableEq client] in
theorem not_fits_append {qbytes : Nat} {queue more : List Msg} {m : Msg}
    (h : ¬ Fits qbytes (queue ++ [m])) : ¬ Fits qbytes (queue ++ more ++ [m]) := by
  intro hfits
  rw [List.append_assoc] at hfits
  exact h (hfits.sublist ((List.Sublist.refl queue).append (List.sublist_append_right more [m])))

theorem stuck_send (hs : Stuck sys s) (hpc : (s.clients c).pc = ClientPc.send) :
    exists t, Stuck sys t ∧ Settled sys t c ∧
      forall d, d ≠ c -> Settled sys s d -> Settled sys t d := by
  by_cases hfits : Fits sys.msg_qbytes (s.queue ++ [sys.requestMsg c])
  · rcases send_step hs.reachable hpc hfits with ⟨t, ht, hqueue, hserver, hreceive, hothers⟩
    rcases hs.server with ⟨m, hm, hroom⟩
    rcases routed_reachable hs.reachable with ⟨h, hr⟩
    have hunsent : c ∉ h.requested := (hr.clients c).unsent hpc
    refine ⟨t, ⟨ht, ⟨m, by rw [hserver]; exact hm, ?_⟩, ?_⟩, ?_, ?_⟩
    · rw [hqueue]
      exact not_fits_append hroom
    · intro d hd
      have hsame : ofType Msg.mtype (sys.pid d).val (s.queue ++ [sys.requestMsg c]) =
          ofType Msg.mtype (sys.pid d).val s.queue := ofType_snoc_other _ System.pid_ne_one.symm
      rw [hqueue, hsame]
      rcases eq_or_ne d c with rfl | hne
      · exact ofType_of_unsent hr hunsent
      · rw [hothers d hne] at hd
        exact hs.quiet d hd
    · unfold Settled
      simp [hreceive]
    · rintro d hd ⟨hstart, hsend⟩
      unfold Settled
      rw [hothers d hd, hqueue]
      exact ⟨hstart, fun h => not_fits_append (hsend h)⟩
  · exact ⟨s, hs, ⟨by simp [hpc], fun _ => hfits⟩, fun _ _ h => h⟩

theorem stuck_client (hs : Stuck sys s) (c : client) :
    exists t, Stuck sys t ∧ Settled sys t c ∧
      forall d, d ≠ c -> Settled sys s d -> Settled sys t d := by
  cases hpc : (s.clients c).pc with
  | start =>
      rcases build_step hs.reachable hpc with ⟨s₁, hs₁, hqueue, hserver, hsend, hothers⟩
      have hstuck : Stuck sys s₁ := by
        refine ⟨hs₁, ?_, ?_⟩
        · unfold ServerBlocked
          rw [hqueue, hserver]
          exact hs.server
        · intro d hd
          rcases eq_or_ne d c with rfl | hne
          · rw [hsend] at hd
            cases hd
          · rw [hothers d hne] at hd
            rw [hqueue]
            exact hs.quiet d hd
      rcases stuck_send hstuck hsend with ⟨t, ht, hc, hkept⟩
      refine ⟨t, ht, hc, ?_⟩
      intro d hd hsettled
      apply hkept d hd
      unfold Settled at hsettled ⊢
      rw [hothers d hd, hqueue]
      exact hsettled
  | send => exact stuck_send hs hpc
  | receive => exact ⟨s, hs, ⟨by simp [hpc], by simp [hpc]⟩, fun _ _ h => h⟩
  | stopped => exact ⟨s, hs, ⟨by simp [hpc], by simp [hpc]⟩, fun _ _ h => h⟩

theorem stuck_clients (hs : Stuck sys s) (cs : List client) :
    exists t, Stuck sys t ∧ forall c, c ∈ cs -> Settled sys t c := by
  induction cs with
  | nil => exact ⟨s, hs, fun c hc => by cases hc⟩
  | cons c cs ih =>
      rcases ih with ⟨s₁, hs₁, hsettled⟩
      rcases stuck_client hs₁ c with ⟨t, ht, hc, hkept⟩
      refine ⟨t, ht, ?_⟩
      intro d hd
      rcases eq_or_ne d c with rfl | hne
      · exact hc
      · exact hkept d hne (hsettled d ((List.mem_cons.mp hd).resolve_left hne))

omit [DecidableEq client] in
theorem finite_client (sys : System client) : Finite client := by
  apply Finite.of_injective fun c => (⟨sys.id c, sys.id_lt c⟩ : Fin (2 ^ 31))
  intro c d h
  have hid : sys.id c = sys.id d := congrArg Fin.val h
  have hval : (sys.pid c).val = (sys.pid d).val := by
    rw [← System.id_cast, ← System.id_cast, hid]
  exact System.pid_val_inj hval

theorem deadlock_of_stuck (hs : Stuck sys s) :
    exists t, Reachable Init (step sys) t ∧ Deadlocked sys t := by
  have hfinite := finite_client sys
  rcases Finite.exists_univ_list client with ⟨cs, _, hcs⟩
  rcases stuck_clients hs cs with ⟨t, ht, hsettled⟩
  rcases routed_reachable ht.reachable with ⟨h, hr⟩
  refine ⟨t, ht.reachable, ht.server, ?_⟩
  intro c hstopped
  rcases hsettled c (hcs c) with ⟨hstart, hsend⟩
  cases hpc : (t.clients c).pc with
  | start => exact absurd hpc hstart
  | stopped => exact absurd hpc hstopped
  | send =>
      refine Or.inl ⟨hpc, ?_⟩
      rw [(hr.clients c).request hpc]
      exact hsend hpc
  | receive =>
      refine Or.inr ⟨hpc, ?_⟩
      rw [(hr.clients c).asking hpc, takeType_eq_none_iff]
      exact ht.quiet c hpc

end Stuck

/-!
# A run to a backlog

The clients are served one after the other, and receive each reply as soon as it is in the queue;
then others send their requests.
-/

section Staged

variable {client : Type} [DecidableEq client] {sys : System client} {s : State client}
  {earlier later : List client} {c d : client} {front rest : List Msg} {m : Msg}

structure Idle (sys : System client) (s : State client) (served : List client) : Prop where
  reachable : Reachable Init (step sys) s
  server : s.server.pc = ServePc.done
  queue : s.queue = leftBy sys served
  stopped : forall e, e ∈ served -> (s.clients e).pc = ClientPc.stopped
  fresh : forall d, d ∉ served -> (s.clients d).pc = ClientPc.start

structure Staged (sys : System client) (s : State client) (earlier : List client) (c : client)
    (front rest : List Msg) (later : List client) : Prop where
  reachable : Reachable Init (step sys) s
  replies : front ++ rest = sys.replies c
  owed : (s.server.owed MAXMESGDATA).map (Msg.mk (sys.pid c).val) = rest
  mtype : s.server.mesg.mesg_type = (sys.pid c).val
  queue : s.queue = backlog sys earlier later front
  reading : (forall x, x ∈ front -> x.mtext ≠ []) -> (s.clients c).pc = ClientPc.receive
  ended : (exists x, x ∈ front ∧ x.mtext = []) -> (s.clients c).pc = ClientPc.stopped
  stopped : forall e, e ∈ earlier -> (s.clients e).pc = ClientPc.stopped
  fresh : forall d, d ≠ c -> d ∉ earlier -> d ∉ later -> (s.clients d).pc = ClientPc.start

theorem idle_init : Idle sys emptyQueue [] :=
  { reachable := ⟨[], emptyQueue, init_emptyQueue, Path.nil⟩
    server := rfl
    queue := rfl
    stopped := fun e he => by cases he
    fresh := fun _ _ => rfl }

theorem staged_start (hs : Idle sys s earlier) (hc : c ∉ earlier)
    (hfits : Fits sys.msg_qbytes (leftBy sys earlier ++ [sys.requestMsg c])) :
    exists t, Staged sys t earlier c [] (sys.replies c) [] := by
  rcases request_steps hs.reachable (hs.fresh c hc) (by rw [hs.queue]; exact hfits) with
    ⟨s₁, hs₁, hqueue₁, hserver₁, hpc₁, hothers₁⟩
  have htake : takeType Msg.mtype 1 s₁.queue = some (sys.requestMsg c, leftBy sys earlier) := by
    rw [hqueue₁, hs.queue]
    exact takeType_snoc (ofType_leftBy fun e _ => System.pid_ne_one) rfl
  rcases accept_step hs₁ (by rw [hserver₁]; exact hs.server) htake with
    ⟨s₂, hs₂, hqueue₂, howed, htype, hclients⟩
  have hothers : forall d, d ≠ c -> s₂.clients d = s.clients d := by
    intro d hd
    rw [hclients, hothers₁ d hd]
  refine ⟨s₂, ?_⟩
  exact {
    reachable := hs₂
    replies := rfl
    owed := howed
    mtype := htype
    queue := by simpa [backlog, leftBehind] using hqueue₂
    reading := fun _ => by rw [hclients]; exact hpc₁
    ended := fun ⟨x, hx, _⟩ => by cases hx
    stopped := by
      intro e he
      rw [hothers e (fun heq => hc (heq ▸ he))]
      exact hs.stopped e he
    fresh := by
      intro d hd hearlier _
      rw [hothers d hd]
      exact hs.fresh d hearlier }

theorem Staged.outgoing (hs : Staged sys s earlier c front (m :: rest) later) :
    s.server.outgoing = some m := by
  have howed := hs.owed
  cases hout : s.server.outgoing with
  | none =>
      rw [outgoing_none hout] at howed
      cases howed
  | some m' =>
      rcases afterSend_spec one_lt_MAXMESGDATA hout with ⟨_, _, howed', hmtype, _⟩
      rw [howed', List.map_cons, ← hs.mtype, ← hmtype] at howed
      exact congrArg some (List.cons.inj howed).1

theorem stuck_of_staged (hs : Staged sys s earlier c front (m :: rest) later)
    (hroom : ¬ Fits sys.msg_qbytes (backlog sys earlier later front ++ [m])) : Stuck sys s := by
  refine ⟨hs.reachable, ⟨m, hs.outgoing, by rw [hs.queue]; exact hroom⟩, ?_⟩
  intro d hd
  have hleft : ofType Msg.mtype (sys.pid d).val (leftBy sys earlier) = [] := by
    apply ofType_leftBy
    intro e he heq
    cases System.pid_val_inj heq
    rw [hs.stopped d he] at hd
    cases hd
  have hfront : ofType Msg.mtype (sys.pid d).val (leftBehind front) = [] := by
    rcases eq_or_ne d c with rfl | hne
    · -- a client that receives has had no empty message
      have hreading : forall x, x ∈ front -> x.mtext ≠ [] := by
        intro x hx hempty
        rw [hs.ended ⟨x, hx, hempty⟩] at hd
        cases hd
      rw [leftBehind_of_ne_nil hreading]
      rfl
    · apply ofType_leftBehind (c := c)
      · intro x hx
        rw [← hs.replies]
        exact List.mem_append_left _ hx
      · exact fun heq => hne (System.pid_val_inj heq).symm
  have hlater : ofType Msg.mtype (sys.pid d).val (later.map sys.requestMsg) = [] := by
    apply ofType_eq_nil
    intro x hx
    rcases List.mem_map.mp hx with ⟨e, _, rfl⟩
    exact System.pid_ne_one.symm
  rw [hs.queue, backlog, ofType_append, ofType_append, hleft, hfront, hlater]
  rfl

/-- The server sends the next reply, and the client receives it unless it has stopped. -/
theorem staged_reply (hfree : DeadlockFree sys) (hs : Staged sys s earlier c front (m :: rest) [])
    (hc : c ∉ earlier) : exists t, Staged sys t earlier c (front ++ [m]) rest [] := by
  have hfits : Fits sys.msg_qbytes (s.queue ++ [m]) := by
    by_contra hroom
    rw [hs.queue] at hroom
    rcases deadlock_of_stuck (stuck_of_staged hs hroom) with ⟨t, ht, hdead⟩
    exact hfree t ht hdead
  rcases reply_step hs.reachable hs.outgoing hfits with
    ⟨s₁, hs₁, hqueue₁, howed, htype, hclients⟩
  have hqueue : s₁.queue = leftBy sys earlier ++ leftBehind front ++ [m] := by
    rw [hqueue₁, hs.queue]
    simp [backlog]
  have hsame := hs.owed
  rw [howed, List.map_cons] at hsame
  rcases List.cons.inj hsame with ⟨hm, hrest⟩
  have hmtype : m.mtype = (sys.pid c).val := (congrArg Msg.mtype hm).symm
  have hreplies : front ++ [m] ++ rest = sys.replies c := by
    rw [← hs.replies]
    simp
  by_cases hreading : forall x, x ∈ front -> x.mtext ≠ []
  · rw [leftBehind_of_ne_nil hreading, List.append_nil] at hqueue
    have htake : takeType Msg.mtype (sys.pid c).val s₁.queue =
        some (m, leftBy sys earlier) := by
      rw [hqueue]
      apply takeType_snoc (ofType_leftBy _) hmtype
      intro e he heq
      cases System.pid_val_inj heq
      exact hc he
    rcases receive_step hs₁ (by rw [hclients]; exact hs.reading hreading) htake with
      ⟨s₂, hs₂, hqueue₂, hserver₂, hpc₂, hothers₂⟩
    have hothers : forall d, d ≠ c -> s₂.clients d = s.clients d := by
      intro d hd
      rw [hothers₂ d hd, hclients]
    have hnothing : leftBehind (front ++ [m]) = [] := by
      by_cases hempty : m.mtext = []
      · exact leftBehind_cut hreading hempty
      · apply leftBehind_of_ne_nil
        intro x hx
        rcases List.mem_append.mp hx with hx | hx
        · exact hreading x hx
        · rw [List.mem_singleton.mp hx]
          exact hempty
    refine ⟨s₂, ?_⟩
    exact {
      reachable := hs₂
      replies := hreplies
      owed := by rw [hserver₂]; exact hrest
      mtype := by rw [hserver₂, htype]; exact hs.mtype
      queue := by
        rw [hqueue₂, backlog, hnothing]
        simp
      reading := by
        intro h
        rw [hpc₂, if_neg (h m (by simp))]
      ended := by
        rintro ⟨x, hx, hempty⟩
        rcases List.mem_append.mp hx with hx | hx
        · exact absurd hempty (hreading x hx)
        · rw [List.mem_singleton.mp hx] at hempty
          rw [hpc₂, if_pos hempty]
      stopped := by
        intro e he
        rw [hothers e (fun heq => hc (heq ▸ he))]
        exact hs.stopped e he
      fresh := by
        intro d hd hearlier hlater
        rw [hothers d hd]
        exact hs.fresh d hd hearlier hlater }
  · -- the client has stopped, and the reply stays in the queue
    have hempty : exists x, x ∈ front ∧ x.mtext = [] := by
      by_contra hnone
      exact hreading fun x hx h => hnone ⟨x, hx, h⟩
    refine ⟨s₁, ?_⟩
    exact {
      reachable := hs₁
      replies := hreplies
      owed := hrest
      mtype := htype.trans hs.mtype
      queue := by
        rw [hqueue, backlog, leftBehind_snoc hempty]
        simp
      reading := fun h => absurd (fun x hx => h x (List.mem_append_left _ hx)) hreading
      ended := fun _ => by rw [hclients]; exact hs.ended hempty
      stopped := by
        rw [hclients]
        exact hs.stopped
      fresh := by
        rw [hclients]
        exact hs.fresh }

theorem staged_replies (hfree : DeadlockFree sys) {more : List Msg}
    (hs : Staged sys s earlier c front (more ++ rest) []) (hc : c ∉ earlier) :
    exists t, Staged sys t earlier c (front ++ more) rest [] := by
  induction more generalizing s front with
  | nil => exact ⟨s, by rw [List.append_nil]; exact hs⟩
  | cons m more ih =>
      rcases staged_reply hfree hs hc with ⟨t, ht⟩
      rw [List.append_cons]
      exact ih ht

omit [DecidableEq client] in
theorem empty_mem_replies (sys : System client) (c : client) :
    exists m, m ∈ sys.replies c ∧ m.mtext = [] := by
  have htext : [] ∈ replyTexts MAXMESGDATA sys.files (sys.requestMsg c).mtext.length
      (sys.path c) := by
    unfold replyTexts
    split <;> simp
  exact ⟨_, List.mem_map_of_mem htext, rfl⟩

theorem done_of_owed {srv : Serving} (h : srv.owed MAXMESGDATA = []) : srv.pc = ServePc.done := by
  rcases srv with ⟨mesg, pc⟩
  cases pc with
  | done => rfl
  | _ => cases h

theorem idle_of_staged (hs : Staged sys s earlier c front [] []) : Idle sys s (earlier ++ [c]) := by
  have hfront : front = sys.replies c := by
    rw [← hs.replies, List.append_nil]
  exact {
    reachable := hs.reachable
    server := done_of_owed (List.map_eq_nil_iff.mp hs.owed)
    queue := by
      rw [hs.queue, backlog, hfront, leftBy_concat]
      simp
    stopped := by
      intro e he
      rcases List.mem_append.mp he with he | he
      · exact hs.stopped e he
      · rw [List.mem_singleton.mp he]
        rw [hfront] at hs
        exact hs.ended (empty_mem_replies sys c)
    fresh := by
      intro d hd
      rw [List.mem_append, not_or] at hd
      exact hs.fresh d (fun heq => hd.2 (List.mem_singleton.mpr heq)) hd.1 List.not_mem_nil }

theorem idle_served (hfree : DeadlockFree sys) (served : List client) (hnodup : served.Nodup)
    (hservable : Servable sys served) : exists s, Idle sys s served := by
  induction served using List.reverseRecOn with
  | nil => exact ⟨_, idle_init⟩
  | append_singleton served c ih =>
      rcases servable_concat.mp hservable with ⟨hbefore, hfits⟩
      rcases List.nodup_append.mp hnodup with ⟨hserved, _, hdisjoint⟩
      have hc : c ∉ served := fun h => hdisjoint c h c (List.mem_singleton_self c) rfl
      rcases ih hserved hbefore with ⟨s₀, hs₀⟩
      rcases staged_start hs₀ hc hfits with ⟨s₁, hs₁⟩
      rw [← List.append_nil (sys.replies c)] at hs₁
      rcases staged_replies hfree hs₁ hc with ⟨s₂, hs₂⟩
      exact ⟨s₂, idle_of_staged hs₂⟩

theorem staged_request (hs : Staged sys s earlier c front rest later) (hd : d ≠ c)
    (hearlier : d ∉ earlier) (hlater : d ∉ later)
    (hfits : Fits sys.msg_qbytes (backlog sys earlier (later ++ [d]) front)) :
    exists t, Staged sys t earlier c front rest (later ++ [d]) := by
  have hbacklog : backlog sys earlier (later ++ [d]) front =
      backlog sys earlier later front ++ [sys.requestMsg d] := by
    simp [backlog]
  rw [hbacklog] at hfits
  rcases request_steps hs.reachable (hs.fresh d hd hearlier hlater)
    (by rw [hs.queue]; exact hfits) with ⟨t, ht, hqueue, hserver, _, hothers⟩
  refine ⟨t, ?_⟩
  exact {
    reachable := ht
    replies := hs.replies
    owed := by rw [hserver]; exact hs.owed
    mtype := by rw [hserver]; exact hs.mtype
    queue := by rw [hqueue, hs.queue, hbacklog]
    reading := by rw [hothers c hd.symm]; exact hs.reading
    ended := by rw [hothers c hd.symm]; exact hs.ended
    stopped := by
      intro e he
      rw [hothers e (fun heq => hearlier (heq ▸ he))]
      exact hs.stopped e he
    fresh := by
      intro e he hne hnot
      rw [List.mem_append, not_or] at hnot
      rw [hothers e (fun heq => hnot.2 (List.mem_singleton.mpr heq))]
      exact hs.fresh e he hne hnot.1 }

theorem staged_requests {more : List client} (hs : Staged sys s earlier c front rest later)
    (hnodup : (c :: earlier ++ (later ++ more)).Nodup)
    (hfits : Fits sys.msg_qbytes (backlog sys earlier (later ++ more) front)) :
    exists t, Staged sys t earlier c front rest (later ++ more) := by
  induction more generalizing s later with
  | nil => exact ⟨s, by rw [List.append_nil]; exact hs⟩
  | cons d more ih =>
      have hdistinct := (List.nodup_append.mp hnodup).2.2
      have hd : d ∈ later ++ d :: more := by simp
      have hlater : d ∉ later := by
        intro hmem
        have hrest := (List.nodup_append.mp hnodup).2.1
        exact (List.nodup_append.mp hrest).2.2 d hmem d List.mem_cons_self rfl
      have hfirst : Fits sys.msg_qbytes (backlog sys earlier (later ++ [d]) front) := by
        apply hfits.sublist
        simp [backlog]
      rcases staged_request hs (fun heq => hdistinct c (by simp) d hd heq.symm)
        (fun hmem => hdistinct d (List.mem_cons_of_mem c hmem) d hd rfl) hlater hfirst with ⟨t, ht⟩
      rw [List.append_cons] at hnodup hfits ⊢
      exact ih ht hnodup hfits

end Staged

/-!
# Room for the replies
-/

section DeadlockFree

variable {client : Type} [DecidableEq client] {sys : System client}

/-- A reply that does not fit leads to a deadlock. -/
theorem repliesFit_of_deadlockFree (hfree : DeadlockFree sys) : RepliesFit sys := by
  intro c front m back hreplies earlier later hnodup hservable hfits
  by_contra hroom
  rcases servable_concat.mp hservable with ⟨hearlier, hrequest⟩
  rcases List.nodup_append.mp hnodup with ⟨hfirst, _, _⟩
  rcases List.nodup_cons.mp hfirst with ⟨hc, hnodup'⟩
  rcases idle_served hfree earlier hnodup' hearlier with ⟨s₀, hs₀⟩
  rcases staged_start hs₀ hc hrequest with ⟨s₁, hs₁⟩
  rw [hreplies] at hs₁
  rcases staged_replies hfree hs₁ hc with ⟨s₂, hs₂⟩
  rcases staged_requests hs₂ hnodup hfits with ⟨s₃, hs₃⟩
  rcases deadlock_of_stuck (stuck_of_staged hs₃ hroom) with ⟨t, ht, hdead⟩
  exact hfree t ht hdead

/-- No reachable state is a deadlock if and only if wherever a backlog is within the limit of the
queue, the next reply is so with it. -/
theorem deadlock_free_iff (sys : System client) : DeadlockFree sys <-> RepliesFit sys :=
  ⟨repliesFit_of_deadlockFree, fun hfit _ hs => not_deadlocked_of_repliesFit hfit hs⟩

omit [DecidableEq client] in
/-- If no line begins with a zero byte, nobody leaves a reply behind, and what matters are the
requests alone. -/
theorem repliesFit_of_lines
    (hlines : forall c file, sys.files (sys.path c) = Except.ok file ->
      [] ∉ lineTexts MAXMESGDATA file)
    (hroom : forall c m, m ∈ sys.replies c -> forall later, (c :: later).Nodup ->
      Fits sys.msg_qbytes (later.map sys.requestMsg) ->
        Fits sys.msg_qbytes (later.map sys.requestMsg ++ [m])) : RepliesFit sys := by
  intro c front m back hreplies earlier later hnodup _ hfits
  have hnone : forall e, leftBehind (sys.replies e) = [] := by
    intro e
    rcases replies_ended sys e (hlines e) with ⟨all, hall, hne⟩
    rw [hall]
    exact leftBehind_cut hne rfl
  have hfront : forall x, x ∈ front -> x.mtext ≠ [] := by
    rcases replies_ended sys c (hlines c) with ⟨all, hall, hne⟩
    rw [hall] at hreplies
    intro x hx
    apply hne x
    rcases snoc_eq_cut hreplies with ⟨_, rfl, _⟩ | ⟨mid, _, rfl⟩
    · exact hx
    · exact List.mem_append_left _ hx
  have hbacklog : backlog sys earlier later front = later.map sys.requestMsg := by
    unfold backlog leftBy
    rw [leftBehind_of_ne_nil hfront, List.flatMap_eq_nil_iff.mpr fun e _ => hnone e]
    rfl
  rw [hbacklog] at hfits ⊢
  have hlater : (c :: later).Nodup :=
    hnodup.sublist ((List.sublist_append_right earlier later).cons_cons c)
  exact hroom c m (by rw [hreplies]; simp) later hlater hfits

/-- With room for a message of each client there is no deadlock. -/
theorem deadlockFree_of_card [Fintype client]
    (hlines : forall c file, sys.files (sys.path c) = Except.ok file ->
      [] ∉ lineTexts MAXMESGDATA file)
    (hcard : Fintype.card client * MAXMESGDATA ≤ sys.msg_qbytes) : DeadlockFree sys := by
  have hfit : RepliesFit sys := by
    apply repliesFit_of_lines hlines
    intro c m hm later hlater _
    have hlength := hlater.length_le_card
    rw [List.length_cons] at hlength
    have hsizes : forall n,
        n ∈ (later.map sys.requestMsg ++ [m]).map (fun x => x.mtext.length) ->
          n ≤ MAXMESGDATA := by
      intro n hn
      rcases List.mem_map.mp hn with ⟨x, hx, rfl⟩
      rcases List.mem_append.mp hx with hx | hx
      · rcases List.mem_map.mp hx with ⟨d, _, rfl⟩
        exact Nat.le_of_lt (sys.requestMsg_length_lt d)
      · rw [List.mem_singleton.mp hx]
        exact Nat.le_of_lt (System.reply_length_lt hm)
    have hbytes := List.sum_le_card_nsmul _ _ hsizes
    have htotal := Nat.mul_le_mul_right MAXMESGDATA hlength
    simp only [List.length_map, List.length_append, List.length_singleton, smul_eq_mul] at hbytes
    constructor
    · lia
    · unfold MAXMESGDATA at hcard htotal
      simp only [List.length_append, List.length_map, List.length_singleton]
      lia
  intro s hs
  exact not_deadlocked_of_repliesFit hfit hs

def crowded : System (Fin 2) :=
  { twoClients (List.replicate 128 97) with
    stdin := fun c => if c.val = 0 then [97, 10] else List.replicate 127 98 ++ [10]
    msg_qbytes := MAXMESGDATA }

/-- The request of the second client comes before the reply to the first. -/
theorem request_before_reply_twoClients :
    MAXMESGDATA ≤ crowded.msg_qbytes ∧
      exists s, Reachable Init (step crowded) s ∧ Deadlocked crowded s := by
  have hreplay : exists (tr : List (Transition (State (Fin 2)) (Action (Fin 2)) (Event (Fin 2))))
      (s : State (Fin 2)), Run Init (step crowded) tr s ∧ decide (Deadlocked crowded s) = true :=
    run_of_replay
      [Action.build 0, Action.send 0, Action.accept, Action.build 1, Action.send 1]
      init_emptyQueue (by decide +kernel)
  rcases hreplay with ⟨tr, s, hrun, htest⟩
  exact ⟨Nat.le_refl _, s, ⟨tr, hrun⟩, of_decide_eq_true htest⟩

end DeadlockFree

end Cliserv
end Svmsg
end InterprocessComm
