import InterprocessComm.Svmsg.Routing
import Mathlib.Data.Fintype.Basic
import Mathlib.Data.List.Flatten

/-!
# The backlog in the queue

Only the server takes requests from the queue, and nobody takes the replies to a client that has
stopped.  When these leave no room for the next reply, and each client has received what it asks
for, nobody can go on.
-/

namespace InterprocessComm
namespace Svmsg
namespace Cliserv

open Verification

/-!
# Blocked processes
-/

section Blocked

variable {client : Type} (sys : System client) (s : State client)

def ServerBlocked : Prop :=
  exists m, m ∈ s.server.outgoing ∧ ¬ Fits sys.msg_qbytes (s.queue ++ [m])

def ClientBlocked (c : client) : Prop :=
  ((s.clients c).pc = ClientPc.send ∧
      ¬ Fits sys.msg_qbytes (s.queue ++ [(s.clients c).mesg.sent])) ∨
    ((s.clients c).pc = ClientPc.receive ∧
      takeType Msg.mtype (s.clients c).mesg.mesg_type s.queue = none)

def Deadlocked : Prop :=
  ServerBlocked sys s ∧
    forall c, (s.clients c).pc ≠ ClientPc.stopped -> ClientBlocked sys s c

instance : Decidable (ServerBlocked sys s) :=
  inferInstanceAs (Decidable (exists m, m ∈ s.server.outgoing ∧ _))

instance (c : client) : Decidable (ClientBlocked sys s c) :=
  inferInstanceAs (Decidable (_ ∨ _))

instance [Fintype client] : Decidable (Deadlocked sys s) :=
  inferInstanceAs (Decidable (_ ∧ _))

end Blocked

/-!
# Room for the replies
-/

/-- The messages behind the first empty one, which nobody receives. -/
def leftBehind (ms : List Msg) : List Msg :=
  (ms.dropWhile fun m => m.mtext ≠ []).tail

section Backlog

variable {client : Type} (sys : System client)

def leftBy (served : List client) : List Msg :=
  served.flatMap fun c => leftBehind (sys.replies c)

/-- What is in the queue when the clients of `earlier` have been served, the one that is served now
has got the replies `front`, and those of `later` have sent their requests; all that is received
has been received. -/
def backlog (earlier later : List client) (front : List Msg) : List Msg :=
  leftBy sys earlier ++ leftBehind front ++ later.map sys.requestMsg

/-- Clients that can be served one after the other: the request of each fits beside what those
before it leave behind. -/
def Servable (served : List client) : Prop :=
  forall before c after, served = before ++ c :: after ->
    Fits sys.msg_qbytes (leftBy sys before ++ [sys.requestMsg c])

/-- Wherever a backlog is within the limit of the queue, the next reply is so with it. -/
def RepliesFit : Prop :=
  forall c front m back, sys.replies c = front ++ m :: back ->
    forall earlier later, (c :: earlier ++ later).Nodup -> Servable sys (earlier ++ [c]) ->
      Fits sys.msg_qbytes (backlog sys earlier later front) ->
        Fits sys.msg_qbytes (backlog sys earlier later front ++ [m])

end Backlog

section LeftBehind

variable {front rest : List Msg}

theorem leftBehind_of_ne_nil (h : forall m, m ∈ front -> m.mtext ≠ []) : leftBehind front = [] := by
  unfold leftBehind
  rw [List.dropWhile_eq_nil_iff.mpr (by simpa using h)]
  rfl

theorem leftBehind_cut {m : Msg} (h : forall x, x ∈ front -> x.mtext ≠ []) (hm : m.mtext = []) :
    leftBehind (front ++ m :: rest) = rest := by
  unfold leftBehind
  rw [List.dropWhile_append_of_pos (by simpa using h), List.dropWhile_cons_of_neg (by simp [hm])]
  rfl

theorem leftBehind_snoc {m : Msg} (h : exists x, x ∈ front ∧ x.mtext = []) :
    leftBehind (front ++ [m]) = leftBehind front ++ [m] := by
  unfold leftBehind
  induction front with
  | nil =>
      rcases h with ⟨x, hx, _⟩
      cases hx
  | cons first front ih =>
      by_cases hfirst : first.mtext = []
      · simp [hfirst]
      · rcases h with ⟨x, hx, hempty⟩
        rcases List.mem_cons.mp hx with rfl | hx
        · exact absurd hempty hfirst
        · rw [List.cons_append, List.dropWhile_cons_of_pos (by simpa using hfirst),
            List.dropWhile_cons_of_pos (by simpa using hfirst)]
          exact ih ⟨x, hx, hempty⟩

theorem mem_of_leftBehind {m : Msg} (h : m ∈ leftBehind front) : m ∈ front :=
  ((List.tail_sublist _).trans (List.dropWhile_sublist _)).subset h

variable {client : Type} {sys : System client}

theorem ofType_leftBehind {c : client} {t : Int} (hfront : forall m, m ∈ front -> m ∈ sys.replies c)
    (ht : (sys.pid c).val ≠ t) : ofType Msg.mtype t (leftBehind front) = [] := by
  apply ofType_eq_nil
  intro m hm
  rcases List.mem_map.mp (hfront m (mem_of_leftBehind hm)) with ⟨text, _, rfl⟩
  exact ht

theorem ofType_leftBy {served : List client} {t : Int}
    (ht : forall c, c ∈ served -> (sys.pid c).val ≠ t) :
    ofType Msg.mtype t (leftBy sys served) = [] := by
  apply ofType_eq_nil
  intro m hm
  rcases List.mem_flatMap.mp hm with ⟨c, hc, hleft⟩
  rcases List.mem_map.mp (mem_of_leftBehind hleft) with ⟨text, _, rfl⟩
  exact ht c hc

theorem leftBy_concat (served : List client) (c : client) :
    leftBy sys (served ++ [c]) = leftBy sys served ++ leftBehind (sys.replies c) := by
  unfold leftBy
  rw [List.flatMap_append, List.flatMap_singleton]

theorem servable_concat {served : List client} {c : client} :
    Servable sys (served ++ [c]) <->
      Servable sys served ∧ Fits sys.msg_qbytes (leftBy sys served ++ [sys.requestMsg c]) := by
  constructor
  · intro h
    exact ⟨fun before d after heq => h before d (after ++ [c]) (by simp [heq]),
      h served c [] rfl⟩
  · rintro ⟨hserved, hlast⟩ before d after heq
    rcases snoc_eq_cut heq with ⟨_, rfl, rfl⟩ | ⟨mid, _, hmid⟩
    · exact hlast
    · exact hserved before d mid hmid

end LeftBehind

/-!
# The queue of a deadlock
-/

section Sufficient

variable {client : Type} {sys : System client} {h : History client} {s : State client}

theorem requested_of_accepted (hr : Routed sys h s) {c : client}
    (hc : sys.requestMsg c ∈ h.accepted) : c ∈ h.requested := by
  have hmem := List.mem_append_left (ofType Msg.mtype 1 s.queue) hc
  rw [hr.requests.fifo] at hmem
  rcases List.mem_map.mp hmem with ⟨d, hd, heq⟩
  exact System.requestMsg_injective heq ▸ hd

theorem accepted_of_produced (hr : Routed sys h s) {c : client}
    (hc : producedFor h.produced (sys.requestMsg c) ≠ []) : sys.requestMsg c ∈ h.accepted := by
  have howed := hr.replies.owed c
  by_contra hnot
  rw [if_neg hnot] at howed
  exact hc (List.append_eq_nil_iff.mp howed).1

theorem ofType_of_unsent (hr : Routed sys h s) {c : client} (hc : c ∉ h.requested) :
    ofType Msg.mtype (sys.pid c).val s.queue = [] := by
  by_contra hqueue
  apply hc
  apply requested_of_accepted hr
  apply accepted_of_produced hr
  rw [← hr.replies.delivered c]
  exact fun hnil => hqueue (List.append_eq_nil_iff.mp hnil).2

theorem ofType_of_blocked (hr : Routed sys h s) {c : client}
    (hc : (s.clients c).pc ≠ ClientPc.stopped -> ClientBlocked sys s c) :
    ofType Msg.mtype (sys.pid c).val s.queue =
      leftBehind (producedFor h.produced (sys.requestMsg c)) := by
  have hclient := hr.clients c
  rw [← hr.replies.delivered c]
  by_cases hpc : (s.clients c).pc = ClientPc.stopped
  · rcases hclient.ended hpc with ⟨front, m, hreceived, hm, hfront⟩
    rw [hreceived, List.append_assoc]
    exact (leftBehind_cut hfront hm).symm
  · have hnone : ofType Msg.mtype (sys.pid c).val s.queue = [] := by
      rcases hc hpc with ⟨hsend, _⟩ | ⟨hreceive, htake⟩
      · exact ofType_of_unsent hr (hclient.unsent hsend)
      · rw [hclient.asking hreceive] at htake
        exact takeType_eq_none_iff.mp htake
    rw [hnone, List.append_nil, leftBehind_of_ne_nil (hclient.reading hpc)]

theorem leftBehind_sublist (hr : Routed sys h s) (c : client) :
    (leftBehind (producedFor h.produced (sys.requestMsg c))).Sublist
      (ofType Msg.mtype (sys.pid c).val s.queue) := by
  have hclient := hr.clients c
  rw [← hr.replies.delivered c]
  by_cases hpc : (s.clients c).pc = ClientPc.stopped
  · rcases hclient.ended hpc with ⟨front, m, hreceived, hm, hfront⟩
    rw [hreceived, List.append_assoc]
    exact (leftBehind_cut hfront hm) ▸ List.Sublist.refl _
  · have hreading := hclient.reading hpc
    unfold leftBehind
    rw [List.dropWhile_append_of_pos (by simpa using hreading)]
    exact (List.tail_sublist _).trans (List.dropWhile_sublist _)

theorem requests_split (hr : Routed sys h s) {c : client}
    (hlast : h.accepted.getLast? = some (sys.requestMsg c)) :
    exists earlier later, h.accepted = (earlier ++ [c]).map sys.requestMsg ∧
      ofType Msg.mtype 1 s.queue = later.map sys.requestMsg ∧ (c :: earlier ++ later).Nodup := by
  rcases List.map_eq_append_iff.mp hr.requests.fifo.symm with
    ⟨served, later, hrequested, haccepted, hqueue⟩
  rcases List.eq_nil_or_concat served with rfl | ⟨earlier, d, rfl⟩
  · rw [← haccepted] at hlast
    cases hlast
  · rw [List.concat_eq_append] at hrequested haccepted
    rw [← haccepted, List.map_append, List.map_singleton, List.getLast?_concat] at hlast
    cases System.requestMsg_injective (Option.some.inj hlast)
    refine ⟨earlier, later, haccepted.symm, hqueue.symm, ?_⟩
    have hperm : (earlier ++ [c] ++ later).Perm (c :: earlier ++ later) :=
      (List.perm_append_singleton c earlier).append_right later
    rw [← hperm.nodup_iff, ← hrequested]
    exact hr.requests.nodup

/-- The queue has requests, and replies to clients whose requests the server has received. -/
theorem queue_perm (hr : Routed sys h s) {served : List client}
    (haccepted : h.accepted = served.map sys.requestMsg) (hnodup : served.Nodup) :
    s.queue.Perm (ofType Msg.mtype 1 s.queue ++
      served.flatMap fun c => ofType Msg.mtype (sys.pid c).val s.queue) := by
  have htypes : (1 :: served.map fun c => (sys.pid c).val).Nodup := by
    rw [List.nodup_cons]
    constructor
    · intro hone
      rcases List.mem_map.mp hone with ⟨c, _, hc⟩
      exact System.pid_ne_one hc
    · exact List.Nodup.map (fun _ _ => System.pid_val_inj) hnodup
  have hperm := perm_flatMap_ofType Msg.mtype htypes (q := s.queue) (by
    intro m hm
    rcases hr.replies.addressed m hm with hone | ⟨c, hc⟩
    · rw [hone]
      exact List.mem_cons_self
    · have hproduced : producedFor h.produced (sys.requestMsg c) ≠ [] := by
        rw [← hr.replies.delivered c]
        intro hnil
        have hmem : m ∈ ofType Msg.mtype (sys.pid c).val s.queue :=
          List.mem_filter.mpr ⟨hm, by simpa using hc⟩
        rw [(List.append_eq_nil_iff.mp hnil).2] at hmem
        cases hmem
      have hmem := accepted_of_produced hr hproduced
      rw [haccepted] at hmem
      rcases List.mem_map.mp hmem with ⟨d, hd, heq⟩
      cases System.requestMsg_injective heq
      rw [hc]
      exact List.mem_cons_of_mem 1 (List.mem_map.mpr ⟨c, hd, rfl⟩))
  rw [List.flatMap_cons, List.flatMap_map] at hperm
  exact hperm

/-- In a deadlock the queue is a backlog, and the server is about to send the next reply. -/
theorem backlog_of_deadlock (hr : Routed sys h s) {m : Msg} (hm : s.server.outgoing = some m)
    (hclients : forall c, (s.clients c).pc ≠ ClientPc.stopped -> ClientBlocked sys s c) :
    exists c front back earlier later, sys.replies c = front ++ m :: back ∧
      h.accepted = (earlier ++ [c]).map sys.requestMsg ∧ (c :: earlier ++ later).Nodup ∧
      s.queue.Perm (backlog sys earlier later front) := by
  rcases hr.replies.serving (by rw [hm]; simp) with ⟨c, hlast, htype⟩
  rcases requests_split hr hlast with ⟨earlier, later, haccepted, hlater, hnodup⟩
  rcases afterSend_spec one_lt_MAXMESGDATA hm with ⟨srv, _, howed, hmtype, _⟩
  have hmsg : Msg.mk (sys.pid c).val m.mtext = m := by
    rw [← htype, ← hmtype]
  have hmem : forall e, e ∈ earlier ++ [c] -> sys.requestMsg e ∈ h.accepted := fun e he =>
    haccepted ▸ List.mem_map_of_mem he
  rcases List.nodup_cons.mp (List.nodup_append.mp hnodup).1 with ⟨hc, hearlier⟩
  -- what is left in the queue of the replies to the earlier clients
  have hleft : forall e, e ∈ earlier -> ofType Msg.mtype (sys.pid e).val s.queue =
      leftBehind (sys.replies e) := by
    intro e he
    have hne : sys.requestMsg c ≠ sys.requestMsg e := by
      intro heq
      cases System.requestMsg_injective heq
      exact hc he
    have hreplies := hr.replies.owed e
    rw [if_pos (hmem e (List.mem_append_left [c] he)), owedTo, hlast,
      if_neg (fun heq => hne (Option.some.inj heq)), List.append_nil] at hreplies
    rw [ofType_of_blocked hr (hclients e), hreplies]
  have hreplies := hr.replies.owed c
  rw [if_pos (hmem c (by simp)), owedTo, if_pos hlast, howed, List.map_cons, hmsg] at hreplies
  refine ⟨c, _, _, earlier, later, hreplies.symm, haccepted, hnodup, ?_⟩
  have hserved : (earlier ++ [c]).Nodup := by
    rw [← List.concat_eq_append]
    exact hearlier.concat hc
  have hperm := queue_perm hr haccepted hserved
  rw [hlater, List.flatMap_append, List.flatMap_singleton, List.flatMap_congr hleft,
    ofType_of_blocked hr (hclients c)] at hperm
  exact hperm.trans List.perm_append_comm

theorem fits_of_accept (hr : Routed sys h s) (hserver : s.server.outgoing = none) {c : client}
    {queue : List Msg} (htake : takeType Msg.mtype 1 s.queue = some (sys.requestMsg c, queue))
    {served : List client} (haccepted : h.accepted = served.map sys.requestMsg) :
    Fits sys.msg_qbytes (leftBy sys served ++ [sys.requestMsg c]) := by
  have hnodup : served.Nodup := by
    have hall := List.Nodup.map (f := sys.requestMsg) System.requestMsg_injective hr.requests.nodup
    rw [← hr.requests.fifo, haccepted] at hall
    exact (List.nodup_append.mp hall).1.of_map
  have hleft : (leftBy sys served).Sublist
      (served.flatMap fun e => ofType Msg.mtype (sys.pid e).val s.queue) := by
    apply List.Sublist.flatMap_right
    intro e he
    have hreplies := hr.replies.owed e
    rw [owedTo_done hserver, List.append_nil,
      if_pos (haccepted ▸ List.mem_map_of_mem he)] at hreplies
    rw [← hreplies]
    exact leftBehind_sublist hr e
  have hrequest : [sys.requestMsg c].Sublist (ofType Msg.mtype 1 s.queue) := by
    rw [(takeType_self htake).2]
    exact List.singleton_sublist.mpr List.mem_cons_self
  have hperm := (queue_perm hr haccepted hnodup).trans List.perm_append_comm
  exact (hr.room.perm hperm).sublist (hleft.append hrequest)

end Sufficient

section Runs

variable {client : Type} [DecidableEq client] {sys : System client} {s : State client}

/-- The clients whose requests the server has received can be served in this order. -/
theorem servable_run {tr : List (Transition (State client) (Action client) (Event client))}
    (hrun : Run Init (step sys) tr s) : forall served : List client,
      (observed History.observe History.empty tr).accepted = served.map sys.requestMsg ->
        Servable sys served := by
  apply run_induction (I := fun tr _ => forall served : List client,
    (observed History.observe History.empty tr).accepted = served.map sys.requestMsg ->
      Servable sys served) ?_ ?_ hrun
  · intro s _ served haccepted
    cases List.map_eq_nil_iff.mp haccepted.symm
    intro before c after h
    simp at h
  · intro tr s a o t hprior ih hstep served haccepted
    rw [observed_snoc] at haccepted
    cases stepped_of_step hstep with
    | accept hpc htake =>
        rcases List.map_eq_append_iff.mp haccepted.symm with ⟨before, last, rfl, hbefore, hlast⟩
        rcases List.map_eq_singleton_iff.mp hlast with ⟨c, rfl, rfl⟩
        exact servable_concat.mpr ⟨ih before hbefore.symm,
          fits_of_accept (routed_run hprior) (outgoing_of_done hpc) htake hbefore.symm⟩
    | _ => exact ih served haccepted

theorem not_deadlocked_of_repliesFit (hfit : RepliesFit sys) (hs : Reachable Init (step sys) s) :
    ¬ Deadlocked sys s := by
  rcases hs with ⟨tr, hrun⟩
  have hr := routed_run hrun
  rintro ⟨⟨m, hm, hroom⟩, hclients⟩
  rcases backlog_of_deadlock hr hm hclients with
    ⟨c, front, back, earlier, later, hreplies, haccepted, hnodup, hperm⟩
  have hservable := servable_run hrun _ haccepted
  have hnext := hfit c front m back hreplies earlier later hnodup hservable (hr.room.perm hperm)
  exact hroom (hnext.perm (hperm.symm.append_right [m]))

end Runs

end Cliserv
end Svmsg
end InterprocessComm
