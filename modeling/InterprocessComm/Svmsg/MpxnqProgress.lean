import InterprocessComm.Lib.Ranking
import InterprocessComm.Lib.Threads
import InterprocessComm.Svmsg.MpxnqReplies

/-!
# Every client is served

Where no queue is shared the clients and the children do not wait for each other: only a request
without a child leaves its client waiting.  The steps of each client and of its child are counted.
-/

namespace InterprocessComm
namespace Svmsg
namespace Mpxnq

open Verification

section Progress

variable {client : Type} [DecidableEq client] {sys : System client} {h : History client}
  {s : State client} {c : client}

/-!
# States without a step
-/

theorem requests_of_stuck (hr : Routed sys h s) (hstuck : Stuck (step sys) s) :
    s.queues sys.msqid = some [] := by
  rcases hr.requests.fifo with ⟨q, hqueue, _⟩
  cases q with
  | nil => exact hqueue
  | cons m rest =>
      have hold := hr.requests
      rw [hqueue] at hold
      have htake : takeType Msg.mtype 1 (m :: rest) = some (m, rest) := takeType_all hold.mtype
      rcases hold.accept htake with ⟨_, _, d, rfl⟩
      rcases sys.accept_spec s.mesg d with ⟨mesg', child, haccept, _⟩
      have hstep := hstuck (Action.accept true)
      simp [step, hqueue, htake, haccept] at hstep

theorem queue_of_stuck (hr : Routed sys h s) (hstuck : Stuck (step sys) s)
    (hpc : (s.clients c).pc = ClientPc.receive) : s.queues (sys.readid c) = some [] := by
  cases hqueue : s.queues (sys.readid c) with
  | none =>
      rcases (hr.queues c).absent.mp hqueue with hplace | hplace
      · cases hpc.symm.trans hplace
      · cases hpc.symm.trans hplace
  | some q =>
      cases q with
      | nil => rfl
      | cons m rest =>
          have htake : takeType Msg.mtype (s.clients c).mesg.mesg_type (m :: rest) =
              some (m, rest) := by
            rw [(hr.clients c).asking hpc]
            exact takeType_all (hr.reply_mtype hqueue)
          have hstep := hstuck (Action.receive c)
          simp [step, hpc, hqueue, htake] at hstep

theorem place_of_stuck (hr : Routed sys h s) (hstuck : Stuck (step sys) s)
    (hroom : MAXMESGDATA ≤ sys.msg_qbytes) (c : client) :
    (s.clients c).pc = ClientPc.receive ∨ (s.clients c).pc = ClientPc.stopped := by
  cases hpc : (s.clients c).pc with
  | create =>
      have hstep := hstuck (Action.create c)
      simp [step, hpc] at hstep
  | start =>
      rcases sys.request_spec (s.clients c).mesg c with ⟨mesg', hmesg', _⟩
      have hstep := hstuck (Action.build c)
      simp [step, hpc, hmesg'] at hstep
  | send =>
      have hlength := sys.requestMsg_length_lt c
      have hfits : Cliserv.Fits sys.msg_qbytes ([] ++ [sys.requestMsg c]) := by
        constructor
        · simp
          lia
        · simp
          lia
      have hstep := hstuck (Action.send c)
      rw [step, hpc] at hstep
      simp only [(hr.clients c).request hpc, msgsnd, requests_of_stuck hr hstuck, if_pos hfits,
        Option.map_some] at hstep
      cases hstep
  | receive => exact Or.inl rfl
  | remove =>
      have hstep := hstuck (Action.remove c)
      simp [step, hpc] at hstep
  | stopped => exact Or.inr rfl

omit [DecidableEq client] in
theorem reply_length_lt {m : Msg} (hm : m ∈ sys.replies c) : m.mtext.length < MAXMESGDATA := by
  rcases List.mem_map.mp hm with ⟨text, htext, rfl⟩
  have hlength : (sys.requestMsg c).mtext.length =
      (idText (sys.readid c)).length + (sys.path c).length := List.length_append
  exact replyText_length_lt (sys.requestMsg_length_lt c) (by lia) htext

theorem done_of_stuck (hr : Routed sys h s) (hstuck : Stuck (step sys) s)
    (hroom : MAXMESGDATA ≤ sys.msg_qbytes) {child : ChildProcess} (hchild : child ∈ s.children) :
    child.srv.outgoing = none := by
  rcases hr.children.each child hchild with ⟨c, hc⟩
  rcases List.mem_iff_getElem?.mp hchild with ⟨i, hi⟩
  cases hm : child.srv.outgoing with
  | none => rfl
  | some m =>
      rcases afterSend_spec one_lt_MAXMESGDATA hm with ⟨srv, hsrv, howed, hmtype, _⟩
      have hmem : m ∈ sys.replies c := by
        have hmsg : Msg.mk 1 m.mtext = m := by
          rw [← hc.mesg_type, ← hmtype]
        rw [← hc.owed, howed, List.map_cons, hmsg]
        simp
      have hlength := reply_length_lt hmem
      have hstep := hstuck (Action.reply i)
      simp only [step, hi, hm, Option.bind_some, msgsnd, hsrv, Option.map_some] at hstep
      cases hqueue : s.queues child.writeid with
      | none =>
          rw [hqueue] at hstep
          cases hstep
      | some q =>
          rw [hqueue] at hstep
          -- the client is in its loop, so it has taken all that was in its queue
          rw [hc.writeid] at hqueue
          have hempty : q = [] := by
            rcases place_of_stuck hr hstuck hroom c with hpc | hpc
            · exact Option.some.inj (hqueue.symm.trans (queue_of_stuck hr hstuck hpc))
            · rw [(hr.queues c).absent.mpr (Or.inr hpc)] at hqueue
              cases hqueue
          have hfits : Cliserv.Fits sys.msg_qbytes (q ++ [m]) := by
            rw [hempty]
            constructor
            · simp
              lia
            · simp
              lia
          simp only [if_pos hfits, Option.bind_some] at hstep
          cases hstep

theorem refused_of_stuck (hr : Routed sys h s) (hstuck : Stuck (step sys) s)
    (hroom : MAXMESGDATA ≤ sys.msg_qbytes) (hpc : (s.clients c).pc = ClientPc.receive) :
    sys.requestMsg c ∈ h.refused := by
  have hrequested : c ∈ h.requested := (hr.clients c).sent.mpr (Or.inl hpc)
  have haccepted : sys.requestMsg c ∈ h.accepted := by
    rcases hr.requests.fifo with ⟨q, hqueue, hfifo⟩
    cases hqueue.symm.trans (requests_of_stuck hr hstuck)
    rw [List.append_nil] at hfifo
    rw [hfifo]
    exact List.mem_map_of_mem hrequested
  rcases hr.children.forked c haccepted with hchild | hrefused
  · rcases List.mem_map.mp hchild with ⟨child, hmem, hid⟩
    rcases hr.children.each child hmem with ⟨d, hd⟩
    cases System.readid_inj (hd.writeid.symm.trans hid)
    -- all the replies have been received, with the empty one at the end
    have howed := hd.owed
    rw [outgoing_none (done_of_stuck hr hstuck hroom hmem), List.map_nil, List.append_nil, hid]
      at howed
    have hall := (hr.queues c).held [] (queue_of_stuck hr hstuck hpc)
    rw [List.append_nil, howed] at hall
    have hend : (⟨1, []⟩ : Msg) ∈ h.received c := by
      rw [hall]
      exact List.mem_map_of_mem (sys.texts_ended c)
    exact absurd rfl ((hr.clients c).reading hpc _ hend)
  · exact hrefused

omit [DecidableEq client] in
theorem not_stopped_of_refused (hr : Routed sys h s) (hrefused : sys.requestMsg c ∈ h.refused) :
    (s.clients c).pc ≠ ClientPc.stopped := by
  intro hpc
  rcases (hr.clients c).ended (Or.inr hpc) with ⟨front, m, hreceived, _⟩
  have hearlier := (hr.queues c).earlier
  rw [hr.children.silent _ (hr.children.refused c hrefused).2, hreceived] at hearlier
  simpa using List.prefix_nil.mp hearlier

end Progress

/-!
# Ranks
-/

section Ranks

variable {client : Type} [DecidableEq client] {sys : System client} {h : History client}
  {s t : State client} {c : client}

/-- The steps of the client before its loop and behind it. -/
def ClientPc.rank : ClientPc -> Nat
  | ClientPc.create => 4
  | ClientPc.start => 3
  | ClientPc.send => 2
  | ClientPc.receive => 1
  | ClientPc.remove => 1
  | ClientPc.stopped => 0

/-- What is left for a client, for the server and for the child of the client. -/
def rankOf (sys : System client) (h : History client) (s : State client) (c : client) : Nat :=
  (s.clients c).pc.rank + ((s.queues (sys.readid c)).getD []).length +
    2 * ((sys.texts c).length - (h.sent (sys.readid c)).length) +
    (if sys.requestMsg c ∈ h.accepted then 0 else 1)

omit [DecidableEq client] in
theorem rankOf_congr {h' : History client} (hpc : (t.clients c).pc = (s.clients c).pc)
    (hqueue : t.queues (sys.readid c) = s.queues (sys.readid c))
    (hsent : h'.sent (sys.readid c) = h.sent (sys.readid c))
    (haccepted : sys.requestMsg c ∈ h'.accepted <-> sys.requestMsg c ∈ h.accepted) :
    rankOf sys h' t c = rankOf sys h s c := by
  unfold rankOf
  rw [hpc, hqueue, hsent]
  simp only [haccepted]

/-- Each step is a step of one client, of the server for one client, or of one child. -/
theorem rank_step (hr : Routed sys h s) {a : Action client} {o : Event client}
    (hstep : step sys s a = some (t, o)) :
    exists c, rankOf sys (h.observe o) t c < rankOf sys h s c ∧
      forall d, d ≠ c -> rankOf sys (h.observe o) t d = rankOf sys h s d := by
  cases stepped_of_step hstep with
  | @create c hpc =>
      refine ⟨c, ?_, ?_⟩
      · simp [rankOf, History.observe, hpc, ClientPc.rank]
        lia
      · intro d hne
        exact rankOf_congr (by simp [hne]) (Function.update_of_ne (readid_ne_of_ne hne) ..) rfl
          Iff.rfl
  | @build c mesg hpc hmesg =>
      refine ⟨c, ?_, ?_⟩
      · simp [rankOf, History.observe, hpc, ClientPc.rank]
        lia
      · intro d hne
        exact rankOf_congr (by simp [hne]) rfl rfl Iff.rfl
  | @send c queues hpc hsend =>
      rcases msgsnd_spec hsend with ⟨_, hothers⟩
      refine ⟨c, ?_, ?_⟩
      · simp [rankOf, History.observe, hpc, ClientPc.rank, hothers _ (sys.readid_ne c)]
        lia
      · intro d hne
        exact rankOf_congr (by simp [hne]) (hothers _ (sys.readid_ne d)) rfl Iff.rfl
  | @receiveNone c hpc hqueue =>
      rcases (hr.queues c).absent.mp hqueue with hplace | hplace
      · cases hpc.symm.trans hplace
      · cases hpc.symm.trans hplace
  | @receive c m q q' hpc hqueue htake =>
      rw [(hr.clients c).asking hpc, takeType_all (hr.reply_mtype hqueue)] at htake
      cases q with
      | nil => cases htake
      | cons first rest =>
          cases htake
          refine ⟨c, ?_, ?_⟩
          · have hbefore : (s.clients c).pc.rank = 1 := by
              rw [hpc]
              rfl
            have hafter : ((s.clients c).receives m).pc.rank = 1 := by
              rw [receives_pc, hpc]
              split <;> rfl
            simp [rankOf, History.observe, hbefore, hafter, hqueue]
            lia
          · intro d hne
            exact rankOf_congr (by simp [hne])
              (Function.update_of_ne (readid_ne_of_ne hne) ..) rfl Iff.rfl
  | @remove c hpc =>
      refine ⟨c, ?_, ?_⟩
      · simp [rankOf, History.observe, hpc, ClientPc.rank]
        lia
      · intro d hne
        exact rankOf_congr (by simp [hne]) (Function.update_of_ne (readid_ne_of_ne hne) ..) rfl
          Iff.rfl
  | @accept m q q' mesg child forked hqueue htake haccept =>
      have hold := hr.requests
      rw [hqueue] at hold
      rcases hold.accept htake with ⟨_, hnew, c, rfl⟩
      have hqueues : forall d, Function.update s.queues sys.msqid (some q') (sys.readid d) =
          s.queues (sys.readid d) := fun d => Function.update_of_ne (sys.readid_ne d) ..
      refine ⟨c, ?_, ?_⟩
      · simp [rankOf, History.observe, hqueues, hnew]
      · intro d hne
        refine rankOf_congr rfl (hqueues d) rfl ?_
        have hother : sys.requestMsg d ≠ sys.requestMsg c := fun heq =>
          hne (System.requestMsg_injective heq)
        simp [History.observe, hother]
  | @reply i child m queues srv hchild hm hsend hsrv =>
      rcases hr.children.reply hchild hm hsrv with ⟨⟨c, hwriteid, _⟩, hchildren⟩
      rcases msgsnd_spec hsend with ⟨hqueue, hothers⟩
      refine ⟨c, ?_, ?_⟩
      · have hsent := (hchildren.sent_prefix c).length_le
        rw [← hwriteid, Function.update_self, List.length_append, List.length_singleton,
          System.replies, List.length_map] at hsent
        have hlength : ((queues child.writeid).getD []).length ≤
            ((s.queues child.writeid).getD []).length + 1 := by
          rw [hqueue]
          cases s.queues child.writeid <;> simp
        simp [rankOf, History.observe, ← hwriteid]
        lia
      · intro d hne
        have hother : (sys.readid d : Int) ≠ child.writeid := by
          rw [hwriteid]
          exact readid_ne_of_ne hne
        exact rankOf_congr rfl (hothers _ hother) (Function.update_of_ne hother ..) Iff.rfl

omit [DecidableEq client] in
theorem rankOf_init (hs : Init sys s) (c : client) :
    rankOf sys History.empty s c = 5 + 2 * (sys.texts c).length := by
  simp [rankOf, History.empty, (hs.clients c).1, hs.replies c, ClientPc.rank]
  lia

end Ranks

/-!
# Service
-/

section Service

variable {client : Type} [DecidableEq client]

/-- There was no child for the request of the client. -/
def Refused (sys : System client)
    (tr : List (Transition (State client) (Action client) (Event client))) (c : client) : Prop :=
  exists e, e ∈ tr ∧ e.event = Event.accepted (sys.requestMsg c) false

theorem refused_iff (sys : System client)
    (tr : List (Transition (State client) (Action client) (Event client))) (c : client) :
    sys.requestMsg c ∈ (observed History.observe History.empty tr).refused <->
      Refused sys tr c := by
  induction tr using List.reverseRecOn with
  | nil => simp [Refused, observed, History.empty]
  | append_singleton front e ih =>
      have hsnoc : Refused sys (front ++ [e]) c <->
          Refused sys front c ∨ e.event = Event.accepted (sys.requestMsg c) false := by
        simp [Refused, or_and_right, exists_or]
      rw [observed_snoc, hsnoc, ← ih]
      cases e.event with
      | accepted m forked => cases forked <;> simp [History.observe, eq_comm]
      | _ => simp [History.observe]

/-- Where the service comes to rest, all children are done, and a client waits exactly if there was
no child for its request. -/
theorem clients_wait_iff_refused (sys : System client) (hroom : MAXMESGDATA ≤ sys.msg_qbytes)
    {tr : List (Transition (State client) (Action client) (Event client))} {s : State client}
    (hrun : Run (Init sys) (step sys) tr s) (hstuck : Stuck (step sys) s) :
    (forall child, child ∈ s.children -> child.srv.outgoing = none) ∧
      forall c, ((s.clients c).pc = ClientPc.stopped ∧ ¬ Refused sys tr c) ∨
        ((s.clients c).pc = ClientPc.receive ∧ Refused sys tr c) := by
  have hr := routed_run hrun
  refine ⟨fun child => done_of_stuck hr hstuck hroom, ?_⟩
  intro c
  rcases place_of_stuck hr hstuck hroom c with hpc | hpc
  · exact Or.inr ⟨hpc, (refused_iff sys tr c).mp (refused_of_stuck hr hstuck hroom hpc)⟩
  · exact Or.inl ⟨hpc, fun hrefused =>
      not_stopped_of_refused hr ((refused_iff sys tr c).mpr hrefused) hpc⟩

/-- What is to be looked at to see that no action is possible. -/
def Rests (sys : System client) (s : State client) : Prop :=
  (forall c a, a ∈ [Action.create c, Action.build c, Action.send c, Action.receive c,
      Action.remove c] -> (step sys s a).isNone) ∧
    (forall forked, (step sys s (Action.accept forked)).isNone) ∧
      forall i, i < s.children.length -> (step sys s (Action.reply i)).isNone

instance [Fintype client] (sys : System client) (s : State client) : Decidable (Rests sys s) :=
  inferInstanceAs (Decidable (_ ∧ _))

theorem stuck_of_rests {sys : System client} {s : State client} (h : Rests sys s) :
    Stuck (step sys) s := by
  rcases h with ⟨hclients, haccept, hreply⟩
  intro a
  rw [← Option.isNone_iff_eq_none]
  cases a with
  | accept forked => exact haccept forked
  | reply i =>
      rcases Nat.lt_or_ge i s.children.length with hlt | hge
      · exact hreply i hlt
      · simp [step, List.getElem?_eq_none hge]
  | _ c => exact hclients c _ (by simp)

/-- The `fork` for the second client fails. -/
theorem clients_wait_iff_refused_twoClients :
    exists (tr : List (Transition (State (Fin 2)) (Action (Fin 2)) (Event (Fin 2))))
      (s : State (Fin 2)),
      (s.clients 0).pc = ClientPc.stopped ∧
        ¬ Refused (twoClients fun _ => Except.ok [97, 10]) tr 0 ∧
      (s.clients 1).pc = ClientPc.receive ∧
        Refused (twoClients fun _ => Except.ok [97, 10]) tr 1 ∧
      s.children.length = 1 ∧ forall child, child ∈ s.children -> child.srv.outgoing = none := by
  have hreplay : exists (tr : List (Transition (State (Fin 2)) (Action (Fin 2)) (Event (Fin 2))))
      (s : State (Fin 2)),
      Run (Init (twoClients fun _ => Except.ok [97, 10]))
          (step (twoClients fun _ => Except.ok [97, 10])) tr s ∧
        decide (Rests (twoClients fun _ => Except.ok [97, 10]) s ∧
          (s.clients 0).pc = ClientPc.stopped ∧ (s.clients 1).pc = ClientPc.receive ∧
            s.children.length = 1) = true :=
    run_of_replay
      [Action.create 0, Action.create 1, Action.build 0, Action.build 1, Action.send 0,
        Action.send 1, Action.accept true, Action.accept false, Action.reply 0, Action.receive 0,
        Action.reply 0, Action.receive 0, Action.remove 0]
      (init_firstState _) (by decide +kernel)
  rcases hreplay with ⟨tr, s, hrun, htest⟩
  rcases of_decide_eq_true htest with ⟨hrests, hstopped, hreceive, hlength⟩
  rcases clients_wait_iff_refused _ (by decide) hrun (stuck_of_rests hrests) with ⟨hdone, hclients⟩
  refine ⟨tr, s, hstopped, ?_, hreceive, ?_, hlength, hdone⟩
  · rcases hclients 0 with ⟨_, haccepted⟩ | ⟨hwaits, _⟩
    · exact haccepted
    · exact absurd (hstopped.symm.trans hwaits) (by decide)
  · rcases hclients 1 with ⟨hends, _⟩ | ⟨_, hrefused⟩
    · exact absurd (hreceive.symm.trans hends) (by decide)
    · exact hrefused

/-- However the processes are scheduled, the service of finitely many clients comes to rest after
a bounded number of steps, and every run goes on to there. -/
theorem service_ends [Fintype client] (sys : System client)
    {tr : List (Transition (State client) (Action client) (Event client))} {s : State client}
    (hrun : Run (Init sys) (step sys) tr s) :
    tr.length ≤ total id (fun c => 5 + 2 * (sys.texts c).length) ∧
      exists more t, Path (step sys) s more t ∧ Stuck (step sys) t := by
  have hbound : forall (tr : List (Transition (State client) (Action client) (Event client))) s,
      Run (Init sys) (step sys) tr s ->
        tr.length ≤ total id (fun c => 5 + 2 * (sys.texts c).length) := by
    intro tr s hrun
    have hinit : forall s, Init sys s -> Routed sys History.empty s ∧
        total id (rankOf sys History.empty s) ≤
          total id (fun c => 5 + 2 * (sys.texts c).length) := by
      intro s hs
      exact ⟨routed_init hs, Nat.le_of_eq (total_congr fun c => rankOf_init hs c)⟩
    have hstep : forall h s a o t, Routed sys h s -> step sys s a = some (t, o) ->
        Routed sys (h.observe o) t ∧
          total id (rankOf sys (h.observe o) t) < total id (rankOf sys h s) := by
      intro h s a o t hr hlast
      rcases rank_step hr hlast with ⟨c, hless, hothers⟩
      exact ⟨routed_step hr hlast, total_lt_of_one hless hothers⟩
    have hle := run_length_add_rank_le History.observe History.empty (Routed sys)
      (fun h s => total id (rankOf sys h s)) hinit hstep hrun
    lia
  exact ⟨hbound tr s hrun, run_to_stuck hbound hrun⟩

/-- Two clients with two replies each; the first child has sent the first of its replies. -/
theorem service_ends_twoClients :
    exists (tr : List (Transition (State (Fin 2)) (Action (Fin 2)) (Event (Fin 2))))
      (s : State (Fin 2)),
      tr.length = 5 ∧ s.children.length = 1 ∧ tr.length ≤ 18 ∧
        exists more t, Path (step (twoClients fun _ => Except.ok [97, 10])) s more t ∧
          Stuck (step (twoClients fun _ => Except.ok [97, 10])) t := by
  have hreplay : exists (tr : List (Transition (State (Fin 2)) (Action (Fin 2)) (Event (Fin 2))))
      (s : State (Fin 2)),
      Run (Init (twoClients fun _ => Except.ok [97, 10]))
          (step (twoClients fun _ => Except.ok [97, 10])) tr s ∧
        decide (tr.length = 5 ∧ s.children.length = 1) = true :=
    run_of_replay
      [Action.create 0, Action.build 0, Action.send 0, Action.accept true, Action.reply 0]
      (init_firstState _) (by decide +kernel)
  rcases hreplay with ⟨tr, s, hrun, htest⟩
  rcases of_decide_eq_true htest with ⟨hlength, hchildren⟩
  rcases service_ends (twoClients fun _ => Except.ok [97, 10]) hrun with ⟨hbound, hgoes⟩
  exact ⟨tr, s, hlength, hchildren, hbound, hgoes⟩

end Service

end Mpxnq
end Svmsg
end InterprocessComm
