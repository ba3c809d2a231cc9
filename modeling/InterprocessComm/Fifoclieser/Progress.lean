import InterprocessComm.Fifoclieser.Delivery
import InterprocessComm.Fifoclieser.Service
import InterprocessComm.Lib.Ranking
import InterprocessComm.Lib.Threads

/-!
# The service comes to an end

A state in which nobody can go on is one in which every client has read its answer, and the steps
up to there are counted.
-/

namespace InterprocessComm
namespace Fifoclieser
namespace Answers

open Verification
open Svmsg (NEWLINE)

section Stuck

variable {client : Type} [DecidableEq client] {sys : System client} {queue : List client}
  {s t : State client} {c d : client}

theorem no_clientStep (hstuck : Stuck (step sys) s) (c : client) : clientStep sys s c = none :=
  Option.map_eq_none_iff.mp (hstuck (Action.client c))

theorem no_serverStep (hstuck : Stuck (step sys) s) : serverStep sys s = none :=
  Option.map_eq_none_iff.mp (hstuck Action.server)

theorem clientStep_ne_none {pc : ClientPc} {received : List UInt8} {f : Fifo}
    (hclient : s.clients c = ⟨pc, received⟩) (hpc : pc = ClientPc.opening ∨ pc = ClientPc.read)
    (hfifo : s.fifos (sys.pid c) = some f) (hwritten : f.written = true)
    (hready : f.bytes ≠ [] ∨ f.writer = false) : clientStep sys s c ≠ none := by
  rcases hpc with rfl | rfl
  · simp [clientStep, hclient, hfifo, hwritten]
  · by_cases hbytes : f.bytes = []
    · have hwriter : f.writer = false := hready.resolve_left (not_not_intro hbytes)
      simp [clientStep, hclient, hfifo, hbytes, hwriter]
    · simp [clientStep, hclient, hfifo, hbytes]

theorem serverStep_ne_none {pc received bytes rest} {queue : List client} (h : Inv sys queue s)
    (hstuck : Stuck (Answers.step sys) s)
    (hwrites : s.server.writes = some (sys.pid c, rest)) (hclient : s.clients c = ⟨pc, received⟩)
    (hpc : pc = ClientPc.opening ∨ pc = ClientPc.read)
    (hfifo : s.fifos (sys.pid c) = some ⟨bytes, true, true, true⟩) : False := by
  have hempty : bytes = [] := by
    by_contra hbytes
    exact clientStep_ne_none hclient hpc hfifo rfl (Or.inl hbytes) (no_clientStep hstuck c)
  have hnone := no_serverStep hstuck
  cases hserver : s.server with
  | copy pid text =>
      rw [hserver] at hwrites
      cases hwrites
      have hchunk : (rest.take MAXLINE).length ≤ sys.room :=
        Nat.le_trans (List.length_take_le _ _) sys.room_le
      simp only [serverStep, hserver, hfifo, Option.bind_some, hempty, List.length_nil,
        Nat.zero_add, if_pos hchunk] at hnone
      split at hnone <;> cases hnone
  | reply pid text =>
      rw [hserver] at hwrites
      cases hwrites
      have hchunk : rest.length ≤ sys.room := Nat.le_trans (h.short _ _ hserver) sys.room_le
      simp only [serverStep, hserver, hfifo, Option.bind_some, hempty, List.length_nil,
        Nat.zero_add, if_pos hchunk] at hnone
      cases hnone
  | _ =>
      rw [hserver] at hwrites
      cases hwrites

theorem Inv.readline_of_stuck (h : Inv sys queue s) (hstuck : Stuck (Answers.step sys) s)
    (c : client) : s.server = ServerPc.readline ∧ queue = [] := by
  have hnone := no_serverStep hstuck
  cases hserver : s.server with
  | openFifo =>
      exfalso
      rcases (h.idle hserver).2 c with hpc | hpc
      · have hclient := no_clientStep hstuck c
        simp [clientStep, hpc] at hclient
      · have hmeet := hstuck (Action.meet c)
        simp [Answers.step, hserver, hpc] at hmeet
  | readline =>
      refine ⟨rfl, ?_⟩
      cases queue with
      | nil => rfl
      | cons d queue' =>
          exfalso
          have hrequests := h.requests
          rw [List.flatMap_cons] at hrequests
          rcases found_request sys d s.buff (queue'.flatMap fun c => (sys.info c).requestText) with
            ⟨line, found, n, hread, hhandle, _⟩
          have hsome : s.requests ≠ [] := by
            intro hnil
            rw [hnil] at hrequests
            have hblank := congrArg List.length hrequests
            rw [List.length_append, (sys.info d).requestText_length] at hblank
            simp only [List.length_nil] at hblank
            lia
          rw [← hrequests] at hread
          simp only [serverStep, hserver, if_neg hsome, hread, hhandle, Option.map_some] at hnone
          cases hnone
  | opening pid path ptr n =>
      exfalso
      rcases h.opening hserver with ⟨d, pc, heq, hclient, hpc, hfifo, _, hline⟩
      cases heq
      rcases hpc with rfl | hpc
      · have hstep := no_clientStep hstuck d
        simp [clientStep, hclient, hfifo] at hstep
      · have hplace : pc ≠ ClientPc.openFifo := by
          rcases hpc with rfl | rfl <;> simp
        simp only [serverStep, hserver, hfifo, Option.bind_some, decide_eq_true hplace,
          if_true] at hnone
        exact answers_some hline hnone
  | copy pid rest =>
      exfalso
      have hwrites : s.server.writes = some (pid, rest) := by
        rw [hserver]
        rfl
      rcases h.copying hwrites with ⟨d, pc, received, bytes, rfl, hclient, hpc, hfifo, _, _⟩
      exact serverStep_ne_none h hstuck hwrites hclient hpc hfifo
  | reply pid text =>
      exfalso
      have hwrites : s.server.writes = some (pid, text) := by
        rw [hserver]
        rfl
      rcases h.copying hwrites with ⟨d, pc, received, bytes, rfl, hclient, hpc, hfifo, _, _⟩
      exact serverStep_ne_none h hstuck hwrites hclient hpc hfifo

theorem Inv.ended_of_stuck (h : Inv sys queue s) (hstuck : Stuck (Answers.step sys) s)
    (c : client) : s.clients c = ⟨ClientPc.ended, sys.answer c⟩ := by
  rcases h.readline_of_stuck hstuck c with ⟨hserver, rfl⟩
  have hnone := no_clientStep hstuck c
  cases h.placed c with
  | starts hclient => simp [clientStep, hclient] at hnone
  | asks hclient =>
      simp [clientStep, hclient, hserver, Client.request_eq (sys.fits c)] at hnone
  | queued _ _ hqueue => cases hqueue
  | opens _ _ _ _ hopening => cases hserver.symm.trans hopening
  | copies _ _ _ _ hwrites =>
      rw [hserver] at hwrites
      cases hwrites
  | closed hclient hpc hfifo =>
      exact absurd hnone (clientStep_ne_none hclient hpc hfifo rfl (Or.inr rfl))
  | ended hclient => exact hclient

end Stuck

/-!
# Counting the steps
-/

section Ranks

variable {client : Type} [DecidableEq client] {sys : System client} {queue : List client}
  {s t : State client} {c d : client}

def ClientPc.rank : ClientPc -> Nat
  | mkfifo => 5
  | openServer => 4
  | openFifo => 3
  | opening => 2
  | read => 1
  | ended => 0

def ServerPc.left (length : Nat) : ServerPc -> Nat
  | opening _ _ _ _ => 3 + 2 * length
  | copy _ rest => 1 + 2 * rest.length
  | reply _ text => 2 + 2 * text.length
  | _ => 0

def owes (sys : System client) (c : client) (server : ServerPc) : Nat :=
  if server.pid = some (sys.pid c) then server.left (sys.answer c).length else 0

/-- The steps that are left for a client; a byte is written and then read. -/
def rankOf (sys : System client) (s : State client) (c : client) : Nat :=
  (s.clients c).pc.rank +
    match s.fifos (sys.pid c) with
    | none => if (s.clients c).pc = ClientPc.mkfifo then 4 + 2 * (sys.answer c).length else 0
    | some f =>
        if f.written then f.bytes.length + owes sys c s.server
        else 4 + 2 * (sys.answer c).length

omit [DecidableEq client] in
theorem owes_of_ne {server : ServerPc} (h : server.pid ≠ some (sys.pid c)) :
    owes sys c server = 0 :=
  if_neg h

omit [DecidableEq client] in
theorem owes_of_pid {server : ServerPc} (h : server.pid = some (sys.pid c)) :
    owes sys c server = server.left (sys.answer c).length :=
  if_pos h

omit [DecidableEq client] in
theorem rankOf_congr (hclient : t.clients d = s.clients d)
    (hfifo : t.fifos (sys.pid d) = s.fifos (sys.pid d))
    (hserver : owes sys d t.server = owes sys d s.server) : rankOf sys t d = rankOf sys s d := by
  unfold rankOf
  rw [hclient, hfifo, hserver]

theorem rankOf_goes_of_ne {x : ClientState} {f : Option Fifo} (hne : d ≠ c) :
    rankOf sys ((s.goes c x).fifo (sys.pid c) f) d = rankOf sys s d :=
  rankOf_congr (Function.update_of_ne hne ..) (Function.update_of_ne (sys.pid_ne hne) ..) rfl

theorem rank_goes {x : ClientState} {f : Option Fifo} :
    rankOf sys ((s.goes c x).fifo (sys.pid c) f) c =
      x.pc.rank +
        match f with
        | none => if x.pc = ClientPc.mkfifo then 4 + 2 * (sys.answer c).length else 0
        | some f =>
            if f.written then f.bytes.length + owes sys c s.server
            else 4 + 2 * (sys.answer c).length := by
  simp only [rankOf, goes_self, fifo_self]
  rfl

omit [DecidableEq client] in
theorem rank_serves {requests : List UInt8} {fifos : Int -> Option Fifo} {f : Fifo} {buff : Mem}
    {server : ServerPc} (hfifo : fifos (sys.pid c) = some f) (hwritten : f.written = true) :
    rankOf sys { s with requests := requests, fifos := fifos, buff := buff, server := server } c =
      (s.clients c).pc.rank + (f.bytes.length + owes sys c server) := by
  simp only [rankOf, hfifo, if_pos hwritten]

theorem ServerPc.left_of_writes {server : ServerPc} {pid : Int} {rest : List UInt8} (length : Nat)
    (h : server.writes = some (pid, rest)) : server.left length ≤ 2 + 2 * rest.length := by
  cases server with
  | copy _ text =>
      cases h
      exact Nat.add_le_add_right (by decide) _
  | reply _ text =>
      cases h
      exact le_rfl
  | _ => cases h

omit [DecidableEq client] in
theorem owes_other {before after : ServerPc} (hne : d ≠ c)
    (hbefore : before.pid = none ∨ before.pid = some (sys.pid c))
    (hafter : after.pid = none ∨ after.pid = some (sys.pid c)) :
    owes sys d after = owes sys d before := by
  have hnone : forall pc : ServerPc, pc.pid = none ∨ pc.pid = some (sys.pid c) ->
      owes sys d pc = 0 := by
    intro pc hpc
    apply owes_of_ne
    intro hpid
    rcases hpc with hpc | hpc
    · cases hpc.symm.trans hpid
    · exact sys.pid_ne hne (Option.some.inj (hpc.symm.trans hpid)).symm
  rw [hnone before hbefore, hnone after hafter]

omit [DecidableEq client] in
/-- What the server does for a client lowers the rank of this client. -/
theorem rank_lt_of_serves {requests : List UInt8} {fifos : Int -> Option Fifo} {f g : Fifo}
    {buff : Mem} {server : ServerPc} (hfifo : s.fifos (sys.pid c) = some f)
    (hnew : fifos (sys.pid c) = some g)
    (hothers : forall pid, pid ≠ sys.pid c -> fifos pid = s.fifos pid)
    (hwritten : f.written = true) (hstill : g.written = true)
    (hbefore : s.server.pid = none ∨ s.server.pid = some (sys.pid c))
    (hafter : server.pid = none ∨ server.pid = some (sys.pid c))
    (hless : g.bytes.length + owes sys c server < f.bytes.length + owes sys c s.server) :
    exists c,
      rankOf sys
          { s with requests := requests, fifos := fifos, buff := buff, server := server } c <
        rankOf sys s c ∧
      forall d, d ≠ c ->
        rankOf sys
            { s with requests := requests, fifos := fifos, buff := buff, server := server } d =
          rankOf sys s d := by
  refine ⟨c, ?_, ?_⟩
  · refine lt_of_eq_of_lt (rank_serves hnew hstill) ?_
    simp only [rankOf, hfifo, if_pos hwritten]
    exact Nat.add_lt_add_left hless _
  · intro d hne
    exact rankOf_congr rfl (hothers _ (sys.pid_ne hne)) (owes_other hne hbefore hafter)

omit [DecidableEq client] in
theorem Inv.written_of_read {f : Fifo} (h : Inv sys queue s)
    (hpc : (s.clients c).pc = ClientPc.read) (hfifo : s.fifos (sys.pid c) = some f) :
    f.written = true := by
  cases h.placed c with
  | @queued reader => cases reader <;> simp_all
  | opens _ _ hopen =>
      cases hopen.symm.trans hfifo
      rfl
  | copies _ _ hopen =>
      cases hopen.symm.trans hfifo
      rfl
  | closed _ _ hopen =>
      cases hopen.symm.trans hfifo
      rfl
  | _ => simp_all

theorem Inv.rank_mkfifo (h : Inv sys queue s) (hpc : (s.clients c).pc = ClientPc.mkfifo) :
    rankOf sys ((s.goes c { s.clients c with pc := ClientPc.openServer }).fifo (sys.pid c)
      (some ((s.fifos (sys.pid c)).getD Fifo.made))) c < rankOf sys s c := by
  cases h.placed c with
  | starts hclient hfifo =>
      rw [rank_goes]
      simp [rankOf, hclient, hfifo, ClientPc.rank, Fifo.made]
  | @queued reader => cases reader <;> simp_all
  | _ => simp_all

theorem Inv.rank_ask {requests : List UInt8} (h : Inv sys queue s)
    (hpc : (s.clients c).pc = ClientPc.openServer) :
    rankOf sys { s.goes c { s.clients c with pc := ClientPc.openFifo } with
      requests := requests } c < rankOf sys s c := by
  have hclient : (Function.update s.clients c
      { s.clients c with pc := ClientPc.openFifo } c).pc = ClientPc.openFifo := by
    rw [Function.update_self]
  cases h.placed c with
  | asks hplace hfifo =>
      show ClientPc.rank (Function.update s.clients c _ c).pc + _ < _
      simp only [State.goes, rankOf, hplace, hfifo, ClientPc.rank, Fifo.made]
      simp
  | @queued reader => cases reader <;> simp_all
  | _ => simp_all

omit [DecidableEq client] in
theorem Inv.rank_answers {pid : Int} {path : List UInt8} {ptr n : Nat} {f : Fifo}
    (h : Inv sys queue s) (hserver : s.server = ServerPc.opening pid path ptr n)
    (hfifo : s.fifos pid = some f) (hanswer : s.answers sys pid path ptr n = some t) :
    t.server ≠ ServerPc.openFifo ∧
      exists c, rankOf sys t c < rankOf sys s c ∧
        forall d, d ≠ c -> rankOf sys t d = rankOf sys s d := by
  rcases h.opening hserver with ⟨c, pc, heq, hclient, hpc, hopen, _, hline⟩
  cases heq
  rcases answers_cases hline hanswer with ⟨buff, server, rfl, hwrites, _⟩
  have hpid := ServerPc.pid_of_writes hwrites
  refine ⟨?_, rank_lt_of_serves hopen hopen (fun _ _ => rfl) rfl rfl (Or.inr (by rw [hserver]; rfl))
    (Or.inr hpid) ?_⟩
  · rintro rfl
    cases hpid
  · have hleft := ServerPc.left_of_writes (sys.answer c).length hwrites
    rw [owes_of_pid hpid, hserver, owes_of_pid rfl]
    refine Nat.add_lt_add_left (Nat.lt_of_le_of_lt hleft ?_) _
    simp only [ServerPc.left]
    lia

omit [DecidableEq client] in
theorem Inv.rank_close {pid : Int} {f : Fifo} (h : Inv sys queue s)
    (hserver : s.server = ServerPc.copy pid []) (hfifo : s.fifos pid = some f) :
    exists c,
      rankOf sys { s.fifo pid (some { f with writer := false }) with
        server := ServerPc.readline } c < rankOf sys s c ∧
      forall d, d ≠ c -> rankOf sys { s.fifo pid (some { f with writer := false }) with
        server := ServerPc.readline } d = rankOf sys s d := by
  rcases h.copying (by rw [hserver]; rfl) with
    ⟨c, pc, received, bytes, rfl, hclient, _, hopen, _, _⟩
  cases hopen.symm.trans hfifo
  refine rank_lt_of_serves hopen (Function.update_self ..)
    (fun _ hne => Function.update_of_ne hne ..) rfl rfl (Or.inr (by rw [hserver]; rfl))
    (Or.inl rfl) ?_
  rw [owes_of_ne (by simp [ServerPc.pid]), hserver, owes_of_pid rfl]
  simp [ServerPc.left]

omit [DecidableEq client] in
theorem Inv.rank_writes {pid : Int} {front rest : List UInt8} {f : Fifo} {buff : Mem}
    (h : Inv sys queue s) (hserver : s.server.writes = some (pid, front ++ rest))
    (hfifo : s.fifos pid = some f)
    (hless : forall length, front.length + (1 + 2 * rest.length) < s.server.left length) :
    exists c,
      rankOf sys { s.fifo pid (some { f with bytes := f.bytes ++ front }) with
        buff := buff, server := ServerPc.copy pid rest } c < rankOf sys s c ∧
      forall d, d ≠ c -> rankOf sys { s.fifo pid (some { f with bytes := f.bytes ++ front }) with
        buff := buff, server := ServerPc.copy pid rest } d = rankOf sys s d := by
  rcases h.copying hserver with ⟨c, pc, received, bytes, rfl, hclient, _, hopen, _, _⟩
  cases hopen.symm.trans hfifo
  have hpid := ServerPc.pid_of_writes hserver
  refine rank_lt_of_serves hopen (Function.update_self ..)
    (fun _ hne => Function.update_of_ne hne ..) rfl rfl (Or.inr hpid) (Or.inr rfl) ?_
  rw [owes_of_pid rfl, owes_of_pid hpid, List.length_append, Nat.add_assoc]
  exact Nat.add_lt_add_left (hless _) _

/-- A step other than the opening of the server's FIFO lowers the rank of one client. -/
theorem Inv.rank_step {a : Action client} {o : Unit} (h : Inv sys queue s)
    (hstep : Answers.step sys s a = some (t, o)) :
    (s.server = ServerPc.openFifo ∧ t.server ≠ ServerPc.openFifo ∧
        forall d, rankOf sys t d = rankOf sys s d) ∨
      ((t.server = ServerPc.openFifo -> s.server = ServerPc.openFifo) ∧
        exists c, rankOf sys t c < rankOf sys s c ∧
          forall d, d ≠ c -> rankOf sys t d = rankOf sys s d) := by
  cases stepped_of_step hstep with
  | mkfifo c hpc =>
      exact Or.inr ⟨id, c, h.rank_mkfifo hpc, fun _ hne => rankOf_goes_of_ne hne⟩
  | ask c hpc hserver hrequest =>
      exact Or.inr ⟨id, c, h.rank_ask hpc,
        fun d hne => rankOf_congr (Function.update_of_ne hne ..) rfl rfl⟩
  | @openFifo c f hpc hfifo =>
      refine Or.inr ⟨id, c, ?_, fun _ hne => rankOf_goes_of_ne hne⟩
      rw [rank_goes]
      simp only [rankOf, hpc, hfifo, ClientPc.rank]
      lia
  | @opened c f hpc hfifo hwritten =>
      refine Or.inr ⟨id, c, ?_, fun d hne => rankOf_congr (Function.update_of_ne hne ..) rfl rfl⟩
      have hclient : (Function.update s.clients c
          { s.clients c with pc := ClientPc.read } c).pc = ClientPc.read := by
        rw [Function.update_self]
      simp only [rankOf, State.goes, hclient, hpc, hfifo, ClientPc.rank]
      lia
  | @read c f hpc hfifo hbytes =>
      refine Or.inr ⟨id, c, ?_, fun _ hne => rankOf_goes_of_ne hne⟩
      have hlength := List.length_pos_iff.mpr hbytes
      rw [rank_goes]
      simp only [rankOf, hpc, hfifo, ClientPc.rank, h.written_of_read hpc hfifo, if_true,
        List.length_drop, MAXLINE]
      lia
  | @finish c f hpc hfifo hbytes hwriter =>
      refine Or.inr ⟨id, c, ?_, fun _ hne => rankOf_goes_of_ne hne⟩
      rw [rank_goes]
      simp [rankOf, hpc, ClientPc.rank]
  | meet c hserver hpc =>
      refine Or.inl ⟨hserver, by simp, fun d => rankOf_congr rfl rfl ?_⟩
      rw [hserver]
      rfl
  | found hserver hread hrequests hhandle =>
      rcases h.found hserver hread hrequests hhandle with
        ⟨c, queue', reader, found, rfl, hmade, hnext, _⟩
      right
      rw [hnext]
      refine ⟨by simp [System.opening], c, ?_, ?_⟩
      · refine lt_of_eq_of_lt (rank_serves (Function.update_self ..) rfl) ?_
        rw [owes_of_pid rfl]
        simp only [rankOf, hmade, Fifo.made, System.opening, ServerPc.left]
        simp
      · intro d hne
        exact rankOf_congr rfl (Function.update_of_ne (sys.pid_ne hne) ..)
          (owes_other hne (Or.inl (by rw [hserver]; rfl)) (Or.inr rfl))
  | answers hserver hfifo _ hanswer =>
      rcases h.rank_answers hserver hfifo hanswer with ⟨hserver', hrank⟩
      exact Or.inr ⟨fun heq => absurd heq hserver', hrank⟩
  | close hserver hfifo => exact Or.inr ⟨by simp, h.rank_close hserver hfifo⟩
  | @write pid rest f hserver hfifo hrest =>
      refine Or.inr ⟨by simp, h.rank_writes ?_ hfifo ?_⟩
      · rw [hserver, List.take_append_drop]
        rfl
      · intro length
        have hlength := List.length_pos_iff.mpr hrest
        rw [hserver]
        simp only [ServerPc.left, List.length_take, List.length_drop, MAXLINE]
        lia
  | @reply pid text f hserver hfifo =>
      refine Or.inr ⟨by simp, h.rank_writes ?_ hfifo ?_⟩
      · rw [hserver, List.append_nil]
        rfl
      · intro length
        rw [hserver]
        simp only [ServerPc.left, List.length_nil]
        lia

def rank [Fintype client] (sys : System client) (s : State client) : Nat :=
  total id (rankOf sys s) + if s.server = ServerPc.openFifo then 1 else 0

theorem Inv.rank_lt [Fintype client] {a : Action client} {o : Unit} (h : Inv sys queue s)
    (hstep : Answers.step sys s a = some (t, o)) : rank sys t < rank sys s := by
  unfold rank
  rcases h.rank_step hstep with ⟨hbefore, hafter, hsame⟩ | ⟨himp, c, hless, hothers⟩
  · have heq : rankOf sys t = rankOf sys s := funext hsame
    rw [heq, if_pos hbefore, if_neg hafter]
    lia
  · have hlt := total_lt_of_one hless hothers
    by_cases hafter : t.server = ServerPc.openFifo
    · rw [if_pos hafter, if_pos (himp hafter)]
      lia
    · rw [if_neg hafter]
      lia

end Ranks

/-!
# Runs
-/

section Runs

variable {client : Type} [DecidableEq client] {sys : System client} {queue : List client}
  {s : State client} {tr : List (Transition (State client) (Action client) Unit)}

theorem inv_run (hrun : Run Init (step sys) tr s) : exists queue, Inv sys queue s := by
  have hinit : forall s : State client, Init s -> exists queue, Inv sys queue s :=
    fun _ hs => ⟨[], inv_init hs⟩
  refine reachable_invariant hinit ?_ ⟨tr, hrun⟩
  rintro s a o t ⟨queue, h⟩ hstep
  exact h.step hstep

omit [DecidableEq client] in
theorem Inv.received_prefix (h : Inv sys queue s) (c : client) :
    (s.clients c).received <+: sys.answer c := by
  cases h.placed c with
  | copies hclient _ _ _ _ hanswer =>
      rw [hclient, ← hanswer, List.append_assoc]
      exact List.prefix_append _ _
  | closed hclient _ _ _ _ hanswer =>
      rw [hclient, ← hanswer]
      exact List.prefix_append _ _
  | ended hclient => simp [hclient]
  | starts hclient => simp [hclient]
  | asks hclient => simp [hclient]
  | queued hclient => simp [hclient]
  | opens hclient => simp [hclient]

omit [DecidableEq client] in
theorem rankOf_init (hs : Init s) (c : client) :
    rankOf sys s c = 9 + 2 * (sys.answer c).length := by
  simp only [rankOf, hs.clients c, hs.fifos, ClientPc.rank]
  simp
  lia

variable [Fintype client]

theorem length_run (hrun : Run Init (step sys) tr s) :
    tr.length ≤ total id (fun c => 9 + 2 * (sys.answer c).length) + 1 := by
  have hbound : tr.length + rank sys s ≤
      total id (fun c => 9 + 2 * (sys.answer c).length) + 1 := by
    refine run_length_add_rank_le (fun _ _ => ()) () (fun _ s => exists queue, Inv sys queue s)
      (fun _ => rank sys) ?_ ?_ hrun
    · intro s hs
      refine ⟨⟨[], inv_init hs⟩, ?_⟩
      unfold rank
      rw [total_congr fun c => rankOf_init hs c, if_pos hs.server]
    · rintro _ s a o t ⟨queue, h⟩ hstep
      exact ⟨h.step hstep, h.rank_lt hstep⟩
  lia

/-- Each client reads the beginning of its answer and nothing else, whatever the others do; the
service of finitely many clients ends after a bounded number of steps, and where it cannot go on
each client has read its whole answer. -/
theorem answers_delivered (hrun : Run Init (step sys) tr s) :
    (forall c, (s.clients c).received <+: sys.answer c) ∧
      (Stuck (step sys) s -> forall c, s.clients c = ⟨ClientPc.ended, sys.answer c⟩) ∧
      tr.length ≤ total id (fun c => 9 + 2 * (sys.answer c).length) + 1 ∧
      exists more t, Path (step sys) s more t ∧
        forall c, t.clients c = ⟨ClientPc.ended, sys.answer c⟩ := by
  rcases inv_run hrun with ⟨queue, h⟩
  refine ⟨h.received_prefix, h.ended_of_stuck, length_run hrun, ?_⟩
  rcases run_to_stuck (fun tr s hrun => length_run hrun) hrun with ⟨more, t, hmore, hstuck⟩
  rcases inv_run (run_append hrun hmore) with ⟨last, hlast⟩
  exact ⟨more, t, hmore, hlast.ended_of_stuck hstuck⟩

end Runs

def firstState (client : Type) : State client :=
  { requests := [], fifos := fun _ => none, buff := freshService.buff
    server := ServerPc.openFifo, clients := fun _ => ⟨ClientPc.mkfifo, []⟩ }

theorem init_firstState (client : Type) : Init (firstState client) :=
  ⟨rfl, fun _ => rfl, rfl, fun _ => rfl⟩

def twoClients : System Bool where
  info := fun c => if c then typesA pid12 2 else typesA pid7 1
  pid_injective := by
    intro c d hpid
    cases c <;> cases d <;> first | rfl | exact absurd hpid (by decide)
  fits := by
    intro c
    unfold Client.Fits
    cases c <;> decide
  no_eof := by
    intro c
    cases c <;> decide
  files := fun path => if path = [97] then Entry.file [120, 121, 122] else Entry.error [69]
  no_fifo := by
    intro c
    cases c <;> decide
  room := 4096
  room_le := by decide

def everyAction : List (Action Bool) :=
  [Action.client false, Action.client true, Action.meet false, Action.meet true, Action.server]

theorem mem_everyAction (a : Action Bool) : a ∈ everyAction := by
  cases a with
  | client c => cases c <;> simp [everyAction]
  | meet c => cases c <;> simp [everyAction]
  | server => simp [everyAction]

/-- The second client sends its request while the server waits for the first. -/
theorem answers_delivered_twoClients :
    exists tr s, Run Init (step twoClients) tr s ∧ Stuck (step twoClients) s ∧
      s.clients false = ⟨ClientPc.ended, [120, 121, 122]⟩ ∧
      s.clients true = ⟨ClientPc.ended, [97, 97] ++ CANT_OPEN ++ [69, NEWLINE]⟩ := by
  have hreplay : exists tr s, Run Init (step twoClients) tr s ∧
      everyAction.all (fun a => (step twoClients s a).isNone) = true :=
    run_of_replay
      [Action.client false, Action.meet false, Action.client false, Action.server,
        Action.client true, Action.client true, Action.client false, Action.server, Action.server,
        Action.client false, Action.client false, Action.server, Action.client false,
        Action.server, Action.client true, Action.server, Action.server, Action.server,
        Action.client true, Action.client true, Action.client true]
      (init_firstState Bool) (by decide +kernel)
  rcases hreplay with ⟨tr, s, hrun, htest⟩
  have hstuck : Stuck (step twoClients) s := by
    intro a
    exact Option.isNone_iff_eq_none.mp (List.all_eq_true.mp htest a (mem_everyAction a))
  have hended := (answers_delivered hrun).2.1 hstuck
  refine ⟨tr, s, hrun, hstuck, ?_, ?_⟩
  · rw [hended false, show twoClients.answer false = [120, 121, 122] by decide]
  · rw [hended true, show twoClients.answer true = [97, 97] ++ CANT_OPEN ++ [69, NEWLINE] by decide]

end Answers
end Fifoclieser
end InterprocessComm
