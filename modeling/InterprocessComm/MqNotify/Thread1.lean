import InterprocessComm.Lib.Pool
import InterprocessComm.MqNotify.Draining

/-!
# Threads that are notified

`mqnotifythread1` has a new thread for each notification.  The thread registers again and empties
the queue, beside the threads of earlier notifications that have not ended yet.
-/

namespace InterprocessComm
namespace MqNotify
namespace Thread1

open Verification

inductive MainPc where
  | notify
  | pause
  | exited
deriving DecidableEq

/-- The places of `notify_thread`; with `print` goes what `mq_receive` has returned. -/
inductive ThreadPc where
  | renotify
  | receive
  | print (n : Nat)
  | testErrno (e : Errno)
  | finished
deriving DecidableEq

/-- In the queue `pending` says that a thread is to be started. -/
structure State where
  queue : MsgQueue
  main : MainPc
  threads : List ThreadPc
deriving DecidableEq

inductive Action where
  | send (m : Message)
  | start
  | main
  | thread (i : Nat)
deriving DecidableEq

inductive Event where
  | silent
  | sent (m : Message)
  | notified (result : Except Errno Unit)
  | read (m : Message)
  | printed (n : Nat)

/-- A step of `notify_thread`, unless it calls `exit`. -/
def threadStep (q : MsgQueue) : ThreadPc -> Option (MsgQueue × Option ThreadPc × Event)
  | ThreadPc.renotify => some (q.mqNotify.1, some ThreadPc.receive, Event.notified q.mqNotify.2)
  | ThreadPc.receive =>
      match q.mqReceive with
      | (q', Except.ok m) => some (q', some (ThreadPc.print m.len), Event.read m)
      | (q', Except.error e) => some (q', some (ThreadPc.testErrno e), Event.silent)
  | ThreadPc.print n => some (q, some ThreadPc.receive, Event.printed n)
  | ThreadPc.testErrno e =>
      if e ≠ Errno.EAGAIN then
        some (q, none, Event.silent)
      else
        some (q, some ThreadPc.finished, Event.silent)
  | ThreadPc.finished => none

/-- Other processes send while there is room in the queue; `exit` ends all threads. -/
def step (maxmsg : Nat) (s : State) : Action -> Option (State × Event)
  | Action.send m =>
      if s.queue.messages.length < maxmsg then
        some ({ s with queue := s.queue.mqSend m }, Event.sent m)
      else
        none
  | Action.start =>
      if s.queue.pending = true ∧ s.main ≠ MainPc.exited then
        some ({ s with queue := { s.queue with pending := false },
                       threads := s.threads ++ [ThreadPc.renotify] }, Event.silent)
      else
        none
  | Action.main =>
      match s.main with
      | MainPc.notify =>
          some ({ s with queue := s.queue.mqNotify.1, main := MainPc.pause },
            Event.notified s.queue.mqNotify.2)
      | _ => none
  | Action.thread i =>
      s.threads[i]?.bind fun pc =>
        (threadStep s.queue pc).map fun r =>
          match r.2.1 with
          | some pc' => ({ s with queue := r.1, threads := s.threads.set i pc' }, r.2.2)
          | none => ({ queue := r.1, main := MainPc.exited, threads := [] }, r.2.2)

structure Init (held : List Message) (s : State) : Prop where
  messages : s.queue.messages = held
  registered : s.queue.registered = false
  pending : s.queue.pending = false
  main : s.main = MainPc.notify
  threads : s.threads = []

/-!
# The invariant
-/

def ThreadPc.active : ThreadPc -> Bool
  | ThreadPc.renotify => true
  | ThreadPc.receive => true
  | ThreadPc.print _ => true
  | _ => false

/-- There is one registration, one thread to be started, or one thread that is about to register
again; and no error is another than `EAGAIN`. -/
structure Armed (s : State) : Prop where
  alive : s.main ≠ MainPc.exited
  fresh : s.main = MainPc.notify ->
    s.threads = [] ∧ s.queue.registered = false ∧ s.queue.pending = false
  armed : s.main = MainPc.pause ->
    s.queue.registered.toNat + s.queue.pending.toNat + s.threads.count ThreadPc.renotify = 1
  errno : forall e, ThreadPc.testErrno e ∈ s.threads -> e = Errno.EAGAIN

def Watched (s : State) : Prop :=
  s.queue.messages = [] ∨ s.queue.pending = true ∨ exists pc, pc ∈ s.threads ∧ pc.active = true

def Missed (s : State) : Prop :=
  s.queue.messages ≠ [] ∧ s.queue.pending = false ∧ s.threads = []

section Steps

variable {maxmsg : Nat} {s t : State} {a : Action} {o : Event} {q q' : MsgQueue}

inductive ThreadMove (q : MsgQueue) :
    ThreadPc -> MsgQueue -> Option ThreadPc -> Event -> Prop where
  | renotify : ThreadMove q ThreadPc.renotify { q with registered := true }
      (some ThreadPc.receive) (Event.notified q.mqNotify.2)
  | read {m : Message} {rest : List Message} (hqueue : q.messages = m :: rest) :
      ThreadMove q ThreadPc.receive { q with messages := rest } (some (ThreadPc.print m.len))
        (Event.read m)
  | empty (hqueue : q.messages = []) :
      ThreadMove q ThreadPc.receive q (some (ThreadPc.testErrno Errno.EAGAIN)) Event.silent
  | print (n : Nat) :
      ThreadMove q (ThreadPc.print n) q (some ThreadPc.receive) (Event.printed n)
  | exit {e : Errno} (he : e ≠ Errno.EAGAIN) :
      ThreadMove q (ThreadPc.testErrno e) q none Event.silent
  | finish : ThreadMove q (ThreadPc.testErrno Errno.EAGAIN) q (some ThreadPc.finished) Event.silent

theorem threadStep_move {pc : ThreadPc} {pc' : Option ThreadPc}
    (h : threadStep q pc = some (q', pc', o)) : ThreadMove q pc q' pc' o := by
  cases pc with
  | renotify =>
      simp only [threadStep, mqNotify_fst] at h
      cases h
      exact ThreadMove.renotify
  | receive =>
      simp only [threadStep, MsgQueue.mqReceive] at h
      cases hqueue : q.messages with
      | nil =>
          rw [hqueue] at h
          cases h
          exact ThreadMove.empty hqueue
      | cons m rest =>
          rw [hqueue] at h
          cases h
          exact ThreadMove.read hqueue
  | print n =>
      cases h
      exact ThreadMove.print n
  | testErrno e =>
      simp only [threadStep] at h
      split at h
      · rename_i he
        cases h
        exact ThreadMove.exit he
      · rename_i he
        cases not_not.mp he
        cases h
        exact ThreadMove.finish
  | finished => cases h

inductive Stepped (s : State) : Action -> Event -> State -> Prop where
  | send (m : Message) :
      Stepped s (Action.send m) (Event.sent m) { s with queue := s.queue.mqSend m }
  | start (hpending : s.queue.pending = true) :
      Stepped s Action.start Event.silent
        { s with queue := { s.queue with pending := false },
                 threads := s.threads ++ [ThreadPc.renotify] }
  | main (hmain : s.main = MainPc.notify) :
      Stepped s Action.main (Event.notified s.queue.mqNotify.2)
        { s with queue := { s.queue with registered := true }, main := MainPc.pause }
  | thread {i : Nat} {pc pc' : ThreadPc} {q : MsgQueue} {o : Event}
      (hpc : s.threads[i]? = some pc) (hmove : ThreadMove s.queue pc q (some pc') o) :
      Stepped s (Action.thread i) o { s with queue := q, threads := s.threads.set i pc' }
  | exit {i : Nat} {pc : ThreadPc} {q : MsgQueue} {o : Event}
      (hpc : s.threads[i]? = some pc) (hmove : ThreadMove s.queue pc q none o) :
      Stepped s (Action.thread i) o { queue := q, main := MainPc.exited, threads := [] }

theorem stepped_of_step (hstep : step maxmsg s a = some (t, o)) : Stepped s a o t := by
  cases a with
  | send m =>
      simp only [step] at hstep
      split at hstep
      · cases hstep
        exact Stepped.send m
      · cases hstep
  | start =>
      simp only [step] at hstep
      split at hstep
      · rename_i hboth
        cases hstep
        exact Stepped.start hboth.1
      · cases hstep
  | main =>
      simp only [step] at hstep
      split at hstep
      · rename_i hmain
        rw [mqNotify_fst] at hstep
        cases hstep
        exact Stepped.main hmain
      · cases hstep
  | thread i =>
      rcases Option.bind_eq_some_iff.mp hstep with ⟨pc, hpc, hrest⟩
      rcases Option.map_eq_some_iff.mp hrest with ⟨⟨q, pc', o'⟩, hthread, hdone⟩
      have hmove := threadStep_move hthread
      cases pc' with
      | some pc' =>
          cases hdone
          exact Stepped.thread hpc hmove
      | none =>
          cases hdone
          exact Stepped.exit hpc hmove

theorem armed_step (hs : Armed s) (hstep : step maxmsg s a = some (t, o)) : Armed t := by
  cases stepped_of_step hstep with
  | send m =>
      rcases mqSend_cases s.queue m with ⟨_, hregistered, hqueue⟩ | ⟨_, hqueue⟩
      · refine ⟨hs.alive, ?_, ?_, hs.errno⟩
        · intro hmain
          have hfree := (hs.fresh hmain).2.1
          rw [hregistered] at hfree
          cases hfree
        · intro hmain
          have harmed := hs.armed hmain
          rw [hqueue]
          rw [hregistered] at harmed
          simp only [Bool.toNat_true, Bool.toNat_false] at harmed ⊢
          lia
      · rw [hqueue]
        exact ⟨hs.alive, hs.fresh, hs.armed, hs.errno⟩
  | start hpending =>
      refine ⟨hs.alive, ?_, ?_, ?_⟩
      · intro hmain
        have hnone := (hs.fresh hmain).2.2
        rw [hpending] at hnone
        cases hnone
      · intro hmain
        have harmed := hs.armed hmain
        rw [hpending] at harmed
        simp only [List.count_append, List.count_singleton_self, Bool.toNat_true,
          Bool.toNat_false] at harmed ⊢
        lia
      · intro e he
        rcases List.mem_append.mp he with hold | hnew
        · exact hs.errno e hold
        · cases List.mem_singleton.mp hnew
  | main hmain =>
      rcases hs.fresh hmain with ⟨hthreads, _, hpending⟩
      refine ⟨fun h => MainPc.noConfusion h, fun h => MainPc.noConfusion h, ?_, hs.errno⟩
      intro _
      rw [hthreads, hpending]
      rfl
  | @thread i pc pc' q o hpc hmove =>
      rcases pool_split hpc with ⟨others, hbefore, hafter⟩
      have hcount := hbefore.count_eq ThreadPc.renotify
      have hcount' := (hafter pc').count_eq ThreadPc.renotify
      rw [List.count_cons] at hcount hcount'
      have hmem : forall x, x ∈ others -> x ∈ s.threads := fun x hx =>
        hbefore.mem_iff.mpr (List.mem_cons_of_mem pc hx)
      have hsome : s.threads ≠ [] := by
        intro hnone
        rw [hnone] at hpc
        cases hpc
      refine ⟨hs.alive, fun hmain => absurd (hs.fresh hmain).1 hsome, ?_, ?_⟩
      · intro hmain
        have harmed := hs.armed hmain
        rw [hcount] at harmed
        show q.registered.toNat + q.pending.toNat + (s.threads.set i pc').count _ = 1
        rw [hcount']
        cases hmove with
        | renotify =>
            rw [if_pos (by decide)] at harmed
            rw [if_neg (by decide), Bool.toNat_true]
            lia
        | read hqueue => simpa using harmed
        | empty hqueue => simpa using harmed
        | print n => simpa using harmed
        | finish => simpa using harmed
      · intro e he
        rcases List.mem_cons.mp ((hafter pc').mem_iff.mp he) with hnew | hold
        · cases hmove with
          | empty hqueue =>
              cases hnew
              rfl
          | _ => cases hnew
        · exact hs.errno e (hmem _ hold)
  | exit hpc hmove =>
      cases hmove with
      | exit he => exact absurd (hs.errno _ (List.mem_of_getElem? hpc)) he

theorem watched_step (harmed : Armed s) (hmain : s.main = MainPc.pause) (hs : Watched s)
    (hstep : step maxmsg s a = some (t, o)) : Watched t := by
  cases stepped_of_step hstep with
  | send m =>
      rcases mqSend_cases s.queue m with ⟨_, _, hqueue⟩ | ⟨hquiet, hqueue⟩
      · exact Or.inr (Or.inl (by rw [hqueue]))
      · unfold Watched
        rw [hqueue]
        refine Or.inr ?_
        rcases hs with hempty | hwatched
        · -- nobody is registered, so a thread is started or registers again
          rcases hquiet with hsome | hfree
          · exact absurd hempty hsome
          · have hone := harmed.armed hmain
            rw [hfree] at hone
            cases hpending : s.queue.pending with
            | true => exact Or.inl rfl
            | false =>
                rw [hpending] at hone
                have hpos : 0 < s.threads.count ThreadPc.renotify := by
                  simp only [Bool.toNat_false] at hone
                  lia
                exact Or.inr ⟨_, List.count_pos_iff.mp hpos, rfl⟩
        · exact hwatched
  | start hpending => exact Or.inr (Or.inr ⟨ThreadPc.renotify, by simp, rfl⟩)
  | main hnotify => cases hnotify.symm.trans hmain
  | @thread i pc pc' q o hpc hmove =>
      rcases pool_split hpc with ⟨others, hbefore, hafter⟩
      have hnew : pc' ∈ s.threads.set i pc' := (hafter pc').mem_iff.mpr (by simp)
      cases hmove with
      | renotify => exact Or.inr (Or.inr ⟨_, hnew, rfl⟩)
      | read hqueue => exact Or.inr (Or.inr ⟨_, hnew, rfl⟩)
      | empty hqueue => exact Or.inl hqueue
      | print n => exact Or.inr (Or.inr ⟨_, hnew, rfl⟩)
      | finish =>
          rcases hs with hempty | hpending | ⟨p, hp, hactive⟩
          · exact Or.inl hempty
          · exact Or.inr (Or.inl hpending)
          · refine Or.inr (Or.inr ⟨p, (hafter _).mem_iff.mpr ?_, hactive⟩)
            rcases List.mem_cons.mp (hbefore.mem_iff.mp hp) with rfl | hother
            · cases hactive
            · exact List.mem_cons_of_mem _ hother
  | exit hpc hmove =>
      cases hmove with
      | exit he => exact absurd (harmed.errno _ (List.mem_of_getElem? hpc)) he

theorem missed_step (hmain : s.main = MainPc.pause) (hs : Missed s)
    (hstep : step maxmsg s a = some (t, o)) : Missed t := by
  rcases hs with ⟨hsome, hpending, hthreads⟩
  cases stepped_of_step hstep with
  | send m =>
      rcases mqSend_cases s.queue m with ⟨hempty, _, _⟩ | ⟨_, hqueue⟩
      · exact absurd hempty hsome
      · refine ⟨?_, by rw [hqueue]; exact hpending, hthreads⟩
        rw [hqueue]
        intro hnone
        have hlength := (stableInsert_perm Message.prio m s.queue.messages).length_eq
        rw [show stableInsert Message.prio m s.queue.messages = [] from hnone] at hlength
        cases hlength
  | start hstart => cases hstart.symm.trans hpending
  | main hnotify => cases hnotify.symm.trans hmain
  | thread hpc hmove =>
      rw [hthreads] at hpc
      cases hpc
  | exit hpc hmove =>
      rw [hthreads] at hpc
      cases hpc

theorem main_step (hstep : step maxmsg s a = some (t, o)) (harmed : Armed s) :
    (a = Action.main ∧ s.main = MainPc.notify ∧ t.main = MainPc.pause ∧
        t.queue.messages = s.queue.messages ∧ t.queue.pending = s.queue.pending ∧
        t.threads = s.threads) ∨
      (a ≠ Action.main ∧ t.main = s.main) := by
  cases stepped_of_step hstep with
  | main hmain => exact Or.inl ⟨rfl, hmain, rfl, rfl, rfl, rfl⟩
  | exit hpc hmove =>
      cases hmove with
      | exit he => exact absurd (harmed.errno _ (List.mem_of_getElem? hpc)) he
  | _ => exact Or.inr ⟨fun h => Action.noConfusion h, rfl⟩

end Steps

/-!
# Whole runs
-/

section Runs

variable {maxmsg : Nat} {held : List Message}
  {tr : List (Transition State Action Event)} {s : State}

/-- The program has registered when there were messages on the queue. -/
def Late (tr : List (Transition State Action Event)) : Prop :=
  exists e, e ∈ tr ∧ e.action = Action.main ∧ e.source.queue.messages ≠ []

theorem late_snoc {e : Transition State Action Event} :
    Late (tr ++ [e]) <-> Late tr ∨ (e.action = Action.main ∧ e.source.queue.messages ≠ []) := by
  simp [Late, or_and_right, exists_or]

theorem armed_init (hs : Init held s) : Armed s := by
  constructor
  · simp [hs.main]
  · exact fun _ => ⟨hs.threads, hs.registered, hs.pending⟩
  · simp [hs.main]
  · simp [hs.threads]

theorem armed_run (hrun : Run (Init held) (step maxmsg) tr s) : Armed s :=
  run_induction (I := fun _ s => Armed s) (fun _ hs => armed_init hs)
    (fun _ _ _ _ _ _ hs hstep => armed_step hs hstep) hrun

/-- Some thread looks at the queue again, or the program has registered too late. -/
theorem watched_run (hrun : Run (Init held) (step maxmsg) tr s) :
    (s.main = MainPc.notify ∧ ¬ Late tr) ∨
      (s.main = MainPc.pause ∧ (Watched s ∧ ¬ Late tr ∨ Missed s ∧ Late tr)) := by
  refine run_induction (I := fun tr s => (s.main = MainPc.notify ∧ ¬ Late tr) ∨
    (s.main = MainPc.pause ∧ (Watched s ∧ ¬ Late tr ∨ Missed s ∧ Late tr))) ?_ ?_ hrun
  · intro s hs
    exact Or.inl ⟨hs.main, by simp [Late]⟩
  · intro tr s a o t hprior ih hstep
    have harmed := armed_run hprior
    rcases main_step hstep harmed with ⟨ha, hnotify, hpause, hmessages, hpending, hthreads⟩ |
      ⟨ha, hsame⟩
    · rcases ih with ⟨_, hlate⟩ | ⟨hwrong, _⟩
      · rcases harmed.fresh hnotify with ⟨hnone, _, hquiet⟩
        refine Or.inr ⟨hpause, ?_⟩
        rw [late_snoc]
        by_cases hempty : s.queue.messages = []
        · exact Or.inl ⟨Or.inl (hmessages.trans hempty), by simp [hlate, hempty]⟩
        · exact Or.inr ⟨⟨hmessages ▸ hempty, hpending.trans hquiet, hthreads.trans hnone⟩,
            Or.inr ⟨ha, hempty⟩⟩
      · cases hwrong.symm.trans hnotify
    · have hlate : Late (tr ++ [⟨s, a, o, t⟩]) <-> Late tr := by
        rw [late_snoc]
        simp [ha]
      rw [hlate, hsame]
      rcases ih with ⟨hmain, hearly⟩ | ⟨hmain, ⟨hwatched, hearly⟩ | ⟨hmissed, hafter⟩⟩
      · exact Or.inl ⟨hmain, hearly⟩
      · exact Or.inr ⟨hmain, Or.inl ⟨watched_step harmed hmain hwatched hstep, hearly⟩⟩
      · exact Or.inr ⟨hmain, Or.inr ⟨missed_step hmain hmissed hstep, hafter⟩⟩

/-- Where the program rests, with no thread to be started and all threads at their end, it is
registered, and there are messages on the queue exactly if there were some when it registered;
in that case no thread has ever been started. -/
theorem threads_rest (hrun : Run (Init held) (step maxmsg) tr s) (hmain : s.main = MainPc.pause)
    (hpending : s.queue.pending = false)
    (hthreads : forall pc, pc ∈ s.threads -> pc = ThreadPc.finished) :
    s.queue.registered = true ∧ (s.queue.messages ≠ [] <-> Late tr) ∧
      (Late tr -> s.threads = []) := by
  constructor
  · have harmed := (armed_run hrun).armed hmain
    have hnone : s.threads.count ThreadPc.renotify = 0 := by
      apply List.count_eq_zero.mpr
      intro hmem
      cases hthreads _ hmem
    rw [hpending, hnone] at harmed
    cases hregistered : s.queue.registered with
    | true => rfl
    | false =>
        rw [hregistered] at harmed
        cases harmed
  · rcases watched_run hrun with ⟨hnotify, _⟩ | ⟨_, ⟨hwatched, hlate⟩ | ⟨hmissed, hlate⟩⟩
    · cases hnotify.symm.trans hmain
    · have hempty : s.queue.messages = [] := by
        rcases hwatched with hempty | hstart | ⟨pc, hpc, hactive⟩
        · exact hempty
        · cases hstart.symm.trans hpending
        · rw [hthreads pc hpc] at hactive
          cases hactive
      exact ⟨⟨fun h => absurd hempty h, fun h => absurd h hlate⟩, fun h => absurd h hlate⟩
    · exact ⟨⟨fun _ => hlate, fun _ => hmissed.1⟩, fun _ => hmissed.2.2⟩

/-!
## What is read
-/

/-- What other processes have sent, what the threads have read and printed, and what the calls of
`mq_notify` have returned. -/
structure History where
  sent : List Message
  read : List Message
  printed : List Nat
  notified : List (Except Errno Unit)

namespace History

def empty : History :=
  { sent := [], read := [], printed := [], notified := [] }

def observe (h : History) : Event -> History
  | Event.silent => h
  | Event.sent m => { h with sent := h.sent ++ [m] }
  | Event.notified r => { h with notified := h.notified ++ [r] }
  | Event.read m => { h with read := h.read ++ [m] }
  | Event.printed n => { h with printed := h.printed ++ [n] }

end History

def ThreadPc.printing : ThreadPc -> Option Nat
  | ThreadPc.print n => some n
  | _ => none

/-- Each message is on the queue or has been read by one thread, which prints its length once; and
no registration fails. -/
structure Accounted (held : List Message) (h : History) (s : State) : Prop where
  read : (held ++ h.sent).Perm (h.read ++ s.queue.messages)
  printed : (h.read.map Message.len).Perm (h.printed ++ s.threads.filterMap ThreadPc.printing)
  notified : forall r, r ∈ h.notified -> r = Except.ok ()

theorem accounted_thread {h : History} {i : Nat} {pc pc' : ThreadPc} {q : MsgQueue} {o : Event}
    (hs : Accounted held h s) (harmed : Armed s) (hpc : s.threads[i]? = some pc)
    (hmove : ThreadMove s.queue pc q (some pc') o) :
    Accounted held (h.observe o) { s with queue := q, threads := s.threads.set i pc' } := by
  rcases pool_split hpc with ⟨others, hbefore, hafter⟩
  have hold := hs.printed.trans ((hbefore.filterMap ThreadPc.printing).append_left h.printed)
  have hnew := (hafter pc').filterMap ThreadPc.printing
  cases hmove with
  | renotify =>
      refine ⟨hs.read, hold.trans (hnew.symm.append_left h.printed), ?_⟩
      intro r hr
      rcases List.mem_append.mp hr with hr | hr
      · exact hs.notified r hr
      · -- the thread has used up the registration
        have hmain : s.main = MainPc.pause := by
          cases hplace : s.main with
          | notify =>
              rw [(harmed.fresh hplace).1] at hpc
              cases hpc
          | pause => rfl
          | exited => exact absurd hplace harmed.alive
        have hone := harmed.armed hmain
        rw [hbefore.count_eq, List.count_cons_self] at hone
        rw [List.mem_singleton.mp hr]
        apply mqNotify_ok
        cases hregistered : s.queue.registered with
        | false => rfl
        | true =>
            rw [hregistered, Bool.toNat_true] at hone
            lia
  | @read m rest hqueue =>
      refine ⟨?_, ?_, hs.notified⟩
      · have hread := hs.read
        rw [hqueue] at hread
        simpa [History.observe] using hread
      · show ((h.read ++ [m]).map Message.len).Perm _
        rw [List.map_append]
        exact calc
          h.read.map Message.len ++ [m.len]
            |>.Perm (m.len :: h.read.map Message.len) := List.perm_append_singleton _ _
          _ |>.Perm (m.len :: (h.printed ++ others.filterMap ThreadPc.printing)) := hold.cons m.len
          _ |>.Perm (h.printed ++ m.len :: others.filterMap ThreadPc.printing) :=
            List.perm_middle.symm
          _ |>.Perm _ := hnew.symm.append_left h.printed
  | empty hqueue => exact ⟨hs.read, hold.trans (hnew.symm.append_left h.printed), hs.notified⟩
  | print n =>
      refine ⟨hs.read, ?_, hs.notified⟩
      show (h.read.map Message.len).Perm (h.printed ++ [n] ++ _)
      rw [List.append_assoc]
      exact hold.trans ((hnew.symm.cons n).append_left h.printed)
  | finish => exact ⟨hs.read, hold.trans (hnew.symm.append_left h.printed), hs.notified⟩

theorem accounted_step {h : History} {a : Action} {o : Event} {t : State}
    (hs : Accounted held h s) (harmed : Armed s) (hstep : step maxmsg s a = some (t, o)) :
    Accounted held (h.observe o) t := by
  cases stepped_of_step hstep with
  | send m =>
      refine ⟨?_, hs.printed, hs.notified⟩
      have hqueue : (s.queue.mqSend m).messages = stableInsert Message.prio m s.queue.messages := by
        rcases mqSend_cases s.queue m with ⟨_, _, hqueue⟩ | ⟨_, hqueue⟩
        · rw [hqueue]
        · rw [hqueue]
      have hqueued := stableInsert_perm Message.prio m s.queue.messages
      rw [← hqueue] at hqueued
      show (held ++ (h.sent ++ [m])).Perm _
      rw [← List.append_assoc]
      have hnew : (held ++ h.sent ++ [m]).Perm (m :: (h.read ++ s.queue.messages)) :=
        (List.perm_append_singleton _ _).trans (hs.read.cons m)
      exact (hnew.trans List.perm_middle.symm).trans (hqueued.symm.append_left h.read)
  | start hpending =>
      refine ⟨hs.read, ?_, hs.notified⟩
      have hnone : [ThreadPc.renotify].filterMap ThreadPc.printing = [] := rfl
      rw [List.filterMap_append, hnone, List.append_nil]
      exact hs.printed
  | main hmain =>
      refine ⟨hs.read, hs.printed, ?_⟩
      intro r hr
      rcases List.mem_append.mp hr with hr | hr
      · exact hs.notified r hr
      · rw [List.mem_singleton.mp hr]
        exact mqNotify_ok (harmed.fresh hmain).2.1
  | thread hpc hmove => exact accounted_thread hs harmed hpc hmove
  | exit hpc hmove =>
      cases hmove with
      | exit he => exact absurd (harmed.errno _ (List.mem_of_getElem? hpc)) he

/-- In every run each message is read by one thread and printed once, no registration fails, and
no thread ends the program. -/
theorem threads_read_once (hrun : Run (Init held) (step maxmsg) tr s) :
    Accounted held (observed History.observe History.empty tr) s ∧ s.main ≠ MainPc.exited := by
  refine ⟨?_, (armed_run hrun).alive⟩
  refine run_induction
    (I := fun tr s => Accounted held (observed History.observe History.empty tr) s) ?_ ?_ hrun
  · intro s hs
    constructor
    · rw [hs.messages]
      simp [observed, History.empty]
    · rw [hs.threads]
      simp [observed, History.empty]
    · simp [observed, History.empty]
  · intro tr s a o t hprior ih hstep
    rw [observed_snoc]
    exact accounted_step ih (armed_run hprior) hstep

/-!
## Two threads
-/

def firstState (held : List Message) : State :=
  { queue := { messages := held, registered := false, pending := false }
    main := MainPc.notify
    threads := [] }

theorem init_firstState (held : List Message) : Init held (firstState held) :=
  ⟨rfl, rfl, rfl, rfl, rfl⟩

/-- The second message arrives when the first thread has emptied the queue, and both threads read
at the same time. -/
def twoThreads : List Action :=
  [Action.main, Action.send ⟨0, 5⟩, Action.start, Action.thread 0, Action.thread 0,
    Action.send ⟨0, 7⟩, Action.start, Action.thread 1, Action.thread 1, Action.thread 0,
    Action.thread 0, Action.thread 1, Action.thread 0, Action.thread 1, Action.thread 1]

/-- The program of the second run registers at a queue with a message. -/
theorem threads_rest_twoThreads :
    (exists tr s, Run (Init []) (step 10) tr s ∧
      s.threads = [ThreadPc.finished, ThreadPc.finished] ∧ s.queue.registered = true ∧
        s.queue.messages = [] ∧ ¬ Late tr) ∧
      exists tr s, Run (Init [⟨0, 3⟩]) (step 10) tr s ∧ s.queue.messages = [⟨0, 3⟩, ⟨0, 5⟩] ∧
        s.queue.registered = true ∧ Late tr ∧ s.threads = [] := by
  constructor
  · have hreplay : exists tr s, Run (Init []) (step 10) tr s ∧
        decide (s.main = MainPc.pause ∧ s.queue.pending = false ∧ s.queue.messages = [] ∧
          s.threads = [ThreadPc.finished, ThreadPc.finished]) = true :=
      run_of_replay twoThreads (init_firstState []) (by decide +kernel)
    rcases hreplay with ⟨tr, s, hrun, htest⟩
    rcases of_decide_eq_true htest with ⟨hmain, hpending, hempty, hthreads⟩
    have hfinished : forall pc, pc ∈ s.threads -> pc = ThreadPc.finished := by
      rw [hthreads]
      simp
    rcases threads_rest hrun hmain hpending hfinished with ⟨hregistered, hlate, _⟩
    exact ⟨tr, s, hrun, hthreads, hregistered, hempty, fun h => hlate.mpr h hempty⟩
  · have hreplay : exists tr s, Run (Init [⟨0, 3⟩]) (step 10) tr s ∧
        decide (s.main = MainPc.pause ∧ s.queue.pending = false ∧
          s.queue.messages = [⟨0, 3⟩, ⟨0, 5⟩] ∧
          forall pc, pc ∈ s.threads -> pc = ThreadPc.finished) = true :=
      run_of_replay [Action.main, Action.send ⟨0, 5⟩] (init_firstState _) (by decide +kernel)
    rcases hreplay with ⟨tr, s, hrun, htest⟩
    rcases of_decide_eq_true htest with ⟨hmain, hpending, hmessages, hfinished⟩
    rcases threads_rest hrun hmain hpending hfinished with ⟨hregistered, hiff, hnone⟩
    have hlate : Late tr := by
      apply hiff.mp
      rw [hmessages]
      simp
    exact ⟨tr, s, hrun, hmessages, hregistered, hlate, hnone hlate⟩

theorem threads_read_once_twoThreads :
    exists tr s, Run (Init []) (step 10) tr s ∧ s.queue.messages = [] ∧
      [⟨0, 5⟩, ⟨0, 7⟩].Perm (observed History.observe History.empty tr).read ∧
        [5, 7].Perm (observed History.observe History.empty tr).printed ∧
          s.main ≠ MainPc.exited := by
  have hreplay : exists tr s, Run (Init []) (step 10) tr s ∧
      decide (s.queue.messages = [] ∧ s.threads = [ThreadPc.finished, ThreadPc.finished] ∧
        (observed History.observe History.empty tr).sent = [⟨0, 5⟩, ⟨0, 7⟩]) = true :=
    run_of_replay twoThreads (init_firstState []) (by decide +kernel)
  rcases hreplay with ⟨tr, s, hrun, htest⟩
  rcases of_decide_eq_true htest with ⟨hempty, hthreads, hsent⟩
  rcases threads_read_once hrun with ⟨⟨hread, hprinted, _⟩, halive⟩
  rw [hsent, hempty, List.nil_append, List.append_nil] at hread
  have hquiet : [ThreadPc.finished, ThreadPc.finished].filterMap ThreadPc.printing = [] := by decide
  rw [hthreads, hquiet, List.append_nil] at hprinted
  exact ⟨tr, s, hrun, hempty, hread, (hread.map Message.len).trans hprinted, halive⟩

end Runs

end Thread1
end MqNotify
end InterprocessComm
