import InterprocessComm.MqNotify.Draining

/-!
# A handler that takes one message

`mqnotifysigl` does everything in the handler of `SIGUSR1`: it registers again and reads one
message with an `mq_receive` that waits.  A message that arrives beside others raises no signal.
-/

namespace InterprocessComm
namespace MqNotify
namespace Sigl

open Verification

inductive MainPc where
  | notify
  | pause
deriving DecidableEq

/-- The places of `sig_usr1`; in `receiving` it waits inside of `mq_receive`. -/
inductive HandlerPc where
  | renotify
  | receive
  | receiving
  | print (n : Nat)
deriving DecidableEq

structure State where
  queue : MsgQueue
  main : MainPc
  handler : Option HandlerPc
deriving DecidableEq

inductive Action where
  | send (m : Message)
  | deliver
  | main
  | handler
deriving DecidableEq

inductive Event where
  | silent
  | notified (result : Except Errno Unit)
  | read (m : Message)
  | printed (n : Nat)

/-- The signal is blocked while the handler runs; a message for a handler that waits is handed to
it. -/
def step (maxmsg : Nat) (s : State) : Action -> Option (State × Event)
  | Action.send m =>
      if s.handler = some HandlerPc.receiving then
        some ({ s with handler := some (HandlerPc.print m.len) }, Event.read m)
      else if s.queue.messages.length < maxmsg then
        some ({ s with queue := s.queue.mqSend m }, Event.silent)
      else
        none
  | Action.deliver =>
      if s.queue.pending = true ∧ s.handler = none then
        some ({ s with queue := { s.queue with pending := false },
                       handler := some HandlerPc.renotify }, Event.silent)
      else
        none
  | Action.main =>
      match s.main, s.handler with
      | MainPc.notify, none =>
          some ({ s with queue := s.queue.mqNotify.1, main := MainPc.pause },
            Event.notified s.queue.mqNotify.2)
      | _, _ => none
  | Action.handler =>
      s.handler.bind fun pc =>
        match pc with
        | HandlerPc.renotify =>
            some ({ s with queue := s.queue.mqNotify.1, handler := some HandlerPc.receive },
              Event.notified s.queue.mqNotify.2)
        | HandlerPc.receive =>
            match s.queue.mqReceive with
            | (q, Except.ok m) =>
                some ({ s with queue := q, handler := some (HandlerPc.print m.len) },
                  Event.read m)
            | (q, Except.error _) =>
                some ({ s with queue := q, handler := some HandlerPc.receiving }, Event.silent)
        | HandlerPc.receiving => none
        | HandlerPc.print n => some ({ s with handler := none }, Event.printed n)

structure Init (held : List Message) (s : State) : Prop where
  messages : s.queue.messages = held
  registered : s.queue.registered = false
  pending : s.queue.pending = false
  main : s.main = MainPc.notify
  handler : s.handler = none

def unsignalled (e : Transition State Action Event) : Bool :=
  match e.action with
  | Action.send _ => e.source.queue.messages ≠ [] ∨ e.source.main = MainPc.notify
  | _ => false

def Rests (s : State) : Prop :=
  s.main = MainPc.pause ∧ s.handler = none ∧ s.queue.pending = false

/-!
# The invariant
-/

/-- The messages that the signals on their way are for. -/
def due (s : State) : Nat :=
  s.queue.pending.toNat +
    match s.handler with
    | some HandlerPc.renotify => 1
    | some HandlerPc.receive => 1
    | _ => 0

def unregistered (s : State) : Nat :=
  s.queue.pending.toNat +
    match s.handler with
    | some HandlerPc.renotify => 1
    | _ => 0

/-- After the first registration there is one registration, one signal, or one handler that is
about to register; and what is on the queue is the messages that raised no signal and those that
are due. -/
structure Told (silent : Nat) (s : State) : Prop where
  fresh : s.main = MainPc.notify ->
    s.queue.registered = false ∧ s.queue.pending = false ∧ s.handler = none
  armed : s.main = MainPc.pause -> s.queue.registered.toNat + unregistered s = 1
  length : s.queue.messages.length = silent + due s
  waits : s.handler ≠ some HandlerPc.receiving

section Steps

variable {maxmsg silent : Nat} {s t : State} {a : Action} {o : Event}

inductive Stepped (s : State) : Action -> Event -> State -> Prop where
  | hand (m : Message) (hwaits : s.handler = some HandlerPc.receiving) :
      Stepped s (Action.send m) (Event.read m) { s with handler := some (HandlerPc.print m.len) }
  | send (m : Message) (hwaits : s.handler ≠ some HandlerPc.receiving) :
      Stepped s (Action.send m) Event.silent { s with queue := s.queue.mqSend m }
  | deliver (hpending : s.queue.pending = true) (hhandler : s.handler = none) :
      Stepped s Action.deliver Event.silent
        { s with queue := { s.queue with pending := false }, handler := some HandlerPc.renotify }
  | main (hmain : s.main = MainPc.notify) (hhandler : s.handler = none) :
      Stepped s Action.main (Event.notified s.queue.mqNotify.2)
        { s with queue := { s.queue with registered := true }, main := MainPc.pause }
  | renotify (hhandler : s.handler = some HandlerPc.renotify) :
      Stepped s Action.handler (Event.notified s.queue.mqNotify.2)
        { s with queue := { s.queue with registered := true }, handler := some HandlerPc.receive }
  | receive {m : Message} {rest : List Message} (hhandler : s.handler = some HandlerPc.receive)
      (hqueue : s.queue.messages = m :: rest) :
      Stepped s Action.handler (Event.read m)
        { s with queue := { s.queue with messages := rest },
                 handler := some (HandlerPc.print m.len) }
  | wait (hhandler : s.handler = some HandlerPc.receive) (hqueue : s.queue.messages = []) :
      Stepped s Action.handler Event.silent { s with handler := some HandlerPc.receiving }
  | print {n : Nat} (hhandler : s.handler = some (HandlerPc.print n)) :
      Stepped s Action.handler (Event.printed n) { s with handler := none }

theorem stepped_of_step (hstep : step maxmsg s a = some (t, o)) : Stepped s a o t := by
  cases a with
  | send m =>
      simp only [step] at hstep
      split at hstep
      · rename_i hwaits
        cases hstep
        exact Stepped.hand m hwaits
      · rename_i hwaits
        split at hstep
        · cases hstep
          exact Stepped.send m hwaits
        · cases hstep
  | deliver =>
      simp only [step] at hstep
      split at hstep
      · rename_i hboth
        cases hstep
        exact Stepped.deliver hboth.1 hboth.2
      · cases hstep
  | main =>
      simp only [step] at hstep
      split at hstep
      · rename_i hmain hhandler
        rw [mqNotify_fst] at hstep
        cases hstep
        exact Stepped.main hmain hhandler
      · cases hstep
  | handler =>
      rcases Option.bind_eq_some_iff.mp hstep with ⟨pc, hpc, hmove⟩
      cases pc with
      | renotify =>
          simp only [mqNotify_fst] at hmove
          cases hmove
          exact Stepped.renotify hpc
      | receive =>
          simp only [MsgQueue.mqReceive] at hmove
          cases hqueue : s.queue.messages with
          | nil =>
              rw [hqueue] at hmove
              cases hmove
              exact Stepped.wait hpc hqueue
          | cons m rest =>
              rw [hqueue] at hmove
              cases hmove
              exact Stepped.receive hpc hqueue
      | receiving => cases hmove
      | print n =>
          cases hmove
          exact Stepped.print hpc

theorem told_send {m : Message} (hs : Told silent s)
    (hwaits : s.handler ≠ some HandlerPc.receiving) :
    Told (silent + if s.queue.messages ≠ [] ∨ s.main = MainPc.notify then 1 else 0)
      { s with queue := s.queue.mqSend m } := by
  have hlength := hs.length
  have hinsert := (stableInsert_perm Message.prio m s.queue.messages).length_eq
  rw [List.length_cons] at hinsert
  rcases mqSend_cases s.queue m with ⟨hempty, hregistered, hqueue⟩ | ⟨hquiet, hqueue⟩
  · -- the message is told of
    have hmain : s.main ≠ MainPc.notify := by
      intro hnotify
      have hfree := (hs.fresh hnotify).1
      rw [hregistered] at hfree
      cases hfree
    rw [if_neg (by simp [hempty, hmain]), hqueue]
    have harmed := hs.armed (by cases hplace : s.main <;> simp_all)
    rw [hregistered] at harmed
    unfold unregistered at harmed
    simp only [Bool.toNat_true] at harmed
    refine ⟨fun h => absurd h hmain, ?_, ?_, hwaits⟩
    · intro _
      simp only [unregistered, Bool.toNat_true, Bool.toNat_false]
      lia
    · unfold due at hlength ⊢
      simp only [Bool.toNat_true]
      lia
  · have hcount : (if s.queue.messages ≠ [] ∨ s.main = MainPc.notify then 1 else 0) = 1 := by
      rw [if_pos]
      rcases hquiet with hsome | hfree
      · exact Or.inl hsome
      · cases hmain : s.main with
        | notify => exact Or.inr rfl
        | pause =>
            -- without a registration a message is due
            left
            intro hempty
            have harmed := hs.armed hmain
            rw [hfree] at harmed
            rw [hempty] at hlength
            have hle : unregistered s ≤ due s := by
              unfold unregistered due
              cases s.handler with
              | none => exact Nat.le_refl _
              | some pc => cases pc <;> simp
            simp only [Bool.toNat_false, List.length_nil] at harmed hlength
            lia
    rw [hcount, hqueue]
    refine ⟨hs.fresh, hs.armed, ?_, hwaits⟩
    show (stableInsert Message.prio m s.queue.messages).length = silent + 1 + due s
    lia

theorem told_step (hs : Told silent s) (hstep : step maxmsg s a = some (t, o)) :
    Told (silent + if unsignalled ⟨s, a, o, t⟩ then 1 else 0) t := by
  have hmain : s.handler ≠ none -> s.main ≠ MainPc.notify := fun hsome hnotify =>
    hsome (hs.fresh hnotify).2.2
  have hlength := hs.length
  cases stepped_of_step hstep with
  | hand m hwaits => exact absurd hwaits hs.waits
  | send m hwaits =>
      have htold := told_send (m := m) hs hwaits
      simpa [unsignalled] using htold
  | deliver hpending hhandler =>
      refine ⟨?_, ?_, ?_, by simp⟩
      · intro hnotify
        have hquiet := (hs.fresh hnotify).2.1
        rw [hpending] at hquiet
        cases hquiet
      · intro hpause
        have harmed := hs.armed hpause
        simpa [unregistered, hpending, hhandler] using harmed
      · simpa [unsignalled, due, hpending, hhandler] using hlength
  | main hnotify hhandler =>
      rcases hs.fresh hnotify with ⟨_, hpending, _⟩
      refine ⟨fun h => MainPc.noConfusion h, ?_, ?_, hs.waits⟩
      · intro _
        simp [unregistered, hpending, hhandler]
      · simpa [unsignalled, due] using hlength
  | renotify hhandler =>
      refine ⟨fun h => absurd h (hmain (by simp [hhandler])), ?_, ?_, by simp⟩
      · intro hpause
        have harmed := hs.armed hpause
        simp only [unregistered, hhandler] at harmed ⊢
        simp only [Bool.toNat_true]
        lia
      · simpa [unsignalled, due, hhandler] using hlength
  | receive hhandler hqueue =>
      refine ⟨fun h => absurd h (hmain (by simp [hhandler])), ?_, ?_, by simp⟩
      · intro hpause
        have harmed := hs.armed hpause
        simpa [unregistered, hhandler] using harmed
      · simp [unsignalled, due, hhandler, hqueue] at hlength ⊢
        lia
  | wait hhandler hqueue =>
      simp [due, hhandler, hqueue] at hlength
  | print hhandler =>
      refine ⟨fun h => absurd h (hmain (by simp [hhandler])), ?_, ?_, by simp⟩
      · intro hpause
        have harmed := hs.armed hpause
        simpa [unregistered, hhandler] using harmed
      · simpa [unsignalled, due, hhandler] using hlength

end Steps

/-!
# Whole runs
-/

section Runs

variable {maxmsg : Nat} {held : List Message} {tr : List (Transition State Action Event)}
  {s t : State}

theorem told_run (hrun : Run (Init held) (step maxmsg) tr s) :
    Told (held.length + tr.countP unsignalled) s := by
  refine run_induction (I := fun tr s => Told (held.length + tr.countP unsignalled) s) ?_ ?_ hrun
  · intro s hs
    constructor
    · exact fun _ => ⟨hs.registered, hs.pending, hs.handler⟩
    · simp [hs.main]
    · simp [due, hs.messages, hs.pending, hs.handler]
    · simp [hs.handler]
  · intro tr s a o t _ ih hstep
    have htold := told_step ih hstep
    rw [List.countP_append, List.countP_singleton, ← Nat.add_assoc]
    exact htold

theorem notified_ok (hrun : Run (Init held) (step maxmsg) tr s)
    {e : Transition State Action Event} (he : e ∈ tr) {r : Except Errno Unit}
    (hr : e.event = Event.notified r) : r = Except.ok () := by
  rcases run_transition hrun he with ⟨⟨front, hfront⟩, hvalid⟩
  have htold := told_run hfront
  rcases e with ⟨s, a, o, t⟩
  have hmove : Stepped s a o t := stepped_of_step hvalid
  cases hmove with
  | main hnotify hhandler =>
      cases hr
      exact mqNotify_ok (htold.fresh hnotify).1
  | renotify hhandler =>
      cases hr
      have hpause : s.main = MainPc.pause := by
        cases hplace : s.main with
        | notify =>
            have hnone := (htold.fresh hplace).2.2
            rw [hhandler] at hnone
            cases hnone
        | pause => rfl
      have harmed := htold.armed hpause
      simp only [unregistered, hhandler] at harmed
      apply mqNotify_ok
      cases hregistered : s.queue.registered with
      | false => rfl
      | true =>
          rw [hregistered, Bool.toNat_true] at harmed
          lia
  | _ => cases hr

theorem rests_step {a : Action} {o : Event} (hrests : Rests s) (hsome : s.queue.messages ≠ [])
    (hstep : step maxmsg s a = some (t, o)) :
    Rests t ∧ t.queue.messages ≠ [] ∧ exists m, a = Action.send m ∧ o = Event.silent := by
  rcases hrests with ⟨hmain, hhandler, hpending⟩
  cases stepped_of_step hstep with
  | hand m hwaits => cases hwaits.symm.trans hhandler
  | send m hwaits =>
      rcases mqSend_cases s.queue m with ⟨hempty, _, _⟩ | ⟨_, hqueue⟩
      · exact absurd hempty hsome
      · refine ⟨⟨hmain, hhandler, by rw [hqueue]; exact hpending⟩, ?_, m, rfl, rfl⟩
        have hlength := (stableInsert_perm Message.prio m s.queue.messages).length_eq
        intro hnone
        rw [hqueue] at hnone
        rw [show stableInsert Message.prio m s.queue.messages = [] from hnone] at hlength
        cases hlength
  | deliver hsignal _ => cases hsignal.symm.trans hpending
  | main hnotify _ => cases hnotify.symm.trans hmain
  | renotify hplace => cases hplace.symm.trans hhandler
  | receive hplace _ => cases hplace.symm.trans hhandler
  | wait hplace _ => cases hplace.symm.trans hhandler
  | print hplace => cases hplace.symm.trans hhandler

theorem rests_path {more : List (Transition State Action Event)} (hrests : Rests s)
    (hsome : s.queue.messages ≠ []) (hpath : Path (step maxmsg) s more t) :
    (Rests t ∧ t.queue.messages ≠ []) ∧
      forall e, e ∈ more -> exists m, e.action = Action.send m ∧ e.event = Event.silent := by
  refine path_guarded (G := fun _ => True)
    (P := fun e => exists m, e.action = Action.send m ∧ e.event = Event.silent)
    (I := fun s => Rests s ∧ s.queue.messages ≠ []) ?_ hpath ⟨hrests, hsome⟩ (fun _ _ => trivial)
  rintro s a o t ⟨hs, hleft⟩ _ hstep
  rcases rests_step hs hleft hstep with ⟨ht, hnext, m, ha, ho⟩
  exact ⟨⟨ht, hnext⟩, m, ha, ho⟩

/-- The handler never waits for a message and no registration fails.  Where the program rests, as
many messages are left as have arrived without a signal; and from there, if any is left, none is
ever read. -/
theorem unsignalled_messages_stay (hrun : Run (Init held) (step maxmsg) tr s) :
    s.handler ≠ some HandlerPc.receiving ∧
      (forall e, e ∈ tr -> forall r, e.event = Event.notified r -> r = Except.ok ()) ∧
      (Rests s -> s.queue.messages.length = held.length + tr.countP unsignalled ∧
        (s.queue.messages ≠ [] -> forall more t, Path (step maxmsg) s more t ->
          Rests t ∧ forall e, e ∈ more ->
            exists m, e.action = Action.send m ∧ e.event = Event.silent)) := by
  have htold := told_run hrun
  refine ⟨htold.waits, fun e he r hr => notified_ok hrun he hr, ?_⟩
  intro hrests
  constructor
  · rcases hrests with ⟨_, hhandler, hpending⟩
    have hlength := htold.length
    simp only [due, hhandler, hpending, Bool.toNat_false] at hlength
    exact hlength
  · intro hsome more t hpath
    rcases rests_path hrests hsome hpath with ⟨⟨ht, _⟩, hsends⟩
    exact ⟨ht, hsends⟩

def firstState (held : List Message) : State :=
  { queue := { messages := held, registered := false, pending := false }
    main := MainPc.notify
    handler := none }

theorem init_firstState (held : List Message) : Init held (firstState held) :=
  ⟨rfl, rfl, rfl, rfl, rfl⟩

/-- The second of two messages arrives before the handler has read the first. -/
theorem unsignalled_messages_stay_twoMessages :
    exists tr s, Run (Init []) (step 10) tr s ∧ Rests s ∧ s.queue.messages = [⟨0, 7⟩] ∧
      s.queue.messages.length = tr.countP unsignalled := by
  have hreplay : exists tr s, Run (Init []) (step 10) tr s ∧
      decide (s.main = MainPc.pause ∧ s.handler = none ∧ s.queue.pending = false ∧
        s.queue.messages = [⟨0, 7⟩]) = true :=
    run_of_replay
      [Action.main, Action.send ⟨0, 5⟩, Action.deliver, Action.send ⟨0, 7⟩, Action.handler,
        Action.handler, Action.handler]
      (init_firstState []) (by decide +kernel)
  rcases hreplay with ⟨tr, s, hrun, htest⟩
  rcases of_decide_eq_true htest with ⟨hmain, hhandler, hpending, hmessages⟩
  have hrests : Rests s := ⟨hmain, hhandler, hpending⟩
  have hcount := ((unsignalled_messages_stay hrun).2.2 hrests).1
  rw [List.length_nil, Nat.zero_add] at hcount
  exact ⟨tr, s, hrun, hrests, hmessages, hcount⟩

end Runs

end Sigl
end MqNotify
end InterprocessComm
