import InterprocessComm.MqNotify.Operations

/-!
# A reader that takes one message per signal

`mqnotifysig2` registers again and then reads a single message, with an `mq_receive` that waits.
Messages that arrive while others are there raise no signal, so what it leaves behind can stay.
-/

namespace InterprocessComm
namespace MqNotify

open Verification

/-!
## mqnotifysig2
-/

/-- In `receiving` the program waits inside of `mq_receive`. -/
inductive Sig2Pc where
  | notify
  | block
  | test
  | sigsuspend
  | suspended
  | reset
  | renotify
  | receive
  | receiving
  | unblock
deriving DecidableEq

/-- `masked` says that `SIGUSR1` is in the signal mask. -/
structure Sig2 where
  pc : Sig2Pc
  masked : Bool
  mqflag : Nat
deriving DecidableEq

def sig2Step (q : MsgQueue) (l : Sig2) : Option (MsgQueue × Sig2 × ReaderEvent) :=
  match l.pc with
  | Sig2Pc.notify => some (q.mqNotify.1, { l with pc := Sig2Pc.block }, ReaderEvent.silent)
  | Sig2Pc.block => some (q, { l with pc := Sig2Pc.test, masked := true }, ReaderEvent.silent)
  | Sig2Pc.test =>
      if l.mqflag = 0 then
        some (q, { l with pc := Sig2Pc.sigsuspend }, ReaderEvent.silent)
      else
        some (q, { l with pc := Sig2Pc.reset }, ReaderEvent.silent)
  | Sig2Pc.sigsuspend => some (q, { l with pc := Sig2Pc.suspended }, ReaderEvent.silent)
  | Sig2Pc.suspended => none
  | Sig2Pc.reset =>
      some (q, { l with pc := Sig2Pc.renotify, mqflag := 0 }, ReaderEvent.silent)
  | Sig2Pc.renotify => some (q.mqNotify.1, { l with pc := Sig2Pc.receive }, ReaderEvent.silent)
  | Sig2Pc.receive =>
      match q.mqReceive with
      | (q', Except.ok _) => some (q', { l with pc := Sig2Pc.unblock }, ReaderEvent.silent)
      | (q', Except.error _) => some (q', { l with pc := Sig2Pc.receiving }, ReaderEvent.silent)
  | Sig2Pc.receiving => none
  | Sig2Pc.unblock => some (q, { l with pc := Sig2Pc.block, masked := false }, ReaderEvent.silent)

/-- `sigsuspend` has an empty mask, and returns with the old one when the handler has run. -/
def sig2Deliver (l : Sig2) : Option Sig2 :=
  if l.pc = Sig2Pc.suspended then
    some { l with pc := Sig2Pc.test, mqflag := 1 }
  else if l.masked = true then
    none
  else
    some { l with mqflag := 1 }

def sig2 : Program Sig2 :=
  { start := { pc := Sig2Pc.notify, masked := false, mqflag := 0 },
    step := sig2Step,
    deliver := sig2Deliver,
    blocked := fun l => l.pc = Sig2Pc.suspended ∧ l.mqflag = 0 }

/-- A message for a receiver that waits is handed to it, and does not come on the queue. -/
def sig2SystemStep (maxmsg : Nat) (s : ReaderState Sig2) :
    ReaderAction -> Option (ReaderState Sig2 × ReaderEvent)
  | ReaderAction.send m =>
      if s.loc.pc = Sig2Pc.receiving then
        some ({ s with loc := { s.loc with pc := Sig2Pc.unblock } }, ReaderEvent.silent)
      else
        readerStep sig2 maxmsg s (ReaderAction.send m)
  | a => readerStep sig2 maxmsg s a

/-!
## What can go wrong
-/

def Stranded (s : ReaderState Sig2) : Prop :=
  sig2.blocked s.loc = true ∧ s.queue.pending = false ∧ s.queue.messages ≠ []

/-- The first registration comes too late for a message, or a message is read while there are
others and no signal is pending. -/
def strands (e : ReaderTransition Sig2) : Bool :=
  match e.action, e.source.loc.pc with
  | ReaderAction.step, Sig2Pc.notify => e.source.queue.messages ≠ []
  | ReaderAction.step, Sig2Pc.receive =>
      2 ≤ e.source.queue.messages.length ∧ e.source.queue.pending = false
  | _, _ => false

/-- The program will be told of the next message, or has been told of one. -/
def Told (q : MsgQueue) (l : Sig2) : Prop :=
  l.mqflag ≠ 0 ∨ q.pending = true ∨ q.registered = true

def Safe (s : ReaderState Sig2) : Prop :=
  match s.loc.pc with
  | Sig2Pc.notify => True
  | Sig2Pc.reset => True
  | Sig2Pc.renotify => True
  | Sig2Pc.receive => Told s.queue s.loc
  | Sig2Pc.receiving => Told s.queue s.loc ∧ s.queue.messages = []
  | _ => s.loc.mqflag ≠ 0 ∨ s.queue.pending = true ∨
      (s.queue.registered = true ∧ s.queue.messages = [])

def Placed (s : ReaderState Sig2) : Prop :=
  match s.loc.pc with
  | Sig2Pc.notify =>
      s.loc.mqflag = 0 ∧ s.queue.registered = false ∧ s.queue.pending = false
  | Sig2Pc.block => True
  | Sig2Pc.renotify => s.loc.masked = true ∧ s.loc.mqflag = 0
  | Sig2Pc.receive => s.loc.masked = true ∧ s.loc.mqflag = 0
  | Sig2Pc.receiving => s.loc.masked = true ∧ s.loc.mqflag = 0
  | _ => s.loc.masked = true

section Steps

variable {maxmsg : Nat} {s t : ReaderState Sig2} {a : ReaderAction} {o : ReaderEvent}

theorem mqNotify_spec (q : MsgQueue) :
    q.mqNotify.1.registered = true ∧ q.mqNotify.1.messages = q.messages ∧
      q.mqNotify.1.pending = q.pending := by
  unfold MsgQueue.mqNotify
  split
  · rename_i hregistered
    exact ⟨hregistered, rfl, rfl⟩
  · exact ⟨rfl, rfl, rfl⟩

theorem receive_cases {q q' : MsgQueue} {masked : Bool} {mqflag : Nat} {l : Sig2}
    (h : sig2.step q ⟨Sig2Pc.receive, masked, mqflag⟩ = some (q', l, o)) :
    (q.messages = [] ∧ q = q' ∧ l = ⟨Sig2Pc.receiving, masked, mqflag⟩) ∨
      exists m rest, q.messages = m :: rest ∧ q' = { q with messages := rest } ∧
        l = ⟨Sig2Pc.unblock, masked, mqflag⟩ := by
  simp only [sig2, sig2Step, MsgQueue.mqReceive] at h
  cases hqueue : q.messages with
  | nil =>
      rw [hqueue] at h
      cases h
      exact Or.inl ⟨rfl, rfl, rfl⟩
  | cons m rest =>
      rw [hqueue] at h
      cases h
      exact Or.inr ⟨m, rest, rfl, rfl, rfl⟩

theorem mqSend_told (q : MsgQueue) (m : Message) (l : Sig2) (h : Told q l) :
    Told (q.mqSend m) l := by
  unfold MsgQueue.mqSend
  simp only
  split
  · exact Or.inr (Or.inl rfl)
  · exact h

theorem mqSend_waits (q : MsgQueue) (m : Message) (l : Sig2)
    (h : l.mqflag ≠ 0 ∨ q.pending = true ∨ (q.registered = true ∧ q.messages = [])) :
    l.mqflag ≠ 0 ∨ (q.mqSend m).pending = true := by
  unfold MsgQueue.mqSend
  simp only
  split
  · exact Or.inr rfl
  · rename_i hnot
    rcases h with hflag | hpending | ⟨hregistered, hempty⟩
    · exact Or.inl hflag
    · exact Or.inr hpending
    · exact absurd ⟨hempty, hregistered⟩ hnot

theorem safe_send {m : Message} (hsafe : Safe s)
    (hstep : sig2SystemStep maxmsg s (ReaderAction.send m) = some (t, o)) : Safe t := by
  rcases s with ⟨q, pc, masked, mqflag⟩
  simp only [sig2SystemStep, readerStep] at hstep
  split at hstep
  · rename_i hreceiving
    cases hreceiving
    cases hstep
    rcases hsafe with ⟨hflag | hpending | hregistered, hempty⟩
    · exact Or.inl hflag
    · exact Or.inr (Or.inl hpending)
    · exact Or.inr (Or.inr ⟨hregistered, hempty⟩)
  · rename_i hnot
    split at hstep
    · cases hstep
      cases pc with
      | notify => trivial
      | reset => trivial
      | renotify => trivial
      | receive => exact mqSend_told q m _ hsafe
      | receiving => exact absurd rfl hnot
      | _ => exact (mqSend_waits q m _ hsafe).imp_right Or.inl
    · cases hstep

theorem safe_deliver (hsafe : Safe s)
    (hstep : sig2SystemStep maxmsg s ReaderAction.deliver = some (t, o)) : Safe t := by
  rcases s with ⟨q, pc, masked, mqflag⟩
  simp only [sig2SystemStep, readerStep, sig2, sig2Deliver] at hstep
  have hflag : (1 : Nat) ≠ 0 := Nat.one_ne_zero
  split at hstep
  · split at hstep
    · cases hstep
      exact Or.inl hflag
    · split at hstep
      · cases hstep
      · cases hstep
        cases pc with
        | notify => trivial
        | reset => trivial
        | renotify => trivial
        | receiving => exact ⟨Or.inl hflag, hsafe.2⟩
        | _ => exact Or.inl hflag
  · cases hstep

theorem safe_step (hsafe : Safe s)
    (hstep : sig2SystemStep maxmsg s ReaderAction.step = some (t, o))
    (hkeeps : strands ⟨s, ReaderAction.step, o, t⟩ = false) : Safe t := by
  rcases s with ⟨q, pc, masked, mqflag⟩
  rcases Option.map_eq_some_iff.mp hstep with ⟨⟨q', l', o'⟩, hmove, hdone⟩
  cases hdone
  rcases mqNotify_spec q with ⟨hregistered, hmessages, _⟩
  cases pc with
  | notify =>
      have hempty : q.messages = [] := by simpa [strands] using hkeeps
      cases hmove
      exact Or.inr (Or.inr ⟨hregistered, hmessages.trans hempty⟩)
  | test =>
      simp only [sig2, sig2Step] at hmove
      split at hmove
      · cases hmove
        exact hsafe
      · cases hmove
        trivial
  | reset =>
      cases hmove
      trivial
  | renotify =>
      cases hmove
      exact Or.inr (Or.inr hregistered)
  | receive =>
      rcases receive_cases (q := q) hmove with ⟨hqueue, rfl, rfl⟩ | ⟨m, rest, hqueue, rfl, rfl⟩
      · exact ⟨hsafe, hqueue⟩
      · rcases hsafe with hflag | hpending | hregistered
        · exact Or.inl hflag
        · exact Or.inr (Or.inl hpending)
        · by_cases hpending : q.pending = true
          · exact Or.inr (Or.inl hpending)
          · have hfew : q.messages.length < 2 := by
              simpa [strands, hpending] using hkeeps
            rw [hqueue] at hfew
            have hlast : rest = [] :=
              List.length_eq_zero_iff.mp (Nat.lt_one_iff.mp (Nat.lt_of_succ_lt_succ hfew))
            exact Or.inr (Or.inr ⟨hregistered, hlast⟩)
  | suspended => cases hmove
  | receiving => cases hmove
  | block =>
      cases hmove
      exact hsafe
  | sigsuspend =>
      cases hmove
      exact hsafe
  | unblock =>
      cases hmove
      exact hsafe

theorem placed_send {m : Message} (hplaced : Placed s)
    (hstep : sig2SystemStep maxmsg s (ReaderAction.send m) = some (t, o)) : Placed t := by
  rcases s with ⟨q, pc, masked, mqflag⟩
  simp only [sig2SystemStep, readerStep] at hstep
  split at hstep
  · rename_i hreceiving
    cases hreceiving
    cases hstep
    exact hplaced.1
  · split at hstep
    · cases hstep
      cases pc with
      | notify =>
          rcases hplaced with ⟨hflag, hregistered, hpending⟩
          have hnot : ¬ (q.messages = [] ∧ q.registered = true) := by
            rintro ⟨_, htrue⟩
            exact absurd (hregistered.symm.trans htrue) (by decide)
          refine ⟨hflag, ?_⟩
          simp only [MsgQueue.mqSend, if_neg hnot]
          exact ⟨hregistered, hpending⟩
      | _ => exact hplaced
    · cases hstep

theorem placed_deliver (hplaced : Placed s)
    (hstep : sig2SystemStep maxmsg s ReaderAction.deliver = some (t, o)) : Placed t := by
  rcases s with ⟨q, pc, masked, mqflag⟩
  simp only [sig2SystemStep, readerStep, sig2, sig2Deliver] at hstep
  split at hstep
  · rename_i hpending
    split at hstep
    · rename_i hsuspended
      cases hsuspended
      cases hstep
      exact hplaced
    · split at hstep
      · cases hstep
      · rename_i hmask
        cases hstep
        cases pc with
        | notify => exact absurd (hplaced.2.2.symm.trans hpending) (by decide)
        | block => trivial
        | renotify => exact absurd hplaced.1 hmask
        | receive => exact absurd hplaced.1 hmask
        | receiving => exact absurd hplaced.1 hmask
        | _ => exact absurd hplaced hmask
  · cases hstep

theorem placed_move (hplaced : Placed s)
    (hstep : sig2SystemStep maxmsg s ReaderAction.step = some (t, o)) : Placed t := by
  rcases s with ⟨q, pc, masked, mqflag⟩
  rcases Option.map_eq_some_iff.mp hstep with ⟨⟨q', l', o'⟩, hmove, hdone⟩
  cases hdone
  cases pc with
  | notify =>
      cases hmove
      trivial
  | block =>
      cases hmove
      rfl
  | test =>
      simp only [sig2, sig2Step] at hmove
      split at hmove <;> cases hmove <;> exact hplaced
  | sigsuspend =>
      cases hmove
      exact hplaced
  | suspended => cases hmove
  | reset =>
      cases hmove
      exact ⟨hplaced, rfl⟩
  | renotify =>
      cases hmove
      exact hplaced
  | receive =>
      rcases receive_cases (q := q) hmove with ⟨_, rfl, rfl⟩ | ⟨_, _, _, rfl, rfl⟩
      · exact hplaced
      · exact hplaced.1
  | receiving => cases hmove
  | unblock =>
      cases hmove
      trivial

theorem placed_step (hplaced : Placed s) (hstep : sig2SystemStep maxmsg s a = some (t, o)) :
    Placed t := by
  cases a with
  | send m => exact placed_send hplaced hstep
  | deliver => exact placed_deliver hplaced hstep
  | step => exact placed_move hplaced hstep

theorem goes_to_wait (maxmsg : Nat) (q : MsgQueue) (masked : Bool) :
    exists tr l, Path (sig2SystemStep maxmsg) ⟨q, ⟨Sig2Pc.block, masked, 0⟩⟩ tr ⟨q, l⟩ ∧
      (forall e, e ∈ tr -> e.action = ReaderAction.step) ∧ sig2.blocked l = true := by
  let loc : Sig2Pc -> Sig2 := fun pc => ⟨pc, true, 0⟩
  have hblock : sig2SystemStep maxmsg ⟨q, ⟨Sig2Pc.block, masked, 0⟩⟩ ReaderAction.step =
      some (⟨q, loc Sig2Pc.test⟩, ReaderEvent.silent) := rfl
  have htest : sig2SystemStep maxmsg ⟨q, loc Sig2Pc.test⟩ ReaderAction.step =
      some (⟨q, loc Sig2Pc.sigsuspend⟩, ReaderEvent.silent) := rfl
  have hsuspend : sig2SystemStep maxmsg ⟨q, loc Sig2Pc.sigsuspend⟩ ReaderAction.step =
      some (⟨q, loc Sig2Pc.suspended⟩, ReaderEvent.silent) := rfl
  refine ⟨_, loc Sig2Pc.suspended,
    Path.snoc (Path.snoc (Path.snoc Path.nil hblock) htest) hsuspend, ?_, rfl⟩
  simp

/-- After a step that strands a message the program comes to wait for nothing. -/
theorem strands_later (hplaced : Placed s) (hstep : sig2SystemStep maxmsg s a = some (t, o))
    (hstrands : strands ⟨s, a, o, t⟩ = true) :
    exists tr u, Path (sig2SystemStep maxmsg) t tr u ∧
      (forall e, e ∈ tr -> e.action = ReaderAction.step) ∧ Stranded u := by
  rcases s with ⟨q, pc, masked, mqflag⟩
  cases a with
  | send m => cases hstrands
  | deliver => cases hstrands
  | step =>
      rcases Option.map_eq_some_iff.mp hstep with ⟨⟨q', l', o'⟩, hmove, hdone⟩
      cases hdone
      cases pc with
      | notify =>
          rcases hplaced with ⟨hflag, _, hpending⟩
          have hleft : q.messages ≠ [] := of_decide_eq_true hstrands
          rcases mqNotify_spec q with ⟨_, hmessages, hsame⟩
          have hzero : mqflag = 0 := hflag
          subst hzero
          cases hmove
          rcases goes_to_wait maxmsg q.mqNotify.1 masked with ⟨tr, l, hpath, halone, hblocked⟩
          refine ⟨tr, _, hpath, halone, hblocked, hsame.trans hpending, ?_⟩
          rw [hmessages]
          exact hleft
      | receive =>
          rcases hplaced with ⟨_, hflag⟩
          rcases of_decide_eq_true hstrands with ⟨hmany, hpending⟩
          have hzero : mqflag = 0 := hflag
          subst hzero
          rcases receive_cases (q := q) hmove with ⟨hqueue, rfl, rfl⟩ | ⟨m, rest, hqueue, rfl, rfl⟩
          · have hnone : 2 ≤ q.messages.length := hmany
            rw [hqueue] at hnone
            exact absurd hnone (by decide)
          · have htwo : 2 ≤ q.messages.length := hmany
            rw [hqueue, List.length_cons] at htwo
            have hunblock : sig2SystemStep maxmsg
                ⟨{ q with messages := rest }, ⟨Sig2Pc.unblock, masked, 0⟩⟩ ReaderAction.step =
                  some (⟨{ q with messages := rest }, ⟨Sig2Pc.block, false, 0⟩⟩,
                    ReaderEvent.silent) := rfl
            rcases goes_to_wait maxmsg { q with messages := rest } false with
              ⟨tr, l, hpath, halone, hblocked⟩
            refine ⟨_, _, path_append (Path.snoc Path.nil hunblock) hpath, ?_, hblocked,
              hpending, ?_⟩
            · intro e he
              rcases List.mem_append.mp he with hfirst | hlater
              · rw [List.mem_singleton.mp hfirst]
              · exact halone e hlater
            · rintro rfl
              exact absurd htwo (by decide)
      | _ => cases hstrands

end Steps

/-!
## Whole runs
-/

/-- No message is stranded as long as the program registers on an empty queue and reads no message
while there are others and no signal is pending; after a step that does so the program, left to
itself, waits beside a message. -/
theorem sig2_strands_iff {maxmsg : Nat} {tr : List (ReaderTransition Sig2)}
    {s : ReaderState Sig2} (hrun : Run (ReaderInit sig2) (sig2SystemStep maxmsg) tr s) :
    ((forall e, e ∈ tr -> strands e = false) -> ¬ Stranded s) ∧
      forall e, e ∈ tr -> strands e = true ->
        exists tr' u, Path (sig2SystemStep maxmsg) e.target tr' u ∧
          (forall d, d ∈ tr' -> d.action = ReaderAction.step) ∧ Stranded u := by
  constructor
  · intro hkeeps
    have hsafe : Safe s := by
      refine run_guarded_invariant (G := fun e => strands e = false) ?_ ?_ hrun hkeeps
      · intro s hs
        unfold Safe
        rw [hs.loc]
        trivial
      · intro s a o t _ hsafe hkeep hstep
        cases a with
        | send m => exact safe_send hsafe hstep
        | deliver => exact safe_deliver hsafe hstep
        | step => exact safe_step hsafe hstep hkeep
    rintro ⟨hblocked, hpending, hleft⟩
    rcases of_decide_eq_true hblocked with ⟨hpc, hflag⟩
    unfold Safe at hsafe
    rw [hpc] at hsafe
    rcases hsafe with hset | hsignal | ⟨_, hempty⟩
    · exact hset hflag
    · exact absurd (hpending.symm.trans hsignal) (by decide)
    · exact hleft hempty
  · intro e he hstrands
    rcases run_transition hrun he with ⟨⟨tr', hreached⟩, hvalid⟩
    have hplaced : Placed e.source := by
      refine run_induction (I := fun _ s => Placed s) ?_ ?_ hreached
      · intro s hs
        unfold Placed
        rw [hs.loc]
        exact ⟨rfl, hs.registered, hs.pending⟩
      · intro tr s a o t _ hplaced hstep
        exact placed_step hplaced hstep
    exact strands_later hplaced hvalid hstrands

def sig2Start (messages : List Message) : ReaderState Sig2 where
  queue := { messages := messages, registered := false, pending := false }
  loc := sig2.start

theorem init_sig2Start (messages : List Message) : ReaderInit sig2 (sig2Start messages) :=
  ⟨rfl, rfl, rfl⟩

/-- A message is read for its signal, and the program waits again beside an empty queue. -/
theorem sig2_strands_iff_oneMessage :
    exists tr s, Run (ReaderInit sig2) (sig2SystemStep 10) tr s ∧
      tr.any (fun e => e.source.loc.pc = Sig2Pc.unblock) = true ∧
      sig2.blocked s.loc = true ∧ ¬ Stranded s := by
  have hreplay : exists tr s, Run (ReaderInit sig2) (sig2SystemStep 10) tr s ∧
      decide (tr.any (fun e => e.source.loc.pc = Sig2Pc.unblock) = true ∧
        sig2.blocked s.loc = true ∧ forall e, e ∈ tr -> strands e = false) = true :=
    run_of_replay
      (List.replicate 4 ReaderAction.step ++ [ReaderAction.send ⟨0, 5⟩, ReaderAction.deliver] ++
        List.replicate 8 ReaderAction.step)
      (init_sig2Start []) (by decide +kernel)
  rcases hreplay with ⟨tr, s, hrun, htest⟩
  rcases of_decide_eq_true htest with ⟨hread, hblocked, hkeeps⟩
  exact ⟨tr, s, hrun, hread, hblocked, (sig2_strands_iff hrun).1 hkeeps⟩

/-- Of two messages that arrive before the first is read, the second is stranded; and so is a
message that was there before the program. -/
theorem second_message_stranded :
    (exists tr s, Run (ReaderInit sig2) (sig2SystemStep 10) tr s ∧
      s.queue.messages = [⟨0, 7⟩] ∧ Stranded s) ∧
    (exists tr s, Run (ReaderInit sig2) (sig2SystemStep 10) tr s ∧
      tr.any (fun e => e.action ≠ ReaderAction.step) = false ∧ Stranded s) := by
  have hsecond : exists tr s, Run (ReaderInit sig2) (sig2SystemStep 10) tr s ∧
      decide (s.queue.messages = [⟨0, 7⟩] ∧ sig2.blocked s.loc = true ∧
        s.queue.pending = false) = true :=
    run_of_replay
      (List.replicate 4 ReaderAction.step ++
        [ReaderAction.send ⟨0, 5⟩, ReaderAction.send ⟨0, 7⟩, ReaderAction.deliver] ++
          List.replicate 8 ReaderAction.step)
      (init_sig2Start []) (by decide +kernel)
  have hfirst : exists tr s, Run (ReaderInit sig2) (sig2SystemStep 10) tr s ∧
      decide (tr.any (fun e => e.action ≠ ReaderAction.step) = false ∧
        sig2.blocked s.loc = true ∧ s.queue.pending = false ∧ s.queue.messages ≠ []) = true :=
    run_of_replay (List.replicate 4 ReaderAction.step) (init_sig2Start [⟨0, 3⟩])
      (by decide +kernel)
  constructor
  · rcases hsecond with ⟨tr, s, hrun, htest⟩
    rcases of_decide_eq_true htest with ⟨hmessages, hblocked, hpending⟩
    refine ⟨tr, s, hrun, hmessages, hblocked, hpending, ?_⟩
    rw [hmessages]
    decide
  · rcases hfirst with ⟨tr, s, hrun, htest⟩
    rcases of_decide_eq_true htest with ⟨hsteps, hblocked, hpending, hleft⟩
    exact ⟨tr, s, hrun, hsteps, hblocked, hpending, hleft⟩

end MqNotify
end InterprocessComm
