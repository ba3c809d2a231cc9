import InterprocessComm.Lib.NotifiedReader
import InterprocessComm.MqNotify.Operations

/-!
# The programs leave no message behind

Each program is a reader that is woken once per registration: a pending signal, the flag
of the handler and a byte in the pipe are its wake-ups.
-/

namespace InterprocessComm
namespace MqNotify

open Verification

/-!
## The queue
-/

section Queue

theorem mqNotify_fst (q : MsgQueue) : q.mqNotify.1 = { q with registered := true } := by
  unfold MsgQueue.mqNotify
  split
  · rename_i h
    rcases q with ⟨messages, registered, pending⟩
    cases h
    rfl
  · rfl

theorem mqNotify_ok {q : MsgQueue} (h : q.registered = false) : q.mqNotify.2 = Except.ok () := by
  unfold MsgQueue.mqNotify
  simp [h]

theorem mqSend_cases (q : MsgQueue) (m : Message) :
    (q.messages = [] ∧ q.registered = true ∧
        q.mqSend m = { messages := stableInsert Message.prio m q.messages, registered := false,
                       pending := true }) ∨
      ((q.messages ≠ [] ∨ q.registered = false) ∧
        q.mqSend m = { q with messages := stableInsert Message.prio m q.messages }) := by
  unfold MsgQueue.mqSend
  simp only
  split
  · rename_i hboth
    exact Or.inl ⟨hboth.1, hboth.2, rfl⟩
  · rename_i hnot
    refine Or.inr ⟨?_, rfl⟩
    by_cases hempty : q.messages = []
    · exact Or.inr (by simpa using fun hregistered => hnot ⟨hempty, hregistered⟩)
    · exact Or.inl hempty

end Queue

/-!
## Programs as readers
-/

section Refinement

variable {loc : Type}

structure View (loc : Type) where
  wakes : loc -> Nat
  reading : loc -> Reading
  Ok : loc -> Prop

def View.reader (V : View loc) (q : MsgQueue) (l : loc) (drained : Bool) :
    NotifiedReader Message :=
  { queue := q.messages, registered := q.registered, wakes := q.pending.toNat + V.wakes l,
    reading := V.reading l, drained := drained }

def ReaderEvent.ends : ReaderEvent -> Bool -> Bool
  | drained, _ => true
  | silent, d => d

/-- The program's steps and its handler are steps of a reader. -/
structure Refines (P : Program loc) (V : View loc) : Prop where
  wakes : V.wakes P.start = 0
  starting : V.reading P.start = Reading.starting
  ok : V.Ok P.start
  step : forall {q q' : MsgQueue} {l l' : loc} {o : ReaderEvent} (d : Bool),
    V.Ok l -> P.step q l = some (q', l', o) ->
    V.Ok l' ∧ (V.reader q l d).Step (V.reader q' l' (o.ends d))
  deliver : forall {l l' : loc}, V.Ok l -> P.deliver l = some l' -> V.wakes l = 0 ->
    NotifiedReader.unarmed (V.reading l) = 0 ->
    V.Ok l' ∧ V.reading l' = V.reading l ∧ V.wakes l' = 1
  blocked : forall {l : loc}, P.blocked l = true ->
    V.reading l = Reading.waiting ∧ V.wakes l = 0

variable {P : Program loc} {V : View loc} {q : MsgQueue} {l : loc} {d : Bool}

theorem send_step (m : Message) (hinv : (V.reader q l d).Inv) :
    (V.reader q l d).Step (V.reader (q.mqSend m) l d) := by
  have harmed := hinv.armed
  unfold MsgQueue.mqSend
  simp only
  split
  · rename_i hempty
    have hpending : q.pending = false := by
      rcases q with ⟨messages, registered, pending⟩
      rcases hempty with ⟨_, rfl⟩
      cases pending with
      | false => rfl
      | true =>
          simp only [View.reader, Bool.toNat_true] at harmed
          lia
    have hwakes : (true).toNat + V.wakes l = (V.reader q l d).wakes + 1 := by
      simp only [View.reader, hpending, Bool.toNat_true, Bool.toNat_false]
      lia
    have hstep := NotifiedReader.Step.notify (r := V.reader q l d)
      (stableInsert Message.prio m q.messages) hempty.2
    rw [← hwakes] at hstep
    exact hstep
  · rename_i hnot
    apply NotifiedReader.Step.arrive (r := V.reader q l d)
    by_contra hboth
    apply hnot
    simp only [View.reader, not_or, Decidable.not_not, Bool.not_eq_false] at hboth
    exact hboth

theorem deliver_step {l' : loc} (hP : Refines P V) (hok : V.Ok l)
    (hinv : (V.reader q l d).Inv) (hpending : q.pending = true)
    (hdeliver : P.deliver l = some l') :
    V.Ok l' ∧ V.reader { q with pending := false } l' d = V.reader q l d := by
  have harmed := hinv.armed
  simp only [View.reader, hpending, Bool.toNat_true] at harmed
  have hwakes : V.wakes l = 0 := by lia
  rcases hP.deliver hok hdeliver hwakes (by lia) with ⟨hok', hreading, hone⟩
  refine ⟨hok', ?_⟩
  simp only [View.reader, hreading, hone, hwakes, hpending, Bool.toNat_true, Bool.toNat_false]

/-- Whenever a program that has emptied the queue once is blocked and no signal is pending,
the queue is empty and the program is registered. -/
theorem Refines.rests (hP : Refines P V) {maxmsg : Nat} {tr : List (ReaderTransition loc)}
    {s : ReaderState loc} (hrun : Run (ReaderInit P) (readerStep P maxmsg) tr s)
    (hdrained : HasDrained tr) (hblocked : P.blocked s.loc = true)
    (hpending : s.queue.pending = false) :
    s.queue.messages = [] ∧ s.queue.registered = true := by
  have hreader : exists d, (HasDrained tr -> d = true) ∧ V.Ok s.loc ∧
      (V.reader s.queue s.loc d).Inv := by
    refine run_induction (I := fun tr s => exists d, (HasDrained tr -> d = true) ∧
      V.Ok s.loc ∧ (V.reader s.queue s.loc d).Inv) ?_ ?_ hrun
    · intro s hs
      refine ⟨false, ?_, ?_, ?_⟩
      · rintro ⟨e, he, _⟩
        cases he
      · rw [hs.loc]
        exact hP.ok
      · constructor
        · simp [View.reader, hs.registered, hs.pending, hs.loc, hP.wakes, hP.starting,
            NotifiedReader.unarmed]
        · intro hd
          cases hd
        · intro _
          rfl
    · rintro tr s a o t _ ⟨d, hd, hok, hinv⟩ hstep
      have hkeep : o = ReaderEvent.silent ->
          HasDrained (tr ++ [⟨s, a, o, t⟩]) -> d = true := by
        rintro rfl ⟨e, he, hevent⟩
        rcases List.mem_append.mp he with hold | hnew
        · exact hd ⟨e, hold, hevent⟩
        · rw [List.mem_singleton] at hnew
          subst hnew
          cases hevent
      cases a with
      | send m =>
          simp only [readerStep] at hstep
          split at hstep
          · cases hstep
            exact ⟨d, hkeep rfl, hok, (send_step m hinv).inv hinv⟩
          · cases hstep
      | deliver =>
          simp only [readerStep] at hstep
          split at hstep
          · rename_i hsignal
            rcases Option.map_eq_some_iff.mp hstep with ⟨l', hdeliver, hdone⟩
            cases hdone
            rcases deliver_step hP hok hinv hsignal hdeliver with ⟨hok', hsame⟩
            refine ⟨d, hkeep rfl, hok', ?_⟩
            rw [hsame]
            exact hinv
          · cases hstep
      | step =>
          rcases Option.map_eq_some_iff.mp hstep with ⟨⟨q', l', o'⟩, hmove, hdone⟩
          cases hdone
          rcases hP.step d hok hmove with ⟨hok', hreader⟩
          refine ⟨o'.ends d, ?_, hok', hreader.inv hinv⟩
          cases o' with
          | silent => exact hkeep rfl
          | drained => exact fun _ => rfl
  rcases hreader with ⟨d, hd, _, hinv⟩
  rcases hP.blocked hblocked with ⟨hwaiting, hwakes⟩
  refine hinv.rests (hd hdrained) hwaiting ?_
  simp only [View.reader, hpending, hwakes, Bool.toNat_false]

end Refinement

/-!
## The three programs
-/

section Programs

theorem mqNotify_start {loc : Type} {V : View loc} {q : MsgQueue} {l l' : loc} {d : Bool}
    (hl : V.reading l = Reading.starting) (hl' : V.reading l' = Reading.waiting)
    (hwakes : V.wakes l' = V.wakes l) :
    (V.reader q l d).Step (V.reader q.mqNotify.1 l' d) := by
  have hstep := NotifiedReader.Step.start (r := V.reader q l d) hl
  rw [mqNotify_fst]
  unfold View.reader at *
  rw [hl', hwakes]
  exact hstep

theorem mqNotify_register {loc : Type} {V : View loc} {q : MsgQueue} {l l' : loc} {d : Bool}
    (hl : V.reading l = Reading.woken) (hl' : V.reading l' = Reading.draining)
    (hwakes : V.wakes l' = V.wakes l) :
    (V.reader q l d).Step (V.reader q.mqNotify.1 l' d) := by
  have hstep := NotifiedReader.Step.register (r := V.reader q l d) hl
  rw [mqNotify_fst]
  unfold View.reader at *
  rw [hl', hwakes]
  exact hstep

theorem mqReceive_ok {loc : Type} {V : View loc} {q q' : MsgQueue} {m : Message} {l : loc}
    {d : Bool} (hl : V.reading l = Reading.draining)
    (hreceive : q.mqReceive = (q', Except.ok m)) :
    (V.reader q l d).Step (V.reader q' l d) := by
  unfold MsgQueue.mqReceive at hreceive
  split at hreceive
  · cases hreceive
  · rename_i first rest hmessages
    cases hreceive
    exact NotifiedReader.Step.receive (r := V.reader q l d) rest hl

theorem mqReceive_error {loc : Type} {V : View loc} {q q' : MsgQueue} {e : Errno}
    {d : Bool} (l l' : loc) (hl : V.reading l = Reading.draining)
    (hl' : V.reading l' = Reading.waiting)
    (hwakes : V.wakes l' = V.wakes l) (hreceive : q.mqReceive = (q', Except.error e)) :
    e = Errno.EAGAIN ∧ (V.reader q l d).Step (V.reader q' l' true) := by
  unfold MsgQueue.mqReceive at hreceive
  split at hreceive
  · rename_i hempty
    cases hreceive
    have hstep := NotifiedReader.Step.finish (r := V.reader q l d) hl hempty
    refine ⟨rfl, ?_⟩
    unfold View.reader at *
    rw [hl', hwakes]
    exact hstep
  · cases hreceive

def sig3View : View Sig3 :=
  { wakes := Sig3.mqflag,
    reading := fun l =>
      match l.pc with
      | Sig3Pc.notify => Reading.starting
      | Sig3Pc.renotify => Reading.woken
      | Sig3Pc.receive => Reading.draining
      | _ => Reading.waiting,
    Ok := fun l => l.mqflag ≤ 1 ∧
      match l.pc with
      | Sig3Pc.reset => l.mqflag = 1
      | Sig3Pc.testErrno e => e = Errno.EAGAIN
      | Sig3Pc.exited => False
      | _ => True }

theorem sig3_refines : Refines sig3 sig3View := by
  constructor
  · rfl
  · rfl
  · exact ⟨Nat.zero_le 1, trivial⟩
  · rintro q q' ⟨pc, masked, mqflag⟩ l' o d ⟨hle, hpc⟩ hstep
    cases pc with
    | notify =>
        cases hstep
        exact ⟨⟨hle, trivial⟩, mqNotify_start rfl rfl rfl⟩
    | test =>
        simp only [sig3, sig3Step] at hstep
        split at hstep
        · cases hstep
          exact ⟨⟨hle, trivial⟩, NotifiedReader.Step.rest _⟩
        · rename_i hflag
          cases hstep
          refine ⟨⟨hle, ?_⟩, NotifiedReader.Step.rest _⟩
          show mqflag = 1
          have hle' : mqflag ≤ 1 := hle
          lia
    | suspended => cases hstep
    | reset =>
        cases hstep
        refine ⟨⟨Nat.zero_le 1, trivial⟩, ?_⟩
        apply NotifiedReader.Step.wake q.pending.toNat
        · rfl
        · exact congrArg (q.pending.toNat + ·) hpc
    | renotify =>
        cases hstep
        exact ⟨⟨hle, trivial⟩, mqNotify_register rfl rfl rfl⟩
    | receive =>
        simp only [sig3, sig3Step] at hstep
        split at hstep
        · rename_i hreceive
          cases hstep
          exact ⟨⟨hle, trivial⟩, mqReceive_ok rfl hreceive⟩
        · rename_i hreceive
          cases hstep
          rcases mqReceive_error (V := sig3View) (d := d) ⟨Sig3Pc.receive, masked, mqflag⟩
            ⟨Sig3Pc.testErrno _, masked, mqflag⟩ rfl rfl rfl hreceive with ⟨he, hreader⟩
          exact ⟨⟨hle, he⟩, hreader⟩
    | testErrno e =>
        simp only [sig3, sig3Step] at hstep
        split at hstep
        · rename_i hne
          exact absurd hpc hne
        · cases hstep
          exact ⟨⟨hle, trivial⟩, NotifiedReader.Step.rest _⟩
    | exited => cases hstep
    | _ =>
        cases hstep
        exact ⟨⟨hle, trivial⟩, NotifiedReader.Step.rest _⟩
  · rintro ⟨pc, masked, mqflag⟩ l' ⟨hle, hpc⟩ hdeliver hwakes _
    simp only [sig3, sig3Deliver] at hdeliver
    split at hdeliver
    · rename_i hsuspended
      cases hsuspended
      cases hdeliver
      exact ⟨⟨Nat.le_refl 1, trivial⟩, rfl, rfl⟩
    · split at hdeliver
      · cases hdeliver
      · cases hdeliver
        refine ⟨⟨Nat.le_refl 1, ?_⟩, rfl, rfl⟩
        cases pc with
        | reset => rfl
        | _ => exact hpc
  · rintro ⟨pc, masked, mqflag⟩ hblocked
    rcases of_decide_eq_true hblocked with ⟨hpc, hflag⟩
    cases hpc
    exact ⟨rfl, hflag⟩

def sig4View : View Sig4 :=
  { wakes := fun _ => 0,
    reading := fun l =>
      match l.pc with
      | Sig4Pc.block => Reading.starting
      | Sig4Pc.notify => Reading.starting
      | Sig4Pc.test _ => Reading.woken
      | Sig4Pc.renotify => Reading.woken
      | Sig4Pc.receive => Reading.draining
      | _ => Reading.waiting,
    Ok := fun l =>
      match l.pc with
      | Sig4Pc.block => True
      | Sig4Pc.test signo => l.masked = true ∧ signo = SIGUSR1
      | Sig4Pc.killed => False
      | _ => l.masked = true }

theorem sig4_refines : Refines sig4 sig4View := by
  constructor
  · rfl
  · rfl
  · trivial
  · rintro q q' ⟨pc, masked⟩ l' o d hok hstep
    cases pc with
    | notify =>
        cases hstep
        exact ⟨hok, mqNotify_start rfl rfl rfl⟩
    | sigwait =>
        simp only [sig4, sig4Step] at hstep
        split at hstep
        · rename_i hpending
          cases hstep
          refine ⟨⟨hok, rfl⟩, ?_⟩
          apply NotifiedReader.Step.wake 0
          · rfl
          · show q.pending.toNat + 0 = 1
            rw [hpending]
            rfl
        · cases hstep
    | test signo =>
        rcases hok with ⟨hmasked, hsigno⟩
        simp only [sig4, sig4Step] at hstep
        split at hstep
        · cases hstep
          exact ⟨hmasked, NotifiedReader.Step.rest _⟩
        · rename_i hne
          exact absurd hsigno hne
    | renotify =>
        cases hstep
        exact ⟨hok, mqNotify_register rfl rfl rfl⟩
    | receive =>
        simp only [sig4, sig4Step] at hstep
        split at hstep
        · rename_i hreceive
          cases hstep
          exact ⟨hok, mqReceive_ok rfl hreceive⟩
        · rename_i hreceive
          cases hstep
          rcases mqReceive_error (V := sig4View) (d := d) ⟨Sig4Pc.receive, masked⟩
            ⟨Sig4Pc.testErrno _, masked⟩ rfl rfl rfl hreceive with ⟨_, hreader⟩
          exact ⟨hok, hreader⟩
    | testErrno e =>
        cases hstep
        exact ⟨hok, NotifiedReader.Step.rest _⟩
    | block =>
        cases hstep
        exact ⟨rfl, NotifiedReader.Step.rest _⟩
    | killed => cases hstep
  · rintro ⟨pc, masked⟩ l' hok hdeliver _ harmed
    simp only [sig4, sig4Deliver] at hdeliver
    split at hdeliver
    · cases hdeliver
    · rename_i hmasked
      cases pc with
      | block => cases harmed
      | test signo => exact absurd hok.1 hmasked
      | killed => exact hok.elim
      | _ => exact absurd hok hmasked
  · rintro ⟨pc, masked⟩ hblocked
    cases of_decide_eq_true hblocked
    exact ⟨rfl, rfl⟩

def sig5View : View Sig5 :=
  { wakes := Sig5.pipe,
    reading := fun l =>
      match l.pc with
      | Sig5Pc.notify => Reading.starting
      | Sig5Pc.renotify => Reading.woken
      | Sig5Pc.receive => Reading.draining
      | _ => Reading.waiting,
    Ok := fun l =>
      match l.pc with
      | Sig5Pc.testErrno e => e = Errno.EAGAIN
      | Sig5Pc.exited => False
      | _ => True }

theorem sig5_refines : Refines sig5 sig5View := by
  constructor
  · rfl
  · rfl
  · trivial
  · rintro q q' ⟨pc, rset, pipe⟩ l' o d hok hstep
    cases pc with
    | notify =>
        cases hstep
        exact ⟨trivial, mqNotify_start rfl rfl rfl⟩
    | selecting =>
        simp only [sig5, sig5Step] at hstep
        split at hstep
        · cases hstep
          exact ⟨trivial, NotifiedReader.Step.rest _⟩
        · cases hstep
    | test =>
        simp only [sig5, sig5Step] at hstep
        split at hstep
        · cases hstep
          exact ⟨trivial, NotifiedReader.Step.rest _⟩
        · cases hstep
          exact ⟨trivial, NotifiedReader.Step.rest _⟩
    | read =>
        simp only [sig5, sig5Step] at hstep
        split at hstep
        · rename_i hpos
          cases hstep
          refine ⟨trivial, ?_⟩
          apply NotifiedReader.Step.wake (q.pending.toNat + (pipe - 1))
          · rfl
          · show q.pending.toNat + pipe = q.pending.toNat + (pipe - 1) + 1
            lia
        · cases hstep
    | renotify =>
        cases hstep
        exact ⟨trivial, mqNotify_register rfl rfl rfl⟩
    | receive =>
        simp only [sig5, sig5Step] at hstep
        split at hstep
        · rename_i hreceive
          cases hstep
          exact ⟨trivial, mqReceive_ok rfl hreceive⟩
        · rename_i hreceive
          cases hstep
          exact mqReceive_error (V := sig5View) (d := d) ⟨Sig5Pc.receive, rset, pipe⟩
            ⟨Sig5Pc.testErrno _, rset, pipe⟩ rfl rfl rfl hreceive
    | testErrno e =>
        simp only [sig5, sig5Step] at hstep
        split at hstep
        · rename_i hne
          exact absurd hok hne
        · cases hstep
          exact ⟨trivial, NotifiedReader.Step.rest _⟩
    | exited => cases hstep
    | _ =>
        cases hstep
        exact ⟨trivial, NotifiedReader.Step.rest _⟩
  · rintro ⟨pc, rset, pipe⟩ l' hok hdeliver hwakes _
    have hpipe : pipe + 1 = 1 := congrArg (· + 1) hwakes
    cases pc with
    | exited => cases hdeliver
    | selecting =>
        cases hdeliver
        exact ⟨trivial, rfl, hpipe⟩
    | testErrno e =>
        cases hdeliver
        exact ⟨hok, rfl, hpipe⟩
    | _ =>
        cases hdeliver
        exact ⟨trivial, rfl, hpipe⟩
  · rintro ⟨pc, rset, pipe⟩ hblocked
    rcases of_decide_eq_true hblocked with ⟨hpc, hpipe⟩
    cases hpc
    exact ⟨rfl, hpipe⟩

/-- A program that has emptied the queue once is told of every message: while it is blocked
and no signal is pending, the queue is empty and the program is registered. -/
def RestsEmpty {loc : Type} (P : Program loc) : Prop :=
  forall (maxmsg : Nat) (tr : List (ReaderTransition loc)) (s : ReaderState loc),
    Run (ReaderInit P) (readerStep P maxmsg) tr s -> HasDrained tr ->
    P.blocked s.loc = true -> s.queue.pending = false ->
    s.queue.messages = [] ∧ s.queue.registered = true

theorem notified_readers_rest_empty : RestsEmpty sig3 ∧ RestsEmpty sig4 ∧ RestsEmpty sig5 := by
  refine ⟨?_, ?_, ?_⟩
  · intro maxmsg tr s hrun
    exact sig3_refines.rests hrun
  · intro maxmsg tr s hrun
    exact sig4_refines.rests hrun
  · intro maxmsg tr s hrun
    exact sig5_refines.rests hrun

def readerStart {loc : Type} (P : Program loc) : ReaderState loc :=
  { queue := { messages := [], registered := false, pending := false }, loc := P.start }

theorem init_readerStart {loc : Type} (P : Program loc) : ReaderInit P (readerStart P) :=
  ⟨rfl, rfl, rfl⟩

def waitsAfterDrain {loc : Type} (P : Program loc) (tr : List (ReaderTransition loc))
    (s : ReaderState loc) : Bool :=
  tr.any (fun e => e.event == ReaderEvent.drained) && P.blocked s.loc && !s.queue.pending

theorem of_waitsAfterDrain {loc : Type} {P : Program loc} {tr : List (ReaderTransition loc)}
    {s : ReaderState loc} (h : waitsAfterDrain P tr s = true) :
    HasDrained tr ∧ P.blocked s.loc = true ∧ s.queue.pending = false := by
  simpa [waitsAfterDrain, HasDrained, and_assoc] using h

def steps (count : Nat) : List ReaderAction :=
  List.replicate count ReaderAction.step

/-- Each program is told of one message, takes it and one that arrives before the queue is
empty, and waits again. -/
theorem notified_readers_rest_empty_twoMessages :
    (exists s : ReaderState Sig3, sig3.blocked s.loc = true ∧ s.queue.messages = [] ∧
      s.queue.registered = true) ∧
    (exists s : ReaderState Sig4, sig4.blocked s.loc = true ∧ s.queue.messages = [] ∧
      s.queue.registered = true) ∧
    (exists s : ReaderState Sig5, sig5.blocked s.loc = true ∧ s.queue.messages = [] ∧
      s.queue.registered = true) := by
  have hsig3 : exists tr s, Run (ReaderInit sig3) (readerStep sig3 10) tr s ∧
      waitsAfterDrain sig3 tr s = true :=
    run_of_replay
      (steps 4 ++ [ReaderAction.send ⟨0, 5⟩, ReaderAction.deliver] ++ steps 3 ++
        [ReaderAction.send ⟨0, 7⟩] ++ steps 8)
      (init_readerStart sig3) (by decide +kernel)
  have hsig4 : exists tr s, Run (ReaderInit sig4) (readerStep sig4 10) tr s ∧
      waitsAfterDrain sig4 tr s = true :=
    run_of_replay
      (steps 2 ++ [ReaderAction.send ⟨0, 5⟩] ++ steps 3 ++ [ReaderAction.send ⟨0, 7⟩] ++ steps 4)
      (init_readerStart sig4) (by decide +kernel)
  have hsig5 : exists tr s, Run (ReaderInit sig5) (readerStep sig5 10) tr s ∧
      waitsAfterDrain sig5 tr s = true :=
    run_of_replay
      (steps 4 ++ [ReaderAction.send ⟨0, 5⟩, ReaderAction.deliver] ++ steps 3 ++
        [ReaderAction.send ⟨0, 7⟩] ++ steps 6)
      (init_readerStart sig5) (by decide +kernel)
  refine ⟨?_, ?_, ?_⟩
  · rcases hsig3 with ⟨tr, s, hrun, htest⟩
    rcases of_waitsAfterDrain htest with ⟨hdrained, hblocked, hpending⟩
    exact ⟨s, hblocked,
      notified_readers_rest_empty.1 10 tr s hrun hdrained hblocked hpending⟩
  · rcases hsig4 with ⟨tr, s, hrun, htest⟩
    rcases of_waitsAfterDrain htest with ⟨hdrained, hblocked, hpending⟩
    exact ⟨s, hblocked,
      notified_readers_rest_empty.2.1 10 tr s hrun hdrained hblocked hpending⟩
  · rcases hsig5 with ⟨tr, s, hrun, htest⟩
    rcases of_waitsAfterDrain htest with ⟨hdrained, hblocked, hpending⟩
    exact ⟨s, hblocked,
      notified_readers_rest_empty.2.2 10 tr s hrun hdrained hblocked hpending⟩

end Programs

end MqNotify
end InterprocessComm
