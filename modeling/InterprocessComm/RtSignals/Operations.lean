import InterprocessComm.Lib.StableQueue
import InterprocessComm.Lib.Transition

/-!
# Realtime signals

The parent queues nine signals for its child, which blocks them, installs a handler for each and
unblocks them.  The times that both sleep are arbitrary: the signals may arrive at any place of the
child.
-/

namespace InterprocessComm
namespace RtSignals

open Verification

def SIGRTMAX : Nat := 64

structure Signal where
  signo : Nat
  sival_int : Int
deriving DecidableEq

/-- `for(i=SIGRTMAX;i>=SIGRTMAX-2;i--) for(j=0;j<=2;j++)` -/
def sends : List Signal :=
  (List.range 3).flatMap fun k => (List.range 3).map fun j => ⟨SIGRTMAX - k, j⟩

/-- The lowest number goes first. -/
def prio (x : Signal) : OrderDual Nat := OrderDual.toDual x.signo

inductive Pc where
  | block
  | signal_rt (k : Nat)
  | sleep
  | unblock
  | unblocked
  | sleepAgain
  | exit
  | exited
  | killed
deriving DecidableEq

def Pc.ended : Pc -> Bool
  | exited => true
  | killed => true
  | _ => false

structure State where
  toSend : List Signal
  pending : List Signal
  pc : Pc
  blocked : Bool
  handlers : List Nat
  /-- The signal that `sig_rt` prints, with the three signals blocked. -/
  handler : Option Signal

/-- The parent calls `sigqueue`, which may fail; the kernel delivers a signal to the child; the
child goes on. -/
inductive Action where
  | send (fails : Bool)
  | deliver
  | child

inductive Event where
  | silent
  | refused (x : Signal)
  | queued (x : Signal)
  | unblocked
  | killed (x : Signal)
  | delivered (x : Signal)
  | received (x : Signal)

def childStep (s : State) : Option (State × Event) :=
  match s.handler with
  | some x => some ({ s with handler := none }, Event.received x)
  | none =>
      match s.pc with
      | Pc.block => some ({ s with pc := Pc.signal_rt 0, blocked := true }, Event.silent)
      | Pc.signal_rt k =>
          let pc := if k < 2 then Pc.signal_rt (k + 1) else Pc.sleep
          some ({ s with pc := pc, handlers := (SIGRTMAX - k) :: s.handlers }, Event.silent)
      | Pc.sleep => some ({ s with pc := Pc.unblock }, Event.silent)
      | Pc.unblock => some ({ s with pc := Pc.unblocked, blocked := false }, Event.unblocked)
      -- both calls return to the program when nothing is left to be delivered
      | Pc.unblocked =>
          if s.pending = [] then some ({ s with pc := Pc.sleepAgain }, Event.silent) else none
      | Pc.sleepAgain =>
          if s.pending = [] then some ({ s with pc := Pc.exit }, Event.silent) else none
      | Pc.exit => some ({ s with pc := Pc.exited }, Event.silent)
      | Pc.exited => none
      | Pc.killed => none

def step (s : State) : Action -> Option (State × Event)
  | Action.send fails =>
      match s.toSend with
      | [] => none
      | x :: rest =>
          if fails || s.pc.ended then
            some ({ s with toSend := rest }, Event.refused x)
          else
            some ({ s with toSend := rest, pending := stableInsert prio x s.pending },
              Event.queued x)
  | Action.deliver =>
      if s.blocked || s.handler.isSome || s.pc.ended then
        none
      else
        match s.pending with
        | [] => none
        | x :: rest =>
            if x.signo ∈ s.handlers then
              some ({ s with pending := rest, handler := some x }, Event.delivered x)
            else
              some ({ s with pc := Pc.killed }, Event.killed x)
  | Action.child => childStep s

structure Init (s : State) : Prop where
  toSend : s.toSend = sends
  pending : s.pending = []
  pc : s.pc = Pc.block
  blocked : s.blocked = false
  handlers : s.handlers = []
  handler : s.handler = none

inductive Stepped (s : State) : Event -> State -> Prop where
  | refuse {x : Signal} {rest : List Signal} (hsend : s.toSend = x :: rest) :
      Stepped s (Event.refused x) { s with toSend := rest }
  | queue {x : Signal} {rest : List Signal} (hsend : s.toSend = x :: rest)
      (halive : s.pc.ended = false) :
      Stepped s (Event.queued x)
        { s with toSend := rest, pending := stableInsert prio x s.pending }
  | deliver {x : Signal} {rest : List Signal} (hblocked : s.blocked = false)
      (hhandler : s.handler = none) (halive : s.pc.ended = false)
      (hpending : s.pending = x :: rest) (hinstalled : x.signo ∈ s.handlers) :
      Stepped s (Event.delivered x) { s with pending := rest, handler := some x }
  | kill {x : Signal} {rest : List Signal} (hblocked : s.blocked = false)
      (hhandler : s.handler = none) (halive : s.pc.ended = false)
      (hpending : s.pending = x :: rest) (hnone : x.signo ∉ s.handlers) :
      Stepped s (Event.killed x) { s with pc := Pc.killed }
  | receive {x : Signal} (hhandler : s.handler = some x) :
      Stepped s (Event.received x) { s with handler := none }
  | block (hhandler : s.handler = none) (hpc : s.pc = Pc.block) :
      Stepped s Event.silent { s with pc := Pc.signal_rt 0, blocked := true }
  | install {k : Nat} (hhandler : s.handler = none) (hpc : s.pc = Pc.signal_rt k) :
      Stepped s Event.silent
        { s with
          pc := if k < 2 then Pc.signal_rt (k + 1) else Pc.sleep
          handlers := (SIGRTMAX - k) :: s.handlers }
  | sleep (hhandler : s.handler = none) (hpc : s.pc = Pc.sleep) :
      Stepped s Event.silent { s with pc := Pc.unblock }
  | unblock (hhandler : s.handler = none) (hpc : s.pc = Pc.unblock) :
      Stepped s Event.unblocked { s with pc := Pc.unblocked, blocked := false }
  | goOn (hhandler : s.handler = none) (hpc : s.pc = Pc.unblocked) (hnone : s.pending = []) :
      Stepped s Event.silent { s with pc := Pc.sleepAgain }
  | wake (hhandler : s.handler = none) (hpc : s.pc = Pc.sleepAgain) (hnone : s.pending = []) :
      Stepped s Event.silent { s with pc := Pc.exit }
  | exit (hhandler : s.handler = none) (hpc : s.pc = Pc.exit) :
      Stepped s Event.silent { s with pc := Pc.exited }

theorem stepped_of_childStep {s t : State} {o : Event} (hstep : childStep s = some (t, o)) :
    Stepped s o t := by
  unfold childStep at hstep
  split at hstep
  · rename_i x hhandler
    cases hstep
    exact Stepped.receive hhandler
  · rename_i hhandler
    split at hstep
    · rename_i hpc
      cases hstep
      exact Stepped.block hhandler hpc
    · rename_i k hpc
      cases hstep
      exact Stepped.install hhandler hpc
    · rename_i hpc
      cases hstep
      exact Stepped.sleep hhandler hpc
    · rename_i hpc
      cases hstep
      exact Stepped.unblock hhandler hpc
    · rename_i hpc
      rcases Option.ite_none_right_eq_some.mp hstep with ⟨hnone, hnext⟩
      cases hnext
      exact Stepped.goOn hhandler hpc hnone
    · rename_i hpc
      rcases Option.ite_none_right_eq_some.mp hstep with ⟨hnone, hnext⟩
      cases hnext
      exact Stepped.wake hhandler hpc hnone
    · rename_i hpc
      cases hstep
      exact Stepped.exit hhandler hpc
    · cases hstep
    · cases hstep

theorem stepped_of_step {s t : State} {a : Action} {o : Event}
    (hstep : step s a = some (t, o)) : Stepped s o t := by
  cases a with
  | child => exact stepped_of_childStep hstep
  | send fails =>
      simp only [step] at hstep
      cases hsend : s.toSend with
      | nil =>
          rw [hsend] at hstep
          cases hstep
      | cons x rest =>
          rw [hsend] at hstep
          simp only at hstep
          split at hstep
          · cases hstep
            exact Stepped.refuse hsend
          · rename_i hfine
            cases hstep
            refine Stepped.queue hsend ?_
            simp only [Bool.or_eq_true, not_or] at hfine
            exact Bool.eq_false_iff.mpr hfine.2
  | deliver =>
      simp only [step] at hstep
      split at hstep
      · cases hstep
      · rename_i hopen
        simp only [Bool.or_eq_true, not_or, Bool.not_eq_true, Option.isSome_eq_false_iff,
          Option.isNone_iff_eq_none] at hopen
        rcases hopen with ⟨⟨hblocked, hhandler⟩, halive⟩
        split at hstep
        · cases hstep
        · rename_i x rest hpending
          split at hstep
          · rename_i hinstalled
            cases hstep
            exact Stepped.deliver hblocked hhandler halive hpending hinstalled
          · rename_i hnone
            cases hstep
            exact Stepped.kill hblocked hhandler halive hpending hnone

end RtSignals
end InterprocessComm
