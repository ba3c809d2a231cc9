import InterprocessComm.Lib.Transition
import Mathlib.Logic.Function.Basic

/-!
# Locks

A lock is a pair of calls that processes make in turn.  A call takes one step after
another, on what all processes share and on variables of its process, until it
returns.  A process is inside from the return of its lock call to its unlock call.
-/

namespace Verification

/-- The two calls of a lock. What the environment decides in a step, such as a fault,
is its choice; a step without a result has to wait. A call returns with the step that
gives no place to go on from. -/
structure LockImpl (proc : Type) where
  shared : Type
  own : Type
  choice : Type
  lockPc : Type
  unlockPc : Type
  init : shared -> (proc -> own) -> Prop
  lock : own -> lockPc
  unlock : own -> unlockPc
  lockStep : proc -> shared -> own -> lockPc -> choice ->
    Option (shared × own × Option lockPc)
  unlockStep : proc -> shared -> own -> unlockPc -> choice ->
    Option (shared × own × Option unlockPc)

inductive LockPhase (lockPc unlockPc : Type) where
  | outside
  | locking (pc : lockPc)
  | inside
  | unlocking (pc : unlockPc)
deriving DecidableEq

structure LockState {proc : Type} (L : LockImpl proc) where
  shared : L.shared
  own : proc -> L.own
  phase : proc -> LockPhase L.lockPc L.unlockPc

inductive LockAction {proc : Type} (L : LockImpl proc) where
  | call (p : proc)
  | step (p : proc) (c : L.choice)

def LockAction.actor {proc : Type} {L : LockImpl proc} : LockAction L -> proc
  | call p => p
  | step p _ => p

namespace LockImpl

section Step

variable {proc : Type} (L : LockImpl proc)

structure Starts (s : LockState L) : Prop where
  init : L.init s.shared s.own
  outside : forall p, s.phase p = LockPhase.outside

variable [DecidableEq proc]

variable {L} in
def move (s : LockState L) (p : proc) (phase : LockPhase L.lockPc L.unlockPc) : LockState L :=
  { s with phase := Function.update s.phase p phase }

variable {L} in
def advance {pc : Type} (s : LockState L) (p : proc)
    (goes : pc -> LockPhase L.lockPc L.unlockPc) (done : LockPhase L.lockPc L.unlockPc)
    (r : L.shared × L.own × Option pc) : LockState L :=
  { shared := r.1, own := Function.update s.own p r.2.1,
    phase := Function.update s.phase p (r.2.2.elim done goes) }

def next (s : LockState L) : LockAction L -> Option (LockState L × Unit)
  | LockAction.call p =>
      match s.phase p with
      | LockPhase.outside => some (move s p (LockPhase.locking (L.lock (s.own p))), ())
      | LockPhase.inside => some (move s p (LockPhase.unlocking (L.unlock (s.own p))), ())
      | _ => none
  | LockAction.step p c =>
      match s.phase p with
      | LockPhase.locking pc =>
          (L.lockStep p s.shared (s.own p) pc c).map fun r =>
            (advance s p LockPhase.locking LockPhase.inside r, ())
      | LockPhase.unlocking pc =>
          (L.unlockStep p s.shared (s.own p) pc c).map fun r =>
            (advance s p LockPhase.unlocking LockPhase.outside r, ())
      | _ => none

def AtMostOneInside {L : LockImpl proc} (s : LockState L) : Prop :=
  forall p q, s.phase p = LockPhase.inside -> s.phase q = LockPhase.inside -> p = q

def Exclusive : Prop :=
  forall s, Reachable L.Starts L.next s -> AtMostOneInside s

end Step

/-!
# Steps
-/

section Cases

variable {proc : Type} [DecidableEq proc] {L : LockImpl proc} {s s' : LockState L}

inductive Steps (s : LockState L) : LockAction L -> LockState L -> Prop where
  | locks {p : proc} (outside : s.phase p = LockPhase.outside) :
      Steps s (LockAction.call p) (move s p (LockPhase.locking (L.lock (s.own p))))
  | unlocks {p : proc} (inside : s.phase p = LockPhase.inside) :
      Steps s (LockAction.call p) (move s p (LockPhase.unlocking (L.unlock (s.own p))))
  | locking {p : proc} {pc : L.lockPc} {c : L.choice}
      {r : L.shared × L.own × Option L.lockPc} (phase : s.phase p = LockPhase.locking pc)
      (step : L.lockStep p s.shared (s.own p) pc c = some r) :
      Steps s (LockAction.step p c) (advance s p LockPhase.locking LockPhase.inside r)
  | unlocking {p : proc} {pc : L.unlockPc} {c : L.choice}
      {r : L.shared × L.own × Option L.unlockPc} (phase : s.phase p = LockPhase.unlocking pc)
      (step : L.unlockStep p s.shared (s.own p) pc c = some r) :
      Steps s (LockAction.step p c) (advance s p LockPhase.unlocking LockPhase.outside r)

theorem steps_of_next {a : LockAction L} {o : Unit} (h : L.next s a = some (s', o)) :
    Steps s a s' := by
  cases a with
  | call p =>
      simp only [next] at h
      cases hphase : s.phase p with
      | outside =>
          rw [hphase] at h
          cases h
          exact Steps.locks hphase
      | locking pc => simp [hphase] at h
      | inside =>
          rw [hphase] at h
          cases h
          exact Steps.unlocks hphase
      | unlocking pc => simp [hphase] at h
  | step p c =>
      simp only [next] at h
      cases hphase : s.phase p with
      | outside => simp [hphase] at h
      | locking pc =>
          simp only [hphase] at h
          rcases Option.map_eq_some_iff.mp h with ⟨r, hstep, heq⟩
          cases heq
          exact Steps.locking hphase hstep
      | inside => simp [hphase] at h
      | unlocking pc =>
          simp only [hphase] at h
          rcases Option.map_eq_some_iff.mp h with ⟨r, hstep, heq⟩
          cases heq
          exact Steps.unlocking hphase hstep

/-!
A move and a step of a call change the phase and the variables of one process.
-/

section Frame

variable {p q : proc} {phase done : LockPhase L.lockPc L.unlockPc} {pc : Type}
variable {goes : pc -> LockPhase L.lockPc L.unlockPc} {r : L.shared × L.own × Option pc}

@[simp] theorem move_shared : (move s p phase).shared = s.shared := rfl

@[simp] theorem move_own : (move s p phase).own = s.own := rfl

@[simp] theorem move_self : (move s p phase).phase p = phase := by
  simp [move]

theorem move_other (h : q ≠ p) : (move s p phase).phase q = s.phase q := by
  simp [move, h]

@[simp] theorem advance_shared : (advance s p goes done r).shared = r.1 := rfl

@[simp] theorem advance_self : (advance s p goes done r).phase p = r.2.2.elim done goes := by
  simp [advance]

@[simp] theorem advance_own_self : (advance s p goes done r).own p = r.2.1 := by
  simp [advance]

theorem advance_other (h : q ≠ p) : (advance s p goes done r).phase q = s.phase q := by
  simp [advance, h]

theorem advance_own_other (h : q ≠ p) : (advance s p goes done r).own q = s.own q := by
  simp [advance, h]

end Frame

theorem next_other {a : LockAction L} {o : Unit} (h : L.next s a = some (s', o)) {q : proc}
    (hq : q ≠ a.actor) : s'.phase q = s.phase q := by
  cases steps_of_next h with
  | locks outside => exact move_other hq
  | unlocks inside => exact move_other hq
  | locking phase step => exact advance_other hq
  | unlocking phase step => exact advance_other hq

theorem next_call_outside {p : proc} (h : s.phase p = LockPhase.outside) :
    L.next s (LockAction.call p) =
      some (move s p (LockPhase.locking (L.lock (s.own p))), ()) := by
  simp [next, h]

theorem next_call_inside {p : proc} (h : s.phase p = LockPhase.inside) :
    L.next s (LockAction.call p) =
      some (move s p (LockPhase.unlocking (L.unlock (s.own p))), ()) := by
  simp [next, h]

theorem next_step_phase {p : proc} {c : L.choice} {o : Unit}
    (h : L.next s (LockAction.step p c) = some (s', o)) :
    (exists pc, s.phase p = LockPhase.locking pc ∧
        (s'.phase p = LockPhase.inside ∨ exists pc', s'.phase p = LockPhase.locking pc')) ∨
      exists pc, s.phase p = LockPhase.unlocking pc ∧
        (s'.phase p = LockPhase.outside ∨ exists pc', s'.phase p = LockPhase.unlocking pc') := by
  cases steps_of_next h with
  | locking phase step =>
      rename_i pc r
      left
      refine ⟨pc, phase, ?_⟩
      rw [advance_self]
      cases r.2.2 with
      | none => exact Or.inl rfl
      | some pc' => exact Or.inr ⟨pc', rfl⟩
  | unlocking phase step =>
      rename_i pc r
      right
      refine ⟨pc, phase, ?_⟩
      rw [advance_self]
      cases r.2.2 with
      | none => exact Or.inl rfl
      | some pc' => exact Or.inr ⟨pc', rfl⟩

/-- A property has one holder at most after a step in which only one process may come to
hold it, and only if nobody did. -/
theorem unique_of_step {H H' : proc -> Prop} {p : proc}
    (h : forall q r, H q -> H r -> q = r) (hother : forall q, q ≠ p -> H' q -> H q)
    (hself : H' p -> H p ∨ forall q, ¬ H q) : forall q r, H' q -> H' r -> q = r := by
  have hcase : forall q, H' q -> H q ∨ q = p ∧ forall r, ¬ H r := by
    intro q hq
    by_cases hqp : q = p
    · subst hqp
      rcases hself hq with hheld | hnone
      · exact Or.inl hheld
      · exact Or.inr ⟨rfl, hnone⟩
    · exact Or.inl (hother q hqp hq)
  intro q r hq hr
  rcases hcase q hq with hheldq | ⟨hqp, hnone⟩
  · rcases hcase r hr with hheldr | ⟨_, hnone⟩
    · exact h q r hheldq hheldr
    · exact absurd hheldq (hnone q)
  · rcases hcase r hr with hheldr | ⟨hrp, _⟩
    · exact absurd hheldr (hnone r)
    · rw [hqp, hrp]

end Cases

end LockImpl

end Verification
