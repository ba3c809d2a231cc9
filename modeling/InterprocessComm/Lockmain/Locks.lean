import InterprocessComm.Lib.Lock

/-!
# Two locks for one file

The record lock of `fcntl` and the lock file of `open`: what `my_lock` and `my_unlock` do
to the kernel's side of the lock.
-/

namespace InterprocessComm
namespace Lockmain

open Verification
open Verification.LockImpl

/-!
# The record lock
-/

/-- The kernel knows the process that has the write lock on the whole file. `F_SETLKW`
waits while it is another one; the calls are taken not to fail. -/
abbrev lockfcntl (proc : Type) [DecidableEq proc] : LockImpl proc where
  shared := Option proc
  own := Unit
  choice := Unit
  lockPc := Unit
  unlockPc := Unit
  init := fun owner _ => owner = none
  lock := fun _ => ()
  unlock := fun _ => ()
  lockStep := fun p owner _ _ _ =>
    if owner = none ∨ owner = some p then some (some p, (), none) else none
  unlockStep := fun p owner _ _ _ => some (if owner = some p then none else owner, (), none)

section Fcntl

variable {proc : Type} [DecidableEq proc]

/-- Whoever is inside, or about to unlock, has the record lock. -/
def FcntlInv (s : LockState (lockfcntl proc)) : Prop :=
  forall p, s.phase p = LockPhase.inside ∨ s.phase p = LockPhase.unlocking () ->
    s.shared = some p

theorem fcntl_step {s s' : LockState (lockfcntl proc)} {a : LockAction (lockfcntl proc)}
    {o : Unit} (hinv : FcntlInv s) (h : (lockfcntl proc).next s a = some (s', o)) :
    FcntlInv s' := by
  intro q hq
  cases steps_of_next h with
  | locks outside =>
      rename_i p
      by_cases hqp : q = p
      · subst hqp
        simp at hq
      · rw [move_other hqp] at hq
        exact hinv q hq
  | unlocks inside =>
      rename_i p
      by_cases hqp : q = p
      · subst hqp
        exact hinv q (Or.inl inside)
      · rw [move_other hqp] at hq
        exact hinv q hq
  | locking phase step =>
      rename_i p pc c r
      simp only [lockfcntl] at step
      split at step
      · rename_i hfree
        cases step
        by_cases hqp : q = p
        · subst hqp
          rfl
        · rw [advance_other hqp] at hq
          have howner := hinv q hq
          rcases hfree with hnone | hself
          · rw [hnone] at howner
            cases howner
          · rw [hself] at howner
            exact howner
      · cases step
  | unlocking phase step =>
      rename_i p pc c r
      have howner := hinv p (Or.inr phase)
      simp only [lockfcntl] at step
      cases step
      by_cases hqp : q = p
      · subst hqp
        simp at hq
      · rw [advance_other hqp] at hq
        have hother := hinv q hq
        rw [howner] at hother
        exact absurd (Option.some.inj hother).symm hqp

theorem lockfcntl_exclusive : (lockfcntl proc).Exclusive := by
  intro s hreach p q hp hq
  have hinv : FcntlInv s := by
    refine reachable_invariant (I := FcntlInv) ?_ ?_ hreach
    · intro s hstart p hp
      rw [hstart.outside p] at hp
      rcases hp with hinside | hunlocking
      · cases hinside
      · cases hunlocking
    · intro s a o s' hinv hstep
      exact fcntl_step hinv hstep
  have howner := hinv p (Or.inl hp)
  rw [hinv q (Or.inl hq)] at howner
  exact (Option.some.inj howner).symm

end Fcntl

/-!
# The lock file
-/

inductive LockopenPc where
  | openExcl
  | close
deriving DecidableEq

/-- The kernel knows whether the lock file exists. A call may fail for a reason of its
own; `my_lock` tries until it has created the file. -/
abbrev lockopen (proc : Type) : LockImpl proc where
  shared := Bool
  own := Unit
  choice := Bool
  lockPc := LockopenPc
  unlockPc := Unit
  init := fun lockfile _ => lockfile = false
  lock := fun _ => LockopenPc.openExcl
  unlock := fun _ => ()
  lockStep := fun _ lockfile _ pc fault =>
    match pc with
    | LockopenPc.openExcl =>
        if fault = true ∨ lockfile = true then
          some (lockfile, (), some LockopenPc.openExcl)
        else
          some (true, (), some LockopenPc.close)
    | LockopenPc.close => some (lockfile, (), none)
  unlockStep := fun _ lockfile _ _ fault =>
    some (if fault = true then lockfile else false, (), none)

section Lockopen

variable {proc : Type} [DecidableEq proc]

def HasFile (s : LockState (lockopen proc)) (p : proc) : Prop :=
  s.phase p = LockPhase.locking LockopenPc.close ∨ s.phase p = LockPhase.inside ∨
    s.phase p = LockPhase.unlocking ()

structure LockopenInv (s : LockState (lockopen proc)) : Prop where
  one : forall p q, HasFile s p -> HasFile s q -> p = q
  file : forall p, HasFile s p -> s.shared = true

omit [DecidableEq proc] in
theorem LockopenInv.keep {s s' : LockState (lockopen proc)} (hinv : LockopenInv s)
    (hkeep : forall p, HasFile s' p -> HasFile s p) (hfile : s'.shared = s.shared) :
    LockopenInv s' := by
  constructor
  · intro p q hp hq
    exact hinv.one p q (hkeep p hp) (hkeep q hq)
  · intro p hp
    rw [hfile]
    exact hinv.file p (hkeep p hp)

omit [DecidableEq proc] in
theorem hasFile_of_self {s s' : LockState (lockopen proc)} {p : proc}
    (hother : forall q, q ≠ p -> s'.phase q = s.phase q)
    (hself : HasFile s' p -> HasFile s p) (q : proc) (hq : HasFile s' q) : HasFile s q := by
  by_cases hqp : q = p
  · rw [hqp] at hq ⊢
    exact hself hq
  · simpa only [HasFile, hother q hqp] using hq

theorem lockopen_step {s s' : LockState (lockopen proc)} {a : LockAction (lockopen proc)}
    {o : Unit} (hinv : LockopenInv s) (h : (lockopen proc).next s a = some (s', o)) :
    LockopenInv s' := by
  cases steps_of_next h with
  | locks outside =>
      rename_i p
      refine hinv.keep (hasFile_of_self (fun q hq => move_other hq) ?_) rfl
      intro hfile
      simp [HasFile] at hfile
  | unlocks inside =>
      rename_i p
      refine hinv.keep (hasFile_of_self (fun q hq => move_other hq) ?_) rfl
      exact fun _ => Or.inr (Or.inl inside)
  | locking phase step =>
      rename_i p pc c r
      cases pc with
      | openExcl =>
          simp only [lockopen] at step
          split at step
          · cases step
            refine hinv.keep (hasFile_of_self (fun q hq => advance_other hq) ?_) rfl
            intro hfile
            simp [HasFile] at hfile
          · rename_i hfree
            cases step
            constructor
            · apply unique_of_step hinv.one (p := p)
              · intro q hqp hq
                simpa only [HasFile, advance_other hqp] using hq
              · intro _
                right
                intro q hq
                exact hfree (Or.inr (hinv.file q hq))
            · intro q _
              rfl
      | close =>
          cases step
          refine hinv.keep (hasFile_of_self (fun q hq => advance_other hq) ?_) rfl
          exact fun _ => Or.inl phase
  | unlocking phase step =>
      rename_i p pc c r
      cases step
      -- the process that unlocks was the only one with the file
      have hnone : forall q, ¬ HasFile (advance s p LockPhase.unlocking LockPhase.outside
          (if c = true then s.shared else false, (), none)) q := by
        intro q hq
        by_cases hqp : q = p
        · subst hqp
          simp [HasFile] at hq
        · have hold : HasFile s q := by simpa only [HasFile, advance_other hqp] using hq
          exact hqp (hinv.one q p hold (Or.inr (Or.inr phase)))
      constructor
      · intro q r hq
        exact absurd hq (hnone q)
      · intro q hq
        exact absurd hq (hnone q)

theorem lockopen_exclusive : (lockopen proc).Exclusive := by
  intro s hreach p q hp hq
  have hinv : LockopenInv s := by
    refine reachable_invariant (I := LockopenInv) ?_ ?_ hreach
    · intro s hstart
      have hnone : forall p, ¬ HasFile s p := by
        intro p hp
        simp [HasFile, hstart.outside p] at hp
      exact ⟨fun p q hp _ => absurd hp (hnone p), fun p hp => absurd hp (hnone p)⟩
    · intro s a o s' hinv hstep
      exact lockopen_step hinv hstep
  exact hinv.one p q (Or.inr (Or.inl hp)) (Or.inr (Or.inl hq))

end Lockopen

end Lockmain
end InterprocessComm
