import InterprocessComm.Lib.Threads

/-!
# Monitors

Threads that share one mutex and several condition variables.  A thread gives
the mutex up by leaving the monitor or by waiting on a condition variable; a
signal wakes one waiter of the implementation's choice, and a woken thread is
on its way back to the mutex until it runs again.
-/

namespace Verification

variable {tid cond call : Type _}

/-- Where a thread stands with respect to the monitor. A woken thread remembers
whether a signal or a broadcast woke it, as opposed to a spurious wakeup. -/
inductive Phase (cond call : Type _) where
  | outside
  | asleep (c : cond) (k : call)
  | woken (signalled : Bool) (c : cond) (k : call)
deriving DecidableEq

namespace Phase

def sleepsOn [DecidableEq cond] (c : cond) : Phase cond call -> Bool
  | asleep c' _ => decide (c' = c)
  | _ => false

def isSignalled : Phase cond call -> Bool
  | woken signalled _ _ => signalled
  | _ => false

def blockedOn [DecidableEq cond] (c : cond) : Phase cond call -> Bool
  | outside => false
  | asleep c' _ => decide (c' = c)
  | woken _ c' _ => decide (c' = c)

def pending : Phase cond call -> Option call
  | outside => none
  | asleep _ k => some k
  | woken _ _ k => some k

def wake (signalled : Bool) : Phase cond call -> Phase cond call
  | asleep c k => woken signalled c k
  | p => p

@[simp] theorem sleepsOn_outside [DecidableEq cond] (c : cond) :
    sleepsOn c (outside : Phase cond call) = false := rfl

@[simp] theorem sleepsOn_asleep [DecidableEq cond] (c c' : cond) (k : call) :
    sleepsOn c (asleep c' k) = decide (c' = c) := rfl

@[simp] theorem sleepsOn_woken [DecidableEq cond] (c c' : cond) (b : Bool) (k : call) :
    sleepsOn c (woken b c' k) = false := rfl

@[simp] theorem isSignalled_outside :
    isSignalled (outside : Phase cond call) = false := rfl

@[simp] theorem isSignalled_asleep (c : cond) (k : call) :
    isSignalled (asleep c k) = false := rfl

@[simp] theorem isSignalled_woken (b : Bool) (c : cond) (k : call) :
    isSignalled (woken b c k) = b := rfl

@[simp] theorem pending_outside : pending (outside : Phase cond call) = none := rfl

@[simp] theorem pending_asleep (c : cond) (k : call) : pending (asleep c k) = some k := rfl

@[simp] theorem pending_woken (b : Bool) (c : cond) (k : call) :
    pending (woken b c k) = some k := rfl

@[simp] theorem pending_wake (b : Bool) (p : Phase cond call) :
    (p.wake b).pending = p.pending := by
  cases p <;> rfl

@[simp] theorem blockedOn_outside [DecidableEq cond] (c : cond) :
    blockedOn c (outside : Phase cond call) = false := rfl

@[simp] theorem blockedOn_asleep [DecidableEq cond] (c c' : cond) (k : call) :
    blockedOn c (asleep c' k) = decide (c' = c) := rfl

@[simp] theorem blockedOn_woken [DecidableEq cond] (c c' : cond) (b : Bool) (k : call) :
    blockedOn c (woken b c' k) = decide (c' = c) := rfl

theorem blockedOn_wake [DecidableEq cond] (c : cond) (b : Bool) (p : Phase cond call) :
    blockedOn c (p.wake b) = blockedOn c p := by
  cases p <;> rfl

theorem sleepsOn_wake [DecidableEq cond] (c : cond) (b : Bool) (p : Phase cond call) :
    sleepsOn c (p.wake b) = false := by
  cases p <;> rfl

theorem sleepsOn_eq_true [DecidableEq cond] {c : cond} {p : Phase cond call} :
    sleepsOn c p = true <-> exists k, p = asleep c k := by
  cases p with
  | outside => simp
  | asleep c' k =>
      simp only [sleepsOn_asleep, decide_eq_true_eq, asleep.injEq]
      constructor
      · intro h
        exact ⟨k, h, rfl⟩
      · rintro ⟨_, h, _⟩
        exact h
  | woken b c' k => simp

theorem blockedOn_of_sleepsOn [DecidableEq cond] {c : cond} {p : Phase cond call}
    (h : sleepsOn c p = true) : blockedOn c p = true := by
  rcases sleepsOn_eq_true.mp h with ⟨k, rfl⟩
  simp

end Phase

/-!
# Signals and broadcasts
-/

section Signal

variable [Fintype tid] [DecidableEq tid] [DecidableEq cond]

/-- A signal on `c`. The choice names the waiter that is woken; it may name
none only when nobody sleeps on `c`. -/
def signal (c : cond) (choice : Option tid) (phase : tid -> Phase cond call) :
    Option (tid -> Phase cond call) :=
  match choice with
  | some t =>
      if (phase t).sleepsOn c then
        some (Function.update phase t ((phase t).wake true))
      else
        none
  | none =>
      if forall t, (phase t).sleepsOn c = false then some phase else none

def broadcast (c : cond) (phase : tid -> Phase cond call) : tid -> Phase cond call :=
  fun t => if (phase t).sleepsOn c then (phase t).wake true else phase t

theorem signal_cases {c : cond} {choice : Option tid}
    {phase phase' : tid -> Phase cond call}
    (h : signal c choice phase = some phase') :
    (choice = none ∧ phase' = phase ∧ forall t, (phase t).sleepsOn c = false) ∨
      exists t k, choice = some t ∧ phase t = Phase.asleep c k ∧
        phase' = Function.update phase t (Phase.woken true c k) := by
  cases choice with
  | none =>
      simp only [signal] at h
      by_cases hnone : forall t, (phase t).sleepsOn c = false
      · rw [if_pos hnone] at h
        cases h
        exact Or.inl ⟨rfl, rfl, hnone⟩
      · rw [if_neg hnone] at h
        cases h
  | some t =>
      simp only [signal] at h
      cases hsleep : (phase t).sleepsOn c with
      | false => simp [hsleep] at h
      | true =>
          rcases Phase.sleepsOn_eq_true.mp hsleep with ⟨k, hk⟩
          simp only [hsleep, if_true, Option.some.injEq] at h
          refine Or.inr ⟨t, k, rfl, hk, ?_⟩
          rw [← h, hk]
          rfl

theorem signal_blockedOn {c d : cond} {choice : Option tid}
    {phase phase' : tid -> Phase cond call}
    (h : signal c choice phase = some phase') (t : tid) :
    (phase' t).blockedOn d = (phase t).blockedOn d := by
  rcases signal_cases h with ⟨_, rfl, _⟩ | ⟨u, k, _, hu, rfl⟩
  · rfl
  · by_cases htu : t = u
    · subst htu
      simp [hu]
    · rw [Function.update_of_ne htu]

theorem signal_pending {c : cond} {choice : Option tid}
    {phase phase' : tid -> Phase cond call}
    (h : signal c choice phase = some phase') (t : tid) :
    (phase' t).pending = (phase t).pending := by
  rcases signal_cases h with ⟨_, rfl, _⟩ | ⟨u, k, _, hu, rfl⟩
  · rfl
  · by_cases htu : t = u
    · subst htu
      simp [hu]
    · rw [Function.update_of_ne htu]

theorem signal_sleepsOn {c d : cond} {choice : Option tid}
    {phase phase' : tid -> Phase cond call}
    (h : signal c choice phase = some phase') {t : tid}
    (ht : (phase' t).sleepsOn d = true) :
    (phase t).sleepsOn d = true ∧ phase' t = phase t := by
  rcases signal_cases h with ⟨_, rfl, _⟩ | ⟨u, k, _, hu, rfl⟩
  · exact ⟨ht, rfl⟩
  · by_cases htu : t = u
    · subst htu
      simp at ht
    · rw [Function.update_of_ne htu] at ht ⊢
      exact ⟨ht, rfl⟩

theorem signal_isSignalled {c : cond} {choice : Option tid}
    {phase phase' : tid -> Phase cond call}
    (h : signal c choice phase = some phase') {t : tid}
    (ht : (phase t).isSignalled = true) : phase' t = phase t := by
  rcases signal_cases h with ⟨_, rfl, _⟩ | ⟨u, k, _, hu, rfl⟩
  · rfl
  · by_cases htu : t = u
    · subst htu
      simp [hu] at ht
    · rw [Function.update_of_ne htu]

omit [Fintype tid] [DecidableEq tid] in
theorem broadcast_blockedOn (c d : cond) (phase : tid -> Phase cond call) (t : tid) :
    (broadcast c phase t).blockedOn d = (phase t).blockedOn d := by
  unfold broadcast
  split
  · exact Phase.blockedOn_wake d true (phase t)
  · rfl

omit [Fintype tid] [DecidableEq tid] in
theorem broadcast_sleepsOn_self (c : cond) (phase : tid -> Phase cond call) (t : tid) :
    (broadcast c phase t).sleepsOn c = false := by
  unfold broadcast
  split
  · exact Phase.sleepsOn_wake c true (phase t)
  · rename_i hsleep
    simpa using hsleep

omit [Fintype tid] [DecidableEq tid] in
theorem broadcast_of_not_sleepsOn {c : cond} {phase : tid -> Phase cond call} {t : tid}
    (h : (phase t).sleepsOn c = false) : broadcast c phase t = phase t := by
  simp [broadcast, h]

end Signal

end Verification
