import Mathlib.Algebra.BigOperators.Fin
import Mathlib.Logic.Function.Basic

/-!
# Crews

Threads that are created one after the other, each with a counter, in two arrays of a fixed
length.  Seen from outside, a thread that is not created yet is one that has not begun.
-/

namespace Verification

/-- The counters, and the threads whose ids stand in the other array; `none` is a place
without a thread. -/
structure Crew (max : Nat) (loc : Type _) where
  count : Fin max -> Nat
  tid : Fin max -> Option loc

namespace Crew

variable {max : Nat} {loc thread : Type _}

def countAt (c : Crew max loc) (i : Nat) : Nat :=
  if h : i < max then c.count ⟨i, h⟩ else 0

def threadAt (c : Crew max loc) (i : Nat) : Option loc :=
  if h : i < max then c.tid ⟨i, h⟩ else none

def put (c : Crew max loc) (i : Nat) (l : loc) (n : Nat) : Crew max loc :=
  { count := fun p => if p.val = i then n else c.count p,
    tid := fun p => if p.val = i then some l else c.tid p }

/-- A new thread with the count 0; behind the arrays there is no place for it. -/
def create (c : Crew max loc) (i : Nat) (start : loc) : Option (Crew max loc) :=
  if i < max then some (c.put i start 0) else none

def Created (c : Crew max loc) (n : Nat) : Prop :=
  forall i, i < max -> (c.threadAt i = none <-> n ≤ i)

def member (c : Crew max loc) (make : loc -> Nat -> thread) (start : loc) (i : Nat) : thread :=
  match c.threadAt i with
  | none => make start 0
  | some l => make l (c.countAt i)

variable {c c' : Crew max loc} {i j n : Nat} {l start : loc} {make : loc -> Nat -> thread}

theorem threadAt_put (h : i < max) :
    (c.put i l n).threadAt j = if j = i then some l else c.threadAt j := by
  rcases eq_or_ne j i with rfl | hne
  · simp [threadAt, put, h]
  · simp [threadAt, put, hne]

theorem countAt_put (h : i < max) :
    (c.put i l n).countAt j = if j = i then n else c.countAt j := by
  rcases eq_or_ne j i with rfl | hne
  · simp [countAt, put, h]
  · simp [countAt, put, hne]

theorem lt_of_threadAt (h : c.threadAt i = some l) : i < max := by
  unfold threadAt at h
  split at h
  · assumption
  · cases h

theorem create_eq (h : c.create i start = some c') : i < max ∧ c' = c.put i start 0 := by
  unfold create at h
  split at h
  · rename_i hlt
    exact ⟨hlt, (Option.some.inj h).symm⟩
  · cases h

theorem create_of_lt (h : i < max) : c.create i start = some (c.put i start 0) :=
  if_pos h

theorem create_behind (h : max ≤ i) : c.create i start = none :=
  if_neg (Nat.not_lt.mpr h)

theorem Created.create (h : c.Created i) (hcreate : c.create i start = some c') :
    c'.Created (i + 1) := by
  rcases create_eq hcreate with ⟨hlt, rfl⟩
  intro j hj
  rw [threadAt_put hlt]
  have hold := h j hj
  split
  · rename_i heq
    exact iff_of_false (fun hnone => by cases hnone) (by lia)
  · rename_i hne
    rw [hold]
    lia

theorem Created.put (h : c.Created n) {old : loc} (hold : c.threadAt i = some old) (l : loc)
    (k : Nat) : (c.put i l k).Created n := by
  intro j hj
  rw [threadAt_put (lt_of_threadAt hold)]
  split
  · rename_i heq
    have hthere := h j hj
    rw [heq, hold] at hthere
    exact iff_of_false (fun hnone => by cases hnone) fun hle => by cases hthere.mpr (heq ▸ hle)
  · exact h j hj

theorem Created.exists_thread (h : c.Created n) (hn : n ≤ max) (hi : i < n) :
    exists l, c.threadAt i = some l := by
  apply Option.ne_none_iff_exists'.mp
  intro hnone
  have hle := (h i (Nat.lt_of_lt_of_le hi hn)).mp hnone
  lia

theorem member_eq (h : c.threadAt i = some l) : c.member make start i = make l (c.countAt i) := by
  simp only [member, h]

theorem member_create (hnone : c.threadAt i = none) (h : c.create i start = some c') :
    c'.member make start = c.member make start := by
  rcases create_eq h with ⟨hlt, rfl⟩
  funext j
  simp only [member, threadAt_put hlt, countAt_put hlt]
  rcases eq_or_ne j i with rfl | hne
  · simp [hnone]
  · simp [hne]

theorem member_put (h : i < max) :
    (c.put i l n).member make start = Function.update (c.member make start) i (make l n) := by
  funext j
  simp only [member, threadAt_put h, countAt_put h]
  rcases eq_or_ne j i with rfl | hne
  · simp
  · simp [member, hne]

end Crew

end Verification
