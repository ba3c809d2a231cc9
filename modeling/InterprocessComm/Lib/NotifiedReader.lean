import Mathlib.Data.Bool.Basic
import Mathlib.Data.List.Basic

/-!
# Readers that are woken once per registration

A registered reader of a queue is woken when something reaches the empty queue, and its
registration is spent.  A reader that registers again before it empties the queue never
waits, after the first time it has emptied it, while there is something for it.
-/

namespace Verification

variable {msg : Type _}

/-- What the reader does: it has not registered yet, it waits for a wake-up, it has used
one up, or it empties the queue. -/
inductive Reading where
  | starting
  | waiting
  | woken
  | draining
deriving DecidableEq

structure NotifiedReader (msg : Type _) where
  queue : List msg
  registered : Bool
  wakes : Nat
  reading : Reading
  drained : Bool

namespace NotifiedReader

/-- What can happen to the reader and its queue; `q` is the queue with the new message. -/
inductive Step : NotifiedReader msg -> NotifiedReader msg -> Prop where
  | rest (r : NotifiedReader msg) : Step r r
  | arrive {r : NotifiedReader msg} (q : List msg) :
      r.queue ≠ [] ∨ r.registered = false ->
      Step r { r with queue := q }
  | notify {r : NotifiedReader msg} (q : List msg) :
      r.registered = true ->
      Step r { r with queue := q, registered := false, wakes := r.wakes + 1 }
  | start {r : NotifiedReader msg} :
      r.reading = Reading.starting ->
      Step r { r with registered := true, reading := Reading.waiting }
  | wake {r : NotifiedReader msg} (n : Nat) :
      r.reading = Reading.waiting ->
      r.wakes = n + 1 ->
      Step r { r with wakes := n, reading := Reading.woken }
  | register {r : NotifiedReader msg} :
      r.reading = Reading.woken ->
      Step r { r with registered := true, reading := Reading.draining }
  | receive {r : NotifiedReader msg} (q : List msg) :
      r.reading = Reading.draining ->
      Step r { r with queue := q }
  | finish {r : NotifiedReader msg} :
      r.reading = Reading.draining ->
      r.queue = [] ->
      Step r { r with reading := Reading.waiting, drained := true }

def unarmed : Reading -> Nat
  | Reading.starting => 1
  | Reading.woken => 1
  | _ => 0

/-- There is one registration or one wake-up, but for a reader that is about to register;
and a registration that waits has seen the queue empty. -/
structure Inv (r : NotifiedReader msg) : Prop where
  armed : r.registered.toNat + r.wakes + unarmed r.reading = 1
  empty : r.drained = true -> r.reading = Reading.waiting -> r.registered = true -> r.queue = []
  fresh : r.reading = Reading.starting -> r.drained = false

theorem Step.inv {r r' : NotifiedReader msg} (hstep : Step r r') (h : Inv r) : Inv r' := by
  have harmed := h.armed
  cases hstep with
  | rest => exact h
  | arrive q hq =>
      refine ⟨harmed, ?_, h.fresh⟩
      intro hdrained hwaiting hregistered
      rcases hq with hq | hq
      · exact absurd (h.empty hdrained hwaiting hregistered) hq
      · rw [hq] at hregistered
        cases hregistered
  | notify q hregistered =>
      refine ⟨?_, fun _ _ hr => Bool.noConfusion hr, h.fresh⟩
      rw [hregistered] at harmed
      simp only [Bool.toNat_true, Bool.toNat_false] at harmed ⊢
      lia
  | start hstarting =>
      have hfresh := h.fresh hstarting
      refine ⟨?_, ?_, fun hr => Reading.noConfusion hr⟩
      · rw [hstarting] at harmed
        simp only [unarmed, Bool.toNat_true] at harmed ⊢
        lia
      · intro hdrained
        exact absurd (hfresh.symm.trans hdrained) (by decide)
  | wake n hwaiting hn =>
      refine ⟨?_, fun _ hr => Reading.noConfusion hr, fun hr => Reading.noConfusion hr⟩
      rw [hwaiting, hn] at harmed
      simp only [unarmed] at harmed ⊢
      lia
  | register hwoken =>
      refine ⟨?_, fun _ hr => Reading.noConfusion hr, fun hr => Reading.noConfusion hr⟩
      rw [hwoken] at harmed
      simp only [unarmed, Bool.toNat_true] at harmed ⊢
      lia
  | receive q hdraining =>
      refine ⟨harmed, ?_, h.fresh⟩
      intro _ hwaiting
      exact absurd (hdraining.symm.trans hwaiting) (by decide)
  | finish hdraining hempty =>
      refine ⟨?_, fun _ _ _ => hempty, fun hr => Reading.noConfusion hr⟩
      rw [hdraining] at harmed
      exact harmed

/-- A reader that waits without a wake-up has an empty queue and is registered. -/
theorem Inv.rests {r : NotifiedReader msg} (h : Inv r) (hdrained : r.drained = true)
    (hwaiting : r.reading = Reading.waiting) (hwakes : r.wakes = 0) :
    r.queue = [] ∧ r.registered = true := by
  have harmed := h.armed
  have hregistered : r.registered = true := by
    cases hr : r.registered with
    | true => rfl
    | false =>
        rw [hr, hwaiting, hwakes] at harmed
        cases harmed
  exact ⟨h.empty hdrained hwaiting hregistered, hregistered⟩

end NotifiedReader

end Verification
