import Mathlib.Data.Set.Basic

/-!
# Workers that are started by a signal

A job raises a signal when it comes.  Signals do not count: those that are raised before the worker
starts are one.  The worker takes jobs until it finds none, and is not started again while it runs.
-/

namespace Verification

variable {job : Type _}

inductive Working where
  | idle
  | looking
  | leaving
deriving DecidableEq

structure SignalledWorker (job : Type _) where
  jobs : Set job
  pending : Bool
  working : Working

namespace SignalledWorker

/-- What can happen to the worker and its jobs; jobs that come raise the signal, which may be
raised for nothing too. -/
inductive Step : SignalledWorker job -> SignalledWorker job -> Prop where
  | rest (w : SignalledWorker job) : Step w w
  | raise {w : SignalledWorker job} (jobs : Set job) :
      Step w { w with jobs := jobs, pending := true }
  | start {w : SignalledWorker job} :
      w.working = Working.idle ->
      Step w { w with pending := false, working := Working.looking }
  | take {w : SignalledWorker job} (jobs : Set job) :
      w.working = Working.looking ->
      jobs ⊆ w.jobs ->
      Step w { w with jobs := jobs }
  | finish {w : SignalledWorker job} :
      w.working = Working.looking ->
      w.jobs = ∅ ->
      Step w { w with working := Working.leaving }
  | leave {w : SignalledWorker job} :
      w.working = Working.leaving ->
      Step w { w with working := Working.idle }

/-- A job that waits will be found, or the signal will start the worker. -/
def Inv (w : SignalledWorker job) : Prop :=
  w.jobs.Nonempty -> w.pending = true ∨ w.working = Working.looking

theorem Step.inv {w w' : SignalledWorker job} (hstep : Step w w') (h : Inv w) : Inv w' := by
  cases hstep with
  | rest => exact h
  | raise jobs => exact fun _ => Or.inl rfl
  | start hidle => exact fun _ => Or.inr rfl
  | take jobs hlooking hsub => exact fun _ => Or.inr hlooking
  | finish hlooking hempty =>
      intro hjobs
      exact absurd hempty hjobs.ne_empty
  | leave hleaving =>
      intro hjobs
      rcases h hjobs with hpending | hlooking
      · exact Or.inl hpending
      · exact absurd (hleaving.symm.trans hlooking) (by decide)

theorem Inv.rests {w : SignalledWorker job} (h : Inv w) (hpending : w.pending = false)
    (hidle : w.working = Working.idle) : w.jobs = ∅ := by
  rcases Set.eq_empty_or_nonempty w.jobs with hempty | hjobs
  · exact hempty
  · rcases h hjobs with hraised | hlooking
    · exact absurd (hpending.symm.trans hraised) (by decide)
    · exact absurd (hidle.symm.trans hlooking) (by decide)

end SignalledWorker

end Verification
