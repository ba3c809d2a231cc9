import InterprocessComm.Lib.Transition

/-!
# Programs and the results of their calls

A program makes one call of its system after the other and goes on by what each returns.
Its runs are those of all lists of results.
-/

namespace Verification

variable {loc request result ret : Type _}

inductive Control (loc ret : Type _) where
  | goes (l : loc)
  | returns (r : ret)

/-- A program between two of its calls; `next` is not defined where the language leaves open
what happens, or for a result that the call cannot have. -/
structure CallProgram (loc request result ret : Type _) where
  request : loc -> request
  next : loc -> result -> Option (Control loc ret)

namespace CallProgram

variable {P : CallProgram loc request result ret}

def step (P : CallProgram loc request result ret) :
    Control loc ret -> result -> Option (Control loc ret × (request × result))
  | Control.goes l, r => (P.next l r).map fun c => (c, (P.request l, r))
  | Control.returns _, _ => none

theorem step_goes {s t : Control loc ret} {r : result} {o : request × result}
    (h : P.step s r = some (t, o)) :
    exists l, s = Control.goes l ∧ P.next l r = some t ∧ o = (P.request l, r) := by
  cases s with
  | goes l =>
      rcases Option.map_eq_some_iff.mp h with ⟨c, hnext, hdone⟩
      cases hdone
      exact ⟨l, rfl, hnext, rfl⟩
  | returns x => cases h

def hasReturned (test : ret -> Bool) : Control loc ret -> Bool
  | Control.returns x => test x
  | Control.goes _ => false

theorem call_of_replay {Init : Control loc ret -> Prop} {start : Control loc ret}
    {test : ret -> Bool}
    {check : List (Transition (Control loc ret) result (request × result)) -> Bool}
    (results : List result) (hinit : Init start)
    (h : (replay P.step start results).any
      (fun done => hasReturned test done.2 && check done.1) = true) :
    exists tr x, Run Init P.step tr (Control.returns x) ∧ test x = true ∧ check tr = true := by
  have hreplayed : exists tr s, Run Init P.step tr s ∧
      (hasReturned test s && check tr) = true :=
    run_of_replay results hinit h
  rcases hreplayed with ⟨tr, s, hrun, hdone⟩
  rcases Bool.and_eq_true_iff.mp hdone with ⟨hends, hcheck⟩
  cases s with
  | goes l => cases hends
  | returns x => exact ⟨tr, x, hrun, hends, hcheck⟩

end CallProgram

end Verification
