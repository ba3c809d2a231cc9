import InterprocessComm.Lib.Transition

/-!
# Simulations

A system with fine steps simulates one with coarse steps along an abstraction of its states: each
fine step is a coarse step, or the abstraction does not see it.
-/

namespace Verification

variable {state action event state' action' event' ghost : Type _}

/-- `label` is the coarse step that a fine transition amounts to, if any; `I` is an invariant of
the fine system. -/
structure Simulation (Init : state -> Prop) (step : state -> action -> Option (state × event))
    (Init' : state' -> Prop) (step' : state' -> action' -> Option (state' × event'))
    (abs : state -> state') (label : Transition state action event -> Option (action' × event'))
    (I : state -> Prop) : Prop where
  init : forall s, Init s -> I s ∧ Init' (abs s)
  keeps : forall s a o t, I s -> step s a = some (t, o) -> I t
  stutters : forall s a o t, I s -> step s a = some (t, o) ->
    label ⟨s, a, o, t⟩ = none -> abs t = abs s
  moves : forall s a o t a' o', I s -> step s a = some (t, o) ->
    label ⟨s, a, o, t⟩ = some (a', o') -> step' (abs s) a' = some (abs t, o')

namespace Simulation

def coarse (abs : state -> state')
    (label : Transition state action event -> Option (action' × event'))
    (e : Transition state action event) : Option (Transition state' action' event') :=
  (label e).map fun l => ⟨abs e.source, l.1, l.2, abs e.target⟩

variable {Init : state -> Prop} {step : state -> action -> Option (state × event)}
  {Init' : state' -> Prop} {step' : state' -> action' -> Option (state' × event')}
  {abs : state -> state'} {label : Transition state action event -> Option (action' × event')}
  {I : state -> Prop} {tr : List (Transition state action event)} {s : state}

/-- Every run is a run of the coarse system. -/
theorem run (h : Simulation Init step Init' step' abs label I) (hrun : Run Init step tr s) :
    I s ∧ Run Init' step' (tr.filterMap (coarse abs label)) (abs s) := by
  refine run_induction
    (I := fun tr s => I s ∧ Run Init' step' (tr.filterMap (coarse abs label)) (abs s))
    ?_ ?_ hrun
  · intro s hs
    rcases h.init s hs with ⟨hinv, hinit⟩
    exact ⟨hinv, abs s, hinit, Path.nil⟩
  · rintro tr s a o t _ ⟨hinv, s0, hinit, hpath⟩ hstep
    refine ⟨h.keeps s a o t hinv hstep, s0, hinit, ?_⟩
    rw [List.filterMap_append]
    cases hlabel : label ⟨s, a, o, t⟩ with
    | none =>
        have hnone : [(⟨s, a, o, t⟩ : Transition state action event)].filterMap
            (coarse abs label) = [] := by
          simp [coarse, hlabel]
        rw [hnone, List.append_nil, h.stutters s a o t hinv hstep hlabel]
        exact hpath
    | some l =>
        rcases l with ⟨a', o'⟩
        have hone : [(⟨s, a, o, t⟩ : Transition state action event)].filterMap
            (coarse abs label) = [⟨abs s, a', o', abs t⟩] := by
          simp [coarse, hlabel]
        rw [hone]
        exact Path.snoc hpath (h.moves s a o t a' o' hinv hstep hlabel)

/-- What is recorded of a run is what is recorded of its coarse steps, if the steps between them
leave it as it is. -/
theorem recorded {record : ghost -> Transition state action event -> ghost}
    (record' : ghost -> Transition state' action' event' -> ghost) (hrun : Run Init step tr s)
    (hsame : forall g e, e.Valid step -> record g e = ((coarse abs label e).elim g (record' g)))
    (g : ghost) : tr.foldl record g = (tr.filterMap (coarse abs label)).foldl record' g := by
  have hvalid : forall e, e ∈ tr -> e.Valid step := fun e he => (run_transition hrun he).2
  clear hrun
  induction tr generalizing g with
  | nil => rfl
  | cons e tr ih =>
      rcases List.forall_mem_cons.mp hvalid with ⟨hfirst, hrest⟩
      rw [List.foldl_cons, hsame g e hfirst, ih _ hrest]
      cases hcoarse : coarse abs label e with
      | none => simp [hcoarse]
      | some d => simp [hcoarse]

/-- A law of the coarse steps holds at each fine one, if the steps between them are not
observed and break no law. -/
theorem atEach {observe : ghost -> event -> ghost} {P : ghost -> event -> Prop}
    {label : Transition state action event -> Option (action' × event)}
    (hrun : Run Init step tr s)
    (hcoarse : forall e l, e.Valid step -> label e = some l -> l.2 = e.event)
    (hsilent : forall e g, e.Valid step -> label e = none ->
      observe g e.event = g ∧ P g e.event)
    (g : ghost) (h : AtEach observe g P (tr.filterMap (coarse abs label))) :
    observed observe g tr = observed observe g (tr.filterMap (coarse abs label)) ∧
      AtEach observe g P tr := by
  have hsame : forall g e, e.Valid step ->
      observe g e.event = (coarse abs label e).elim g fun d => observe g d.event := by
    intro g e he
    cases hlabel : label e with
    | none => simpa [coarse, hlabel] using (hsilent e g he hlabel).1
    | some l => simp [coarse, hlabel, hcoarse e l he hlabel]
  refine ⟨recorded (fun g e => observe g e.event) hrun hsame g, ?_⟩
  rintro tr₁ e tr₂ rfl
  rcases run_split hrun with ⟨hbefore, hvalid, _⟩
  cases hlabel : label e with
  | none => exact (hsilent e _ hvalid hlabel).2
  | some l =>
      have hfirst : observed observe g tr₁ =
          observed observe g (tr₁.filterMap (coarse abs label)) :=
        recorded (fun g e => observe g e.event) hbefore hsame g
      rw [hfirst, <- hcoarse e l hvalid hlabel]
      exact h _ ⟨abs e.source, l.1, l.2, abs e.target⟩ (tr₂.filterMap (coarse abs label))
        (by simp [coarse, hlabel])

end Simulation

end Verification
