import Mathlib.Data.List.Basic

/-!
# Labelled transition systems

A system is given by a step function that may refuse an action.  This module
develops its finite runs as lists of transitions, the induction rules for
properties of every reachable state and of every run, and the replay of a
concrete list of actions.
-/

namespace Verification

variable {state action event ghost : Type _}

structure Transition (state action event : Type _) where
  source : state
  action : action
  event : event
  target : state

def Transition.Valid (step : state -> action -> Option (state × event))
    (e : Transition state action event) : Prop :=
  step e.source e.action = some (e.target, e.event)

/-!
# Runs

A path records its transitions in order; a run is a path from an initial state.
-/

inductive Path (step : state -> action -> Option (state × event)) (s : state) :
    List (Transition state action event) -> state -> Prop where
  | nil : Path step s [] s
  | snoc {t u : state} {tr : List (Transition state action event)}
      {a : action} {o : event} :
      Path step s tr t ->
      step t a = some (u, o) ->
      Path step s (tr ++ [⟨t, a, o, u⟩]) u

def Run (Init : state -> Prop) (step : state -> action -> Option (state × event))
    (tr : List (Transition state action event)) (s : state) : Prop :=
  exists s0, Init s0 ∧ Path step s0 tr s

def Reachable (Init : state -> Prop)
    (step : state -> action -> Option (state × event)) (s : state) : Prop :=
  exists tr, Run Init step tr s

theorem snoc_eq_cut {α : Type _} {xs front rest : List α} {x y : α}
    (h : xs ++ [x] = front ++ y :: rest) :
    (rest = [] ∧ front = xs ∧ y = x) ∨
      exists mid, rest = mid ++ [x] ∧ xs = front ++ y :: mid := by
  rcases List.eq_nil_or_concat rest with rfl | ⟨mid, last, rfl⟩
  · rcases List.append_inj' h rfl with ⟨rfl, hsingle⟩
    injection hsingle with hhead _
    exact Or.inl ⟨rfl, rfl, hhead.symm⟩
  · have hassoc : xs ++ [x] = (front ++ y :: mid) ++ [last] := by simpa using h
    rcases List.append_inj' hassoc rfl with ⟨hxs, hsingle⟩
    injection hsingle with hhead _
    subst hhead
    exact Or.inr ⟨mid, List.concat_eq_append, hxs⟩

section Rules

variable {Init : state -> Prop} {step : state -> action -> Option (state × event)}

theorem path_append {s t u : state} {tr₁ tr₂ : List (Transition state action event)}
    (h₁ : Path step s tr₁ t) (h₂ : Path step t tr₂ u) :
    Path step s (tr₁ ++ tr₂) u := by
  induction h₂ with
  | nil => simpa using h₁
  | snoc _ hstep ih =>
      rw [← List.append_assoc]
      exact Path.snoc ih hstep

/-- What holds at the start with an empty history and is kept by each step holds
of every run and its history. -/
theorem run_induction {I : List (Transition state action event) -> state -> Prop}
    (hinit : forall s, Init s -> I [] s)
    (hstep : forall tr s a o t, Run Init step tr s -> I tr s ->
      step s a = some (t, o) -> I (tr ++ [⟨s, a, o, t⟩]) t)
    {tr : List (Transition state action event)} {s : state}
    (h : Run Init step tr s) : I tr s := by
  rcases h with ⟨s0, h0, hpath⟩
  induction hpath with
  | nil => exact hinit _ h0
  | snoc hprior hlast ih => exact hstep _ _ _ _ _ ⟨s0, h0, hprior⟩ ih hlast

theorem reachable_invariant {I : state -> Prop}
    (hinit : forall s, Init s -> I s)
    (hstep : forall s a o t, I s -> step s a = some (t, o) -> I t)
    {s : state} (h : Reachable Init step s) : I s := by
  rcases h with ⟨tr, hrun⟩
  exact run_induction (I := fun _ s => I s) hinit
    (fun _ s a o t _ hI => hstep s a o t hI) hrun

theorem reachable_step {s t : state} {a : action} {o : event} (hs : Reachable Init step s)
    (hstep : step s a = some (t, o)) : Reachable Init step t := by
  rcases hs with ⟨tr, s0, hinit, hpath⟩
  exact ⟨_, s0, hinit, Path.snoc hpath hstep⟩

/-- An invariant that only guarded transitions are known to keep holds at the
end of every run whose transitions all meet the guard. -/
theorem run_guarded_invariant {I : state -> Prop}
    {G : Transition state action event -> Prop}
    (hinit : forall s, Init s -> I s)
    (hstep : forall s a o t, Reachable Init step s -> I s ->
      G ⟨s, a, o, t⟩ -> step s a = some (t, o) -> I t)
    {tr : List (Transition state action event)} {s : state}
    (h : Run Init step tr s) (hguard : forall e, e ∈ tr -> G e) : I s := by
  refine run_induction (I := fun tr s => (forall e, e ∈ tr -> G e) -> I s)
    (fun s hs _ => hinit s hs) ?_ h hguard
  intro tr s a o t hrun ih hlast hall
  exact hstep s a o t ⟨tr, hrun⟩
    (ih fun e he => hall e (List.mem_append.mpr (Or.inl he)))
    (hall _ (by simp)) hlast

/-- Along a path whose transitions all meet the guard, what each guarded transition
keeps holds at the end, and what each shows holds of all of them. -/
theorem path_guarded {I : state -> Prop}
    {G P : Transition state action event -> Prop}
    (hstep : forall s a o t, I s -> G ⟨s, a, o, t⟩ ->
      step s a = some (t, o) -> I t ∧ P ⟨s, a, o, t⟩)
    {tr : List (Transition state action event)} {s t : state}
    (h : Path step s tr t) (hs : I s) (hguard : forall e, e ∈ tr -> G e) :
    I t ∧ forall e, e ∈ tr -> P e := by
  induction h with
  | nil => exact ⟨hs, fun e he => by cases he⟩
  | snoc _ hlast ih =>
      rcases ih fun e he => hguard e (List.mem_append.mpr (Or.inl he)) with ⟨hprior, hall⟩
      rcases hstep _ _ _ _ hprior (hguard _ (by simp)) hlast with ⟨hnext, hshown⟩
      refine ⟨hnext, ?_⟩
      intro e he
      rcases List.mem_append.mp he with hold | hnew
      · exact hall e hold
      · rw [List.mem_singleton] at hnew
        subst hnew
        exact hshown

theorem run_transition {tr : List (Transition state action event)} {s : state}
    (h : Run Init step tr s) {e : Transition state action event} (he : e ∈ tr) :
    Reachable Init step e.source ∧ e.Valid step := by
  refine run_induction
    (I := fun tr _ => forall e, e ∈ tr -> Reachable Init step e.source ∧ e.Valid step)
    ?_ ?_ h e he
  · intro s _ e he
    cases he
  · intro tr s a o t hrun ih hlast e he
    rcases List.mem_append.mp he with hold | hnew
    · exact ih e hold
    · rw [List.mem_singleton] at hnew
      subst hnew
      exact ⟨⟨tr, hrun⟩, hlast⟩

theorem run_split {tr₁ tr₂ : List (Transition state action event)}
    {e : Transition state action event} {s : state}
    (h : Run Init step (tr₁ ++ e :: tr₂) s) :
    Run Init step tr₁ e.source ∧ e.Valid step ∧ Path step e.target tr₂ s := by
  have key : forall tr s, Run Init step tr s ->
      forall tr₁ e tr₂, tr = tr₁ ++ e :: tr₂ ->
        Run Init step tr₁ e.source ∧ e.Valid step ∧ Path step e.target tr₂ s := by
    intro tr s hrun
    refine run_induction
      (I := fun tr s => forall tr₁ e tr₂, tr = tr₁ ++ e :: tr₂ ->
        Run Init step tr₁ e.source ∧ e.Valid step ∧ Path step e.target tr₂ s) ?_ ?_ hrun
    · intro s _ tr₁ e tr₂ heq
      simp at heq
    · intro tr s a o t hprior ih hlast tr₁ e tr₂ heq
      rcases snoc_eq_cut heq with ⟨rfl, rfl, rfl⟩ | ⟨mid, rfl, htr⟩
      · exact ⟨hprior, hlast, Path.nil⟩
      · rcases ih tr₁ e mid htr with ⟨hrun, hvalid, hpath⟩
        exact ⟨hrun, hvalid, Path.snoc hpath hlast⟩
  exact key _ _ h _ _ _ rfl

/-!
# Histories

A history is read off the events of a run; a condition on the history and the next
event can be asked at each transition.
-/

section Observed

variable {observe : ghost -> event -> ghost} {g0 : ghost}

def observed (observe : ghost -> event -> ghost) (g0 : ghost)
    (tr : List (Transition state action event)) : ghost :=
  tr.foldl (fun g e => observe g e.event) g0

theorem observed_snoc (tr : List (Transition state action event))
    (e : Transition state action event) :
    observed observe g0 (tr ++ [e]) = observe (observed observe g0 tr) e.event := by
  simp [observed]

theorem observed_append (tr₁ tr₂ : List (Transition state action event)) :
    observed observe g0 (tr₁ ++ tr₂) = observed observe (observed observe g0 tr₁) tr₂ := by
  simp [observed]

/-- The condition holds at each transition, of the history before it and the transition. -/
def AtEachStep (observe : ghost -> event -> ghost) (g0 : ghost)
    (P : ghost -> Transition state action event -> Prop)
    (tr : List (Transition state action event)) : Prop :=
  forall tr₁ e tr₂, tr = tr₁ ++ e :: tr₂ -> P (observed observe g0 tr₁) e

section AtEachStep

variable {P : ghost -> Transition state action event -> Prop}
  {tr : List (Transition state action event)} {e : Transition state action event}

theorem atEachStep_snoc :
    AtEachStep observe g0 P (tr ++ [e]) <->
      AtEachStep observe g0 P tr ∧ P (observed observe g0 tr) e := by
  constructor
  · intro h
    constructor
    · intro tr₁ d tr₂ heq
      exact h tr₁ d (tr₂ ++ [e]) (by simp [heq])
    · exact h tr e [] rfl
  · rintro ⟨hall, hlast⟩ tr₁ d tr₂ heq
    rcases snoc_eq_cut heq with ⟨_, rfl, rfl⟩ | ⟨mid, _, htr⟩
    · exact hlast
    · exact hall tr₁ d mid htr

theorem atEachStep_nil : AtEachStep observe g0 P [] := by
  intro tr₁ e tr₂ heq
  simp at heq

theorem atEachStep_cons :
    AtEachStep observe g0 P (e :: tr) <->
      P g0 e ∧ AtEachStep observe (observe g0 e.event) P tr := by
  constructor
  · intro h
    constructor
    · exact h [] e tr rfl
    · intro tr₁ d tr₂ heq
      exact h (e :: tr₁) d tr₂ (by simp [heq])
  · rintro ⟨hfirst, hrest⟩ tr₁ d tr₂ heq
    cases tr₁ with
    | nil =>
        cases heq
        exact hfirst
    | cons first front =>
        cases heq
        exact hrest front d tr₂ rfl

theorem atEachStep_iff_forall {Q : Transition state action event -> Prop}
    (h : AtEachStep observe g0 (fun g e => P g e <-> Q e) tr) :
    AtEachStep observe g0 P tr <-> forall e, e ∈ tr -> Q e := by
  constructor
  · intro hlaw e he
    rcases List.append_of_mem he with ⟨tr₁, tr₂, heq⟩
    exact (h tr₁ e tr₂ heq).mp (hlaw tr₁ e tr₂ heq)
  · intro hall tr₁ e tr₂ heq
    exact (h tr₁ e tr₂ heq).mpr (hall e (by simp [heq]))

instance decidableAtEachStep [forall g e, Decidable (P g e)] :
    (g : ghost) -> (tr : List (Transition state action event)) ->
      Decidable (AtEachStep observe g P tr)
  | _, [] => isTrue atEachStep_nil
  | g, e :: tr =>
      have := decidableAtEachStep (observe g e.event) tr
      decidable_of_iff _ atEachStep_cons.symm

end AtEachStep

/-- Where the guard is met at each transition, an invariant of history and state that
guarded transitions keep holds at the end, and what they show holds at each. -/
theorem run_observed_steps {I : ghost -> state -> Prop}
    {G P : ghost -> Transition state action event -> Prop}
    (hinit : forall s, Init s -> I g0 s)
    (hstep : forall g s a o t, I g s -> G g ⟨s, a, o, t⟩ -> step s a = some (t, o) ->
      I (observe g o) t ∧ P g ⟨s, a, o, t⟩)
    {tr : List (Transition state action event)} {s : state} (h : Run Init step tr s)
    (hguard : AtEachStep observe g0 G tr) :
    I (observed observe g0 tr) s ∧ AtEachStep observe g0 P tr := by
  refine run_induction (I := fun tr s => AtEachStep observe g0 G tr ->
    I (observed observe g0 tr) s ∧ AtEachStep observe g0 P tr) ?_ ?_ h hguard
  · intro s hs _
    exact ⟨hinit s hs, atEachStep_nil⟩
  · intro tr s a o t _ ih hlast hall
    rcases atEachStep_snoc.mp hall with ⟨hprior, hnow⟩
    rcases ih hprior with ⟨hinv, hshown⟩
    rcases hstep _ s a o t hinv hnow hlast with ⟨hnext, hlaw⟩
    rw [observed_snoc]
    exact ⟨hnext, atEachStep_snoc.mpr ⟨hshown, hlaw⟩⟩

/-- A run whose steps keep it fine until a spoiling one, after which every step keeps it
spoilt, is fine at the end if no step spoilt it, and otherwise spoilt. -/
theorem run_fine_or_spoilt {Fine Spoilt : ghost -> state -> Prop}
    {Spoils : Transition state action event -> Prop}
    (hinit : forall s, Init s -> Fine g0 s)
    (hfine : forall g s a o t, Fine g s -> step s a = some (t, o) ->
      ¬ Spoils ⟨s, a, o, t⟩ -> Fine (observe g o) t)
    (hspoils : forall g s a o t, Fine g s -> step s a = some (t, o) ->
      Spoils ⟨s, a, o, t⟩ -> Spoilt (observe g o) t)
    (hspoilt : forall g s a o t, Spoilt g s -> step s a = some (t, o) -> Spoilt (observe g o) t)
    {tr : List (Transition state action event)} {s : state} (h : Run Init step tr s) :
    (forall e, e ∈ tr -> ¬ Spoils e) ∧ Fine (observed observe g0 tr) s ∨
      (exists e, e ∈ tr ∧ Spoils e) ∧ Spoilt (observed observe g0 tr) s := by
  refine run_induction (I := fun tr s =>
    (forall e, e ∈ tr -> ¬ Spoils e) ∧ Fine (observed observe g0 tr) s ∨
      (exists e, e ∈ tr ∧ Spoils e) ∧ Spoilt (observed observe g0 tr) s) ?_ ?_ h
  · intro s hs
    exact Or.inl ⟨fun e he => absurd he (by simp), hinit s hs⟩
  · intro tr s a o t _ ih hlast
    rw [observed_snoc]
    rcases ih with ⟨hnone, hgood⟩ | ⟨⟨e, he, hbad⟩, hspoiled⟩
    · by_cases hnow : Spoils ⟨s, a, o, t⟩
      · exact Or.inr ⟨⟨_, by simp, hnow⟩, hspoils _ s a o t hgood hlast hnow⟩
      · refine Or.inl ⟨?_, hfine _ s a o t hgood hlast hnow⟩
        intro e he
        rcases List.mem_append.mp he with hold | hnew
        · exact hnone e hold
        · rw [List.mem_singleton] at hnew
          rw [hnew]
          exact hnow
    · exact Or.inr ⟨⟨e, List.mem_append.mpr (Or.inl he), hbad⟩,
        hspoilt _ s a o t hspoiled hlast⟩

/-- The condition holds at each transition, of the history before it and its event. -/
def AtEach (observe : ghost -> event -> ghost) (g0 : ghost) (P : ghost -> event -> Prop)
    (tr : List (Transition state action event)) : Prop :=
  forall tr₁ e tr₂, tr = tr₁ ++ e :: tr₂ -> P (observed observe g0 tr₁) e.event

theorem AtEach.mono {P Q : ghost -> event -> Prop} {tr : List (Transition state action event)}
    (h : AtEach observe g0 P tr) (himp : forall g o, P g o -> Q g o) :
    AtEach observe g0 Q tr :=
  fun tr₁ e tr₂ heq => himp _ _ (h tr₁ e tr₂ heq)

instance decidableAtEach {P : ghost -> event -> Prop} [forall g o, Decidable (P g o)]
    (g : ghost) (tr : List (Transition state action event)) :
    Decidable (AtEach observe g P tr) :=
  inferInstanceAs (Decidable (AtEachStep observe g (fun g e => P g e.event) tr))

theorem run_observed {I : ghost -> state -> Prop} {G P : ghost -> event -> Prop}
    (hinit : forall s, Init s -> I g0 s)
    (hstep : forall g s a o t, I g s -> G g o -> step s a = some (t, o) ->
      I (observe g o) t ∧ P g o)
    {tr : List (Transition state action event)} {s : state} (h : Run Init step tr s)
    (hguard : AtEach observe g0 G tr) :
    I (observed observe g0 tr) s ∧ AtEach observe g0 P tr :=
  run_observed_steps (G := fun g e => G g e.event) (P := fun g e => P g e.event)
    hinit hstep h hguard

end Observed

end Rules

/-!
# Replay

A concrete list of actions is replayed by computation; what a test says about
the outcome holds of a run.
-/

def replay (step : state -> action -> Option (state × event)) :
    state -> List action -> Option (List (Transition state action event) × state)
  | s, [] => some ([], s)
  | s, a :: rest =>
      match step s a with
      | none => none
      | some (t, o) =>
          match replay step t rest with
          | none => none
          | some (tr, u) => some (⟨s, a, o, t⟩ :: tr, u)

theorem path_cons {step : state -> action -> Option (state × event)}
    {s t u : state} {a : action} {o : event}
    {tr : List (Transition state action event)}
    (hstep : step s a = some (t, o)) (h : Path step t tr u) :
    Path step s (⟨s, a, o, t⟩ :: tr) u := by
  have hfirst : Path step s ([] ++ [⟨s, a, o, t⟩]) t := Path.snoc Path.nil hstep
  simpa using path_append hfirst h

theorem path_of_replay {step : state -> action -> Option (state × event)}
    {acts : List action} {s t : state} {tr : List (Transition state action event)}
    (h : replay step s acts = some (tr, t)) : Path step s tr t := by
  induction acts generalizing s tr with
  | nil =>
      simp only [replay, Option.some.injEq, Prod.mk.injEq] at h
      rcases h with ⟨rfl, rfl⟩
      exact Path.nil
  | cons a rest ih =>
      unfold replay at h
      cases hstep : step s a with
      | none => simp [hstep] at h
      | some next =>
          rcases next with ⟨mid, o⟩
          cases hrest : replay step mid rest with
          | none => simp [hstep, hrest] at h
          | some done =>
              rcases done with ⟨tr', last⟩
              simp only [hstep, hrest, Option.some.injEq, Prod.mk.injEq] at h
              rcases h with ⟨rfl, rfl⟩
              exact path_cons hstep (ih hrest)

theorem run_of_replay {Init : state -> Prop}
    {step : state -> action -> Option (state × event)}
    {test : List (Transition state action event) -> state -> Bool}
    (acts : List action) {s0 : state} (hinit : Init s0)
    (h : (replay step s0 acts).any (fun r => test r.1 r.2) = true) :
    exists tr s, Run Init step tr s ∧ test tr s = true := by
  cases hreplay : replay step s0 acts with
  | none => simp [hreplay] at h
  | some done =>
      rcases done with ⟨tr, s⟩
      rw [hreplay] at h
      exact ⟨tr, s, ⟨s0, hinit, path_of_replay hreplay⟩, by simpa using h⟩

end Verification
