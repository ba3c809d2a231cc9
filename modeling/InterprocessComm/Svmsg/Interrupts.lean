import InterprocessComm.Svmsg.Children

/-!
# Interrupted calls

`Mesg_recv` tests `errno` to tell an interrupted `msgrcv` from one that failed.  `sig_child` does
not save `errno`, and its last `waitpid` fails when there are no children left; so a second
`SIGCHLD`, behind the interrupted call and before the test, decides what is tested.
-/

namespace InterprocessComm
namespace Svmsg
namespace Mpxnq

open Verification

/-- The error of the last `msgrcv`, if it failed and `Mesg_recv` has done nothing about it. -/
def lastFailure : Option Errno -> ServerEvent -> Option Errno
  | _, ServerEvent.failed e => some e
  | _, ServerEvent.retried => none
  | _, ServerEvent.returned _ => none
  | g, _ => g

/-- What returns was not interrupted, and -1 is returned for a `msgrcv` that failed. -/
def RetryLaw (g : Option Errno) : ServerEvent -> Prop
  | ServerEvent.returned n => g ≠ some EINTR ∧ (n = -1 -> g.isSome = true)
  | _ => True

instance (g : Option Errno) : (o : ServerEvent) -> Decidable (RetryLaw g o)
  | ServerEvent.returned n => inferInstanceAs (Decidable (g ≠ some EINTR ∧ (n = -1 -> _)))
  | ServerEvent.silent => isTrue trivial
  | ServerEvent.failed _ => isTrue trivial
  | ServerEvent.retried => isTrue trivial
  | ServerEvent.exited _ => isTrue trivial
  | ServerEvent.reaped _ => isTrue trivial

/-- The handler finds that there are no children, and the `errno` of an interrupted `msgrcv` is
still to be tested. -/
def wipes (e : ServerTransition) : Bool :=
  match e.action with
  | ServerAction.handler _ =>
      e.source.handler = some HandlerPc.waitpid ∧
        (e.source.pc = ServerPc.returned (-1) ∨ e.source.pc = ServerPc.testErrno) ∧
        e.source.errno = EINTR ∧
        Child.zombie ∉ e.source.children ∧ Child.running ∉ e.source.children
  | _ => false

def Untested (g : Option Errno) (errno : Errno) : Prop :=
  exists e, g = some e ∧ (errno = e ∨ errno = ECHILD)

def PlaceOf (g : Option Errno) (errno : Errno) : ServerPc -> Prop
  | ServerPc.returned n => (n = -1 -> Untested g errno) ∧ (n ≠ -1 -> g = none)
  | ServerPc.testErrno => Untested g errno
  | ServerPc.result n => n = -1 -> g.isSome = true
  | _ => g = none

/-- The error of an interrupted `msgrcv` is there until `Mesg_recv` has tested it. -/
structure Kept (g : Option Errno) (s : ServerState) : Prop where
  errno : g = some EINTR -> s.errno = EINTR
  result : forall n, s.pc = ServerPc.result n -> g ≠ some EINTR

section Steps

variable {s t : ServerState} {a : ServerAction} {o : ServerEvent} {g : Option Errno}

theorem placeOf_echild {errno : Errno} {pc : ServerPc} (h : PlaceOf g errno pc) :
    PlaceOf g ECHILD pc := by
  have huntested : Untested g errno -> Untested g ECHILD := by
    rintro ⟨e, he, _⟩
    exact ⟨e, he, Or.inr rfl⟩
  cases pc with
  | returned n => exact ⟨fun hn => huntested (h.1 hn), h.2⟩
  | testErrno => exact huntested h
  | _ => exact h

theorem mainStep_placed (hplaced : PlaceOf g s.errno s.pc) (h : s.mainStep = some (t, o)) :
    PlaceOf (lastFailure g o) t.errno t.pc := by
  unfold ServerState.mainStep at h
  split at h
  case h_1 hpc =>
    cases h
    rw [hpc] at hplaced
    exact hplaced
  case h_2 => cases h
  case h_3 =>
    cases h
    exact ⟨fun _ => ⟨EINTR, rfl, Or.inl rfl⟩, fun hn => absurd rfl hn⟩
  case h_4 n hpc =>
    rw [hpc] at hplaced
    split at h
    · rename_i hn
      cases h
      exact hplaced.1 hn
    · rename_i hn
      cases h
      exact fun hminus => absurd hminus hn
  case h_5 hpc =>
    rw [hpc] at hplaced
    split at h
    · cases h
      rfl
    · cases h
      rcases hplaced with ⟨e, he, _⟩
      intro _
      rw [show lastFailure g ServerEvent.silent = g from rfl, he]
      rfl
  case h_6 =>
    cases h
    rfl
  case h_7 n hpc =>
    cases h
    rw [hpc] at hplaced
    exact hplaced

theorem placed_step (hplaced : PlaceOf g s.errno s.pc) (h : serverStep s a = some (t, o)) :
    PlaceOf (lastFailure g o) t.errno t.pc := by
  cases serverStep_move h with
  | main hhandler hmain => exact mainStep_placed hplaced hmain
  | noChildren i hhandler hzombie hrunning => exact placeOf_echild hplaced
  | message n hready =>
      rw [hready.2.1] at hplaced
      have hn : (n : Int) ≠ -1 := by omega
      exact ⟨fun hminus => absurd hminus hn, fun _ => hplaced⟩
  | failure e hready => exact ⟨fun _ => ⟨e, rfl, Or.inl rfl⟩, fun hn => absurd rfl hn⟩
  | fork n hpc hready =>
      rw [hpc] at hplaced
      exact hplaced
  | interrupt hready hpc =>
      rw [hpc] at hplaced
      exact hplaced
  | _ => exact hplaced

theorem mainStep_kept (hplaced : PlaceOf g s.errno s.pc) (hkept : Kept g s)
    (h : s.mainStep = some (t, o)) : Kept (lastFailure g o) t ∧ RetryLaw g o := by
  unfold ServerState.mainStep at h
  split at h
  case h_1 =>
    cases h
    exact ⟨⟨hkept.errno, nofun⟩, trivial⟩
  case h_2 => cases h
  case h_3 =>
    cases h
    exact ⟨⟨fun _ => rfl, nofun⟩, trivial⟩
  case h_4 n hpc =>
    rw [hpc] at hplaced
    split at h
    · cases h
      exact ⟨⟨hkept.errno, nofun⟩, trivial⟩
    · rename_i hn
      cases h
      refine ⟨⟨hkept.errno, ?_⟩, trivial⟩
      intro _ _ hinterrupted
      exact absurd ((hplaced.2 hn).symm.trans hinterrupted) nofun
  case h_5 hpc =>
    split at h
    · cases h
      exact ⟨⟨nofun, nofun⟩, trivial⟩
    · rename_i herrno
      cases h
      refine ⟨⟨hkept.errno, ?_⟩, trivial⟩
      intro _ _ hinterrupted
      exact herrno (hkept.errno hinterrupted)
  case h_6 n hpc =>
    cases h
    rw [hpc] at hplaced
    exact ⟨⟨nofun, nofun⟩, hkept.result n hpc, hplaced⟩
  case h_7 =>
    cases h
    exact ⟨⟨hkept.errno, nofun⟩, trivial⟩

/-- An interrupted `msgrcv` is in doubt only until it has been tested. -/
theorem interrupted_place (hplaced : PlaceOf (some EINTR) s.errno s.pc)
    (hkept : Kept (some EINTR) s) :
    s.pc = ServerPc.returned (-1) ∨ s.pc = ServerPc.testErrno := by
  cases hpc : s.pc with
  | returned n =>
      rw [hpc] at hplaced
      by_cases hn : n = -1
      · rw [hn]
        exact Or.inl rfl
      · exact absurd (hplaced.2 hn) nofun
  | testErrno => exact Or.inr rfl
  | result n => exact absurd rfl (hkept.result n hpc)
  | _ =>
      rw [hpc] at hplaced
      cases hplaced

theorem kept_step (hplaced : PlaceOf g s.errno s.pc) (hkept : Kept g s)
    (hkeeps : wipes ⟨s, a, o, t⟩ = false) (h : serverStep s a = some (t, o)) :
    Kept (lastFailure g o) t ∧ RetryLaw g o := by
  have hquiet : t.errno = s.errno -> t.pc = s.pc -> Kept g t := by
    intro herrno hpc
    refine ⟨?_, ?_⟩
    · rw [herrno]
      exact hkept.errno
    · rw [hpc]
      exact hkept.result
  cases serverStep_move h with
  | main hhandler hmain => exact mainStep_kept hplaced hkept hmain
  | noChildren i hhandler hzombie hrunning =>
      refine ⟨⟨?_, hkept.result⟩, trivial⟩
      rintro rfl
      exact absurd ⟨hhandler, interrupted_place hplaced hkept, hkept.errno rfl, hzombie, hrunning⟩
        (of_decide_eq_false hkeeps)
  | message n hready => exact ⟨⟨hkept.errno, nofun⟩, trivial⟩
  | failure e hready => exact ⟨⟨fun he => Option.some.inj he, nofun⟩, trivial⟩
  | fork n hpc hready => exact ⟨⟨hkept.errno, nofun⟩, trivial⟩
  | interrupt hready hpc => exact ⟨⟨hkept.errno, nofun⟩, trivial⟩
  | _ => exact ⟨hquiet rfl rfl, trivial⟩

end Steps

/-!
## Whole runs
-/

theorem placed_run {tr : List ServerTransition} {s : ServerState}
    (hrun : Run ServerInit serverStep tr s) :
    PlaceOf (observed lastFailure none tr) s.errno s.pc := by
  refine run_induction
    (I := fun tr s => PlaceOf (observed lastFailure none tr) s.errno s.pc) ?_ ?_ hrun
  · intro s hs
    rw [hs.pc]
    rfl
  · intro tr s a o t _ hplaced hstep
    rw [observed_snoc]
    exact placed_step hplaced hstep

def ServerAction.own : ServerAction -> Bool
  | ServerAction.step => true
  | ServerAction.handler _ => true
  | _ => false

/-- Left to itself the server returns -1 from `Mesg_recv`, and no `msgrcv` fails before. -/
def ReturnsFailure (s : ServerState) : Prop :=
  exists front d u, Path serverStep s (front ++ [d]) u ∧
    (forall c, c ∈ front ++ [d] -> c.action.own = true) ∧
    (forall c, c ∈ front -> c.event = ServerEvent.silent) ∧ d.event = ServerEvent.returned (-1)

theorem returnsFailure_of_step {s t : ServerState} {a : ServerAction} (hown : a.own = true)
    (hstep : serverStep s a = some (t, ServerEvent.silent)) (ht : ReturnsFailure t) :
    ReturnsFailure s := by
  rcases ht with ⟨front, d, u, hpath, hall, hsilent, hd⟩
  refine ⟨⟨s, a, ServerEvent.silent, t⟩ :: front, d, u, path_cons hstep hpath, ?_, ?_, hd⟩
  · exact List.forall_mem_cons.mpr ⟨hown, hall⟩
  · exact List.forall_mem_cons.mpr ⟨rfl, hsilent⟩

theorem result_returns {s : ServerState} (hhandler : s.handler = none)
    (hpc : s.pc = ServerPc.result (-1)) : ReturnsFailure s := by
  have hstep : serverStep s ServerAction.step =
      some ({ s with pc := ServerPc.request (-1) }, ServerEvent.returned (-1)) := by
    simp only [serverStep, if_pos hhandler, ServerState.mainStep, hpc]
  refine ⟨[], ⟨s, ServerAction.step, ServerEvent.returned (-1), _⟩, _,
    Path.snoc Path.nil hstep, ?_, List.forall_mem_nil _, rfl⟩
  exact List.forall_mem_singleton.mpr rfl

theorem testErrno_returns {s : ServerState} (hhandler : s.handler = none)
    (hpc : s.pc = ServerPc.testErrno) (herrno : s.errno ≠ EINTR) : ReturnsFailure s := by
  have hstep : serverStep s ServerAction.step =
      some ({ s with pc := ServerPc.result (-1) }, ServerEvent.silent) := by
    simp only [serverStep, if_pos hhandler, ServerState.mainStep, hpc, if_neg herrno]
  exact returnsFailure_of_step rfl hstep (result_returns hhandler rfl)

theorem returned_returns {s : ServerState} (hhandler : s.handler = none)
    (hpc : s.pc = ServerPc.returned (-1)) (herrno : s.errno ≠ EINTR) : ReturnsFailure s := by
  have hstep : serverStep s ServerAction.step =
      some ({ s with pc := ServerPc.testErrno }, ServerEvent.silent) := by
    simp only [serverStep, if_pos hhandler, ServerState.mainStep, hpc, if_true]
  exact returnsFailure_of_step rfl hstep (testErrno_returns hhandler rfl herrno)

theorem wiped_returns {e : ServerTransition} (hwipes : wipes e = true)
    (hvalid : e.Valid serverStep) :
    e.event = ServerEvent.silent ∧ ReturnsFailure e.target := by
  rcases e with ⟨s, a, o, t⟩
  cases a with
  | handler i =>
      rcases of_decide_eq_true hwipes with ⟨hhandler, hpc, _, hzombie, hrunning⟩
      have hstep : serverStep s (ServerAction.handler i) = some (t, o) := hvalid
      cases serverStep_move hstep with
      | reap i _ hended => exact absurd (List.mem_of_getElem? hended) hzombie
      | noneEnded i _ _ hruns => exact absurd hruns hrunning
      | handled i hreturning => exact absurd (hhandler.symm.trans hreturning) (by decide)
      | noChildren i _ _ _ =>
          have hreturn : serverStep
              { s with handler := some HandlerPc.returning, errno := ECHILD }
              (ServerAction.handler i) =
                some ({ s with handler := none, errno := ECHILD }, ServerEvent.silent) := rfl
          have herrno : ECHILD ≠ EINTR := by decide
          refine ⟨rfl, returnsFailure_of_step rfl hreturn ?_⟩
          rcases hpc with hpc | hpc
          · exact returned_returns rfl hpc herrno
          · exact testErrno_returns rfl hpc herrno
  | _ => cases hwipes

theorem wiped_failure {e : ServerTransition} {g : Option Errno} (hwipes : wipes e = true)
    (hplaced : PlaceOf g e.source.errno e.source.pc) : g = some EINTR := by
  rcases e with ⟨s, a, o, t⟩
  cases a with
  | handler i =>
      rcases of_decide_eq_true hwipes with ⟨_, hpc, herrno, _, _⟩
      have huntested : Untested g s.errno := by
        rcases hpc with hpc | hpc
        · rw [show s.pc = ServerPc.returned (-1) from hpc] at hplaced
          exact hplaced.1 rfl
        · rw [show s.pc = ServerPc.testErrno from hpc] at hplaced
          exact hplaced
      rcases huntested with ⟨err, hg, hsame | hchild⟩
      · rw [hg, ← hsame, show s.errno = EINTR from herrno]
      · exact absurd (hchild.symm.trans herrno) (by decide)
  | _ => cases hwipes

theorem observed_silent {tr : List ServerTransition} (g : Option Errno)
    (h : forall e, e ∈ tr -> e.event = ServerEvent.silent) : observed lastFailure g tr = g := by
  induction tr with
  | nil => rfl
  | cons e tr ih =>
      rcases List.forall_mem_cons.mp h with ⟨he, htr⟩
      have hfirst : lastFailure g e.event = g := by
        rw [he]
        rfl
      change observed lastFailure (lastFailure g e.event) tr = g
      rw [hfirst]
      exact ih htr

/-- As long as no handler finds the server without children between the return of an interrupted
`msgrcv` and the test of its `errno`, the call is tried again, and -1 is returned for other errors
only; after a step of the other kind the server, left to itself, returns -1 for an interrupted
call. -/
theorem mesgRecv_retries_iff {tr : List ServerTransition} {s : ServerState}
    (hrun : Run ServerInit serverStep tr s) :
    ((forall e, e ∈ tr -> wipes e = false) ->
      AtEach lastFailure none RetryLaw tr ∧
        (observed lastFailure none tr = some EINTR -> s.errno = EINTR)) ∧
    forall tr₁ e tr₂, tr = tr₁ ++ e :: tr₂ -> wipes e = true ->
      exists tr' u, Path serverStep e.target tr' u ∧
        (forall d, d ∈ tr' -> d.action.own = true) ∧
        ¬ AtEach lastFailure none RetryLaw (tr₁ ++ e :: tr') := by
  constructor
  · intro hkeeps
    have hguard : AtEachStep lastFailure none (fun _ e => wipes e = false) tr := by
      rintro tr₁ e tr₂ rfl
      exact hkeeps e (by simp)
    have hinv : (PlaceOf (observed lastFailure none tr) s.errno s.pc ∧
        Kept (observed lastFailure none tr) s) ∧
          AtEachStep lastFailure none (fun g e => RetryLaw g e.event) tr := by
      refine run_observed_steps (I := fun g s => PlaceOf g s.errno s.pc ∧ Kept g s)
        ?_ ?_ hrun hguard
      · intro s hs
        rw [hs.pc]
        exact ⟨rfl, nofun, fun _ _ => nofun⟩
      · rintro g s a o t ⟨hplaced, hkept⟩ hkeep hstep
        rcases kept_step hplaced hkept hkeep hstep with ⟨hnext, hlaw⟩
        exact ⟨⟨placed_step hplaced hstep, hnext⟩, hlaw⟩
    exact ⟨hinv.2, hinv.1.2.errno⟩
  · rintro tr₁ e tr₂ rfl hwipes
    rcases run_split hrun with ⟨hbefore, hvalid, _⟩
    rcases wiped_returns hwipes hvalid with
      ⟨hevent, front, d, u, hpath, hown, hsilent, hd⟩
    refine ⟨front ++ [d], u, hpath, hown, ?_⟩
    intro hlaw
    have hopen : observed lastFailure none (tr₁ ++ e :: front) = some EINTR := by
      rw [observed_append, wiped_failure hwipes (placed_run hbefore)]
      exact observed_silent _ (List.forall_mem_cons.mpr ⟨hevent, hsilent⟩)
    have hlast := hlaw (tr₁ ++ e :: front) d [] (by simp)
    rw [hopen, hd] at hlast
    exact hlast.1 rfl

/-- The second signal comes before the interrupted call is tested, but the child runs on. -/
theorem mesgRecv_retries_iff_twoChildren :
    exists tr s, Run ServerInit serverStep tr s ∧
      tr.any (fun e => e.event = ServerEvent.retried) = true ∧
      s.pc = ServerPc.request 6 ∧ AtEach lastFailure none RetryLaw tr := by
  have hreplay : exists tr s, Run ServerInit serverStep tr s ∧
      decide (tr.any (fun e => e.event = ServerEvent.retried) = true ∧
        s.pc = ServerPc.request 6 ∧ forall e, e ∈ tr -> wipes e = false) = true :=
    run_of_replay
      ((List.replicate 2 (receives 5 ++ [ServerAction.fork])).flatten ++
        [ServerAction.step, ServerAction.stop 0, ServerAction.deliver, ServerAction.handler 0,
          ServerAction.handler 0, ServerAction.step, ServerAction.exit 1, ServerAction.deliver,
          ServerAction.handler 1, ServerAction.handler 0, ServerAction.handler 0,
          ServerAction.step, ServerAction.step] ++ receives 6)
      (init_serverStart ECHILD) (by decide +kernel)
  rcases hreplay with ⟨tr, s, hrun, htest⟩
  rcases of_decide_eq_true htest with ⟨hretried, hpc, hkeeps⟩
  exact ⟨tr, s, hrun, hretried, hpc, ((mesgRecv_retries_iff hrun).1 hkeeps).1⟩

def ServerEvent.failsOtherwise : ServerEvent -> Bool
  | ServerEvent.failed e => e ≠ EINTR
  | _ => false

/-- The first of two children terminates while the server waits, and the second behind the
interrupted call: `Mesg_recv` returns -1, though no `msgrcv` has failed with another error. -/
theorem interrupted_call_returned :
    exists tr s, Run ServerInit serverStep tr s ∧
      tr.any (fun e => e.event = ServerEvent.returned (-1)) = true ∧
      tr.any (fun e => e.event.failsOtherwise) = false ∧
      ¬ AtEach lastFailure none RetryLaw tr := by
  have hreplay : exists tr s, Run ServerInit serverStep tr s ∧
      decide (tr.any (fun e => e.event = ServerEvent.returned (-1)) = true ∧
        tr.any (fun e => e.event.failsOtherwise) = false ∧
        ¬ AtEach lastFailure none RetryLaw tr) = true :=
    run_of_replay
      ((List.replicate 2 (receives 5 ++ [ServerAction.fork])).flatten ++
        [ServerAction.step, ServerAction.exit 0, ServerAction.deliver, ServerAction.handler 0,
          ServerAction.handler 0, ServerAction.handler 0, ServerAction.step, ServerAction.exit 1,
          ServerAction.deliver, ServerAction.handler 1, ServerAction.handler 0,
          ServerAction.handler 0, ServerAction.step, ServerAction.step, ServerAction.step])
      (init_serverStart ECHILD) (by decide +kernel)
  rcases hreplay with ⟨tr, s, hrun, htest⟩
  rcases of_decide_eq_true htest with ⟨hreturned, hnone, hlaw⟩
  exact ⟨tr, s, hrun, hreturned, hnone, hlaw⟩

end Mpxnq
end Svmsg
end InterprocessComm
