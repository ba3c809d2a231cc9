import InterprocessComm.Lib.SignalledWorker
import InterprocessComm.Svmsg.Children

/-!
# No zombies are left

`sig_child` calls `waitpid` until it finds no child that has terminated.  Children may terminate at
any moment, also behind the last `waitpid`, and several of them may share one `SIGCHLD`.
-/

namespace InterprocessComm
namespace Svmsg
namespace Mpxnq

open Verification

/-!
## The handler as a worker
-/

def HandlerPc.working : HandlerPc -> Working
  | HandlerPc.waitpid => Working.looking
  | HandlerPc.returning => Working.leaving

namespace ServerState

/-- The jobs of the handler are the children that have terminated and are not reaped. -/
def worker (s : ServerState) : SignalledWorker Nat where
  jobs := { i | s.children[i]? = some Child.zombie }
  pending := s.pending
  working := s.handler.elim Working.idle HandlerPc.working

theorem jobs_eq_empty {s : ServerState} :
    s.worker.jobs = ∅ <-> Child.zombie ∉ s.children := by
  rw [Set.eq_empty_iff_forall_notMem, List.mem_iff_getElem?, not_exists]
  exact Iff.rfl

end ServerState

theorem forked_child (children : List Child) (i : Nat) :
    (children ++ [Child.running])[i]? = children[i]? ∨
      children[i]? = none ∧ (children ++ [Child.running])[i]? = some Child.running := by
  rcases Nat.lt_trichotomy i children.length with hlt | rfl | hgt
  · exact Or.inl (List.getElem?_append_left hlt)
  · exact Or.inr ⟨List.getElem?_eq_none le_rfl, List.getElem?_concat_length⟩
  · have hbehind : (children ++ [Child.running]).length ≤ i := by
      rw [List.length_append]
      exact hgt
    rw [List.getElem?_eq_none hgt.le, List.getElem?_eq_none hbehind]
    exact Or.inl rfl

theorem changed_child {children : List Child} {i : Nat} {c : Child} (c' : Child) (j : Nat)
    (hi : children[i]? = some c) :
    (children.set i c')[j]? = if i = j then some c' else children[j]? := by
  have hlt : i < children.length := (List.getElem?_eq_some_iff.mp hi).1
  rw [List.getElem?_set, if_pos hlt]

section Steps

variable {s t : ServerState} {a : ServerAction} {o : ServerEvent}

theorem mainStep_spec (h : s.mainStep = some (t, o)) :
    t.children = s.children ∧ t.handler = s.handler ∧ t.pending = s.pending ∧
      forall i, o ≠ ServerEvent.exited i ∧ o ≠ ServerEvent.reaped i := by
  unfold ServerState.mainStep at h
  split at h
  case h_2 => cases h
  case h_4 | h_5 =>
    split at h
    all_goals
      cases h
      exact ⟨rfl, rfl, rfl, fun i => ⟨nofun, nofun⟩⟩
  all_goals
    cases h
    exact ⟨rfl, rfl, rfl, fun i => ⟨nofun, nofun⟩⟩

theorem worker_step (h : serverStep s a = some (t, o)) :
    SignalledWorker.Step s.worker t.worker := by
  have hlooking : s.handler = some HandlerPc.waitpid -> s.worker.working = Working.looking := by
    intro hhandler
    simp [ServerState.worker, hhandler, HandlerPc.working]
  have hidle : s.handler = none -> s.worker.working = Working.idle := by
    intro hhandler
    simp [ServerState.worker, hhandler]
  cases serverStep_move h with
  | main hhandler hmain =>
      rcases mainStep_spec hmain with ⟨hchildren, hsame, hpending, _⟩
      have hsame : t.worker = s.worker := by
        simp only [ServerState.worker, hchildren, hsame, hpending]
      rw [hsame]
      exact SignalledWorker.Step.rest _
  | reap i hhandler hzombie =>
      refine SignalledWorker.Step.take _ (hlooking hhandler) ?_
      intro j hj
      have hset : (s.children.set i Child.reaped)[j]? = some Child.zombie := hj
      rw [changed_child _ j hzombie] at hset
      split at hset
      · cases hset
      · exact hset
  | noneEnded i hhandler hzombie hrunning =>
      exact SignalledWorker.Step.finish (hlooking hhandler)
        (ServerState.jobs_eq_empty.mpr hzombie)
  | noChildren i hhandler hzombie hrunning =>
      exact SignalledWorker.Step.finish (hlooking hhandler)
        (ServerState.jobs_eq_empty.mpr hzombie)
  | handled i hhandler =>
      refine SignalledWorker.Step.leave ?_
      simp [ServerState.worker, hhandler, HandlerPc.working]
  | fork n hpc hready =>
      have hjobs : { i : Nat | (s.children ++ [Child.running])[i]? = some Child.zombie } =
          { i : Nat | s.children[i]? = some Child.zombie } := by
        ext i
        change (s.children ++ [Child.running])[i]? = some Child.zombie <->
          s.children[i]? = some Child.zombie
        rcases forked_child s.children i with hsame | ⟨hnone, hrunning⟩
        · rw [hsame]
        · simp [hnone, hrunning]
      simp only [ServerState.worker, hjobs]
      exact SignalledWorker.Step.rest _
  | interrupt hready hpc => exact SignalledWorker.Step.start (hidle hready.2)
  | deliver hready hpc => exact SignalledWorker.Step.start (hidle hready.2)
  | exit i hrunning => exact SignalledWorker.Step.raise _
  | stop i hrunning => exact SignalledWorker.Step.raise _
  | message n hready => exact SignalledWorker.Step.rest _
  | failure e hready => exact SignalledWorker.Step.rest _

/-!
## What has happened to a child
-/

def terminations : Option Child -> Nat
  | some Child.zombie => 1
  | some Child.reaped => 1
  | _ => 0

def collections : Option Child -> Nat
  | some Child.reaped => 1
  | _ => 0

theorem child_step (h : serverStep s a = some (t, o)) (i : Nat) :
    terminations t.children[i]? =
        terminations s.children[i]? + (if o = ServerEvent.exited i then 1 else 0) ∧
      collections t.children[i]? =
        collections s.children[i]? + (if o = ServerEvent.reaped i then 1 else 0) := by
  have hquiet : t.children[i]? = s.children[i]? -> o ≠ ServerEvent.exited i ->
      o ≠ ServerEvent.reaped i ->
      terminations t.children[i]? =
          terminations s.children[i]? + (if o = ServerEvent.exited i then 1 else 0) ∧
        collections t.children[i]? =
          collections s.children[i]? + (if o = ServerEvent.reaped i then 1 else 0) := by
    intro hsame hexit hreap
    simp [hsame, hexit, hreap]
  cases serverStep_move h with
  | main hhandler hmain =>
      rcases mainStep_spec hmain with ⟨hchildren, _, _, hevent⟩
      exact hquiet (by rw [hchildren]) (hevent i).1 (hevent i).2
  | reap j hhandler hzombie =>
      rw [changed_child _ i hzombie]
      by_cases hij : j = i
      · subst hij
        simp [hzombie, terminations, collections]
      · simp [hij]
  | fork n hpc hready =>
      rcases forked_child s.children i with hsame | ⟨hnone, hrunning⟩
      · exact hquiet hsame nofun nofun
      · simp [hnone, hrunning, terminations, collections]
  | exit j hrunning =>
      rw [changed_child _ i hrunning]
      by_cases hij : j = i
      · subst hij
        simp [hrunning, terminations, collections]
      · simp [hij]
  | _ => exact hquiet rfl nofun nofun

end Steps

/-!
## Whole runs
-/

def exits (i : Nat) (tr : List ServerTransition) : Nat :=
  tr.countP fun e => e.event = ServerEvent.exited i

def reapings (i : Nat) (tr : List ServerTransition) : Nat :=
  tr.countP fun e => e.event = ServerEvent.reaped i

theorem counts_run {tr : List ServerTransition} {s : ServerState}
    (hrun : Run ServerInit serverStep tr s) (i : Nat) :
    exits i tr = terminations s.children[i]? ∧ reapings i tr = collections s.children[i]? := by
  refine run_induction (I := fun tr s => exits i tr = terminations s.children[i]? ∧
    reapings i tr = collections s.children[i]?) ?_ ?_ hrun
  · intro s hs
    rw [hs.children]
    exact ⟨rfl, rfl⟩
  · intro tr s a o t _ ⟨hexits, hreapings⟩ hstep
    rcases child_step hstep i with ⟨hterminations, hcollections⟩
    constructor
    · rw [hterminations, ← hexits]
      simp [exits, List.countP_append, List.countP_singleton]
    · rw [hcollections, ← hreapings]
      simp [reapings, List.countP_append, List.countP_singleton]

theorem worker_run {s : ServerState} (hs : Reachable ServerInit serverStep s) :
    s.worker.Inv := by
  refine reachable_invariant (I := fun s => s.worker.Inv) ?_ ?_ hs
  · intro s hs hjobs
    have hempty : s.worker.jobs = ∅ := by
      rw [ServerState.jobs_eq_empty, hs.children]
      exact List.not_mem_nil
    exact absurd hempty hjobs.ne_empty
  · intro s a o t hinv hstep
    exact (worker_step hstep).inv hinv

/-- A child that is no zombie has been reaped as often as it has terminated. -/
theorem terminations_eq_collections {c : Option Child} (h : c ≠ some Child.zombie) :
    terminations c = collections c := by
  rcases c with _ | c
  · rfl
  · cases c with
    | running => rfl
    | zombie => exact absurd rfl h
    | reaped => rfl

theorem collections_le_terminations (c : Option Child) :
    collections c ≤ terminations c ∧ terminations c ≤ 1 := by
  rcases c with _ | c
  · decide
  · cases c <;> decide

/-- When no signal is pending and the handler does not run there are no zombies, and what has
terminated has been reaped; no child terminates or is reaped twice, and none is reaped that has
not terminated. -/
theorem no_zombies {tr : List ServerTransition} {s : ServerState}
    (hrun : Run ServerInit serverStep tr s) :
    (s.pending = false -> s.handler = none ->
      Child.zombie ∉ s.children ∧ forall i, reapings i tr = exits i tr) ∧
    forall i, reapings i tr ≤ exits i tr ∧ exits i tr ≤ 1 := by
  constructor
  · intro hpending hhandler
    have hidle : s.worker.working = Working.idle := by
      simp [ServerState.worker, hhandler]
    have hnone : Child.zombie ∉ s.children :=
      ServerState.jobs_eq_empty.mp ((worker_run ⟨tr, hrun⟩).rests hpending hidle)
    refine ⟨hnone, ?_⟩
    intro i
    rcases counts_run hrun i with ⟨hexits, hreapings⟩
    rw [hexits, hreapings]
    refine (terminations_eq_collections ?_).symm
    intro hzombie
    exact hnone (List.mem_of_getElem? hzombie)
  · intro i
    rcases counts_run hrun i with ⟨hexits, hreapings⟩
    rw [hexits, hreapings]
    exact collections_le_terminations _

/-- Two children that terminate while `sig_child` runs for the first of three. -/
theorem no_zombies_threeChildren :
    exists tr s, Run ServerInit serverStep tr s ∧
      s.children = [Child.reaped, Child.reaped, Child.reaped] ∧
      Child.zombie ∉ s.children ∧ (forall i, reapings i tr = exits i tr) ∧
      forall i, reapings i tr ≤ exits i tr ∧ exits i tr ≤ 1 := by
  have hreplay : exists tr s, Run ServerInit serverStep tr s ∧
      decide (s.pending = false ∧ s.handler = none ∧
        s.children = [Child.reaped, Child.reaped, Child.reaped]) = true :=
    run_of_replay
      ((List.replicate 3 (receives 5 ++ [ServerAction.fork])).flatten ++
        [ServerAction.exit 1, ServerAction.deliver, ServerAction.handler 1,
          ServerAction.handler 0, ServerAction.exit 0, ServerAction.exit 2,
          ServerAction.handler 0, ServerAction.deliver, ServerAction.handler 2,
          ServerAction.handler 0, ServerAction.handler 0, ServerAction.handler 0])
      (init_serverStart EINTR) (by decide +kernel)
  rcases hreplay with ⟨tr, s, hrun, htest⟩
  rcases of_decide_eq_true htest with ⟨hpending, hhandler, hreaped⟩
  rcases no_zombies hrun with ⟨hrests, honce⟩
  rcases hrests hpending hhandler with ⟨hnone, hall⟩
  exact ⟨tr, s, hrun, hreaped, hnone, hall, honce⟩

end Mpxnq
end Svmsg
end InterprocessComm
