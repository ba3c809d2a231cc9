import InterprocessComm.SvSem.Initialization

/-!
# Calls that fail

The error label of `sem_open` removes the set whose id it has, whoever has created it.
-/

namespace InterprocessComm
namespace SvSem

open Verification

section Failures

variable {proc : Type} [DecidableEq proc]

def SvAction.opener : SvAction proc -> Option proc
  | syscall p _ => some p
  | _ => none

/-- A step of `sem_open` leaves the sets that this call has not created in existence and
with their values. -/
def KeepsFoundSets (h : SvHistory proc) (e : SvTransition proc) : Prop :=
  forall p, p ∈ e.action.opener ->
    forall id, id < e.source.kernel.next -> h.creator id ≠ some p ->
      (e.target.kernel.sets id).removed = (e.source.kernel.sets id).removed ∧
        (e.target.kernel.sets id).semval = (e.source.kernel.sets id).semval

instance (h : SvHistory proc) (e : SvTransition proc) : Decidable (KeepsFoundSets h e) := by
  unfold KeepsFoundSets
  infer_instance

/-- `IPC_STAT` or `malloc` is to fail, or the last poll has passed. -/
def SvOpenLoc.givesUp (l : SvOpenLoc) (fault : Option Errno) : Bool :=
  match l.pc with
  | SvOpenPc.stat => fault.isSome
  | SvOpenPc.sleep => decide (MAX_TRIES ≤ l.i + 1)
  | SvOpenPc.malloc => fault.isSome
  | _ => false

def failsOnFound (h : SvHistory proc) (e : SvTransition proc) : Bool :=
  match e.action with
  | SvAction.syscall p fault =>
      match e.source.calls p with
      | some l =>
          match l.semid with
          | some id =>
              decide (h.creator id ≠ some p) && !(e.source.kernel.sets id).removed &&
                l.givesUp fault
          | none => false
      | none => false
  | _ => false

/-!
## What a call knows of the set it may remove
-/

/-- The set that the error label would remove is the call's own, or it is gone. -/
def MayRemove (h : SvHistory proc) (k : Kernel) (p : proc) (semid : Option Nat) : Prop :=
  forall id, semid = some id ->
    h.creator id = some p ∨ id < k.next ∧ (k.sets id).removed = true

def SvOpenLoc.Found (h : SvHistory proc) (k : Kernel) (p : proc) (l : SvOpenLoc) : Prop :=
  match l.pc with
  | SvOpenPc.setval => True
  | SvOpenPc.initop => True
  | SvOpenPc.stat => forall id, l.semid = some id -> id < k.next
  | SvOpenPc.sleep => forall id, l.semid = some id -> id < k.next
  | SvOpenPc.malloc => True
  | SvOpenPc.rmid => MayRemove h k p l.semid
  | _ => l.semid = none

def SvAfter.Found (h : SvHistory proc) (k : Kernel) (p : proc) : SvAfter -> Prop
  | SvAfter.goes l => l.Found h k p
  | SvAfter.returns _ => True

structure FoundInv (h : SvHistory proc) (s : SvState proc) : Prop where
  known : SvInv h s
  key : forall n, s.kernel.key = some n -> n < s.kernel.next
  found : forall p l, s.calls p = some l -> l.Found h s.kernel p

variable {h h' : SvHistory proc} {k k' : Kernel} {p q : proc} {l : SvOpenLoc}

omit [DecidableEq proc] in
theorem MayRemove.of_none : MayRemove h k p none := by
  intro id hid
  cases hid

omit [DecidableEq proc] in
theorem err_found (e : Errno) (hmay : MayRemove h k p l.semid) : (l.err e).Found h k p := by
  unfold SvOpenLoc.err
  split
  · exact hmay
  · trivial

omit [DecidableEq proc] in
theorem tries_found (hlt : forall id, l.semid = some id -> id < k.next)
    (hmay : MAX_TRIES ≤ l.i -> MayRemove h k p l.semid) : l.tries.Found h k p := by
  unfold SvOpenLoc.tries
  split
  · exact hlt
  · exact err_found _ (hmay (by lia))

omit [DecidableEq proc] in
theorem SvOpenLoc.Found.frame (hf : l.Found h k q) (hnext : k.next ≤ k'.next)
    (hremoved : forall id, id < k.next -> (k.sets id).removed = true ->
      (k'.sets id).removed = true)
    (hcreator : forall id, h.creator id = some q -> h'.creator id = some q) :
    l.Found h' k' q := by
  unfold SvOpenLoc.Found at *
  cases hpc : l.pc with
  | stat =>
      rw [hpc] at hf
      intro id hid
      exact Nat.lt_of_lt_of_le (hf id hid) hnext
  | sleep =>
      rw [hpc] at hf
      intro id hid
      exact Nat.lt_of_lt_of_le (hf id hid) hnext
  | rmid =>
      rw [hpc] at hf
      intro id hid
      rcases hf id hid with hmine | ⟨hlt, hgone⟩
      · exact Or.inl (hcreator id hmine)
      · exact Or.inr ⟨Nat.lt_of_lt_of_le hlt hnext, hremoved id hlt hgone⟩
  | setval => trivial
  | initop => trivial
  | malloc => trivial
  | _ =>
      rw [hpc] at hf
      exact hf

omit [DecidableEq proc] in
theorem may_of_guard {fault : Option Errno} (hgives : l.givesUp fault = true)
    (hlt : forall id, l.semid = some id -> id < k.next)
    (hguard : forall id, l.semid = some id -> h.creator id ≠ some p ->
      (k.sets id).removed = false -> l.givesUp fault = false) :
    MayRemove h k p l.semid := by
  intro id hid
  by_cases hmine : h.creator id = some p
  · exact Or.inl hmine
  · right
    refine ⟨hlt id hid, ?_⟩
    cases hgone : (k.sets id).removed with
    | true => rfl
    | false =>
        rw [hguard id hid hmine hgone] at hgives
        cases hgives

theorem observe_openEvent_mine {c : Syscall} {r : SysResult} {id : Nat}
    (hmine : h.creator id = some p) : (h.observe (openEvent p c r)).creator id = some p := by
  unfold openEvent
  split
  · rename_i n
    show Function.update h.creator n (some p) id = some p
    by_cases hid : id = n
    · subst hid
      exact Function.update_self _ _ _
    · rw [Function.update_of_ne hid]
      exact hmine
  · unfold SvHistory.observe
    simp only
    split
    · exact hmine
    · exact hmine
  · unfold SvHistory.observe
    simp only
    split
    · exact hmine
    · exact hmine
  · exact hmine

/-- Where a call goes after a system call, it may remove only its own set. -/
theorem syscall_found {fresh : Nat -> Nat} {fault : Option Errno} {r : SysResult}
    (hkey : forall n, k.key = some n -> n < k.next) (hstage : l.Stage h k p)
    (hfound : l.Found h k p) (hexec : k.exec fresh (svOpenRequest l) fault = some (k', r))
    (hguard : forall id, l.semid = some id -> h.creator id ≠ some p ->
      (k.sets id).removed = false -> l.givesUp fault = false) :
    (svOpenNext l r).Found (h.observe (openEvent p (svOpenRequest l) r)) k' p := by
  rcases l with ⟨pc, args, semid, i, errno⟩
  have hown : forall {id : Nat}, semid = some id -> h.creator id = some p ->
      MayRemove (h.observe (openEvent p (svOpenRequest ⟨pc, args, semid, i, errno⟩) r)) k' p
        semid := by
    intro id hid hmine id' hid'
    rw [hid] at hid'
    cases hid'
    exact Or.inl (observe_openEvent_mine hmine)
  cases pc with
  | openFile =>
      cases r with
      | failed e => trivial
      | _ => exact hfound
  | closeFile => exact hfound
  | ftokNew =>
      cases r with
      | failed e => trivial
      | _ => exact hfound
  | semgetNew =>
      rcases exec_semgetExcl hexec with ⟨rfl, e, rfl⟩ | ⟨rfl, rfl⟩
      · simp only [svOpenNext]
        split
        · trivial
        · rfl
      · trivial
  | setval =>
      rcases hstage with ⟨id, hid, hcreating⟩
      have hmay := hown hid hcreating.creator
      cases r with
      | failed e => exact err_found e hmay
      | _ =>
          simp only [svOpenNext]
          split
          · exact err_found _ hmay
          · trivial
  | initop =>
      rcases hstage with ⟨id, hid, hcreating, _⟩
      cases r with
      | failed e => exact err_found e (hown hid hcreating.creator)
      | _ => trivial
  | ftokOld =>
      cases exec_quiet rfl hexec
      have hnone : semid = none := hfound
      subst hnone
      cases r with
      | failed e =>
          exact err_found (l := ⟨SvOpenPc.ftokOld, args, none, i, errno⟩) e MayRemove.of_none
      | _ => rfl
  | semgetOld =>
      cases exec_quiet rfl hexec
      cases r with
      | failed e =>
          exact err_found (l := ⟨SvOpenPc.semgetOld, args, none, i, errno⟩) e MayRemove.of_none
      | id n =>
          refine tries_found ?_ ?_
          · intro id hid
            cases hid
            exact hkey n (exec_semget_id hexec)
          · intro hle
            exact absurd hle (by simp [MAX_TRIES])
      | _ => trivial
  | stat =>
      rcases exec_stat hexec with ⟨rfl, ⟨e, rfl⟩ | ⟨n, hn, _, rfl⟩⟩
      · refine err_found (l := ⟨SvOpenPc.stat, args, semid, i, errno⟩) e ?_
        intro id hid
        by_cases hmine : h.creator id = some p
        · exact Or.inl hmine
        · right
          refine ⟨hfound id hid, ?_⟩
          cases hgone : (k'.sets id).removed with
          | true => rfl
          | false =>
              have hcalm := hguard id hid hmine hgone
              have hsemid : semid = some id := hid
              subst hsemid
              have hfault := exec_stat_failed (hfound id rfl) hgone hexec
              exact absurd (hcalm.symm.trans hfault) (by simp)
      · simp only [svOpenNext]
        split
        · trivial
        · exact hfound
  | sleep =>
      cases exec_quiet rfl hexec
      refine tries_found hfound ?_
      intro hlast
      exact may_of_guard (l := ⟨SvOpenPc.sleep, args, semid, i, errno⟩) (decide_eq_true hlast)
        hfound hguard
  | malloc =>
      cases exec_quiet rfl hexec
      cases r with
      | failed e =>
          refine err_found (l := ⟨SvOpenPc.malloc, args, semid, i, errno⟩) e ?_
          rcases hstage with ⟨id, hid, htrusted⟩
          have hgives : (⟨SvOpenPc.malloc, args, semid, i, errno⟩ : SvOpenLoc).givesUp fault =
              true := by
            cases fault with
            | some e => rfl
            | none => cases hexec
          refine may_of_guard (l := ⟨SvOpenPc.malloc, args, semid, i, errno⟩) hgives ?_ hguard
          intro id' hid'
          cases hid.symm.trans hid'
          exact htrusted.lt
      | _ => trivial
  | rmid => trivial

/-!
## Steps
-/

omit [DecidableEq proc] in
theorem exec_frame {fresh : Nat -> Nat} {fault : Option Errno} {c : Syscall} {r : SysResult}
    (hexec : k.exec fresh c fault = some (k', r)) (hf : l.Found h k q)
    (hcreator : forall id, h.creator id = some q -> h'.creator id = some q) :
    l.Found h' k' q := by
  refine hf.frame (exec_next hexec) ?_ hcreator
  intro id hlt hgone
  rcases exec_set hexec hlt with hsame | ⟨_, hthere⟩
  · rw [hsame]
    exact hgone
  · rw [hgone] at hthere
    cases hthere

omit [DecidableEq proc] in
theorem target_own {id : Nat} (hstage : l.Stage h k p) (hfound : l.Found h k p)
    (htarget : (svOpenRequest l).target = some id) (hthere : (k.sets id).removed = false) :
    h.creator id = some p := by
  rcases l with ⟨pc, args, semid, i, errno⟩
  cases pc with
  | setval =>
      rcases hstage with ⟨n, hn, hcreating⟩
      cases hn.symm.trans htarget
      exact hcreating.creator
  | initop =>
      rcases hstage with ⟨n, hn, hcreating, _⟩
      cases hn.symm.trans htarget
      exact hcreating.creator
  | rmid =>
      rcases hfound id htarget with hmine | ⟨_, hgone⟩
      · exact hmine
      · rw [hgone] at hthere
        cases hthere
  | _ => cases htarget

theorem syscall_foundInv {fresh : Nat -> Nat} {fault : Option Errno} {r : SysResult}
    {s : SvState proc} {after : Option SvOpenLoc} (hinv : FoundInv h s) (hl : s.calls p = some l)
    (hexec : s.kernel.exec fresh (svOpenRequest l) fault = some (k', r))
    (hcreator : forall q, q ≠ p -> forall id, h.creator id = some q -> h'.creator id = some q)
    (hafter : forall l', after = some l' -> l'.Found h' k' p) (q : proc) (l' : SvOpenLoc)
    (hcalls : Function.update s.calls p after q = some l') : l'.Found h' k' q := by
  by_cases hq : q = p
  · subst hq
    rw [Function.update_self] at hcalls
    exact hafter l' hcalls
  · rw [Function.update_of_ne hq] at hcalls
    exact exec_frame hexec (hinv.found q l' hcalls) (hcreator q hq)

omit [DecidableEq proc] in
theorem SvInv.creator_lt {s : SvState proc} (hinv : SvInv h s) {id : Nat}
    (hcreator : h.creator id = some p) : id < s.kernel.next := by
  by_contra hge
  rw [((hinv.sets id).unborn (by lia)).left] at hcreator
  cases hcreator

omit [DecidableEq proc] in
theorem key_lt {fresh : Nat -> Nat} {fault : Option Errno} {c : Syscall} {r : SysResult}
    (hkey : forall n, k.key = some n -> n < k.next)
    (hexec : k.exec fresh c fault = some (k', r)) (n : Nat) (hn : k'.key = some n) :
    n < k'.next := by
  rcases exec_key hexec with hsame | hnone | ⟨hnew, hnext⟩
  · rw [hsame] at hn
    exact Nat.lt_of_lt_of_le (hkey n hn) (exec_next hexec)
  · rw [hnone] at hn
    cases hn
  · rw [hnew] at hn
    cases hn
    lia

theorem observe_useEvent_creator (c : SvCall) (semid : Option Nat) (r : SysResult) :
    (h.observe (useEvent c semid r : SvEvent proc)).creator = h.creator := by
  unfold useEvent
  split
  · cases c with
    | post => rfl
    | wait => rfl
    | trywait => rfl
    | getvalue => rfl
  · rfl

theorem foundInv_syscall {fresh : Nat -> Nat} {fault : Option Errno} {s t : SvState proc}
    {o : SvEvent proc} (hinv : FoundInv h s)
    (hguard : failsOnFound h ⟨s, SvAction.syscall p fault, o, t⟩ = false)
    (hstep : svStep fresh s (SvAction.syscall p fault) = some (t, o)) :
    FoundInv (h.observe o) t ∧ KeepsFoundSets h ⟨s, SvAction.syscall p fault, o, t⟩ := by
  have hknown := (svStep_inv hinv.known hstep).left
  simp only [svStep] at hstep
  split at hstep
  · cases hstep
  · rename_i l hl
    rcases Option.map_eq_some_iff.mp hstep with ⟨⟨k', r⟩, hexec, hdone⟩
    have hstage := hinv.known.stage p l hl
    have hfound := hinv.found p l hl
    have hcalm : forall id, l.semid = some id -> h.creator id ≠ some p ->
        (s.kernel.sets id).removed = false -> l.givesUp fault = false := by
      intro id hid hmine hthere
      unfold failsOnFound at hguard
      simp only [hl, hid, hthere] at hguard
      have hthen : ¬ h.creator id = some p -> l.givesUp fault = false := by
        simpa using hguard
      exact hthen hmine
    have hnext := syscall_found hinv.key hstage hfound hexec hcalm
    have hok := syscall_ok hinv.known.sets (hinv.known.value p l hl) hstage hexec
    have hcreator : forall q, q ≠ p -> forall id, h.creator id = some q ->
        (h.observe (openEvent p (svOpenRequest l) r)).creator id = some q :=
      fun q hq id hq' => (hok.leaves q hq id (hinv.known.creator_lt hq') hq').left
    have hkeeps : t.kernel = k' ->
        KeepsFoundSets h ⟨s, SvAction.syscall p fault, o, t⟩ := by
      intro hkernel p' hp id hlt hmine
      cases hp
      simp only [hkernel]
      rcases exec_set hexec hlt with hsame | ⟨htarget, hthere⟩
      · rw [hsame]
        exact ⟨rfl, rfl⟩
      · exact absurd (target_own hstage hfound htarget hthere) hmine
    simp only at hdone
    split at hdone
    · rename_i l' hgoes
      cases hdone
      rw [hgoes] at hnext
      refine ⟨⟨hknown, key_lt hinv.key hexec, ?_⟩, hkeeps rfl⟩
      apply syscall_foundInv hinv hl hexec hcreator
      intro l'' hl''
      cases hl''
      exact hnext
    · rename_i sem hreturns
      cases hdone
      refine ⟨⟨hknown, key_lt hinv.key hexec, ?_⟩, hkeeps rfl⟩
      apply syscall_foundInv hinv hl hexec (fun _ _ _ hq => hq)
      intro l'' hl''
      cases hl''
    · rename_i e hreturns
      cases hdone
      refine ⟨⟨hknown, key_lt hinv.key hexec, ?_⟩, hkeeps rfl⟩
      apply syscall_foundInv hinv hl hexec (fun _ _ _ hq => hq)
      intro l'' hl''
      cases hl''

theorem foundInv_step {fresh : Nat -> Nat} {s t : SvState proc} {a : SvAction proc}
    {o : SvEvent proc} (hinv : FoundInv h s) (hguard : failsOnFound h ⟨s, a, o, t⟩ = false)
    (hstep : svStep fresh s a = some (t, o)) :
    FoundInv (h.observe o) t ∧ KeepsFoundSets h ⟨s, a, o, t⟩ := by
  have hknown := (svStep_inv hinv.known hstep).left
  have hother : a.opener = none -> KeepsFoundSets h ⟨s, a, o, t⟩ := by
    intro hnone p hp
    rw [Option.mem_def, hnone] at hp
    cases hp
  cases a with
  | call p a =>
      simp only [svStep] at hstep
      split at hstep
      · cases hstep
      · cases hstep
        refine ⟨⟨hknown, hinv.key, ?_⟩, hother rfl⟩
        intro q l hcalls
        have hl : Function.update s.calls p (some (svOpenStart a)) q = some l := hcalls
        by_cases hq : q = p
        · subst hq
          rw [Function.update_self] at hl
          cases hl
          unfold svOpenStart SvOpenLoc.Found
          cases a.o_creat with
          | true => rfl
          | false => rfl
        · rw [Function.update_of_ne hq] at hl
          refine (hinv.found q l hl).frame (Nat.le_refl _) (fun _ _ hgone => hgone) ?_
          intro id hcreator
          exact (called_leaves (k := s.kernel) hq id (hinv.known.creator_lt hcreator)
            hcreator).left
  | syscall p fault => exact foundInv_syscall hinv hguard hstep
  | use n c fault =>
      simp only [svStep] at hstep
      split at hstep
      · cases hstep
      · rename_i sem hsem
        split at hstep
        · cases hstep
          exact ⟨hinv, hother rfl⟩
        · rename_i request hrequest
          rcases Option.map_eq_some_iff.mp hstep with ⟨⟨k', r⟩, hexec, hdone⟩
          cases hdone
          refine ⟨⟨hknown, key_lt hinv.key hexec, ?_⟩, hother rfl⟩
          intro q l hl
          refine exec_frame hexec (hinv.found q l hl) ?_
          intro id hcreator
          rw [observe_useEvent_creator]
          exact hcreator
  | close n =>
      cases hstep
      exact ⟨⟨hknown, hinv.key, hinv.found⟩, hother rfl⟩
  | remove id =>
      rcases Option.map_eq_some_iff.mp hstep with ⟨⟨k', r⟩, hexec, hdone⟩
      cases hdone
      refine ⟨⟨hknown, key_lt hinv.key hexec, ?_⟩, hother rfl⟩
      intro q l hl
      exact exec_frame hexec (hinv.found q l hl) fun _ hcreator => hcreator

omit [DecidableEq proc] in
theorem foundInv_init {s : SvState proc} (hs : SvInit s) : FoundInv SvHistory.empty s := by
  refine ⟨svInv_init hs, ?_, ?_⟩
  · intro n hn
    rw [hs.key] at hn
    cases hn
  · intro p l hl
    rw [hs.calls p] at hl
    cases hl

/-- Where no call gives up on a set that it has only found and that still exists, no call
removes or changes a set that it has not created, and so none that fails does. -/
theorem failed_open_keeps_found_sets {fresh : Nat -> Nat} {tr : List (SvTransition proc)}
    {s : SvState proc} (hrun : Run SvInit (svStep fresh) tr s)
    (hguard : AtEachStep SvHistory.observe SvHistory.empty
      (fun h e => failsOnFound h e = false) tr) :
    AtEachStep SvHistory.observe SvHistory.empty KeepsFoundSets tr :=
  (run_observed_steps (I := FoundInv) (P := KeepsFoundSets) (fun _ hs => foundInv_init hs)
    (fun _ _ _ _ _ hinv hcalm hstep => foundInv_step hinv hcalm hstep) hrun hguard).right

end Failures

/-- A call whose value is too large removes the set it has made; then another call makes a
set and a third one finds it. -/
theorem failed_open_keeps_found_sets_twoProcesses :
    exists (tr : List (SvTransition (Fin 2))) (s : SvState (Fin 2)),
      (s.sems.length = 2 ∧ (s.kernel.sets 0).removed = true ∧ (s.kernel.sets 1).semval = 3) ∧
        AtEachStep SvHistory.observe SvHistory.empty KeepsFoundSets tr := by
  have hreplay : exists (tr : List (SvTransition (Fin 2))) (s : SvState (Fin 2)),
      Run SvInit (svStep fun _ => 0) tr s ∧
        decide (AtEachStep SvHistory.observe SvHistory.empty
            (fun h e => failsOnFound h e = false) tr ∧
          s.sems.length = 2 ∧ (s.kernel.sets 0).removed = true ∧
            (s.kernel.sets 1).semval = 3) = true :=
    run_of_replay
      ([SvAction.call 0 (creatWith 40000)] ++ openSteps 0 6 ++ [SvAction.call 0 (creatWith 3)] ++
        openSteps 0 7 ++ [SvAction.call 1 (creatWith 7)] ++ openSteps 1 8)
      (init_noSet (Fin 2)) (by decide +kernel)
  rcases hreplay with ⟨tr, s, hrun, htest⟩
  rcases of_decide_eq_true htest with ⟨hguard, hstate⟩
  exact ⟨tr, s, hstate, failed_open_keeps_found_sets hrun hguard⟩

def openFails (e : SvTransition (Fin 2)) : Bool :=
  match e.event with
  | SvEvent.returned _ (Except.error _) => true
  | _ => false

/-- The second call finds the first one's set, `malloc` fails, and the set is gone with its
value. -/
theorem found_set_removed_twoProcesses :
    exists (tr : List (SvTransition (Fin 2))) (s : SvState (Fin 2)),
      Run SvInit (svStep fun _ => 0) tr s ∧
        (tr.any openFails = true ∧ s.sems.length = 1 ∧ (s.kernel.sets 0).removed = true) ∧
        ¬ AtEachStep SvHistory.observe SvHistory.empty KeepsFoundSets tr := by
  have hreplay : exists (tr : List (SvTransition (Fin 2))) (s : SvState (Fin 2)),
      Run SvInit (svStep fun _ => 0) tr s ∧
        decide ((tr.any openFails = true ∧ s.sems.length = 1 ∧
            (s.kernel.sets 0).removed = true) ∧
          ¬ AtEachStep SvHistory.observe SvHistory.empty KeepsFoundSets tr) = true :=
    run_of_replay
      ([SvAction.call 0 (creatWith 3)] ++ openSteps 0 7 ++
        [SvAction.use 0 SvCall.post none, SvAction.call 1 (creatWith 7)] ++ openSteps 1 7 ++
        [SvAction.syscall 1 (some (Errno.other 12)), SvAction.syscall 1 none])
      (init_noSet (Fin 2)) (by decide +kernel)
  rcases hreplay with ⟨tr, s, hrun, htest⟩
  rcases of_decide_eq_true htest with ⟨hstate, hbroken⟩
  exact ⟨tr, s, hrun, hstate, hbroken⟩

end SvSem
end InterprocessComm
