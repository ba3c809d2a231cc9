import InterprocessComm.SvSem.Invariant

/-!
# Initialisation before use

The first successful `semop` on a set is the one of the call that created it, since the
others wait for `sem_otime` before they return a semaphore.  So nobody uses a set before
its creator has initialised it, and its value is always accounted for.
-/

namespace InterprocessComm
namespace SvSem

open Verification

/-!
## The steps of sem_open
-/

section Steps

variable {proc : Type} [DecidableEq proc] {h h' : SvHistory proc} {k k' : Kernel} {p q : proc}
  {l : SvOpenLoc} {id n : Nat}

def SvAfter.Ok (h : SvHistory proc) (k : Kernel) (p : proc) (args : SvOpenArgs) : SvAfter -> Prop
  | SvAfter.goes l => l.args = args ∧ l.Stage h k p
  | SvAfter.returns (Except.ok sem) => exists id, sem.sem_semid = some id ∧ Trusted k id
  | SvAfter.returns (Except.error _) => True

omit [DecidableEq proc] in
theorem err_ok {args : SvOpenArgs} (l : SvOpenLoc) (e : Errno) (hargs : l.args = args) :
    (l.err e).Ok h k p args := by
  unfold SvOpenLoc.err
  split
  · exact ⟨hargs, trivial⟩
  · trivial

omit [DecidableEq proc] in
theorem tries_ok {args : SvOpenArgs} (l : SvOpenLoc) (hargs : l.args = args) :
    l.tries.Ok h k p args := by
  unfold SvOpenLoc.tries
  split
  · exact ⟨hargs, trivial⟩
  · exact err_ok l _ hargs

/-- A system call of `sem_open` keeps what is known of the sets and of the other calls, and
the call goes on knowing its own. -/
structure SyscallOk (h h' : SvHistory proc) (k k' : Kernel) (p : proc) (l : SvOpenLoc)
    (r : SysResult) : Prop where
  sets : forall id, SetOk h' k' id
  grows : Grows k k'
  leaves : forall q, q ≠ p -> Leaves h h' k q
  next : (svOpenNext l r).Ok h' k' p l.args

theorem observe_openEvent_value (p : proc) (c : Syscall) (r : SysResult) (q : proc) :
    (h.observe (openEvent p c r)).value q = h.value q := by
  unfold openEvent
  split
  · rfl
  · unfold SvHistory.observe
    simp only
    split <;> rfl
  · unfold SvHistory.observe
    simp only
    split <;> rfl
  · rfl

omit [DecidableEq proc] in
theorem SyscallOk.quiet {r : SysResult} (hok : forall id, SetOk h k id) (hsame : SameSets k k')
    (hnext : (svOpenNext l r).Ok h k' p l.args) : SyscallOk h h k k' p l r :=
  ⟨fun id => (hok id).same hsame, hsame.grows, fun q _ => leaves_refl h k q, hnext⟩

omit [DecidableEq proc] in
theorem openEvent_failed (p : proc) (c : Syscall) (e : Errno) :
    openEvent p c (SysResult.failed e) = SvEvent.silent := by
  unfold openEvent
  split <;> first | rfl | (rename_i hr; cases hr)

theorem SyscallOk.failed {e : Errno} (hok : forall id, SetOk h k id)
    (hnext : (svOpenNext l (SysResult.failed e)).Ok h k p l.args) :
    SyscallOk h (h.observe (openEvent p (svOpenRequest l) (SysResult.failed e))) k k p l
      (SysResult.failed e) := by
  rw [openEvent_failed]
  exact SyscallOk.quiet hok (SameSets.refl k) hnext

theorem syscall_ok {fresh : Nat -> Nat} {fault : Option Errno} {r : SysResult}
    (hok : forall id, SetOk h k id) (hvalue : h.value p = some l.args.value)
    (hstage : l.Stage h k p) (hexec : k.exec fresh (svOpenRequest l) fault = some (k', r)) :
    SyscallOk h (h.observe (openEvent p (svOpenRequest l) r)) k k' p l r := by
  rcases l with ⟨pc, args, semid, i, errno⟩
  cases pc with
  | openFile =>
      cases exec_quiet rfl hexec
      apply SyscallOk.quiet hok (SameSets.refl k)
      cases r with
      | failed e => trivial
      | _ => exact ⟨rfl, trivial⟩
  | closeFile =>
      cases exec_quiet rfl hexec
      exact SyscallOk.quiet hok (SameSets.refl k) ⟨rfl, trivial⟩
  | ftokNew =>
      cases exec_quiet rfl hexec
      apply SyscallOk.quiet hok (SameSets.refl k)
      cases r with
      | failed e => trivial
      | _ => exact ⟨rfl, trivial⟩
  | semgetNew =>
      rcases exec_semgetExcl hexec with ⟨rfl, e, rfl⟩ | ⟨rfl, rfl⟩
      · apply SyscallOk.quiet hok (SameSets.refl _)
        simp only [svOpenNext]
        split
        · trivial
        · exact ⟨rfl, trivial⟩
      · exact ⟨created_sets hok, created_grows, fun q _ => created_leaves q,
          rfl, _, rfl, created_creating hok⟩
  | setval =>
      rcases hstage with ⟨id, hid, hcreating⟩
      rcases exec_setval hexec with ⟨rfl, e, rfl⟩ | ⟨n, hn, hlt, rfl, rfl⟩
      · apply SyscallOk.failed hok
        exact err_ok ⟨SvOpenPc.setval, args, semid, i, errno⟩ e rfl
      · cases hid.symm.trans hn
        cases hid
        refine ⟨zeroed_sets hok hcreating, grows_update fun ho => ho,
          fun q _ => zeroed_leaves hcreating q, ?_⟩
        simp only [svOpenNext]
        split
        · exact ⟨rfl, trivial⟩
        · have hleaves := zeroed_leaves hcreating p
          refine ⟨rfl, id, rfl, hcreating.frame (grows_update fun ho => ho) hleaves, ?_⟩
          show (h.observe (SvEvent.zeroed p id)).zeroed id = true
          rw [observe_zeroed hcreating.creator]
          exact Function.update_self _ _ _
  | initop =>
      rcases hstage with ⟨id, hid, hcreating, hzeroed⟩
      rcases exec_semop hexec with ⟨rfl, e, rfl⟩ | ⟨n, x, hn, hlt, rfl, rfl, hx, hotime⟩
      · apply SyscallOk.failed hok
        exact err_ok ⟨SvOpenPc.initop, args, semid, i, errno⟩ e rfl
      · cases hid.symm.trans hn
        cases hid
        have hgrows : Grows k (k.update id x) := grows_update fun _ => hotime
        refine ⟨incremented_sets hok hcreating hzeroed hvalue hx, hgrows,
          fun q hq => incremented_leaves hcreating hzeroed hq, rfl, id, rfl, hlt, ?_⟩
        exact (congrArg SemSet.otime (Function.update_self id x k.sets)).trans hotime
  | ftokOld =>
      cases exec_quiet rfl hexec
      apply SyscallOk.quiet hok (SameSets.refl k)
      cases r with
      | failed e => exact err_ok _ e rfl
      | _ => exact ⟨rfl, trivial⟩
  | semgetOld =>
      cases exec_quiet rfl hexec
      apply SyscallOk.quiet hok (SameSets.refl k)
      cases r with
      | failed e => exact err_ok ⟨SvOpenPc.semgetOld, args, none, i, errno⟩ e rfl
      | id n => exact tries_ok _ rfl
      | _ => trivial
  | stat =>
      rcases exec_stat hexec with ⟨rfl, ⟨e, rfl⟩ | ⟨n, hn, hlt, rfl⟩⟩
      · apply SyscallOk.quiet hok (SameSets.refl _)
        exact err_ok ⟨SvOpenPc.stat, args, semid, i, errno⟩ e rfl
      · apply SyscallOk.quiet hok (SameSets.refl _)
        simp only [svOpenNext]
        split
        · rename_i hotime
          exact ⟨rfl, n, hn, hlt, hotime⟩
        · exact ⟨rfl, trivial⟩
  | sleep =>
      cases exec_quiet rfl hexec
      exact SyscallOk.quiet hok (SameSets.refl k) (tries_ok _ rfl)
  | malloc =>
      cases exec_quiet rfl hexec
      apply SyscallOk.quiet hok (SameSets.refl k)
      cases r with
      | failed e => exact err_ok _ e rfl
      | _ => exact hstage
  | rmid => exact SyscallOk.quiet hok (exec_rmid hexec) trivial

omit [DecidableEq proc] in
theorem openEvent_returns {r : SysResult} {ret : Except Errno SemT}
    (h : svOpenNext l r = SvAfter.returns ret) :
    openEvent p (svOpenRequest l) r = SvEvent.silent := by
  rcases l with ⟨pc, args, semid, i, errno⟩
  cases r with
  | failed e => exact openEvent_failed p _ e
  | _ =>
      cases pc with
      | semgetNew =>
          first
          | rfl
          | cases h
      | setval =>
          cases semid with
          | none => rfl
          | some n =>
              simp only [svOpenNext, SvOpenLoc.err] at h
              split at h <;> cases h
      | initop => cases h
      | _ => rfl

/-!
## The steps
-/

omit [DecidableEq proc] in
theorem svInv_init {s : SvState proc} (hs : SvInit s) : SvInv SvHistory.empty s := by
  constructor
  · intro id
    constructor
    · intro hlt
      rw [hs.next] at hlt
      exact absurd hlt (Nat.not_lt_zero id)
    · intro hsome
      cases hsome
    · intro v hv
      cases hv
    · intro _
      exact ⟨rfl, rfl⟩
    · intro _ hzero
      cases hzero
    · intro _
      exact ⟨rfl, rfl, rfl⟩
  · intro p l hl
    rw [hs.calls p] at hl
    cases hl
  · intro p l hl
    rw [hs.calls p] at hl
    cases hl
  · intro sem hsem
    rw [hs.sems] at hsem
    cases hsem

theorem called_sets {v : Nat} (hok : forall id, SetOk h k id) (id : Nat) :
    SetOk (h.observe (SvEvent.called p v)) k id := by
  rcases hok id with ⟨ok₁, ok₂, ok₃, ok₄, ok₅, ok₆⟩
  refine ⟨ok₁, ok₂, ok₃, ok₄, ok₅, ?_⟩
  intro hle
  rcases ok₆ hle with ⟨hcreator, hrest⟩
  refine ⟨?_, hrest⟩
  show (if h.creator id = some p then none else h.creator id) = none
  rw [hcreator]
  exact if_neg (by simp)

theorem called_leaves {v : Nat} (hq : q ≠ p) : Leaves h (h.observe (SvEvent.called p v)) k q := by
  intro id _ hcreator
  refine ⟨?_, fun hi => hi, fun hz => hz⟩
  show (if h.creator id = some p then none else h.creator id) = some q
  rw [if_neg]
  · exact hcreator
  · intro hp
    exact hq (Option.some.inj (hcreator.symm.trans hp))

omit [DecidableEq proc] in
theorem start_stage (a : SvOpenArgs) : (svOpenStart a).Stage h k p := by
  unfold svOpenStart SvOpenLoc.Stage
  cases a.o_creat with
  | true => trivial
  | false => trivial

theorem call_inv {s : SvState proc} (hinv : SvInv h s) (a : SvOpenArgs) :
    SvInv (h.observe (SvEvent.called p a.value))
      { s with calls := Function.update s.calls p (some (svOpenStart a)) } := by
  apply hinv.step
  · exact called_sets hinv.sets
  · exact (SameSets.refl _).grows
  · intro q l hl
    by_cases hq : q = p
    · subst hq
      rw [Function.update_self] at hl
      cases hl
      exact Or.inr ⟨Function.update_self _ _ _, start_stage a⟩
    · rw [Function.update_of_ne hq] at hl
      exact Or.inl ⟨hl, called_leaves hq, Function.update_of_ne hq _ _⟩
  · intro sem hsem
    exact Or.inl ⟨sem, hsem, rfl⟩

theorem syscall_other {s : SvState proc} {after : Option SvOpenLoc} {r : SysResult}
    (hdone : SyscallOk h h' s.kernel k' p l r) (hvalue : h'.value = h.value)
    (hafter : forall l', after = some l' -> h'.value p = some l'.args.value ∧ l'.Stage h' k' p)
    (q : proc) (l' : SvOpenLoc) (hl : Function.update s.calls p after q = some l') :
    (s.calls q = some l' ∧ Leaves h h' s.kernel q ∧ h'.value q = h.value q) ∨
      (h'.value q = some l'.args.value ∧ l'.Stage h' k' q) := by
  by_cases hq : q = p
  · subst hq
    rw [Function.update_self] at hl
    exact Or.inr (hafter l' hl)
  · rw [Function.update_of_ne hq] at hl
    exact Or.inl ⟨hl, hdone.leaves q hq, congrFun hvalue q⟩

omit [DecidableEq proc] in
/-- A semaphore with a set on which a `semop` has succeeded is initialised. -/
theorem Trusted.initialised (ht : Trusted k id) (hok : forall id, SetOk h k id) :
    h.zeroed id = true ∧ (h.initial id).isSome = true := by
  have hsome := (hok id).initialised ht.lt ht.otime
  exact ⟨(hok id).zeroed hsome, hsome⟩

omit [DecidableEq proc] in
theorem openEvent_first (h : SvHistory proc) (p : proc) (c : Syscall) (r : SysResult) :
    InitialisedFirst h (openEvent p c r) := by
  unfold openEvent
  split <;> trivial

theorem goes_inv {fresh : Nat -> Nat} {fault : Option Errno} {r : SysResult} {s : SvState proc}
    {l' : SvOpenLoc} (hinv : SvInv h s) (hl : s.calls p = some l)
    (hexec : s.kernel.exec fresh (svOpenRequest l) fault = some (k', r))
    (hgoes : svOpenNext l r = SvAfter.goes l') :
    SvInv (h.observe (openEvent p (svOpenRequest l) r))
      { s with kernel := k', calls := Function.update s.calls p (some l') } := by
  have hdone := syscall_ok hinv.sets (hinv.value p l hl) (hinv.stage p l hl) hexec
  have hvalue := funext (observe_openEvent_value (h := h) p (svOpenRequest l) r)
  have hnext := hdone.next
  rw [hgoes] at hnext
  rcases hnext with ⟨hargs, hstage⟩
  apply hinv.step hdone.sets hdone.grows
  · apply syscall_other hdone hvalue
    intro l'' hl''
    cases hl''
    refine ⟨?_, hstage⟩
    rw [hvalue, hargs]
    exact hinv.value p l hl
  · intro sem hsem
    exact Or.inl ⟨sem, hsem, rfl⟩

theorem returns_inv {fresh : Nat -> Nat} {fault : Option Errno} {r : SysResult} {s : SvState proc}
    {ret : Except Errno SemT} {sems' : List SemT} (hinv : SvInv h s) (hl : s.calls p = some l)
    (hexec : s.kernel.exec fresh (svOpenRequest l) fault = some (k', r))
    (hreturns : svOpenNext l r = SvAfter.returns ret)
    (hsems : forall sem, sem ∈ sems' -> sem ∈ s.sems ∨ ret = Except.ok sem) :
    SvInv h { kernel := k', calls := Function.update s.calls p none, sems := sems' } ∧
      InitialisedFirst h (SvEvent.returned p ret) := by
  have hdone := syscall_ok hinv.sets (hinv.value p l hl) (hinv.stage p l hl) hexec
  rw [openEvent_returns hreturns] at hdone
  have hnext := hdone.next
  rw [hreturns] at hnext
  constructor
  · apply hinv.step hdone.sets hdone.grows
    · apply syscall_other hdone rfl
      intro l'' hl''
      cases hl''
    · intro sem hsem
      rcases hsems sem hsem with hold | rfl
      · exact Or.inl ⟨sem, hold, rfl⟩
      · exact Or.inr hnext
  · cases ret with
    | error e => trivial
    | ok sem =>
        rcases hnext with ⟨id, hid, htrusted⟩
        exact ⟨id, hid, htrusted.initialised hdone.sets⟩

theorem used_inv {s : SvState proc} {x : SemSet} {op : Int} {o : SvEvent proc}
    (hinv : SvInv h s) (ht : Trusted s.kernel n)
    (hx : (x.semval : Int) = (s.kernel.sets n).semval + op) (hotime : x.otime = true)
    (ho : (o = SvEvent.posted n ∧ op = 1) ∨ (o = SvEvent.waited n ∧ op = -1)) :
    SvInv (h.observe o) { s with kernel := s.kernel.update n x } ∧ InitialisedFirst h o := by
  have hknown := ht.initialised hinv.sets
  rcases ho with ⟨rfl, rfl⟩ | ⟨rfl, rfl⟩
  · refine ⟨?_, hknown⟩
    have hself : Function.update h.posts n (h.posts n + 1) n = h.posts n + 1 :=
      Function.update_self _ _ _
    apply hinv.step
    · refine used_sets (h.observe (SvEvent.posted n)) hinv.sets ht hx ?_ rfl rfl rfl ?_
      · intro id hid
        exact ⟨Function.update_of_ne hid _ _, rfl⟩
      · simp only [SvHistory.observe, hself]
        lia
    · exact grows_update fun _ => hotime
    · intro q l hl
      exact Or.inl ⟨hl, leaves_refl _ _ _, rfl⟩
    · intro sem hsem
      exact Or.inl ⟨sem, hsem, rfl⟩
  · refine ⟨?_, hknown⟩
    have hself : Function.update h.waits n (h.waits n + 1) n = h.waits n + 1 :=
      Function.update_self _ _ _
    apply hinv.step
    · refine used_sets (h.observe (SvEvent.waited n)) hinv.sets ht hx ?_ rfl rfl rfl ?_
      · intro id hid
        exact ⟨rfl, Function.update_of_ne hid _ _⟩
      · simp only [SvHistory.observe, hself]
        lia
    · exact grows_update fun _ => hotime
    · intro q l hl
      exact Or.inl ⟨hl, leaves_refl _ _ _, rfl⟩
    · intro sem hsem
      exact Or.inl ⟨sem, hsem, rfl⟩

theorem use_semop_inv {fresh : Nat -> Nat} {fault : Option Errno} {r : SysResult}
    {s : SvState proc} {c : SvCall} {op : Int} {nowait : Bool} (hinv : SvInv h s)
    (ht : Trusted s.kernel n)
    (hexec : s.kernel.exec fresh (Syscall.semop (some n) op nowait) fault = some (k', r))
    (hc : (useEvent c (some n) SysResult.ok = (SvEvent.posted n : SvEvent proc) ∧ op = 1) ∨
      (useEvent c (some n) SysResult.ok = (SvEvent.waited n : SvEvent proc) ∧ op = -1)) :
    SvInv (h.observe (useEvent c (some n) r : SvEvent proc)) { s with kernel := k' } ∧
      InitialisedFirst h (useEvent c (some n) r : SvEvent proc) := by
  rcases exec_semop hexec with ⟨rfl, e, rfl⟩ | ⟨id, x, hid, _, rfl, rfl, hx, hotime⟩
  · exact ⟨hinv, trivial⟩
  · cases hid
    exact used_inv hinv ht hx hotime hc

theorem use_inv {fresh : Nat -> Nat} {fault : Option Errno} {r : SysResult} {s : SvState proc}
    {sem : SemT} {c : SvCall} {request : Syscall} (hinv : SvInv h s) (hsem : sem ∈ s.sems)
    (hrequest : c.request sem = some request)
    (hexec : s.kernel.exec fresh request fault = some (k', r)) :
    SvInv (h.observe (useEvent c sem.sem_semid r : SvEvent proc)) { s with kernel := k' } ∧
      InitialisedFirst h (useEvent c sem.sem_semid r : SvEvent proc) := by
  rcases hinv.sems sem hsem with ⟨id, hid, htrusted⟩
  unfold SvCall.request at hrequest
  rw [hid] at hrequest ⊢
  split at hrequest
  · cases hrequest
  · cases c with
    | post =>
        cases hrequest
        exact use_semop_inv hinv htrusted hexec (Or.inl ⟨rfl, rfl⟩)
    | wait =>
        cases hrequest
        exact use_semop_inv hinv htrusted hexec (Or.inr ⟨rfl, rfl⟩)
    | trywait =>
        cases hrequest
        exact use_semop_inv hinv htrusted hexec (Or.inr ⟨rfl, rfl⟩)
    | getvalue =>
        cases hrequest
        cases exec_quiet rfl hexec
        cases r with
        | ok => exact ⟨hinv, trivial⟩
        | _ => exact ⟨hinv, trivial⟩

omit [DecidableEq proc] in
theorem mem_close {sems : List SemT} {i : Nat} {sem : SemT} (h : sem ∈ sems.modify i svClose) :
    exists old, old ∈ sems ∧ sem.sem_semid = old.sem_semid := by
  rcases List.mem_iff_getElem?.mp h with ⟨j, hj⟩
  rw [List.getElem?_modify] at hj
  rcases Option.map_eq_some_iff.mp hj with ⟨old, hold, hsem⟩
  refine ⟨old, List.mem_of_getElem? hold, ?_⟩
  split at hsem <;> cases hsem <;> rfl

end Steps

/-!
## Whole runs
-/

section Runs

variable {proc : Type} [DecidableEq proc]

theorem svStep_inv {fresh : Nat -> Nat} {h : SvHistory proc} {s t : SvState proc}
    {a : SvAction proc} {o : SvEvent proc} (hinv : SvInv h s)
    (hstep : svStep fresh s a = some (t, o)) :
    SvInv (h.observe o) t ∧ InitialisedFirst h o := by
  cases a with
  | call p a =>
      simp only [svStep] at hstep
      split at hstep
      · cases hstep
      · cases hstep
        exact ⟨call_inv hinv a, trivial⟩
  | syscall p fault =>
      simp only [svStep] at hstep
      split at hstep
      · cases hstep
      · rename_i l hl
        rcases Option.map_eq_some_iff.mp hstep with ⟨⟨k', r⟩, hexec, hdone⟩
        simp only at hdone
        split at hdone
        · rename_i l' hgoes
          cases hdone
          exact ⟨goes_inv hinv hl hexec hgoes, openEvent_first h p _ r⟩
        · rename_i sem hreturns
          cases hdone
          apply returns_inv hinv hl hexec hreturns
          intro sem' hsem'
          rcases List.mem_append.mp hsem' with hold | hnew
          · exact Or.inl hold
          · rw [List.mem_singleton] at hnew
            exact Or.inr (congrArg Except.ok hnew.symm)
        · rename_i e hreturns
          cases hdone
          apply returns_inv hinv hl hexec hreturns
          intro sem hsem
          exact Or.inl hsem
  | use n c fault =>
      simp only [svStep] at hstep
      split at hstep
      · cases hstep
      · rename_i sem hsem
        split at hstep
        · cases hstep
          exact ⟨hinv, trivial⟩
        · rename_i request hrequest
          rcases Option.map_eq_some_iff.mp hstep with ⟨⟨k', r⟩, hexec, hdone⟩
          cases hdone
          exact use_inv hinv (List.mem_of_getElem? hsem) hrequest hexec
  | close n =>
      cases hstep
      refine ⟨?_, trivial⟩
      apply hinv.step hinv.sets (SameSets.refl _).grows
      · intro q l hl
        exact Or.inl ⟨hl, leaves_refl _ _ _, rfl⟩
      · intro sem hsem
        exact Or.inl (mem_close hsem)
  | remove id =>
      rcases Option.map_eq_some_iff.mp hstep with ⟨⟨k', r⟩, hexec, hdone⟩
      cases hdone
      have hsame := exec_rmid hexec
      refine ⟨?_, trivial⟩
      apply hinv.step (fun id => (hinv.sets id).same hsame) hsame.grows
      · intro q l hl
        exact Or.inl ⟨hl, leaves_refl _ _ _, rfl⟩
      · intro sem hsem
        exact Or.inl ⟨sem, hsem, rfl⟩

/-- `sem_open` returns a semaphore only when the set is initialised, no post or wait takes
effect before, and the value is the creator's plus the posts minus the waits. -/
theorem initialised_before_use {fresh : Nat -> Nat}
    {tr : List (SvTransition proc)} {s : SvState proc} (hrun : Run SvInit (svStep fresh) tr s) :
    AtEach SvHistory.observe SvHistory.empty InitialisedFirst tr ∧
      CountsValue (observed SvHistory.observe SvHistory.empty tr) s := by
  rcases run_observed (I := SvInv) (fun s hs => svInv_init hs)
    (fun _ s _ _ _ hinv (_ : True) hstep => svStep_inv hinv hstep) hrun
    (fun _ _ _ _ => trivial) with ⟨hinv, hfirst⟩
  exact ⟨hfirst, fun id v hv => (hinv.sets id).value v hv⟩

end Runs

def noSet (proc : Type) : SvState proc :=
  { kernel := { key := none, sets := fun _ => { semval := 0, otime := false, removed := false },
                next := 0 },
    calls := fun _ => none, sems := [] }

theorem init_noSet (proc : Type) : SvInit (noSet proc) :=
  ⟨rfl, rfl, fun _ => rfl, rfl⟩

def creatWith (value : Nat) : SvOpenArgs :=
  { o_creat := true, o_excl := false, value := value }

def openSteps (p : Fin 2) (count : Nat) : List (SvAction (Fin 2)) :=
  List.replicate count (SvAction.syscall p none)

/-- The second opener finds the set before its creator has incremented it, and waits; then
two are posted and one is taken. -/
theorem initialised_before_use_twoProcesses :
    exists (tr : List (SvTransition (Fin 2))) (s : SvState (Fin 2)),
      s.sems.length = 2 ∧ (s.kernel.sets 0).semval = 4 ∧
        AtEach SvHistory.observe SvHistory.empty InitialisedFirst tr ∧
        CountsValue (observed SvHistory.observe SvHistory.empty tr) s := by
  have hreplay : exists (tr : List (SvTransition (Fin 2))) (s : SvState (Fin 2)),
      Run SvInit (svStep fun _ => 0) tr s ∧
        decide (s.sems.length = 2 ∧ (s.kernel.sets 0).semval = 4) = true :=
    run_of_replay
      ([SvAction.call 0 (creatWith 3)] ++ openSteps 0 5 ++ [SvAction.call 1 (creatWith 7)] ++
        openSteps 1 7 ++ openSteps 0 2 ++ openSteps 1 3 ++
        [SvAction.use 0 SvCall.post none, SvAction.use 1 SvCall.wait none,
         SvAction.use 0 SvCall.post none])
      (init_noSet (Fin 2)) (by decide +kernel)
  rcases hreplay with ⟨tr, s, hrun, htest⟩
  rcases of_decide_eq_true htest with ⟨hsems, hvalue⟩
  exact ⟨tr, s, hsems, hvalue, initialised_before_use hrun⟩

end SvSem
end InterprocessComm
