import InterprocessComm.SvSem.Keys

/-!
# Unlinking

`sem_open` makes its key with the project number 0 and `sem_unlink` with 1.  So the key of
`sem_unlink` denotes no set: it removes the pathname, fails, and leaves the set behind.
-/

namespace InterprocessComm
namespace SvSem

open Verification

section Unlinking

variable {proc path file key : Type}

/-- Keys made with different project numbers of one byte differ. -/
def ProjectsApart (ftok : file -> Nat -> key) : Prop :=
  forall f g i j, i < 256 -> j < 256 -> ftok f i = ftok g j -> i = j

def OpensCreat (name : path) (e : KeyTransition proc path file key) (a : SvOpenArgs)
    (sem : SemT) : Prop :=
  a.o_creat = true ∧ exists p, e.event = KeyEvent.opened p name a (Except.ok sem)

/-- What is expected of a `sem_unlink` of `name` that returns `ret` in the transition `e`,
with what was done before and will be done after it. -/
structure UnlinkLaw (name : path) (ret : Option Errno)
    (tr₁ : List (KeyTransition proc path file key)) (e : KeyTransition proc path file key)
    (tr₂ : List (KeyTransition proc path file key)) : Prop where
  returnsZero : ret = none
  removes : forall d p id, d ∈ tr₁ -> d.event = KeyEvent.created p name id ->
    (e.target.kernel.sets id).removed = true
  renews : forall mid d rest a sem id, tr₂ = mid ++ d :: rest -> OpensCreat name d a sem ->
    (forall c, c ∈ mid -> forall a sem, ¬ OpensCreat name c a sem) ->
      sem.sem_semid = some id -> (d.target.kernel.sets id).semval = a.value

/-!
## Keys
-/

/-- What a `sem_unlink` has as its key at each place; it never comes to `IPC_RMID`. -/
def SvUnlinkLoc.Keyed (ftok : file -> Nat -> key) (x : Option key) (l : SvUnlinkLoc) : Prop :=
  match l.pc with
  | SvUnlinkPc.ftok => True
  | SvUnlinkPc.rmid => False
  | _ => exists f, x = some (ftok f 1)

def SvUnlinkAfter.Keyed (ftok : file -> Nat -> key) (x : Option key) : SvUnlinkAfter -> Prop
  | SvUnlinkAfter.goes l => l.Keyed ftok x
  | SvUnlinkAfter.returns ret => exists e, ret = some e

/-- The keys that denote sets are made with the project number 0, and a `sem_unlink` has
one made with 1. -/
structure KeyInv (ftok : file -> Nat -> key) (s : KeyState proc path file key) : Prop where
  keys : forall x n, s.kernel.keys x = some n -> exists f, x = ftok f 0
  opening : forall p name x l, s.calls p = some (KeyCall.opening name x l) ->
    forall y, x = some y -> exists f, y = ftok f 0
  unlinking : forall p name x l, s.calls p = some (KeyCall.unlinking name x l) ->
    l.Keyed ftok x

variable [DecidableEq proc] [DecidableEq path] [DecidableEq file] [DecidableEq key]
variable {ftok : file -> Nat -> key} {fresh : Nat -> Nat}
variable {k k' : KeyKernel path file key} {s t : KeyState proc path file key}

omit [DecidableEq path] [DecidableEq file] in
theorem keys_put {x : Option key} {k' : Kernel} {y : key} {n : Nat}
    (hx : forall z, x = some z -> exists f, z = ftok f 0)
    (hkeys : forall x n, k.keys x = some n -> exists f, x = ftok f 0)
    (hput : (k.put x k').keys y = some n) : exists f, y = ftok f 0 := by
  cases x with
  | none => exact hkeys y n hput
  | some z =>
      have hupdate : Function.update k.keys z k'.key y = some n := hput
      by_cases hy : y = z
      · subst hy
        exact hx y rfl
      · rw [Function.update_of_ne hy] at hupdate
        exact hkeys y n hupdate

theorem openRequest_keys {x : Option key} {name : path} {l : SvOpenLoc}
    {fault : Option Errno} {f : file} {done : KeyKernel path file key × Option key × SysResult}
    (hx : forall z, x = some z -> exists g, z = ftok g 0)
    (hkeys : forall x n, k.keys x = some n -> exists g, x = ftok g 0)
    (h : k.exec ftok fresh x (svOpenKeyRequest name l) fault f = some done) :
    (forall x n, done.1.keys x = some n -> exists g, x = ftok g 0) ∧
      forall z, done.2.1 = some z -> exists g, z = ftok g 0 := by
  unfold KeyKernel.exec at h
  cases fault with
  | some e =>
      cases h
      exact ⟨hkeys, hx⟩
  | none =>
      simp only at h
      generalize hrequest : svOpenKeyRequest name l = c at h
      cases c with
      | openFile name' excl =>
          rcases Option.map_eq_some_iff.mp h with ⟨opened, hopen, rfl⟩
          refine ⟨?_, hx⟩
          have hsame : opened.1.keys = k.keys := by
            unfold KeyKernel.openFile at hopen
            split at hopen
            · cases hopen
              rfl
            · split at hopen
              · cases hopen
                rfl
              · cases hopen
          rw [hsame]
          exact hkeys
      | ftok name' proj =>
          have hproj : proj = 0 := by
            unfold svOpenKeyRequest at hrequest
            split at hrequest
            · cases hrequest
            · cases hrequest
              rfl
            · cases hrequest
          subst hproj
          simp only at h
          split at h
          · cases h
            exact ⟨hkeys, hx⟩
          · rename_i g hname
            cases h
            refine ⟨hkeys, ?_⟩
            intro z hz
            cases hz
            exact ⟨g, rfl⟩
      | unlink name' =>
          unfold svOpenKeyRequest at hrequest
          split at hrequest
          · cases hrequest
          · cases hrequest
          · cases hrequest
      | sets c =>
          rcases Option.map_eq_some_iff.mp h with ⟨run, hrun, rfl⟩
          exact ⟨fun y n hy => keys_put hx hkeys hy, hx⟩

theorem unlinkRequest_keys {x : Option key} {name : path} {l : SvUnlinkLoc}
    {fault : Option Errno} {f : file} {done : KeyKernel path file key × Option key × SysResult}
    (hftok : ProjectsApart ftok)
    (hkeys : forall x n, k.keys x = some n -> exists g, x = ftok g 0)
    (hcall : l.Keyed ftok x)
    (h : k.exec ftok fresh x (svUnlinkRequest name l) fault f = some done) :
    done.1.sets = k.sets ∧
      (forall x n, done.1.keys x = some n -> exists g, x = ftok g 0) ∧
      (svUnlinkNext l done.2.2).Keyed ftok done.2.1 := by
  rcases l with ⟨pc, semid⟩
  unfold KeyKernel.exec at h
  cases fault with
  | some e =>
      cases h
      refine ⟨rfl, hkeys, ?_⟩
      cases pc with
      | rmid => exact hcall.elim
      | _ => exact ⟨e, rfl⟩
  | none =>
      cases pc with
      | ftok =>
          simp only [svUnlinkRequest] at h
          split at h
          · cases h
            exact ⟨rfl, hkeys, _, rfl⟩
          · rename_i g hname
            cases h
            exact ⟨rfl, hkeys, g, rfl⟩
      | unlink =>
          cases h
          unfold KeyKernel.unlink
          split
          · exact ⟨rfl, hkeys, _, rfl⟩
          · exact ⟨rfl, hkeys, hcall⟩
      | semget =>
          rcases hcall with ⟨g, rfl⟩
          -- no set has a key with the project number 1
          have hnone : k.lookup (ftok g 1) = none := by
            unfold KeyKernel.lookup
            cases hkey : k.keys (ftok g 1) with
            | none => rfl
            | some n =>
                rcases hkeys _ n hkey with ⟨g', heq⟩
                exact absurd (hftok _ _ 1 0 (by decide) (by decide) heq) (by decide)
          rcases Option.map_eq_some_iff.mp h with ⟨run, hrun, rfl⟩
          have hview : (k.view (some (ftok g 1))).key = none := hnone
          simp only [Kernel.run, hview] at hrun
          cases hrun
          refine ⟨rfl, ?_, _, rfl⟩
          intro y n hy
          have hupdate : Function.update k.keys (ftok g 1) (k.view (some (ftok g 1))).key y =
              some n := hy
          rw [hview] at hupdate
          by_cases hyg : y = ftok g 1
          · subst hyg
            rw [Function.update_self] at hupdate
            cases hupdate
          · rw [Function.update_of_ne hyg] at hupdate
            exact hkeys y n hupdate
      | rmid => exact hcall.elim

/-!
## Steps
-/

omit [DecidableEq path] [DecidableEq file] [DecidableEq key] in
theorem KeyInv.step {calls' : proc -> Option (KeyCall path key)} {sems' : List SemT}
    (hinv : KeyInv ftok s) (hkeys : forall x n, k'.keys x = some n -> exists f, x = ftok f 0)
    {p : proc} {call : Option (KeyCall path key)}
    (hcalls : calls' = Function.update s.calls p call)
    (hopening : forall name x l, call = some (KeyCall.opening name x l) ->
      forall y, x = some y -> exists f, y = ftok f 0)
    (hunlinking : forall name x l, call = some (KeyCall.unlinking name x l) ->
      l.Keyed ftok x) :
    KeyInv ftok { kernel := k', calls := calls', sems := sems' } := by
  subst hcalls
  refine ⟨hkeys, ?_, ?_⟩
  · intro q name x l hl
    by_cases hq : q = p
    · subst hq
      exact hopening name x l ((Function.update_self q call s.calls).symm.trans hl)
    · exact hinv.opening q name x l ((Function.update_of_ne hq call s.calls).symm.trans hl)
  · intro q name x l hl
    by_cases hq : q = p
    · subst hq
      exact hunlinking name x l ((Function.update_self q call s.calls).symm.trans hl)
    · exact hinv.unlinking q name x l ((Function.update_of_ne hq call s.calls).symm.trans hl)

def UnlinkFails (e : KeyTransition proc path file key) : Prop :=
  forall p name ret, e.event = KeyEvent.unlinked p name ret ->
    (exists err, ret = some err) ∧ e.target.kernel.sets = e.source.kernel.sets

omit [DecidableEq path] [DecidableEq file] [DecidableEq key] in
theorem openDone_inv {p : proc} {name : path} {l : SvOpenLoc} {x : Option key}
    {r : SysResult} {o : KeyEvent proc path} {a : KeyAction proc path file}
    (hinv : KeyInv ftok s) (hkeys : forall x n, k'.keys x = some n -> exists f, x = ftok f 0)
    (hx : forall y, x = some y -> exists f, y = ftok f 0)
    (h : openDone s p name l (k', x, r) = (t, o)) :
    KeyInv ftok t ∧ UnlinkFails ⟨s, a, o, t⟩ := by
  unfold openDone at h
  split at h
  · cases h
    refine ⟨hinv.step hkeys rfl ?_ ?_, ?_⟩
    · intro name' x' l' heq
      cases heq
      exact hx
    · intro name' x' l' heq
      cases heq
    · intro q name' ret hret
      have hevent : createdEvent p name (svOpenRequest l) r =
          KeyEvent.unlinked q name' ret := hret
      unfold createdEvent at hevent
      split at hevent
      · cases hevent
      · cases hevent
  · cases h
    refine ⟨hinv.step hkeys rfl ?_ ?_, ?_⟩
    · intro name' x' l' heq
      cases heq
    · intro name' x' l' heq
      cases heq
    · intro q name' ret hret
      cases hret
  · cases h
    refine ⟨hinv.step hkeys rfl ?_ ?_, ?_⟩
    · intro name' x' l' heq
      cases heq
    · intro name' x' l' heq
      cases heq
    · intro q name' ret hret
      cases hret

omit [DecidableEq path] [DecidableEq file] [DecidableEq key] in
theorem unlinkDone_inv {p : proc} {name : path} {l : SvUnlinkLoc} {x : Option key}
    {r : SysResult} {o : KeyEvent proc path} {a : KeyAction proc path file}
    (hinv : KeyInv ftok s) (hsets : k'.sets = s.kernel.sets)
    (hkeys : forall x n, k'.keys x = some n -> exists f, x = ftok f 0)
    (hnext : (svUnlinkNext l r).Keyed ftok x) (h : unlinkDone s p name l (k', x, r) = (t, o)) :
    KeyInv ftok t ∧ UnlinkFails ⟨s, a, o, t⟩ := by
  unfold unlinkDone at h
  split at h
  · rename_i l' hgoes
    cases h
    simp only at hgoes
    rw [hgoes] at hnext
    refine ⟨hinv.step hkeys rfl ?_ ?_, ?_⟩
    · intro name' x' l'' heq
      cases heq
    · intro name' x' l'' heq
      cases heq
      exact hnext
    · intro q name' ret hret
      cases hret
  · rename_i ret hreturns
    cases h
    simp only at hreturns
    rw [hreturns] at hnext
    refine ⟨hinv.step hkeys rfl ?_ ?_, ?_⟩
    · intro name' x' l'' heq
      cases heq
    · intro name' x' l'' heq
      cases heq
    · intro q name' ret' hret
      cases hret
      exact ⟨hnext, hsets⟩

theorem keyStep_inv {a : KeyAction proc path file} {o : KeyEvent proc path}
    (hftok : ProjectsApart ftok) (hinv : KeyInv ftok s)
    (h : keyStep ftok fresh s a = some (t, o)) :
    KeyInv ftok t ∧ UnlinkFails ⟨s, a, o, t⟩ := by
  cases a with
  | opens p name a =>
      simp only [keyStep] at h
      split at h
      · cases h
      · cases h
        refine ⟨hinv.step hinv.keys rfl ?_ ?_, fun q name' ret hret => by cases hret⟩
        · intro name' x l heq
          cases heq
          intro y hy
          cases hy
        · intro name' x l heq
          cases heq
  | unlinks p name =>
      simp only [keyStep] at h
      split at h
      · cases h
      · cases h
        refine ⟨hinv.step hinv.keys rfl ?_ ?_, fun q name' ret hret => by cases hret⟩
        · intro name' x l heq
          cases heq
        · intro name' x l heq
          cases heq
          trivial
  | syscall p fault f =>
      simp only [keyStep] at h
      split at h
      · cases h
      · rename_i name x l hl
        rcases Option.map_eq_some_iff.mp h with ⟨⟨k', x', r⟩, hexec, hdone⟩
        rcases openRequest_keys (hinv.opening p name x l hl) hinv.keys hexec with ⟨hkeys, hx⟩
        exact openDone_inv hinv hkeys hx hdone
      · rename_i name x l hl
        rcases Option.map_eq_some_iff.mp h with ⟨⟨k', x', r⟩, hexec, hdone⟩
        rcases unlinkRequest_keys hftok hinv.keys (hinv.unlinking p name x l hl) hexec with
          ⟨hsets, hkeys, hnext⟩
        exact unlinkDone_inv hinv hsets hkeys hnext hdone
  | use n c fault =>
      simp only [keyStep] at h
      split at h
      · cases h
      · split at h
        · cases h
          exact ⟨hinv, fun q name ret hret => by cases hret⟩
        · rcases Option.map_eq_some_iff.mp h with ⟨done, hexec, hdone⟩
          cases hdone
          exact ⟨⟨hinv.keys, hinv.opening, hinv.unlinking⟩,
            fun q name ret hret => by cases hret⟩
  | close n =>
      cases h
      exact ⟨⟨hinv.keys, hinv.opening, hinv.unlinking⟩, fun q name ret hret => by cases hret⟩

omit [DecidableEq proc] [DecidableEq path] [DecidableEq file] [DecidableEq key] in
theorem keyInv_init (hs : KeyInit s) : KeyInv ftok s := by
  refine ⟨?_, ?_, ?_⟩
  · intro x n hx
    rw [hs.keys x] at hx
    cases hx
  · intro p name x l hl
    rw [hs.calls p] at hl
    cases hl
  · intro p name x l hl
    rw [hs.calls p] at hl
    cases hl

/-- In every run each `sem_unlink` that returns gives an error and has left the sets, so
none does what is expected of it. -/
theorem unlink_law_never (hftok : ProjectsApart ftok)
    {tr₁ tr₂ : List (KeyTransition proc path file key)} {e : KeyTransition proc path file key}
    (hrun : Run KeyInit (keyStep ftok fresh) (tr₁ ++ e :: tr₂) s) {p : proc} {name : path}
    {ret : Option Errno} (he : e.event = KeyEvent.unlinked p name ret) :
    (exists err, ret = some err) ∧ e.target.kernel.sets = e.source.kernel.sets ∧
      ¬ UnlinkLaw name ret tr₁ e tr₂ := by
  rcases run_split hrun with ⟨hprior, hvalid, _⟩
  have hinv : KeyInv ftok e.source :=
    reachable_invariant (fun _ hs => keyInv_init hs)
      (fun _ _ _ _ hinv hstep => (keyStep_inv hftok hinv hstep).left) ⟨tr₁, hprior⟩
  rcases (keyStep_inv hftok hinv hvalid).right p name ret he with ⟨⟨err, hret⟩, hsets⟩
  refine ⟨⟨err, hret⟩, hsets, ?_⟩
  intro hlaw
  rw [hlaw.returnsZero] at hret
  cases hret

end Unlinking

/-!
## One name and one file number
-/

def pairKey (f : Unit) (proj : Nat) : Unit × Nat := (f, proj)

theorem pairKey_apart : ProjectsApart pairKey := by
  intro f g i j _ _ heq
  exact (Prod.mk.inj heq).right

def noKeys : KeyState (Fin 1) Unit Unit (Unit × Nat) :=
  { kernel :=
      { names := fun _ => none, inUse := fun _ => false, keys := fun _ => none,
        sets := fun _ => { semval := 0, otime := false, removed := false }, next := 0 },
    calls := fun _ => none, sems := [] }

theorem init_noKeys : KeyInit noKeys :=
  ⟨fun _ => rfl, rfl, fun _ => rfl, rfl⟩

def keySteps (count : Nat) : List (KeyAction (Fin 1) Unit Unit) :=
  List.replicate count (KeyAction.syscall 0 none ())

def unlinkedName : List (KeyAction (Fin 1) Unit Unit) :=
  [KeyAction.opens 0 () { o_creat := true, o_excl := false, value := 3 }] ++ keySteps 7 ++
    [KeyAction.use 0 SvCall.post none, KeyAction.unlinks 0 ()] ++ keySteps 3 ++
    [KeyAction.opens 0 () { o_creat := true, o_excl := false, value := 7 }] ++ keySteps 8

def unlinkReturn (e : KeyTransition (Fin 1) Unit Unit (Unit × Nat)) : Option (Option Errno) :=
  match e.event with
  | KeyEvent.unlinked _ _ ret => some ret
  | _ => none

theorem event_of_unlinkReturn {e : KeyTransition (Fin 1) Unit Unit (Unit × Nat)}
    {ret : Option Errno} (h : unlinkReturn e = some ret) :
    e.event = KeyEvent.unlinked 0 () ret := by
  unfold unlinkReturn at h
  split at h
  · rename_i p name ret' hevent
    cases h
    rw [hevent, Subsingleton.elim p 0]
  · cases h

/-- The unlink fails, the set stays, and the second semaphore has it with its value. -/
theorem unlinkedName_run :
    exists (tr₁ : List (KeyTransition (Fin 1) Unit Unit (Unit × Nat)))
        (e : KeyTransition (Fin 1) Unit Unit (Unit × Nat))
        (tr₂ : List (KeyTransition (Fin 1) Unit Unit (Unit × Nat)))
        (s : KeyState (Fin 1) Unit Unit (Unit × Nat)),
      Run KeyInit (keyStep pairKey fun _ => 0) (tr₁ ++ e :: tr₂) s ∧
        e.event = KeyEvent.unlinked 0 () (some Errno.ENOENT) ∧
        s.sems.map SemT.sem_semid = [some 0, some 0] ∧
        (s.kernel.sets 0).semval = 4 ∧ (s.kernel.sets 0).removed = false := by
  have hreplay : exists (tr : List (KeyTransition (Fin 1) Unit Unit (Unit × Nat)))
      (s : KeyState (Fin 1) Unit Unit (Unit × Nat)),
      Run KeyInit (keyStep pairKey fun _ => 0) tr s ∧
        decide ((tr[12]?.bind unlinkReturn) = some (some Errno.ENOENT) ∧
          s.sems.map SemT.sem_semid = [some 0, some 0] ∧
          (s.kernel.sets 0).semval = 4 ∧ (s.kernel.sets 0).removed = false) = true :=
    run_of_replay unlinkedName init_noKeys (by decide +kernel)
  rcases hreplay with ⟨tr, s, hrun, htest⟩
  rcases of_decide_eq_true htest with ⟨hret, hstate⟩
  rcases Option.bind_eq_some_iff.mp hret with ⟨e, he, hreturn⟩
  rcases List.getElem?_eq_some_iff.mp he with ⟨hlt, hget⟩
  have hsplit : tr = tr.take 12 ++ e :: tr.drop 13 := by
    rw [← hget, List.getElem_cons_drop, List.take_append_drop]
  rw [hsplit] at hrun
  exact ⟨_, e, _, s, hrun, event_of_unlinkReturn hreturn, hstate⟩

theorem unlink_law_never_oneName :
    exists (tr₁ : List (KeyTransition (Fin 1) Unit Unit (Unit × Nat)))
        (e : KeyTransition (Fin 1) Unit Unit (Unit × Nat))
        (tr₂ : List (KeyTransition (Fin 1) Unit Unit (Unit × Nat))) (ret : Option Errno),
      (exists err, ret = some err) ∧ e.target.kernel.sets = e.source.kernel.sets ∧
        ¬ UnlinkLaw () ret tr₁ e tr₂ := by
  rcases unlinkedName_run with ⟨tr₁, e, tr₂, s, hrun, hevent, _⟩
  exact ⟨tr₁, e, tr₂, _, unlink_law_never pairKey_apart hrun hevent⟩

/-- The name is opened for a value of 7 after it was unlinked, and gets the old set with the
value 4. -/
theorem stale_set_oneName :
    exists (tr₁ : List (KeyTransition (Fin 1) Unit Unit (Unit × Nat)))
        (e : KeyTransition (Fin 1) Unit Unit (Unit × Nat))
        (tr₂ : List (KeyTransition (Fin 1) Unit Unit (Unit × Nat)))
        (s : KeyState (Fin 1) Unit Unit (Unit × Nat)) (ret : Option Errno),
      Run KeyInit (keyStep pairKey fun _ => 0) (tr₁ ++ e :: tr₂) s ∧
        e.event = KeyEvent.unlinked 0 () ret ∧
        s.sems.map SemT.sem_semid = [some 0, some 0] ∧
        (s.kernel.sets 0).semval = 4 ∧ ¬ UnlinkLaw () ret tr₁ e tr₂ := by
  rcases unlinkedName_run with ⟨tr₁, e, tr₂, s, hrun, hevent, hsems, hvalue, _⟩
  refine ⟨tr₁, e, tr₂, s, _, hrun, hevent, hsems, hvalue, ?_⟩
  intro hlaw
  cases hlaw.returnsZero

end SvSem
end InterprocessComm
