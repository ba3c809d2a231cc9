import InterprocessComm.Opening.Accounts
import InterprocessComm.Opening.SemOpen

/-!
# What a call of sem_open leaves behind

`sem_open` maps the file before it waits, and keeps the mapping when it finds the
name removed and tries again.  The variables still say what it has to give back,
until it maps another file or returns at once from its first `open`.
-/

namespace InterprocessComm
namespace Opening

open Verification

namespace SemOpenPc

def hasDescriptor : SemOpenPc -> Bool
  | openExcl => false
  | openRdwr => false
  | magicNew => false
  | magicOld => false
  | _ => true

def hasMapping : SemOpenPc -> Bool
  | errClose => false
  | _ => true

end SemOpenPc

namespace SemOpenLoc

/-- What the call has when it comes to its error exit, besides mappings it has lost. -/
def everything (l : SemOpenLoc) (lost : List Nat) : Account :=
  { descriptors := Ledger.holding l.fd,
    mappings := { held := l.sem.toList ++ lost, astray := false },
    infos := Ledger.holding none, created := l.created, unlinked := false }

/-- What the variables say the call has, and the mappings it has lost. -/
def account (l : SemOpenLoc) (lost : List Nat) : Account :=
  { descriptors := Ledger.holding (if l.pc.hasDescriptor then l.fd else none),
    mappings :=
      { held := (if l.pc.hasMapping then l.sem else none).toList ++ lost, astray := false },
    infos := Ledger.holding none,
    created := l.created,
    unlinked := (l.pc = SemOpenPc.errMunmap || l.pc = SemOpenPc.errClose) && l.created }

def Vars (l : SemOpenLoc) : Prop :=
  match l.pc with
  | SemOpenPc.openExcl => l.created = false
  | SemOpenPc.openRdwr => l.created = false ∧ l.fd = none
  | SemOpenPc.mmapOld => l.created = false
  | SemOpenPc.stat => l.created = false
  | SemOpenPc.sleep => l.created = false
  | SemOpenPc.closeAgain => l.created = false ∧ l.args.o_creat = true
  | SemOpenPc.errUnlink => l.created = true
  | _ => True

def Accounted (lost : List Nat) (g : Account) (l : SemOpenLoc) : Prop :=
  l.Vars ∧ g = l.account lost

theorem afterUnlink_accounted (l : SemOpenLoc) (lost : List Nat) :
    Accounted lost { l.everything lost with unlinked := l.created } l.afterUnlink := by
  rcases l with ⟨pc, args, created, fd, sem, i, errno⟩
  cases sem with
  | some f => exact ⟨trivial, rfl⟩
  | none => exact ⟨trivial, rfl⟩

theorem err_accounted (l : SemOpenLoc) (lost : List Nat) (e : Errno) :
    Accounted lost (l.everything lost) (l.err e) := by
  rcases l with ⟨pc, args, created, fd, sem, i, errno⟩
  cases created with
  | true => exact ⟨rfl, rfl⟩
  | false => exact afterUnlink_accounted ⟨pc, args, false, fd, sem, i, e⟩ lost

theorem tries_accounted {l : SemOpenLoc} (h : l.created = false) (lost : List Nat) :
    Accounted lost (l.everything lost) l.tries := by
  unfold tries
  split
  · exact ⟨h, rfl⟩
  · exact err_accounted l lost Errno.ETIMEDOUT

theorem again_accounted {l : SemOpenLoc} (h : l.created = false)
    (hfd : l.args.o_creat = true ∨ l.fd = none) (lost : List Nat) :
    Accounted lost { l.everything lost with descriptors := Ledger.holding none } l.again := by
  unfold again
  split
  · exact ⟨h, rfl⟩
  · rename_i hcreat
    exact ⟨⟨h, hfd.resolve_left hcreat⟩, rfl⟩

/-- A mapping is held, and another one is asked for or the first `open` fails for good. -/
def losesMapping (l : SemOpenLoc) (r : SysResult) : Bool :=
  (match l.pc, r with
    | SemOpenPc.mmapNew, _ => true
    | SemOpenPc.mmapOld, _ => true
    | SemOpenPc.openExcl, SysResult.opened _ => false
    | SemOpenPc.openExcl, SysResult.failed e => e ≠ Errno.EEXIST || l.args.o_excl
    | SemOpenPc.openExcl, _ => true
    | _, _ => false) && l.sem.isSome

def lostBy (l : SemOpenLoc) (r : SysResult) : List Nat :=
  if l.losesMapping r then l.sem.toList else []

/-- `mmap` overwrites the variable, whatever it returns. -/
theorem lostBy_mapping {l : SemOpenLoc} {r : SysResult}
    (h : (l.pc = SemOpenPc.mmapNew || l.pc = SemOpenPc.mmapOld) = true) :
    l.lostBy r = l.sem.toList := by
  rcases l with ⟨pc, args, created, fd, sem, i, errno⟩
  cases pc with
  | mmapNew => cases sem <;> rfl
  | mmapOld => cases sem <;> rfl
  | _ => cases h

theorem openExcl_accounted {valueMax : Int} {l l' : SemOpenLoc} {r : SysResult}
    (hpc : l.pc = SemOpenPc.openExcl) (hvars : l.Vars)
    (h : semOpenNext valueMax l r = After.goes l') (lost : List Nat) :
    Accounted (l.lostBy r ++ lost) ((l.account lost).record (semOpenRequest l, r)) l' := by
  rcases l with ⟨pc, args, created, fd, sem, i, errno⟩
  cases hpc
  cases hvars
  cases r with
  | opened f =>
      cases h
      exact ⟨trivial, rfl⟩
  | failed e =>
      rcases next_openExcl_failed rfl h with ⟨⟨rfl, hexcl⟩, hgoes⟩ | ⟨_, hreturns⟩
      · change args.o_excl = false at hexcl
        cases hgoes
        have hkept : lostBy ⟨SemOpenPc.openExcl, args, false, fd, sem, i, errno⟩
            (SysResult.failed Errno.EEXIST) = [] := by
          simp [lostBy, losesMapping, hexcl]
        rw [hkept]
        exact ⟨⟨rfl, rfl⟩, rfl⟩
      · cases hreturns
  | ok => cases h
  | status xusr size => cases h

theorem openRdwr_accounted {valueMax : Int} {l l' : SemOpenLoc} {r : SysResult}
    (hpc : l.pc = SemOpenPc.openRdwr) (hvars : l.Vars)
    (h : semOpenNext valueMax l r = After.goes l') (lost : List Nat) :
    Accounted (l.lostBy r ++ lost) ((l.account lost).record (semOpenRequest l, r)) l' := by
  rcases l with ⟨pc, args, created, fd, sem, i, errno⟩
  cases hpc
  rcases hvars with ⟨rfl, rfl⟩
  cases r with
  | opened f =>
      cases h
      exact ⟨rfl, rfl⟩
  | failed e =>
      rcases next_openRdwr_failed rfl h with ⟨_, hgoes⟩ | ⟨_, hgoes⟩
      · cases hgoes
        exact again_accounted rfl (Or.inr rfl) lost
      · cases hgoes
        exact err_accounted _ lost _
  | ok =>
      cases h
      exact err_accounted _ lost _
  | status xusr size =>
      cases h
      exact err_accounted _ lost _

theorem stat_accounted {valueMax : Int} {l l' : SemOpenLoc} {r : SysResult}
    (hpc : l.pc = SemOpenPc.stat) (hvars : l.Vars)
    (h : semOpenNext valueMax l r = After.goes l') (lost : List Nat) :
    Accounted (l.lostBy r ++ lost) ((l.account lost).record (semOpenRequest l, r)) l' := by
  rcases l with ⟨pc, args, created, fd, sem, i, errno⟩
  cases hpc
  cases r with
  | status xusr size =>
      cases xusr with
      | false =>
          cases h
          exact ⟨trivial, rfl⟩
      | true =>
          cases h
          exact ⟨hvars, rfl⟩
  | failed e =>
      rcases next_stat_failed rfl h with ⟨hcond, hgoes⟩ | ⟨_, hgoes⟩
      · cases hgoes
        exact ⟨⟨hvars, hcond.2⟩, rfl⟩
      · cases hgoes
        exact err_accounted _ lost e
  | ok =>
      cases h
      exact err_accounted _ lost _
  | opened f =>
      cases h
      exact err_accounted _ lost _

theorem next_accounted {valueMax : Int} {l l' : SemOpenLoc} {r : SysResult} (hok : l.Ok)
    (hvars : l.Vars) (h : semOpenNext valueMax l r = After.goes l') (lost : List Nat) :
    Accounted (l.lostBy r ++ lost) ((l.account lost).record (semOpenRequest l, r)) l' := by
  rcases l with ⟨pc, args, created, fd, sem, i, errno⟩
  cases pc with
  | openExcl => exact openExcl_accounted rfl hvars h lost
  | write =>
      exact orErr_rule h (err_accounted _ lost) ⟨trivial, rfl⟩
  | mmapNew =>
      rcases hok with ⟨f, rfl⟩
      rw [lostBy_mapping rfl]
      rcases orErr_goes h with ⟨e, rfl, rfl⟩ | ⟨hr, rfl⟩
      · exact err_accounted _ _ e
      · exact ⟨trivial, Account.record_mmap hr _ f _⟩
  | mutexattrInit =>
      exact orErr_rule h (err_accounted _ lost) ⟨trivial, rfl⟩
  | mutexInit =>
      exact orErr_rule h (err_accounted _ lost) ⟨trivial, rfl⟩
  | condattrInit =>
      exact orErr_rule h (err_accounted _ lost) ⟨trivial, rfl⟩
  | condInit =>
      exact orErr_rule h (err_accounted _ lost) ⟨trivial, rfl⟩
  | initCount =>
      rcases next_initCount rfl h with hgoes | hgoes
      · cases hgoes
        exact err_accounted _ lost _
      · cases hgoes
        exact ⟨trivial, rfl⟩
  | fchmod =>
      exact orErr_rule h (err_accounted _ lost) ⟨trivial, rfl⟩
  | closeNew =>
      cases h
      exact ⟨trivial, Account.record_close rfl r⟩
  | magicNew => cases h
  | openRdwr => exact openRdwr_accounted rfl hvars h lost
  | mmapOld =>
      rcases hok with ⟨f, rfl⟩
      cases hvars
      rw [lostBy_mapping rfl]
      rcases orErr_goes h with ⟨e, rfl, rfl⟩ | ⟨hr, rfl⟩
      · exact err_accounted _ _ e
      · show Accounted _ (Account.record _ (Syscall.mmap (some f) _, r)) _
        rw [Account.record_mmap hr]
        exact tries_accounted rfl _
  | stat => exact stat_accounted rfl hvars h lost
  | sleep =>
      cases h
      exact tries_accounted (l := ⟨SemOpenPc.sleep, args, created, fd, sem, i + 1, errno⟩)
        hvars lost
  | closeAgain =>
      rcases hvars with ⟨hcreated, hcreat⟩
      cases h
      show Accounted lost (Account.record _ (Syscall.close fd, r)) _
      rw [Account.record_close rfl]
      exact again_accounted hcreated (Or.inl hcreat) lost
  | closeOld =>
      cases h
      exact ⟨trivial, Account.record_close rfl r⟩
  | magicOld => cases h
  | errUnlink =>
      cases hvars
      cases h
      exact afterUnlink_accounted _ lost
  | errMunmap =>
      cases h
      exact ⟨trivial, Account.record_munmap rfl _ r⟩
  | errClose => cases h

theorem lostBy_failure {valueMax : Int} {l : SemOpenLoc} {r : SysResult}
    {ret : Except Errno Descriptor} (hpc : l.pc = SemOpenPc.openExcl)
    (h : semOpenNext valueMax l r = After.returns ret) : l.lostBy r = l.sem.toList := by
  rcases l with ⟨pc, args, created, fd, sem, i, errno⟩
  cases hpc
  cases sem with
  | none => simp [lostBy]
  | some f =>
      cases r with
      | opened g => cases h
      | failed e =>
          rcases next_openExcl_failed rfl h with ⟨_, hgoes⟩ | ⟨hcond, _⟩
          · cases hgoes
          · have hloses : losesMapping ⟨SemOpenPc.openExcl, args, created, fd, some f, i, errno⟩
                (SysResult.failed e) = true := by
              simpa [losesMapping, or_iff_not_imp_left] using hcond
            exact if_pos hloses
      | ok => rfl
      | status xusr size => rfl

theorem settles_error_iff {lost : List Nat} {g : Account} {e : Errno}
    (hdescriptors : g.descriptors = Ledger.holding none)
    (hmappings : g.mappings = { held := lost, astray := false })
    (hinfos : g.infos = Ledger.holding none) (hunlinked : g.unlinked = g.created) :
    g.Settles false (Except.error e) <-> lost = [] := by
  constructor
  · rintro ⟨_, hnone, _⟩
    rw [hmappings] at hnone
    exact congrArg Ledger.held hnone
  · rintro rfl
    exact ⟨hdescriptors, hmappings, hinfos, by rw [hunlinked]⟩

theorem settles_ok_iff {lost : List Nat} {g : Account} {f : Nat} {n : Int}
    (hdescriptors : g.descriptors = Ledger.holding none)
    (hmappings : g.mappings = { held := f :: lost, astray := false })
    (hinfos : g.infos = Ledger.holding none) :
    g.Settles false (Except.ok ⟨some f, n⟩) <-> lost = [] := by
  constructor
  · rintro ⟨_, ⟨k, _, hone⟩, _⟩
    rw [hmappings] at hone
    exact (List.cons.inj (congrArg Ledger.held hone)).2
  · rintro rfl
    exact ⟨hdescriptors, ⟨f, rfl, hmappings⟩, hinfos⟩

/-- Where the call returns, the account is settled exactly if no mapping is lost. -/
theorem next_settles_iff {valueMax : Int} {l : SemOpenLoc} {r : SysResult}
    {ret : Except Errno Descriptor} (hok : l.Ok) (hvars : l.Vars)
    (h : semOpenNext valueMax l r = After.returns ret) (lost : List Nat) :
    ((l.account lost).record (semOpenRequest l, r)).Settles false ret <->
      l.lostBy r ++ lost = [] := by
  rcases l with ⟨pc, args, created, fd, sem, i, errno⟩
  rcases next_returns h with ⟨rfl, hr, e, rfl⟩ | ⟨rfl | rfl, rfl⟩ | ⟨rfl, rfl⟩
  · rw [lostBy_failure rfl h]
    cases hvars
    show Account.Settles false (Account.record _ (Syscall.openExcl, r)) _ <-> _
    rw [Account.record_openExcl hr]
    exact settles_error_iff rfl rfl rfl rfl
  · rcases hok with ⟨f, rfl, rfl⟩
    exact settles_ok_iff rfl rfl rfl
  · rcases hok with ⟨f, rfl, rfl⟩
    exact settles_ok_iff rfl rfl rfl
  · show Account.Settles false (Account.record _ (Syscall.close fd, r)) _ <-> _
    rw [Account.record_close rfl]
    exact settles_error_iff rfl rfl rfl rfl

theorem lostBy_eq_nil {l : SemOpenLoc} {r : SysResult} :
    l.lostBy r = [] <-> l.losesMapping r = false := by
  unfold lostBy
  constructor
  · intro h
    by_contra hloses
    rw [Bool.not_eq_false] at hloses
    rw [if_pos hloses] at h
    have hsem : l.sem.isSome = true := (Bool.and_eq_true_iff.mp hloses).2
    rcases Option.isSome_iff_exists.mp hsem with ⟨f, hf⟩
    rw [hf] at h
    cases h
  · intro h
    rw [h]
    rfl

end SemOpenLoc

def semOpenBookkeeping (valueMax : Int) :
    Bookkeeping (semOpenCode valueMax) false SemOpenLoc.losesMapping where
  Fine := fun g l => l.Ok ∧ SemOpenLoc.Accounted [] g l
  Spoilt := fun g l => l.Ok ∧ exists lost, lost ≠ [] ∧ SemOpenLoc.Accounted lost g l
  start := fun _ => ⟨(SemOpenLoc.again_idle _).1,
    SemOpenLoc.again_accounted rfl (Or.inr rfl) []⟩
  fine_goes := by
    rintro g l r l' ⟨hok, hvars, rfl⟩ h hkeeps
    have hnext := SemOpenLoc.next_accounted hok hvars h []
    rw [SemOpenLoc.lostBy_eq_nil.mpr hkeeps] at hnext
    exact ⟨(SemOpenLoc.moves hok h).1, hnext⟩
  fine_returns := by
    rintro g l r ret ⟨hok, hvars, rfl⟩ h hkeeps
    refine (SemOpenLoc.next_settles_iff hok hvars h []).mpr ?_
    rw [SemOpenLoc.lostBy_eq_nil.mpr hkeeps]
    rfl
  spoils_goes := by
    rintro g l r l' ⟨hok, hvars, rfl⟩ h hloses
    refine ⟨(SemOpenLoc.moves hok h).1, _, ?_, SemOpenLoc.next_accounted hok hvars h []⟩
    rw [List.append_nil, Ne, SemOpenLoc.lostBy_eq_nil, hloses]
    exact Bool.noConfusion
  spoils_returns := by
    rintro g l r ret ⟨hok, hvars, rfl⟩ h hloses hsettled
    have hnone := (SemOpenLoc.next_settles_iff hok hvars h []).mp hsettled
    rw [List.append_nil, SemOpenLoc.lostBy_eq_nil, hloses] at hnone
    cases hnone
  spoilt_goes := by
    rintro g l r l' ⟨hok, lost, hlost, hvars, rfl⟩ h
    refine ⟨(SemOpenLoc.moves hok h).1, _, ?_, SemOpenLoc.next_accounted hok hvars h lost⟩
    exact List.append_ne_nil_of_right_ne_nil _ hlost
  spoilt_returns := by
    rintro g l r ret ⟨hok, lost, hlost, hvars, rfl⟩ h hsettled
    have hnone := (SemOpenLoc.next_settles_iff hok hvars h lost).mp hsettled
    exact hlost (List.append_eq_nil_iff.mp hnone).2

/-- What `sem_open` leaves behind is in order exactly if it asks for no mapping, and its
first `open` does not fail for good, while it has the mapping of an attempt before. -/
theorem sem_open_settles_iff (valueMax : Int) (a : SemOpenArgs)
    (tr : List (CallTransition SemOpenLoc)) (ret : Except Errno Descriptor)
    (hrun : Run (Calls (semOpenCode valueMax) a) (callStep (semOpenCode valueMax)) tr
      (After.returns ret)) :
    (account tr).Settles false ret <->
      forall e, e ∈ tr -> isStep SemOpenLoc.losesMapping e = false :=
  (semOpenBookkeeping valueMax).settles_iff hrun

/-- A call that finds the name removed while it waits, and whose second attempt fails to
write the file. -/
theorem sem_open_settles_iff_failedWrite :
    exists tr ret,
      Run (Calls (semOpenCode 32767) { o_creat := true, o_excl := false, value := 1 })
          (callStep (semOpenCode 32767)) tr (After.returns ret) ∧
        (account tr).created = true ∧ (account tr).Settles false ret := by
  have hcall : exists tr,
      Run (Calls (semOpenCode 32767) { o_creat := true, o_excl := false, value := 1 })
          (callStep (semOpenCode 32767)) tr (After.returns (Except.error (Errno.other 28))) ∧
        decide ((account tr).created = true ∧
          forall e, e ∈ tr -> isStep SemOpenLoc.losesMapping e = false) = true :=
    call_of_replay [SysResult.failed Errno.EEXIST, SysResult.opened 0, SysResult.ok,
      SysResult.failed Errno.ENOENT, SysResult.ok, SysResult.opened 1,
      SysResult.failed (Errno.other 28), SysResult.ok, SysResult.ok, SysResult.ok] _
      (by decide +kernel)
  rcases hcall with ⟨tr, hrun, htest⟩
  rcases of_decide_eq_true htest with ⟨hcreated, hkeeps⟩
  exact ⟨tr, _, hrun, hcreated, (sem_open_settles_iff 32767 _ tr _ hrun).mpr hkeeps⟩

/-- A call that finds the name removed while it waits, and creates the semaphore in its
second attempt, keeps two mappings. -/
theorem sem_open_keeps_two_mappings_removedName :
    exists tr ret,
      Run (Calls (semOpenCode 32767) { o_creat := true, o_excl := false, value := 1 })
          (callStep (semOpenCode 32767)) tr (After.returns ret) ∧
        (account tr).mappings.held = [1, 0] ∧ ¬ (account tr).Settles false ret := by
  have hcall : exists tr,
      Run (Calls (semOpenCode 32767) { o_creat := true, o_excl := false, value := 1 })
          (callStep (semOpenCode 32767)) tr (After.returns (Except.ok ⟨some 1, 96⟩)) ∧
        decide ((account tr).mappings.held = [1, 0]) = true :=
    call_of_replay ([SysResult.failed Errno.EEXIST, SysResult.opened 0, SysResult.ok,
      SysResult.failed Errno.ENOENT, SysResult.ok, SysResult.opened 1] ++
      List.replicate 10 SysResult.ok) _ (by decide +kernel)
  rcases hcall with ⟨tr, hrun, htest⟩
  have hheld : (account tr).mappings.held = [1, 0] := of_decide_eq_true htest
  refine ⟨tr, _, hrun, hheld, ?_⟩
  rintro ⟨_, ⟨f, _, hone⟩, _⟩
  rw [hone] at hheld
  cases hheld

end Opening
end InterprocessComm
