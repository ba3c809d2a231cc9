import InterprocessComm.Opening.Accounts
import InterprocessComm.Opening.MqOpen

/-!
# What a call of mq_open leaves behind

At each of its system calls the variables of `mq_open` say what it has to give back,
except after the `malloc` that follows the last `close`: the error exit
closes the descriptor again.
-/

namespace InterprocessComm
namespace Opening

open Verification

def MqOpenPc.hasDescriptor : MqOpenPc -> Bool
  | openExcl => false
  | openRdwr => false
  | mallocOld => false
  | _ => true

def MqOpenPc.hasMapping : MqOpenPc -> Bool
  | errFree => false
  | errClose => false
  | _ => true

def MqOpenPc.hasInfo : MqOpenPc -> Bool
  | errClose => false
  | _ => true

namespace MqOpenLoc

/-- What the call has when it comes to its error exit. -/
def everything (l : MqOpenLoc) : Account :=
  { descriptors := Ledger.holding l.fd, mappings := Ledger.holding l.mptr,
    infos := Ledger.holding (if l.mqinfo then some () else none), created := l.created,
    unlinked := false }

/-- What the variables say the call has; it calls `unlink` first in its error exit. -/
def account (l : MqOpenLoc) : Account :=
  { descriptors := Ledger.holding (if l.pc.hasDescriptor then l.fd else none),
    mappings := Ledger.holding (if l.pc.hasMapping then l.mptr else none),
    infos := Ledger.holding (if l.pc.hasInfo && l.mqinfo then some () else none),
    created := l.created,
    unlinked := (l.pc = MqOpenPc.errMunmap || l.pc = MqOpenPc.errFree ||
      l.pc = MqOpenPc.errClose) && l.created }

def Bare (l : MqOpenLoc) : Prop :=
  l.created = false ∧ l.mptr = none ∧ l.mqinfo = false

def Vars (l : MqOpenLoc) : Prop :=
  match l.pc with
  | MqOpenPc.openExcl => l.Bare
  | MqOpenPc.openRdwr => l.Bare ∧ l.fd = none
  | MqOpenPc.stat => l.Bare
  | MqOpenPc.sleep => l.Bare
  | MqOpenPc.closeAgain => l.Bare ∧ l.args.o_creat = true
  | MqOpenPc.mmapOld => l.Bare
  | MqOpenPc.closeOld => l.created = false ∧ l.mqinfo = false
  | MqOpenPc.mallocOld => l.created = false ∧ l.mqinfo = false
  | MqOpenPc.lseek => l.mptr = none ∧ l.mqinfo = false
  | MqOpenPc.write => l.mptr = none ∧ l.mqinfo = false
  | MqOpenPc.mmapNew => l.mptr = none ∧ l.mqinfo = false
  | MqOpenPc.mallocNew => l.mqinfo = false
  | MqOpenPc.initHeader => l.mqinfo = true
  | MqOpenPc.mutexattrInit => l.mqinfo = true
  | MqOpenPc.mutexInit => l.mqinfo = true
  | MqOpenPc.condattrInit => l.mqinfo = true
  | MqOpenPc.condInit => l.mqinfo = true
  | MqOpenPc.fchmod => l.mqinfo = true
  | MqOpenPc.closeNew => l.mqinfo = true
  | MqOpenPc.errUnlink => l.created = true
  | MqOpenPc.errFree => l.mqinfo = true
  | _ => True

def Accounted (g : Account) (l : MqOpenLoc) : Prop :=
  l.Vars ∧ g = l.account

theorem afterMunmap_accounted (l : MqOpenLoc) :
    Accounted { l.everything with mappings := Ledger.holding none, unlinked := l.created }
      l.afterMunmap := by
  rcases l with ⟨pc, args, created, fd, filesize, mptr, mqinfo, i, errno⟩
  cases mqinfo with
  | true => exact ⟨rfl, rfl⟩
  | false => exact ⟨trivial, rfl⟩

theorem afterUnlink_accounted (l : MqOpenLoc) :
    Accounted { l.everything with unlinked := l.created } l.afterUnlink := by
  rcases l with ⟨pc, args, created, fd, filesize, mptr, mqinfo, i, errno⟩
  cases mptr with
  | some f => exact ⟨trivial, rfl⟩
  | none => exact afterMunmap_accounted ⟨pc, args, created, fd, filesize, none, mqinfo, i, errno⟩

theorem err_accounted (l : MqOpenLoc) (e : Errno) : Accounted l.everything (l.err e) := by
  rcases l with ⟨pc, args, created, fd, filesize, mptr, mqinfo, i, errno⟩
  cases created with
  | true => exact ⟨rfl, rfl⟩
  | false => exact afterUnlink_accounted ⟨pc, args, false, fd, filesize, mptr, mqinfo, i, e⟩

theorem tries_accounted {l : MqOpenLoc} (h : l.Bare) : Accounted l.everything l.tries := by
  unfold tries
  split
  · exact ⟨h, rfl⟩
  · exact err_accounted l Errno.ETIMEDOUT

theorem create_accounted {l : MqOpenLoc} (h : l.Bare) (f : Nat) :
    Accounted { l.everything with descriptors := Ledger.holding (some f), created := true }
      (l.create f) := by
  rcases l with ⟨pc, args, created, fd, filesize, mptr, mqinfo, i, errno⟩
  rcases h with ⟨rfl, rfl, rfl⟩
  unfold create
  simp only []
  split
  · exact err_accounted ⟨pc, args, true, some f, filesize, none, false, i, errno⟩ Errno.EINVAL
  · exact ⟨⟨rfl, rfl⟩, rfl⟩

def mallocOldFails (l : MqOpenLoc) (r : SysResult) : Bool :=
  match l.pc, r with
  | MqOpenPc.mallocOld, SysResult.failed _ => true
  | _, _ => false

theorem again_accounted {l : MqOpenLoc} (h : l.Bare) (hfd : l.args.o_creat = true ∨ l.fd = none) :
    Accounted Account.empty l.again := by
  rcases l with ⟨pc, args, created, fd, filesize, mptr, mqinfo, i, errno⟩
  rcases h with ⟨rfl, rfl, rfl⟩
  unfold again
  split
  · exact ⟨⟨rfl, rfl, rfl⟩, rfl⟩
  · rename_i hcreat
    exact ⟨⟨⟨rfl, rfl, rfl⟩, hfd.resolve_left hcreat⟩, rfl⟩

theorem openExcl_accounted {l l' : MqOpenLoc} {r : SysResult} (hpc : l.pc = MqOpenPc.openExcl)
    (hvars : l.Vars) (h : mqOpenNext l r = After.goes l') :
    Accounted (l.account.record (mqOpenRequest l, r)) l' := by
  rcases l with ⟨pc, args, created, fd, filesize, mptr, mqinfo, i, errno⟩
  cases hpc
  cases r with
  | opened f =>
      cases h
      exact create_accounted hvars f
  | failed e =>
      rcases next_openExcl_failed rfl h with ⟨_, hgoes⟩ | ⟨_, hreturns⟩
      · cases hgoes
        exact ⟨⟨hvars, rfl⟩, rfl⟩
      · cases hreturns
  | ok => cases h
  | status xusr size => cases h

theorem openRdwr_accounted {l l' : MqOpenLoc} {r : SysResult} (hpc : l.pc = MqOpenPc.openRdwr)
    (hvars : l.Vars) (h : mqOpenNext l r = After.goes l') :
    Accounted (l.account.record (mqOpenRequest l, r)) l' := by
  rcases l with ⟨pc, args, created, fd, filesize, mptr, mqinfo, i, errno⟩
  cases hpc
  rcases hvars with ⟨⟨rfl, rfl, rfl⟩, rfl⟩
  cases r with
  | opened f =>
      cases h
      exact tries_accounted ⟨rfl, rfl, rfl⟩
  | failed e =>
      rcases next_openRdwr_failed rfl h with ⟨_, hgoes⟩ | ⟨_, hgoes⟩
      · cases hgoes
        exact again_accounted ⟨rfl, rfl, rfl⟩ (Or.inr rfl)
      · cases hgoes
        exact err_accounted _ e
  | ok =>
      cases h
      exact err_accounted _ _
  | status xusr size =>
      cases h
      exact err_accounted _ _

theorem stat_accounted {l l' : MqOpenLoc} {r : SysResult} (hpc : l.pc = MqOpenPc.stat)
    (hvars : l.Vars) (h : mqOpenNext l r = After.goes l') :
    Accounted (l.account.record (mqOpenRequest l, r)) l' := by
  rcases l with ⟨pc, args, created, fd, filesize, mptr, mqinfo, i, errno⟩
  cases hpc
  cases r with
  | status xusr size =>
      cases xusr with
      | false =>
          cases h
          exact ⟨hvars, rfl⟩
      | true =>
          cases h
          exact ⟨hvars, rfl⟩
  | failed e =>
      rcases next_stat_failed rfl h with ⟨hcond, hgoes⟩ | ⟨_, hgoes⟩
      · cases hgoes
        exact ⟨⟨hvars, hcond.2⟩, rfl⟩
      · cases hgoes
        exact err_accounted _ e
  | ok =>
      cases h
      exact err_accounted _ _
  | opened f =>
      cases h
      exact err_accounted _ _

theorem next_accounted {l l' : MqOpenLoc} {r : SysResult} (hok : l.Ok) (hvars : l.Vars)
    (h : mqOpenNext l r = After.goes l') (hmalloc : l.mallocOldFails r = false) :
    Accounted (l.account.record (mqOpenRequest l, r)) l' := by
  rcases l with ⟨pc, args, created, fd, filesize, mptr, mqinfo, i, errno⟩
  cases pc with
  | openExcl => exact openExcl_accounted rfl hvars h
  | lseek =>
      exact orErr_rule h (err_accounted _) ⟨hvars, rfl⟩
  | write =>
      exact orErr_rule h (err_accounted _) ⟨hvars, rfl⟩
  | mmapNew =>
      rcases hok with ⟨f, rfl⟩
      rcases hvars with ⟨rfl, rfl⟩
      rcases orErr_goes h with ⟨e, rfl, rfl⟩ | ⟨hr, rfl⟩
      · exact err_accounted _ e
      · exact ⟨rfl, Account.record_mmap hr _ f filesize⟩
  | mallocNew =>
      cases hvars
      rcases orErr_goes h with ⟨e, rfl, rfl⟩ | ⟨hr, rfl⟩
      · exact err_accounted _ e
      · exact ⟨rfl, Account.record_malloc hr _⟩
  | initHeader =>
      cases h
      exact ⟨hvars, rfl⟩
  | mutexattrInit =>
      exact orErr_rule h (err_accounted _) ⟨hvars, rfl⟩
  | mutexInit =>
      exact orErr_rule h (err_accounted _) ⟨hvars, rfl⟩
  | condattrInit =>
      exact orErr_rule h (err_accounted _) ⟨hvars, rfl⟩
  | condInit =>
      exact orErr_rule h (err_accounted _) ⟨hvars, rfl⟩
  | fchmod =>
      exact orErr_rule h (err_accounted _) ⟨hvars, rfl⟩
  | closeNew => cases h
  | openRdwr => exact openRdwr_accounted rfl hvars h
  | stat => exact stat_accounted rfl hvars h
  | sleep =>
      cases h
      exact tries_accounted hvars
  | closeAgain =>
      rcases hvars with ⟨⟨rfl, rfl, rfl⟩, hcreat⟩
      cases h
      show Accounted (Account.record _ (Syscall.close fd, r)) _
      rw [Account.record_close rfl]
      exact again_accounted ⟨rfl, rfl, rfl⟩ (Or.inl hcreat)
  | mmapOld =>
      rcases hok with ⟨f, rfl⟩
      rcases hvars with ⟨rfl, rfl, rfl⟩
      rcases orErr_goes h with ⟨e, rfl, rfl⟩ | ⟨hr, rfl⟩
      · exact err_accounted _ e
      · exact ⟨⟨rfl, rfl⟩, Account.record_mmap hr _ f filesize⟩
  | closeOld =>
      cases h
      exact ⟨hvars, Account.record_close rfl r⟩
  | mallocOld =>
      cases r with
      | failed e => cases hmalloc
      | ok => cases h
      | opened f => cases h
      | status xusr size => cases h
  | errUnlink =>
      cases hvars
      cases h
      exact afterUnlink_accounted _
  | errMunmap =>
      cases h
      show Accounted (Account.record _ (Syscall.munmap mptr filesize, r)) _
      rw [Account.record_munmap (List.append_nil _).symm]
      exact afterMunmap_accounted _
  | errFree =>
      cases hvars
      cases h
      exact ⟨trivial, rfl⟩
  | errClose => cases h

theorem next_settles {l : MqOpenLoc} {r : SysResult} {ret : Except Errno Descriptor}
    (hok : l.Ok) (hvars : l.Vars) (h : mqOpenNext l r = After.returns ret) :
    (l.account.record (mqOpenRequest l, r)).Settles true ret := by
  rcases l with ⟨pc, args, created, fd, filesize, mptr, mqinfo, i, errno⟩
  rcases next_returns h with ⟨rfl, hr, e, rfl⟩ | ⟨rfl, rfl⟩ | ⟨rfl, hr, rfl⟩ | ⟨rfl, rfl⟩
  · rcases hvars with ⟨rfl, rfl, rfl⟩
    show Account.Settles true (Account.record _ (Syscall.openExcl, r)) _
    rw [Account.record_openExcl hr]
    exact ⟨rfl, rfl, rfl, Iff.rfl⟩
  · rcases hok with ⟨f, rfl, rfl⟩
    cases hvars
    show Account.Settles true (Account.record _ (Syscall.close (some f), r)) _
    rw [Account.record_close rfl]
    exact ⟨rfl, ⟨f, rfl, rfl⟩, rfl⟩
  · rcases hok with ⟨f, rfl, rfl⟩
    rcases hvars with ⟨rfl, rfl⟩
    show Account.Settles true (Account.record _ (Syscall.malloc, r)) _
    rw [Account.record_malloc hr]
    exact ⟨rfl, ⟨f, rfl, rfl⟩, rfl⟩
  · show Account.Settles true (Account.record _ (Syscall.close fd, r)) _
    rw [Account.record_close rfl]
    exact ⟨rfl, rfl, rfl, Iff.rfl⟩

/-- The call is in its error exit, and has closed the descriptor that it closes there. -/
def ClosedBefore (g : Account) (l : MqOpenLoc) : Prop :=
  (l.pc = MqOpenPc.errMunmap ∨ l.pc = MqOpenPc.errClose) ∧ l.mqinfo = false ∧ l.HasFile ∧
    g.descriptors.held = []

theorem mallocOld_fails {l l' : MqOpenLoc} {r : SysResult} (hok : l.Ok) (hvars : l.Vars)
    (h : mqOpenNext l r = After.goes l') (hmalloc : l.mallocOldFails r = true) :
    ClosedBefore (l.account.record (mqOpenRequest l, r)) l' := by
  rcases l with ⟨pc, args, created, fd, filesize, mptr, mqinfo, i, errno⟩
  cases pc with
  | mallocOld =>
      rcases hok with ⟨f, rfl, rfl⟩
      rcases hvars with ⟨rfl, rfl⟩
      cases r with
      | failed e =>
          cases h
          exact ⟨Or.inl rfl, rfl, ⟨f, rfl⟩, rfl⟩
      | _ => cases hmalloc
  | _ => cases hmalloc

theorem mallocOldFails_goes {l : MqOpenLoc} {r : SysResult} (h : l.mallocOldFails r = true) :
    exists l', mqOpenNext l r = After.goes l' := by
  rcases l with ⟨pc, args, created, fd, filesize, mptr, mqinfo, i, errno⟩
  cases pc with
  | mallocOld =>
      cases r with
      | failed e => exact ⟨_, rfl⟩
      | _ => cases h
  | _ => cases h

theorem closedBefore_next {g : Account} {l l' : MqOpenLoc} {r : SysResult}
    (hclosed : ClosedBefore g l) (h : mqOpenNext l r = After.goes l') :
    ClosedBefore (g.record (mqOpenRequest l, r)) l' := by
  rcases l with ⟨pc, args, created, fd, filesize, mptr, mqinfo, i, errno⟩
  rcases hclosed with ⟨hpc, rfl, hfile, hheld⟩
  rcases hpc with rfl | rfl
  · cases h
    refine ⟨Or.inr rfl, rfl, hfile, ?_⟩
    exact (congrArg Ledger.held (Account.record_munmap_descriptors g _ _ r)).trans hheld
  · cases h

theorem closedBefore_returns {g : Account} {l : MqOpenLoc} {r : SysResult}
    {ret : Except Errno Descriptor} (hclosed : ClosedBefore g l)
    (h : mqOpenNext l r = After.returns ret) :
    ¬ (g.record (mqOpenRequest l, r)).Settles true ret := by
  rcases l with ⟨pc, args, created, fd, filesize, mptr, mqinfo, i, errno⟩
  rcases hclosed with ⟨hpc, _, hfile, hheld⟩
  rcases hpc with rfl | rfl
  · cases h
  · rcases hfile with ⟨f, rfl⟩
    exact Account.not_settles_of_astray (Ledger.giveBack_astray hheld f) true ret

end MqOpenLoc

def mqOpenBookkeeping : Bookkeeping mqOpenCode true MqOpenLoc.mallocOldFails where
  Fine := fun g l => l.Ok ∧ MqOpenLoc.Accounted g l
  Spoilt := MqOpenLoc.ClosedBefore
  start := fun _ => ⟨(MqOpenLoc.again_idle _).1,
    MqOpenLoc.again_accounted ⟨rfl, rfl, rfl⟩ (Or.inr rfl)⟩
  fine_goes := by
    rintro g l r l' ⟨hok, hvars, rfl⟩ h hmalloc
    exact ⟨(MqOpenLoc.moves hok h).1, MqOpenLoc.next_accounted hok hvars h hmalloc⟩
  fine_returns := by
    rintro g l r ret ⟨hok, hvars, rfl⟩ h _
    exact MqOpenLoc.next_settles hok hvars h
  spoils_goes := by
    rintro g l r l' ⟨hok, hvars, rfl⟩ h hmalloc
    exact MqOpenLoc.mallocOld_fails hok hvars h hmalloc
  spoils_returns := by
    intro g l r ret _ h hmalloc
    rcases MqOpenLoc.mallocOldFails_goes hmalloc with ⟨l', hgoes⟩
    rw [show mqOpenNext l r = After.returns ret from h] at hgoes
    cases hgoes
  spoilt_goes := fun _ _ _ _ hclosed h => MqOpenLoc.closedBefore_next hclosed h
  spoilt_returns := fun _ _ _ _ hclosed h => MqOpenLoc.closedBefore_returns hclosed h

/-- What `mq_open` leaves behind is in order exactly if the `malloc` after the last `close`
does not fail. -/
theorem mq_open_settles_iff (a : MqOpenArgs) (tr : List (CallTransition MqOpenLoc))
    (ret : Except Errno Descriptor)
    (hrun : Run (Calls mqOpenCode a) (callStep mqOpenCode) tr (After.returns ret)) :
    (account tr).Settles true ret <->
      forall e, e ∈ tr -> isStep MqOpenLoc.mallocOldFails e = false :=
  mqOpenBookkeeping.settles_iff hrun

/-- A call that finds the name removed while it waits, creates the queue in its second
attempt, and fails in `fchmod`. -/
theorem mq_open_settles_iff_retried :
    exists tr ret,
      Run (Calls mqOpenCode { o_creat := true, o_excl := false, attr := some (3, 1) })
          (callStep mqOpenCode) tr (After.returns ret) ∧
        (account tr).created = true ∧ (account tr).Settles true ret := by
  have hcall : exists tr,
      Run (Calls mqOpenCode { o_creat := true, o_excl := false, attr := some (3, 1) })
          (callStep mqOpenCode) tr (After.returns (Except.error Errno.EACCES)) ∧
        decide ((account tr).created = true ∧
          forall e, e ∈ tr -> isStep MqOpenLoc.mallocOldFails e = false) = true :=
    call_of_replay ([SysResult.failed Errno.EEXIST, SysResult.opened 0,
      SysResult.failed Errno.ENOENT, SysResult.ok, SysResult.opened 1] ++
      List.replicate 9 SysResult.ok ++ [SysResult.failed Errno.EACCES] ++
      List.replicate 4 SysResult.ok) _ (by decide +kernel)
  rcases hcall with ⟨tr, hrun, htest⟩
  rcases of_decide_eq_true htest with ⟨hcreated, hmalloc⟩
  exact ⟨tr, _, hrun, hcreated, (mq_open_settles_iff _ tr _ hrun).mpr hmalloc⟩

/-- A call that opens an existing queue and cannot allocate its `mq_info` closes its
descriptor twice. -/
theorem mq_open_closes_twice_existingQueue :
    exists tr ret,
      Run (Calls mqOpenCode { o_creat := false, o_excl := false, attr := none })
          (callStep mqOpenCode) tr (After.returns ret) ∧
        ¬ (account tr).Settles true ret := by
  have hcall : exists tr,
      Run (Calls mqOpenCode { o_creat := false, o_excl := false, attr := none })
          (callStep mqOpenCode) tr (After.returns (Except.error (Errno.other 12))) ∧
        (account tr).descriptors.astray = true :=
    call_of_replay [SysResult.opened 0, SysResult.status false 312, SysResult.ok, SysResult.ok,
      SysResult.failed (Errno.other 12), SysResult.ok, SysResult.ok] _ (by decide +kernel)
  rcases hcall with ⟨tr, hrun, hastray⟩
  exact ⟨tr, _, hrun, Account.not_settles_of_astray hastray true _⟩

end Opening
end InterprocessComm
