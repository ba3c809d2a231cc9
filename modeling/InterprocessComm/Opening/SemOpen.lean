import InterprocessComm.Opening.Protocol

/-!
# sem_open

The `sem_open` of the memory-mapped semaphores.  It follows the protocol of
`mq_open`, but maps the file before it waits for the initialisation.
-/

namespace InterprocessComm
namespace Opening

namespace SemOpen

def MAX_TRIES : Nat := 10

def sizeofSem : Int := 96

end SemOpen

structure SemOpenArgs where
  o_creat : Bool
  o_excl : Bool
  value : UInt32

inductive SemOpenPc where
  | openExcl
  | write
  | mmapNew
  | mutexattrInit
  | mutexInit
  | condattrInit
  | condInit
  | initCount
  | fchmod
  | closeNew
  | magicNew
  | openRdwr
  | mmapOld
  | stat
  | sleep
  | closeAgain
  | closeOld
  | magicOld
  | errUnlink
  | errMunmap
  | errClose
deriving DecidableEq

structure SemOpenLoc where
  pc : SemOpenPc
  args : SemOpenArgs
  created : Bool
  fd : Option Nat
  sem : Option Nat
  i : Nat
  errno : Errno

namespace SemOpenLoc

def again (l : SemOpenLoc) : SemOpenLoc :=
  if l.args.o_creat then
    { l with pc := SemOpenPc.openExcl }
  else
    { l with pc := SemOpenPc.openRdwr }

def afterUnlink (l : SemOpenLoc) : SemOpenLoc :=
  match l.sem with
  | some _ => { l with pc := SemOpenPc.errMunmap }
  | none => { l with pc := SemOpenPc.errClose }

/-- `goto err`, with `save_errno`; `pthreaderr` first sets `errno` to what the call
returned. -/
def err (l : SemOpenLoc) (e : Errno) : SemOpenLoc :=
  if l.created then
    { l with errno := e, pc := SemOpenPc.errUnlink }
  else
    { l with errno := e }.afterUnlink

def tries (l : SemOpenLoc) : SemOpenLoc :=
  if l.i < SemOpen.MAX_TRIES then
    { l with pc := SemOpenPc.stat }
  else
    l.err Errno.ETIMEDOUT

end SemOpenLoc

def semOpenStart (a : SemOpenArgs) : SemOpenLoc :=
  { pc := SemOpenPc.openExcl, args := a, created := false, fd := none, sem := none, i := 0,
    errno := Errno.other 0 : SemOpenLoc }.again

def semOpenRequest (l : SemOpenLoc) : Syscall :=
  match l.pc with
  | SemOpenPc.openExcl => Syscall.openExcl
  | SemOpenPc.write => Syscall.write l.fd SemOpen.sizeofSem
  | SemOpenPc.mmapNew => Syscall.mmap l.fd SemOpen.sizeofSem
  | SemOpenPc.mutexattrInit => Syscall.mutexattrInit
  | SemOpenPc.mutexInit => Syscall.mutexInit l.sem
  | SemOpenPc.condattrInit => Syscall.condattrInit
  | SemOpenPc.condInit => Syscall.condInit l.sem
  | SemOpenPc.initCount => Syscall.store l.sem
  | SemOpenPc.fchmod => Syscall.fchmod l.fd
  | SemOpenPc.closeNew => Syscall.close l.fd
  | SemOpenPc.magicNew => Syscall.storeMagic l.sem
  | SemOpenPc.openRdwr => Syscall.openRdwr
  | SemOpenPc.mmapOld => Syscall.mmap l.fd SemOpen.sizeofSem
  | SemOpenPc.stat => Syscall.stat
  | SemOpenPc.sleep => Syscall.sleep
  | SemOpenPc.closeAgain => Syscall.close l.fd
  | SemOpenPc.closeOld => Syscall.close l.fd
  | SemOpenPc.magicOld => Syscall.storeMagic l.sem
  | SemOpenPc.errUnlink => Syscall.unlink
  | SemOpenPc.errMunmap => Syscall.munmap l.sem SemOpen.sizeofSem
  | SemOpenPc.errClose => Syscall.close l.fd

/-- `valueMax` is what `sysconf(_SC_SEM_VALUE_MAX)` returns. A failed `open` without
`O_EXCL` assigns `errno`, 1 if `O_CREAT` is set and otherwise 0, in place of the comparison
with `ENOENT`. -/
def semOpenNext (valueMax : Int) (l : SemOpenLoc) (r : SysResult) : After SemOpenLoc :=
  match l.pc, r with
  | SemOpenPc.openExcl, SysResult.opened f =>
      After.goes { l with created := true, fd := some f, pc := SemOpenPc.write }
  | SemOpenPc.openExcl, SysResult.failed e =>
      if e = Errno.EEXIST ∧ l.args.o_excl = false then
        After.goes { l with fd := none, pc := SemOpenPc.openRdwr }
      else
        After.returns (Except.error e)
  | SemOpenPc.openExcl, _ => After.returns (Except.error Errno.EBADF)
  | SemOpenPc.write, r => orErr { l with pc := SemOpenPc.mmapNew } l.err r
  | SemOpenPc.mmapNew, r =>
      orErr { l with sem := l.fd, pc := SemOpenPc.mutexattrInit } { l with sem := none }.err r
  | SemOpenPc.mutexattrInit, r => orErr { l with pc := SemOpenPc.mutexInit } l.err r
  | SemOpenPc.mutexInit, r => orErr { l with pc := SemOpenPc.condattrInit } l.err r
  | SemOpenPc.condattrInit, r => orErr { l with pc := SemOpenPc.condInit } l.err r
  | SemOpenPc.condInit, r => orErr { l with pc := SemOpenPc.initCount } l.err r
  | SemOpenPc.initCount, _ =>
      if (l.args.value.toNat : Int) > valueMax then
        After.goes (l.err Errno.EINVAL)
      else
        After.goes { l with pc := SemOpenPc.fchmod }
  | SemOpenPc.fchmod, r => orErr { l with pc := SemOpenPc.closeNew } l.err r
  | SemOpenPc.closeNew, _ => After.goes { l with pc := SemOpenPc.magicNew }
  | SemOpenPc.magicNew, _ => After.returns (Except.ok ⟨l.sem, SemOpen.sizeofSem⟩)
  | SemOpenPc.openRdwr, SysResult.failed _ =>
      let l := { l with fd := none }
      if l.args.o_creat then
        After.goes { l with errno := Errno.other 1 }.again
      else
        After.goes (l.err (Errno.other 0))
  | SemOpenPc.openRdwr, SysResult.opened f =>
      After.goes { l with fd := some f, pc := SemOpenPc.mmapOld }
  | SemOpenPc.openRdwr, _ => After.goes (l.err Errno.EBADF)
  | SemOpenPc.mmapOld, r => orErr { l with sem := l.fd, i := 0 }.tries { l with sem := none }.err r
  | SemOpenPc.stat, SysResult.status xusr _ =>
      if xusr = false then
        After.goes { l with pc := SemOpenPc.closeOld }
      else
        After.goes { l with pc := SemOpenPc.sleep }
  | SemOpenPc.stat, SysResult.failed e =>
      if e = Errno.ENOENT ∧ l.args.o_creat = true then
        After.goes { l with pc := SemOpenPc.closeAgain }
      else
        After.goes (l.err e)
  | SemOpenPc.stat, _ => After.goes (l.err Errno.EBADF)
  | SemOpenPc.sleep, _ => After.goes { l with i := l.i + 1 }.tries
  | SemOpenPc.closeAgain, _ => After.goes l.again
  | SemOpenPc.closeOld, _ => After.goes { l with pc := SemOpenPc.magicOld }
  | SemOpenPc.magicOld, _ => After.returns (Except.ok ⟨l.sem, SemOpen.sizeofSem⟩)
  | SemOpenPc.errUnlink, _ => After.goes l.afterUnlink
  | SemOpenPc.errMunmap, _ => After.goes { l with pc := SemOpenPc.errClose }
  | SemOpenPc.errClose, _ => After.returns (Except.error l.errno)

def semOpenCode (valueMax : Int) : OpenCode SemOpenArgs SemOpenLoc :=
  { start := semOpenStart, fd := SemOpenLoc.fd, request := semOpenRequest,
    next := semOpenNext valueMax }

/-!
## What a system call leads to
-/

namespace SemOpenLoc

theorem next_openExcl_failed {valueMax : Int} {l : SemOpenLoc} {e : Errno}
    {after : After SemOpenLoc} (hpc : l.pc = SemOpenPc.openExcl)
    (h : semOpenNext valueMax l (SysResult.failed e) = after) :
    (e = Errno.EEXIST ∧ l.args.o_excl = false) ∧
        after = After.goes { l with fd := none, pc := SemOpenPc.openRdwr } ∨
      ¬ (e = Errno.EEXIST ∧ l.args.o_excl = false) ∧ after = After.returns (Except.error e) := by
  rcases l with ⟨pc, args, created, fd, sem, i, errno⟩
  cases hpc
  by_cases hcond : e = Errno.EEXIST ∧ args.o_excl = false
  · exact Or.inl ⟨hcond, h.symm.trans (if_pos hcond)⟩
  · exact Or.inr ⟨hcond, h.symm.trans (if_neg hcond)⟩

theorem next_openRdwr_failed {valueMax : Int} {l : SemOpenLoc} {e : Errno}
    {after : After SemOpenLoc} (hpc : l.pc = SemOpenPc.openRdwr)
    (h : semOpenNext valueMax l (SysResult.failed e) = after) :
    l.args.o_creat = true ∧
        after = After.goes { l with fd := none, errno := Errno.other 1 }.again ∨
      ¬ l.args.o_creat = true ∧
        after = After.goes ({ l with fd := none }.err (Errno.other 0)) := by
  rcases l with ⟨pc, args, created, fd, sem, i, errno⟩
  cases hpc
  by_cases hcreat : args.o_creat = true
  · exact Or.inl ⟨hcreat, h.symm.trans (if_pos hcreat)⟩
  · exact Or.inr ⟨hcreat, h.symm.trans (if_neg hcreat)⟩

theorem next_stat_failed {valueMax : Int} {l : SemOpenLoc} {e : Errno}
    {after : After SemOpenLoc} (hpc : l.pc = SemOpenPc.stat)
    (h : semOpenNext valueMax l (SysResult.failed e) = after) :
    (e = Errno.ENOENT ∧ l.args.o_creat = true) ∧
        after = After.goes { l with pc := SemOpenPc.closeAgain } ∨
      ¬ (e = Errno.ENOENT ∧ l.args.o_creat = true) ∧ after = After.goes (l.err e) := by
  rcases l with ⟨pc, args, created, fd, sem, i, errno⟩
  cases hpc
  by_cases hcond : e = Errno.ENOENT ∧ args.o_creat = true
  · exact Or.inl ⟨hcond, h.symm.trans (if_pos hcond)⟩
  · exact Or.inr ⟨hcond, h.symm.trans (if_neg hcond)⟩

theorem next_initCount {valueMax : Int} {l : SemOpenLoc} {r : SysResult}
    {after : After SemOpenLoc} (hpc : l.pc = SemOpenPc.initCount)
    (h : semOpenNext valueMax l r = after) :
    after = After.goes (l.err Errno.EINVAL) ∨
      after = After.goes { l with pc := SemOpenPc.fchmod } := by
  rcases l with ⟨pc, args, created, fd, sem, i, errno⟩
  cases hpc
  by_cases hvalue : (args.value.toNat : Int) > valueMax
  · exact Or.inl (h.symm.trans (if_pos hvalue))
  · exact Or.inr (h.symm.trans (if_neg hvalue))

theorem next_returns {valueMax : Int} {l : SemOpenLoc} {r : SysResult}
    {ret : Except Errno Descriptor} (h : semOpenNext valueMax l r = After.returns ret) :
    (l.pc = SemOpenPc.openExcl ∧ (forall f, r ≠ SysResult.opened f) ∧
        exists e, ret = Except.error e) ∨
      ((l.pc = SemOpenPc.magicNew ∨ l.pc = SemOpenPc.magicOld) ∧
        ret = Except.ok ⟨l.sem, SemOpen.sizeofSem⟩) ∨
      (l.pc = SemOpenPc.errClose ∧ ret = Except.error l.errno) := by
  rcases l with ⟨pc, args, created, fd, sem, i, errno⟩
  cases pc with
  | openExcl =>
      cases r with
      | opened f => cases h
      | failed e =>
          rcases next_openExcl_failed rfl h with ⟨_, hgoes⟩ | ⟨_, hreturns⟩
          · cases hgoes
          · cases hreturns
            exact Or.inl ⟨rfl, fun f hf => (by cases hf), e, rfl⟩
      | ok =>
          cases h
          exact Or.inl ⟨rfl, fun f hf => (by cases hf), _, rfl⟩
      | status xusr size =>
          cases h
          exact Or.inl ⟨rfl, fun f hf => (by cases hf), _, rfl⟩
  | magicNew =>
      cases h
      exact Or.inr (Or.inl ⟨Or.inl rfl, rfl⟩)
  | magicOld =>
      cases h
      exact Or.inr (Or.inl ⟨Or.inr rfl, rfl⟩)
  | closeNew => cases h
  | closeOld => cases h
  | errClose =>
      cases h
      exact Or.inr (Or.inr ⟨rfl, rfl⟩)
  | initCount => rcases next_initCount rfl h with hgoes | hgoes <;> cases hgoes
  | openRdwr =>
      cases r with
      | failed e =>
          rcases next_openRdwr_failed rfl h with ⟨_, hgoes⟩ | ⟨_, hgoes⟩ <;> cases hgoes
      | _ => cases h
  | stat =>
      cases r with
      | failed e => rcases next_stat_failed rfl h with ⟨_, hgoes⟩ | ⟨_, hgoes⟩ <;> cases hgoes
      | status xusr size => cases xusr <;> cases h
      | _ => cases h
  | sleep => cases h
  | closeAgain => cases h
  | errUnlink => cases h
  | errMunmap => cases h
  | _ => exact absurd h (orErr_ne_returns _ _ r _)

end SemOpenLoc

/-!
## Its stages
-/

namespace SemOpenLoc

def stage (l : SemOpenLoc) : Stage :=
  match l.pc, l.fd with
  | SemOpenPc.write, some f => Stage.creating f false false false none
  | SemOpenPc.mmapNew, some f => Stage.creating f false false false (some SemOpen.sizeofSem)
  | SemOpenPc.mutexattrInit, some f =>
      Stage.creating f false false false (some SemOpen.sizeofSem)
  | SemOpenPc.mutexInit, some f => Stage.creating f false false false (some SemOpen.sizeofSem)
  | SemOpenPc.condattrInit, some f =>
      Stage.creating f false true false (some SemOpen.sizeofSem)
  | SemOpenPc.condInit, some f => Stage.creating f false true false (some SemOpen.sizeofSem)
  | SemOpenPc.initCount, some f => Stage.creating f false true true (some SemOpen.sizeofSem)
  | SemOpenPc.fchmod, some f => Stage.creating f true true true (some SemOpen.sizeofSem)
  | SemOpenPc.closeNew, some f => Stage.trusting f (some SemOpen.sizeofSem)
  | SemOpenPc.magicNew, some f => Stage.trusting f (some SemOpen.sizeofSem)
  | SemOpenPc.mmapOld, some f => Stage.opened f
  | SemOpenPc.stat, some f => Stage.opened f
  | SemOpenPc.sleep, some f => Stage.opened f
  | SemOpenPc.closeOld, some f => Stage.trusting f none
  | SemOpenPc.magicOld, some f => Stage.trusting f none
  | _, _ => Stage.nothing

def HasFile (l : SemOpenLoc) : Prop :=
  exists f, l.fd = some f

def HasMapping (l : SemOpenLoc) : Prop :=
  exists f, l.fd = some f ∧ l.sem = some f

/-- Where the code uses its descriptor it has one, and its mapping is of the same file. -/
def Ok (l : SemOpenLoc) : Prop :=
  match l.pc with
  | SemOpenPc.write => l.HasFile
  | SemOpenPc.mmapNew => l.HasFile
  | SemOpenPc.mutexattrInit => l.HasMapping
  | SemOpenPc.mutexInit => l.HasMapping
  | SemOpenPc.condattrInit => l.HasMapping
  | SemOpenPc.condInit => l.HasMapping
  | SemOpenPc.initCount => l.HasMapping
  | SemOpenPc.fchmod => l.HasMapping
  | SemOpenPc.closeNew => l.HasMapping
  | SemOpenPc.magicNew => l.HasMapping
  | SemOpenPc.mmapOld => l.HasFile
  | SemOpenPc.stat => l.HasMapping
  | SemOpenPc.sleep => l.HasMapping
  | SemOpenPc.closeOld => l.HasMapping
  | SemOpenPc.magicOld => l.HasMapping
  | _ => True

def Idle (l : SemOpenLoc) : Prop :=
  l.Ok ∧ l.stage = Stage.nothing

theorem again_idle (l : SemOpenLoc) : l.again.Idle := by
  unfold again
  split <;> exact ⟨trivial, rfl⟩

theorem afterUnlink_idle (l : SemOpenLoc) : l.afterUnlink.Idle := by
  unfold afterUnlink
  split <;> exact ⟨trivial, rfl⟩

theorem err_idle (l : SemOpenLoc) (e : Errno) : (l.err e).Idle := by
  unfold err
  split
  · exact ⟨trivial, rfl⟩
  · exact afterUnlink_idle _

theorem tries_moves {l : SemOpenLoc} {f : Nat} {v : Stage} {c : Syscall} {r : SysResult}
    (hf : l.fd = some f) (hsem : l.sem = some f)
    (hmove : Move false v c r (Stage.opened f)) :
    l.tries.Ok ∧ Move false v c r l.tries.stage := by
  unfold tries
  split
  · simp only [Ok, HasMapping, stage, hf, hsem]
    exact ⟨⟨f, rfl, rfl⟩, hmove⟩
  · exact forgets_moves (l.err_idle _) _ _ _

theorem moves {valueMax : Int} {l l' : SemOpenLoc} {r : SysResult} (hok : l.Ok)
    (h : semOpenNext valueMax l r = After.goes l') :
    l'.Ok ∧ Move false l.stage (semOpenRequest l) r l'.stage := by
  rcases l with ⟨pc, args, created, fd, sem, i, errno⟩
  cases pc with
  | openExcl =>
      cases r with
      | opened f =>
          cases h
          exact ⟨⟨f, rfl⟩, Move.creates _ f⟩
      | failed e =>
          rcases next_openExcl_failed rfl h with ⟨_, hgoes⟩ | ⟨_, hreturns⟩
          · cases hgoes
            exact ⟨trivial, Move.forgets _ _ _⟩
          · cases hreturns
      | ok => cases h
      | status xusr size => cases h
  | write =>
      rcases hok with ⟨f, rfl⟩
      exact orErr_moves h (err_idle _) ⟨f, rfl⟩ fun hr => Move.writes f _ _ _ _ _ hr
  | mmapNew =>
      rcases hok with ⟨f, rfl⟩
      exact orErr_moves h (err_idle _) ⟨f, rfl, rfl⟩ fun _ => Move.stays _ r rfl
  | mutexattrInit =>
      rcases hok with ⟨f, rfl, rfl⟩
      exact orErr_moves h (err_idle _) ⟨f, rfl, rfl⟩ fun _ => Move.stays _ r rfl
  | mutexInit =>
      rcases hok with ⟨f, rfl, rfl⟩
      exact orErr_moves h (err_idle _) ⟨f, rfl, rfl⟩ fun hr => Move.mutex f _ _ _ _ hr
  | condattrInit =>
      rcases hok with ⟨f, rfl, rfl⟩
      exact orErr_moves h (err_idle _) ⟨f, rfl, rfl⟩ fun _ => Move.stays _ r rfl
  | condInit =>
      rcases hok with ⟨f, rfl, rfl⟩
      exact orErr_moves h (err_idle _) ⟨f, rfl, rfl⟩ fun hr => Move.cond f _ _ _ _ hr
  | initCount =>
      rcases hok with ⟨f, rfl, rfl⟩
      rcases next_initCount rfl h with hgoes | hgoes
      · cases hgoes
        exact forgets_moves (err_idle _ _) _ _ _
      · cases hgoes
        exact ⟨⟨f, rfl, rfl⟩, Move.stores f _ _ _ _ r⟩
  | fchmod =>
      rcases hok with ⟨f, rfl, rfl⟩
      exact orErr_moves h (err_idle _) ⟨f, rfl, rfl⟩ fun hr => Move.clears f _ hr
  | closeNew =>
      rcases hok with ⟨f, rfl, rfl⟩
      cases h
      exact ⟨⟨f, rfl, rfl⟩, Move.stays _ r rfl⟩
  | magicNew => cases h
  | openRdwr =>
      cases r with
      | opened f =>
          cases h
          exact ⟨⟨f, rfl⟩, Move.opens _ f⟩
      | failed e =>
          rcases next_openRdwr_failed rfl h with ⟨_, hgoes⟩ | ⟨_, hgoes⟩
          · cases hgoes
            exact forgets_moves (again_idle _) _ _ _
          · cases hgoes
            exact forgets_moves (err_idle _ _) _ _ _
      | ok =>
          cases h
          exact forgets_moves (err_idle _ _) _ _ _
      | status xusr size =>
          cases h
          exact forgets_moves (err_idle _ _) _ _ _
  | mmapOld =>
      rcases hok with ⟨f, rfl⟩
      have hgoes := tries_moves (l := ⟨SemOpenPc.mmapOld, args, created, some f, some f, 0, errno⟩)
        (v := Stage.opened f) (c := Syscall.mmap (some f) SemOpen.sizeofSem) (r := r) rfl rfl
        (Move.stays _ r rfl)
      exact orErr_moves h (err_idle _) hgoes.1 fun _ => hgoes.2
  | stat =>
      rcases hok with ⟨f, rfl, rfl⟩
      cases r with
      | status xusr size =>
          cases xusr with
          | false =>
              cases h
              exact ⟨⟨f, rfl, rfl⟩, Move.trusts f size⟩
          | true =>
              cases h
              exact ⟨⟨f, rfl, rfl⟩, Move.stays _ _ rfl⟩
      | failed e =>
          rcases next_stat_failed rfl h with ⟨_, hgoes⟩ | ⟨_, hgoes⟩
          · cases hgoes
            exact ⟨trivial, Move.forgets _ _ _⟩
          · cases hgoes
            exact forgets_moves (err_idle _ _) _ _ _
      | ok =>
          cases h
          exact forgets_moves (err_idle _ _) _ _ _
      | opened g =>
          cases h
          exact forgets_moves (err_idle _ _) _ _ _
  | sleep =>
      rcases hok with ⟨f, rfl, rfl⟩
      cases h
      exact tries_moves rfl rfl (Move.stays _ r rfl)
  | closeAgain =>
      cases h
      exact forgets_moves (again_idle _) _ _ _
  | closeOld =>
      rcases hok with ⟨f, rfl, rfl⟩
      cases h
      exact ⟨⟨f, rfl, rfl⟩, Move.stays _ r rfl⟩
  | magicOld => cases h
  | errUnlink =>
      cases h
      exact forgets_moves (afterUnlink_idle _) _ _ _
  | errMunmap =>
      cases h
      exact ⟨trivial, Move.forgets _ _ r⟩
  | errClose => cases h

theorem changes {l : SemOpenLoc} {f : Nat} (hok : l.Ok)
    (h : (semOpenRequest l).changes = some f) : l.stage.creator = some f := by
  rcases l with ⟨pc, args, created, fd, sem, i, errno⟩
  cases pc with
  | write =>
      rcases hok with ⟨g, rfl⟩
      exact h
  | mutexInit =>
      rcases hok with ⟨g, rfl, rfl⟩
      exact h
  | condInit =>
      rcases hok with ⟨g, rfl, rfl⟩
      exact h
  | initCount =>
      rcases hok with ⟨g, rfl, rfl⟩
      exact h
  | fchmod =>
      rcases hok with ⟨g, rfl, rfl⟩
      exact h
  | _ => cases h

theorem clears {l : SemOpenLoc} {f : Nat} (hok : l.Ok)
    (h : semOpenRequest l = Syscall.fchmod (some f)) :
    l.stage = Stage.creating f true true true (some SemOpen.sizeofSem) := by
  rcases l with ⟨pc, args, created, fd, sem, i, errno⟩
  cases pc with
  | fchmod =>
      rcases hok with ⟨g, rfl, rfl⟩
      cases h
      rfl
  | _ => cases h

theorem asks {l : SemOpenLoc} (hok : l.Ok) (h : semOpenRequest l = Syscall.stat) :
    exists f, l.fd = some f ∧ l.stage = Stage.opened f := by
  rcases l with ⟨pc, args, created, fd, sem, i, errno⟩
  cases pc with
  | stat =>
      rcases hok with ⟨f, rfl, rfl⟩
      exact ⟨f, rfl, rfl⟩
  | _ => cases h

theorem returns {valueMax : Int} {l : SemOpenLoc} {r : SysResult} {d : Descriptor} (hok : l.Ok)
    (h : semOpenNext valueMax l r = After.returns (Except.ok d)) :
    (semOpenRequest l).changes = none ∧
      exists f size, d.file = some f ∧ l.stage = Stage.trusting f size := by
  rcases l with ⟨pc, args, created, fd, sem, i, errno⟩
  rcases next_returns h with ⟨rfl, _, e, he⟩ | ⟨rfl | rfl, hd⟩ | ⟨rfl, he⟩
  · cases he
  · rcases hok with ⟨f, rfl, rfl⟩
    cases hd
    exact ⟨rfl, f, _, rfl, rfl⟩
  · rcases hok with ⟨f, rfl, rfl⟩
    cases hd
    exact ⟨rfl, f, _, rfl, rfl⟩
  · cases he

end SemOpenLoc

def semOpenFollows (valueMax : Int) : Follows (semOpenCode valueMax) false where
  stage := SemOpenLoc.stage
  Ok := SemOpenLoc.Ok
  start := fun _ => SemOpenLoc.again_idle _
  changes := fun _ _ hok h => SemOpenLoc.changes hok h
  clears := fun _ _ hok h => ⟨_, SemOpenLoc.clears hok h⟩
  asks := fun _ hok h => SemOpenLoc.asks hok h
  moves := fun _ _ _ hok h => SemOpenLoc.moves hok h
  returns := by
    intro l r d hok h
    rcases SemOpenLoc.returns hok h with ⟨hchanges, f, size, hfile, hstage⟩
    exact ⟨hchanges, f, size, hfile, hstage, fun hsized => by cases hsized⟩

end Opening
end InterprocessComm
