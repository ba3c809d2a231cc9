import InterprocessComm.MessageQueue.Operations
import InterprocessComm.Opening.Protocol

/-!
# mq_open

`mq_open` between its system calls.  The first process to create the file
initialises it and clears the user-execute bit last; the others open it and wait
for the bit of the name to be cleared.
-/

namespace InterprocessComm
namespace Opening

open MessageQueue

def MAX_TRIES : Nat := 10

/-- The arguments of `mq_open`: two bits of `oflag`, and `mq_maxmsg` and `mq_msgsize` of the
attributes unless the pointer is null. -/
structure MqOpenArgs where
  o_creat : Bool
  o_excl : Bool
  attr : Option (Int × Int)

inductive MqOpenPc where
  | openExcl
  | lseek
  | write
  | mmapNew
  | mallocNew
  | initHeader
  | mutexattrInit
  | mutexInit
  | condattrInit
  | condInit
  | fchmod
  | closeNew
  | openRdwr
  | stat
  | sleep
  | closeAgain
  | mmapOld
  | closeOld
  | mallocOld
  | errUnlink
  | errMunmap
  | errFree
  | errClose
deriving DecidableEq

structure MqOpenLoc where
  pc : MqOpenPc
  args : MqOpenArgs
  created : Bool
  fd : Option Nat
  filesize : Int
  mptr : Option Nat
  mqinfo : Bool
  i : Nat
  errno : Errno

namespace MqOpenLoc

def again (l : MqOpenLoc) : MqOpenLoc :=
  if l.args.o_creat then
    { l with pc := MqOpenPc.openExcl }
  else
    { l with pc := MqOpenPc.openRdwr }

def afterMunmap (l : MqOpenLoc) : MqOpenLoc :=
  if l.mqinfo then
    { l with pc := MqOpenPc.errFree }
  else
    { l with pc := MqOpenPc.errClose }

def afterUnlink (l : MqOpenLoc) : MqOpenLoc :=
  match l.mptr with
  | some _ => { l with pc := MqOpenPc.errMunmap }
  | none => l.afterMunmap

/-- `goto err`, with `save_errno`; `pthreaderr` first sets `errno` to what the call
returned. -/
def err (l : MqOpenLoc) (e : Errno) : MqOpenLoc :=
  if l.created then
    { l with errno := e, pc := MqOpenPc.errUnlink }
  else
    { l with errno := e }.afterUnlink

def attr (l : MqOpenLoc) : Int × Int :=
  l.args.attr.getD defattr

/-- The first steps of the creator: it checks the attributes and computes the file size. -/
def create (l : MqOpenLoc) (f : Nat) : MqOpenLoc :=
  let l := { l with created := true, fd := some f }
  if l.attr.1 ≤ 0 ∨ l.attr.2 ≤ 0 then
    l.err Errno.EINVAL
  else
    { l with pc := MqOpenPc.lseek, filesize := mqOpenFilesize l.attr.1 l.attr.2 }

def tries (l : MqOpenLoc) : MqOpenLoc :=
  if l.i < MAX_TRIES then
    { l with pc := MqOpenPc.stat }
  else
    l.err Errno.ETIMEDOUT

end MqOpenLoc

def mqOpenStart (a : MqOpenArgs) : MqOpenLoc :=
  { pc := MqOpenPc.openExcl, args := a, created := false, fd := none, filesize := 0,
    mptr := none, mqinfo := false, i := 0, errno := Errno.other 0 : MqOpenLoc }.again

def mqOpenRequest (l : MqOpenLoc) : Syscall :=
  match l.pc with
  | MqOpenPc.openExcl => Syscall.openExcl
  | MqOpenPc.lseek => Syscall.lseek l.fd (l.filesize - 1)
  | MqOpenPc.write => Syscall.write l.fd l.filesize
  | MqOpenPc.mmapNew => Syscall.mmap l.fd l.filesize
  | MqOpenPc.mallocNew => Syscall.malloc
  | MqOpenPc.initHeader => Syscall.store l.mptr
  | MqOpenPc.mutexattrInit => Syscall.mutexattrInit
  | MqOpenPc.mutexInit => Syscall.mutexInit l.mptr
  | MqOpenPc.condattrInit => Syscall.condattrInit
  | MqOpenPc.condInit => Syscall.condInit l.mptr
  | MqOpenPc.fchmod => Syscall.fchmod l.fd
  | MqOpenPc.closeNew => Syscall.close l.fd
  | MqOpenPc.openRdwr => Syscall.openRdwr
  | MqOpenPc.stat => Syscall.stat
  | MqOpenPc.sleep => Syscall.sleep
  | MqOpenPc.closeAgain => Syscall.close l.fd
  | MqOpenPc.mmapOld => Syscall.mmap l.fd l.filesize
  | MqOpenPc.closeOld => Syscall.close l.fd
  | MqOpenPc.mallocOld => Syscall.malloc
  | MqOpenPc.errUnlink => Syscall.unlink
  | MqOpenPc.errMunmap => Syscall.munmap l.mptr l.filesize
  | MqOpenPc.errFree => Syscall.free
  | MqOpenPc.errClose => Syscall.close l.fd

def mqOpenNext (l : MqOpenLoc) (r : SysResult) : After MqOpenLoc :=
  match l.pc, r with
  | MqOpenPc.openExcl, SysResult.opened f => After.goes (l.create f)
  | MqOpenPc.openExcl, SysResult.failed e =>
      if e = Errno.EEXIST ∧ l.args.o_excl = false then
        After.goes { l with fd := none, pc := MqOpenPc.openRdwr }
      else
        After.returns (Except.error e)
  | MqOpenPc.openExcl, _ => After.returns (Except.error Errno.EBADF)
  | MqOpenPc.lseek, r => orErr { l with pc := MqOpenPc.write } l.err r
  | MqOpenPc.write, r => orErr { l with pc := MqOpenPc.mmapNew } l.err r
  | MqOpenPc.mmapNew, r => orErr { l with mptr := l.fd, pc := MqOpenPc.mallocNew } l.err r
  | MqOpenPc.mallocNew, r => orErr { l with mqinfo := true, pc := MqOpenPc.initHeader } l.err r
  | MqOpenPc.initHeader, _ => After.goes { l with pc := MqOpenPc.mutexattrInit }
  | MqOpenPc.mutexattrInit, r => orErr { l with pc := MqOpenPc.mutexInit } l.err r
  | MqOpenPc.mutexInit, r => orErr { l with pc := MqOpenPc.condattrInit } l.err r
  | MqOpenPc.condattrInit, r => orErr { l with pc := MqOpenPc.condInit } l.err r
  | MqOpenPc.condInit, r => orErr { l with pc := MqOpenPc.fchmod } l.err r
  | MqOpenPc.fchmod, r => orErr { l with pc := MqOpenPc.closeNew } l.err r
  | MqOpenPc.closeNew, _ => After.returns (Except.ok ⟨l.mptr, l.filesize⟩)
  | MqOpenPc.openRdwr, SysResult.opened f => After.goes { l with fd := some f, i := 0 }.tries
  | MqOpenPc.openRdwr, SysResult.failed e =>
      if e = Errno.ENOENT ∧ l.args.o_creat = true then
        After.goes { l with fd := none }.again
      else
        After.goes ({ l with fd := none }.err e)
  | MqOpenPc.openRdwr, _ => After.goes (l.err Errno.EBADF)
  | MqOpenPc.stat, SysResult.status xusr size =>
      if xusr = false then
        After.goes { l with pc := MqOpenPc.mmapOld, filesize := size }
      else
        After.goes { l with pc := MqOpenPc.sleep }
  | MqOpenPc.stat, SysResult.failed e =>
      if e = Errno.ENOENT ∧ l.args.o_creat = true then
        After.goes { l with pc := MqOpenPc.closeAgain }
      else
        After.goes (l.err e)
  | MqOpenPc.stat, _ => After.goes (l.err Errno.EBADF)
  | MqOpenPc.sleep, _ => After.goes { l with i := l.i + 1 }.tries
  | MqOpenPc.closeAgain, _ => After.goes l.again
  | MqOpenPc.mmapOld, r => orErr { l with mptr := l.fd, pc := MqOpenPc.closeOld } l.err r
  | MqOpenPc.closeOld, _ => After.goes { l with pc := MqOpenPc.mallocOld }
  | MqOpenPc.mallocOld, SysResult.failed e => After.goes (l.err e)
  | MqOpenPc.mallocOld, _ => After.returns (Except.ok ⟨l.mptr, l.filesize⟩)
  | MqOpenPc.errUnlink, _ => After.goes l.afterUnlink
  | MqOpenPc.errMunmap, _ => After.goes l.afterMunmap
  | MqOpenPc.errFree, _ => After.goes { l with pc := MqOpenPc.errClose }
  | MqOpenPc.errClose, _ => After.returns (Except.error l.errno)

def mqOpenCode : OpenCode MqOpenArgs MqOpenLoc :=
  { start := mqOpenStart, fd := MqOpenLoc.fd, request := mqOpenRequest, next := mqOpenNext }

/-!
## What a system call leads to
-/

namespace MqOpenLoc

theorem next_openExcl_failed {l : MqOpenLoc} {e : Errno} {after : After MqOpenLoc}
    (hpc : l.pc = MqOpenPc.openExcl) (h : mqOpenNext l (SysResult.failed e) = after) :
    (e = Errno.EEXIST ∧ l.args.o_excl = false) ∧
        after = After.goes { l with fd := none, pc := MqOpenPc.openRdwr } ∨
      ¬ (e = Errno.EEXIST ∧ l.args.o_excl = false) ∧ after = After.returns (Except.error e) := by
  rcases l with ⟨pc, args, created, fd, filesize, mptr, mqinfo, i, errno⟩
  cases hpc
  by_cases hcond : e = Errno.EEXIST ∧ args.o_excl = false
  · exact Or.inl ⟨hcond, h.symm.trans (if_pos hcond)⟩
  · exact Or.inr ⟨hcond, h.symm.trans (if_neg hcond)⟩

theorem next_openRdwr_failed {l : MqOpenLoc} {e : Errno} {after : After MqOpenLoc}
    (hpc : l.pc = MqOpenPc.openRdwr) (h : mqOpenNext l (SysResult.failed e) = after) :
    (e = Errno.ENOENT ∧ l.args.o_creat = true) ∧
        after = After.goes { l with fd := none }.again ∨
      ¬ (e = Errno.ENOENT ∧ l.args.o_creat = true) ∧
        after = After.goes ({ l with fd := none }.err e) := by
  rcases l with ⟨pc, args, created, fd, filesize, mptr, mqinfo, i, errno⟩
  cases hpc
  by_cases hcond : e = Errno.ENOENT ∧ args.o_creat = true
  · exact Or.inl ⟨hcond, h.symm.trans (if_pos hcond)⟩
  · exact Or.inr ⟨hcond, h.symm.trans (if_neg hcond)⟩

theorem next_stat_failed {l : MqOpenLoc} {e : Errno} {after : After MqOpenLoc}
    (hpc : l.pc = MqOpenPc.stat) (h : mqOpenNext l (SysResult.failed e) = after) :
    (e = Errno.ENOENT ∧ l.args.o_creat = true) ∧
        after = After.goes { l with pc := MqOpenPc.closeAgain } ∨
      ¬ (e = Errno.ENOENT ∧ l.args.o_creat = true) ∧ after = After.goes (l.err e) := by
  rcases l with ⟨pc, args, created, fd, filesize, mptr, mqinfo, i, errno⟩
  cases hpc
  by_cases hcond : e = Errno.ENOENT ∧ args.o_creat = true
  · exact Or.inl ⟨hcond, h.symm.trans (if_pos hcond)⟩
  · exact Or.inr ⟨hcond, h.symm.trans (if_neg hcond)⟩

theorem next_returns {l : MqOpenLoc} {r : SysResult} {ret : Except Errno Descriptor}
    (h : mqOpenNext l r = After.returns ret) :
    (l.pc = MqOpenPc.openExcl ∧ (forall f, r ≠ SysResult.opened f) ∧
        exists e, ret = Except.error e) ∨
      (l.pc = MqOpenPc.closeNew ∧ ret = Except.ok ⟨l.mptr, l.filesize⟩) ∨
      (l.pc = MqOpenPc.mallocOld ∧ r.Success ∧ ret = Except.ok ⟨l.mptr, l.filesize⟩) ∨
      (l.pc = MqOpenPc.errClose ∧ ret = Except.error l.errno) := by
  rcases l with ⟨pc, args, created, fd, filesize, mptr, mqinfo, i, errno⟩
  cases pc with
  | openExcl =>
      cases r with
      | opened f => cases h
      | failed e =>
          rcases next_openExcl_failed rfl h with ⟨_, hgoes⟩ | ⟨_, hreturns⟩
          · cases hgoes
          · cases hreturns
            exact Or.inl ⟨rfl, fun f hf => (by cases hf), e, rfl⟩
      | ok =>
          cases h
          exact Or.inl ⟨rfl, fun f hf => (by cases hf), _, rfl⟩
      | status xusr size =>
          cases h
          exact Or.inl ⟨rfl, fun f hf => (by cases hf), _, rfl⟩
  | closeNew =>
      cases h
      exact Or.inr (Or.inl ⟨rfl, rfl⟩)
  | mallocOld =>
      cases r with
      | failed e => cases h
      | _ =>
          cases h
          exact Or.inr (Or.inr (Or.inl ⟨rfl, fun e he => (by cases he), rfl⟩))
  | errClose =>
      cases h
      exact Or.inr (Or.inr (Or.inr ⟨rfl, rfl⟩))
  | openRdwr =>
      cases r with
      | failed e =>
          rcases next_openRdwr_failed rfl h with ⟨_, hgoes⟩ | ⟨_, hgoes⟩ <;> cases hgoes
      | _ => cases h
  | stat =>
      cases r with
      | failed e => rcases next_stat_failed rfl h with ⟨_, hgoes⟩ | ⟨_, hgoes⟩ <;> cases hgoes
      | status xusr size => cases xusr <;> cases h
      | _ => cases h
  | initHeader => cases h
  | sleep => cases h
  | closeAgain => cases h
  | closeOld => cases h
  | errUnlink => cases h
  | errMunmap => cases h
  | errFree => cases h
  | _ => exact absurd h (orErr_ne_returns _ _ r _)

end MqOpenLoc

/-!
## Its stages
-/

namespace MqOpenLoc

def stage (l : MqOpenLoc) : Stage :=
  match l.pc, l.fd with
  | MqOpenPc.lseek, some f => Stage.creating f false false false none
  | MqOpenPc.write, some f => Stage.creating f false false false none
  | MqOpenPc.mmapNew, some f => Stage.creating f false false false (some l.filesize)
  | MqOpenPc.mallocNew, some f => Stage.creating f false false false (some l.filesize)
  | MqOpenPc.initHeader, some f => Stage.creating f false false false (some l.filesize)
  | MqOpenPc.mutexattrInit, some f => Stage.creating f true false false (some l.filesize)
  | MqOpenPc.mutexInit, some f => Stage.creating f true false false (some l.filesize)
  | MqOpenPc.condattrInit, some f => Stage.creating f true true false (some l.filesize)
  | MqOpenPc.condInit, some f => Stage.creating f true true false (some l.filesize)
  | MqOpenPc.fchmod, some f => Stage.creating f true true true (some l.filesize)
  | MqOpenPc.closeNew, some f => Stage.trusting f (some l.filesize)
  | MqOpenPc.stat, some f => Stage.opened f
  | MqOpenPc.sleep, some f => Stage.opened f
  | MqOpenPc.mmapOld, some f => Stage.trusting f (some l.filesize)
  | MqOpenPc.closeOld, some f => Stage.trusting f (some l.filesize)
  | MqOpenPc.mallocOld, some f => Stage.trusting f (some l.filesize)
  | _, _ => Stage.nothing

def HasFile (l : MqOpenLoc) : Prop :=
  exists f, l.fd = some f

def HasMapping (l : MqOpenLoc) : Prop :=
  exists f, l.fd = some f ∧ l.mptr = some f

/-- Where the code uses its descriptor it has one, and its mapping is of the same file. -/
def Ok (l : MqOpenLoc) : Prop :=
  match l.pc with
  | MqOpenPc.lseek => l.HasFile
  | MqOpenPc.write => l.HasFile
  | MqOpenPc.mmapNew => l.HasFile
  | MqOpenPc.mallocNew => l.HasMapping
  | MqOpenPc.initHeader => l.HasMapping
  | MqOpenPc.mutexattrInit => l.HasMapping
  | MqOpenPc.mutexInit => l.HasMapping
  | MqOpenPc.condattrInit => l.HasMapping
  | MqOpenPc.condInit => l.HasMapping
  | MqOpenPc.fchmod => l.HasMapping
  | MqOpenPc.closeNew => l.HasMapping
  | MqOpenPc.stat => l.HasFile
  | MqOpenPc.sleep => l.HasFile
  | MqOpenPc.mmapOld => l.HasFile
  | MqOpenPc.closeOld => l.HasMapping
  | MqOpenPc.mallocOld => l.HasMapping
  | _ => True

def Idle (l : MqOpenLoc) : Prop :=
  l.Ok ∧ l.stage = Stage.nothing

theorem again_idle (l : MqOpenLoc) : l.again.Idle := by
  unfold again
  split <;> exact ⟨trivial, rfl⟩

theorem afterMunmap_idle (l : MqOpenLoc) : l.afterMunmap.Idle := by
  unfold afterMunmap
  split <;> exact ⟨trivial, rfl⟩

theorem afterUnlink_idle (l : MqOpenLoc) : l.afterUnlink.Idle := by
  unfold afterUnlink
  split
  · exact ⟨trivial, rfl⟩
  · exact l.afterMunmap_idle

theorem err_idle (l : MqOpenLoc) (e : Errno) : (l.err e).Idle := by
  unfold err
  split
  · exact ⟨trivial, rfl⟩
  · exact afterUnlink_idle _

theorem tries_moves {l : MqOpenLoc} {f : Nat} {v : Stage} {c : Syscall} {r : SysResult}
    (hf : l.fd = some f) (hmove : Move true v c r (Stage.opened f)) :
    l.tries.Ok ∧ Move true v c r l.tries.stage := by
  unfold tries
  split
  · simp only [Ok, HasFile, stage, hf]
    exact ⟨⟨f, rfl⟩, hmove⟩
  · exact forgets_moves (l.err_idle _) _ _ _

theorem create_moves (l : MqOpenLoc) (f : Nat) (v : Stage) :
    (l.create f).Ok ∧ Move true v Syscall.openExcl (SysResult.opened f) (l.create f).stage := by
  unfold create
  simp only []
  split
  · exact forgets_moves (err_idle _ _) _ _ _
  · exact ⟨⟨f, rfl⟩, Move.creates v f⟩

theorem moves {l l' : MqOpenLoc} {r : SysResult} (hok : l.Ok)
    (h : mqOpenNext l r = After.goes l') :
    l'.Ok ∧ Move true l.stage (mqOpenRequest l) r l'.stage := by
  rcases l with ⟨pc, args, created, fd, filesize, mptr, mqinfo, i, errno⟩
  cases pc with
  | openExcl =>
      cases r with
      | opened f =>
          cases h
          exact create_moves _ f _
      | failed e =>
          rcases next_openExcl_failed rfl h with ⟨_, hgoes⟩ | ⟨_, hreturns⟩
          · cases hgoes
            exact ⟨trivial, Move.forgets _ _ _⟩
          · cases hreturns
      | ok => cases h
      | status xusr size => cases h
  | lseek =>
      rcases hok with ⟨f, rfl⟩
      exact orErr_moves h (err_idle _) ⟨f, rfl⟩ fun _ => Move.stays _ r rfl
  | write =>
      rcases hok with ⟨f, rfl⟩
      exact orErr_moves h (err_idle _) ⟨f, rfl⟩ fun hr => Move.writes f _ _ _ _ _ hr
  | mmapNew =>
      rcases hok with ⟨f, rfl⟩
      exact orErr_moves h (err_idle _) ⟨f, rfl, rfl⟩ fun _ => Move.stays _ r rfl
  | mallocNew =>
      rcases hok with ⟨f, rfl, rfl⟩
      exact orErr_moves h (err_idle _) ⟨f, rfl, rfl⟩ fun _ => Move.stays _ r rfl
  | initHeader =>
      rcases hok with ⟨f, rfl, rfl⟩
      cases h
      exact ⟨⟨f, rfl, rfl⟩, Move.stores f _ _ _ _ r⟩
  | mutexattrInit =>
      rcases hok with ⟨f, rfl, rfl⟩
      exact orErr_moves h (err_idle _) ⟨f, rfl, rfl⟩ fun _ => Move.stays _ r rfl
  | mutexInit =>
      rcases hok with ⟨f, rfl, rfl⟩
      exact orErr_moves h (err_idle _) ⟨f, rfl, rfl⟩ fun hr => Move.mutex f _ _ _ _ hr
  | condattrInit =>
      rcases hok with ⟨f, rfl, rfl⟩
      exact orErr_moves h (err_idle _) ⟨f, rfl, rfl⟩ fun _ => Move.stays _ r rfl
  | condInit =>
      rcases hok with ⟨f, rfl, rfl⟩
      exact orErr_moves h (err_idle _) ⟨f, rfl, rfl⟩ fun hr => Move.cond f _ _ _ _ hr
  | fchmod =>
      rcases hok with ⟨f, rfl, rfl⟩
      exact orErr_moves h (err_idle _) ⟨f, rfl, rfl⟩ fun hr => Move.clears f _ hr
  | closeNew => cases h
  | openRdwr =>
      cases r with
      | opened f =>
          cases h
          exact tries_moves rfl (Move.opens _ f)
      | failed e =>
          rcases next_openRdwr_failed rfl h with ⟨_, hgoes⟩ | ⟨_, hgoes⟩
          · cases hgoes
            exact forgets_moves (again_idle _) _ _ _
          · cases hgoes
            exact forgets_moves (err_idle _ e) _ _ _
      | ok =>
          cases h
          exact forgets_moves (err_idle _ _) _ _ _
      | status xusr size =>
          cases h
          exact forgets_moves (err_idle _ _) _ _ _
  | stat =>
      rcases hok with ⟨f, rfl⟩
      cases r with
      | status xusr size =>
          cases xusr with
          | false =>
              cases h
              exact ⟨⟨f, rfl⟩, Move.trusts f size⟩
          | true =>
              cases h
              exact ⟨⟨f, rfl⟩, Move.stays _ _ rfl⟩
      | failed e =>
          rcases next_stat_failed rfl h with ⟨_, hgoes⟩ | ⟨_, hgoes⟩
          · cases hgoes
            exact ⟨trivial, Move.forgets _ _ _⟩
          · cases hgoes
            exact forgets_moves (err_idle _ e) _ _ _
      | ok =>
          cases h
          exact forgets_moves (err_idle _ _) _ _ _
      | opened g =>
          cases h
          exact forgets_moves (err_idle _ _) _ _ _
  | sleep =>
      rcases hok with ⟨f, rfl⟩
      cases h
      exact tries_moves rfl (Move.stays _ r rfl)
  | closeAgain =>
      cases h
      exact forgets_moves (again_idle _) _ _ _
  | mmapOld =>
      rcases hok with ⟨f, rfl⟩
      exact orErr_moves h (err_idle _) ⟨f, rfl, rfl⟩ fun _ => Move.stays _ r rfl
  | closeOld =>
      rcases hok with ⟨f, rfl, rfl⟩
      cases h
      exact ⟨⟨f, rfl, rfl⟩, Move.stays _ r rfl⟩
  | mallocOld =>
      cases r with
      | failed e =>
          cases h
          exact forgets_moves (err_idle _ e) _ _ _
      | ok => cases h
      | opened f => cases h
      | status xusr size => cases h
  | errUnlink =>
      cases h
      exact forgets_moves (afterUnlink_idle _) _ _ _
  | errMunmap =>
      cases h
      exact forgets_moves (afterMunmap_idle _) _ _ _
  | errFree =>
      cases h
      exact ⟨trivial, Move.forgets _ _ r⟩
  | errClose => cases h

theorem changes {l : MqOpenLoc} {f : Nat} (hok : l.Ok)
    (h : (mqOpenRequest l).changes = some f) : l.stage.creator = some f := by
  rcases l with ⟨pc, args, created, fd, filesize, mptr, mqinfo, i, errno⟩
  cases pc with
  | write =>
      rcases hok with ⟨g, rfl⟩
      exact h
  | initHeader =>
      rcases hok with ⟨g, rfl, rfl⟩
      exact h
  | mutexInit =>
      rcases hok with ⟨g, rfl, rfl⟩
      exact h
  | condInit =>
      rcases hok with ⟨g, rfl, rfl⟩
      exact h
  | fchmod =>
      rcases hok with ⟨g, rfl, rfl⟩
      exact h
  | _ => cases h

theorem clears {l : MqOpenLoc} {f : Nat} (hok : l.Ok)
    (h : mqOpenRequest l = Syscall.fchmod (some f)) :
    l.stage = Stage.creating f true true true (some l.filesize) := by
  rcases l with ⟨pc, args, created, fd, filesize, mptr, mqinfo, i, errno⟩
  cases pc with
  | fchmod =>
      rcases hok with ⟨g, rfl, rfl⟩
      cases h
      rfl
  | _ => cases h

theorem asks {l : MqOpenLoc} (hok : l.Ok) (h : mqOpenRequest l = Syscall.stat) :
    exists f, l.fd = some f ∧ l.stage = Stage.opened f := by
  rcases l with ⟨pc, args, created, fd, filesize, mptr, mqinfo, i, errno⟩
  cases pc with
  | stat =>
      rcases hok with ⟨f, rfl⟩
      exact ⟨f, rfl, rfl⟩
  | _ => cases h

theorem returns {l : MqOpenLoc} {r : SysResult} {d : Descriptor} (hok : l.Ok)
    (h : mqOpenNext l r = After.returns (Except.ok d)) :
    (mqOpenRequest l).changes = none ∧
      exists f, d.file = some f ∧ l.stage = Stage.trusting f (some d.length) := by
  rcases l with ⟨pc, args, created, fd, filesize, mptr, mqinfo, i, errno⟩
  rcases next_returns h with ⟨rfl, _, e, he⟩ | ⟨rfl, hd⟩ | ⟨rfl, _, hd⟩ | ⟨rfl, he⟩
  · cases he
  · rcases hok with ⟨f, rfl, rfl⟩
    cases hd
    exact ⟨rfl, f, rfl, rfl⟩
  · rcases hok with ⟨f, rfl, rfl⟩
    cases hd
    exact ⟨rfl, f, rfl, rfl⟩
  · cases he

end MqOpenLoc

def mqOpenFollows : Follows mqOpenCode true where
  stage := MqOpenLoc.stage
  Ok := MqOpenLoc.Ok
  start := fun _ => MqOpenLoc.again_idle _
  changes := fun _ _ hok h => MqOpenLoc.changes hok h
  clears := fun _ _ hok h => ⟨_, MqOpenLoc.clears hok h⟩
  asks := fun _ hok h => MqOpenLoc.asks hok h
  moves := fun _ _ _ hok h => MqOpenLoc.moves hok h
  returns := by
    intro l r d hok h
    rcases MqOpenLoc.returns hok h with ⟨hchanges, f, hfile, hstage⟩
    exact ⟨hchanges, f, _, hfile, hstage, fun _ => rfl⟩

end Opening
end InterprocessComm
