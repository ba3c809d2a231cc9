import InterprocessComm.Lib.Transition
import InterprocessComm.Opening.FileSystem

/-!
# The open protocol

An open function is an automaton that makes one system call after another.  Any
number of processes run it on one pathname, every call may fail, and the name may
be removed at any time.  What an automaton does with a file is followed through
the stages of the protocol: creating it, having opened it, and trusting it.
-/

namespace InterprocessComm
namespace Opening

open Verification

structure Descriptor where
  file : Option Nat
  length : Int
deriving DecidableEq

inductive After (loc : Type) where
  | goes (l : loc)
  | returns (ret : Except Errno Descriptor)

def orErr {loc : Type} (next : loc) (err : Errno -> loc) : SysResult -> After loc
  | SysResult.failed e => After.goes (err e)
  | _ => After.goes next

/-- An open function between two of its system calls; `fd` is its descriptor
variable. -/
structure OpenCode (args loc : Type) where
  start : args -> loc
  fd : loc -> Option Nat
  request : loc -> Syscall
  next : loc -> SysResult -> After loc

structure OpenState (proc loc : Type) where
  fs : Fs
  calls : proc -> Option loc

/-- A process calls the function, or makes its next system call with or without a
fault, in which a store can kill it; or somebody removes the name. -/
inductive OpenAction (proc args : Type) where
  | call (p : proc) (a : args)
  | syscall (p : proc) (fault : Option Errno)
  | unlink

abbrev OpenTransition (proc args loc : Type) : Type :=
  Transition (OpenState proc loc) (OpenAction proc args) (Option (Except Errno Descriptor))

section System

variable {proc args loc : Type} [DecidableEq proc]

def openStep (code : OpenCode args loc) (s : OpenState proc loc) :
    OpenAction proc args -> Option (OpenState proc loc × Option (Except Errno Descriptor))
  | OpenAction.call p a =>
      match s.calls p with
      | some _ => none
      | none =>
          some ({ s with calls := Function.update s.calls p (some (code.start a)) }, none)
  | OpenAction.syscall p fault =>
      match s.calls p with
      | none => none
      | some l =>
          if s.fs.kills (code.request l) then
            some ({ s with calls := Function.update s.calls p none }, none)
          else
            let done := s.fs.exec (code.request l) fault
            match code.next l done.2 with
            | After.goes l' =>
                some ({ fs := done.1, calls := Function.update s.calls p (some l') }, none)
            | After.returns ret =>
                some ({ fs := done.1, calls := Function.update s.calls p none }, some ret)
  | OpenAction.unlink => some ({ s with fs := { s.fs with name := none } }, none)

structure OpenInit (s : OpenState proc loc) : Prop where
  calls : forall p, s.calls p = none
  name : forall f, s.fs.name = some f -> f < s.fs.next
  files : forall f, f < s.fs.next -> (s.fs.files f).Complete

/-- A descriptor that is returned is mapped onto an initialised file, and where asked
has the length of this file. -/
def DescriptorGood (sized : Bool) (e : OpenTransition proc args loc) : Prop :=
  forall d, e.event = some (Except.ok d) ->
    exists f, d.file = some f ∧ (e.target.fs.files f).Complete ∧
      (sized = true -> d.length = (e.target.fs.files f).size)

instance (sized : Bool) (e : OpenTransition proc args loc) :
    Decidable (DescriptorGood sized e) :=
  match hevent : e.event with
  | some (Except.ok ⟨some f, n⟩) =>
      decidable_of_iff ((e.target.fs.files f).Complete ∧
          (sized = true -> n = (e.target.fs.files f).size)) (by
        constructor
        · intro h d hd
          rw [hevent] at hd
          cases hd
          exact ⟨f, rfl, h⟩
        · intro h
          rcases h _ hevent with ⟨g, hg, hgood⟩
          cases hg
          exact hgood)
  | some (Except.ok ⟨none, n⟩) => isFalse (by
      intro h
      rcases h _ hevent with ⟨f, hf, _⟩
      cases hf)
  | some (Except.error _) => isTrue (fun d hd => by rw [hevent] at hd; cases hd)
  | none => isTrue (fun d hd => by rw [hevent] at hd; cases hd)

/-- The file a process has open and the one the name denotes, when it calls `stat`. -/
def statFiles (code : OpenCode args loc) (e : OpenTransition proc args loc) :
    Option (Nat × Nat) :=
  match e.action with
  | OpenAction.syscall p _ =>
      match e.source.calls p with
      | some l =>
          match code.request l, code.fd l, e.source.fs.name with
          | Syscall.stat, some f, some g => some (f, g)
          | _, _, _ => none
      | none => none
  | _ => none

/-- When `stat` finds the user-execute bit cleared on a file that has replaced the one the
process has open, the bit of that one is cleared too, and where asked the two files have
the same size. -/
def StatTrusted (code : OpenCode args loc) (sized : Bool)
    (e : OpenTransition proc args loc) : Prop :=
  forall q, q ∈ statFiles code e -> q.2 ≠ q.1 -> (e.source.fs.files q.2).xusr = false ->
    (e.source.fs.files q.1).xusr = false ∧
      (sized = true -> (e.source.fs.files q.1).size = (e.source.fs.files q.2).size)

instance (code : OpenCode args loc) (sized : Bool) (e : OpenTransition proc args loc) :
    Decidable (StatTrusted code sized e) :=
  inferInstanceAs (Decidable (forall q, q ∈ statFiles code e -> _))

end System

/-!
## Stages
-/

/-- What an automaton knows of a file: nothing, how far it has come in creating it, that
it opened it, or that it is initialised and perhaps how long it is. -/
inductive Stage where
  | nothing
  | creating (f : Nat) (stored mutex cond : Bool) (size : Option Int)
  | opened (f : Nat)
  | trusting (f : Nat) (size : Option Int)

namespace Stage

def creator : Stage -> Option Nat
  | creating f _ _ _ _ => some f
  | _ => none

def Holds (fs : Fs) : Stage -> Prop
  | nothing => True
  | creating f stored mutex cond size =>
      f < fs.next ∧ (fs.files f).xusr = true ∧ (stored = true -> (fs.files f).stored = true) ∧
        (mutex = true -> (fs.files f).mutex = true) ∧
        (cond = true -> (fs.files f).cond = true) ∧
        (forall n, size = some n -> (fs.files f).size = n)
  | opened f => f < fs.next
  | trusting f size =>
      f < fs.next ∧ (fs.files f).Complete ∧ (forall n, size = some n -> (fs.files f).size = n)

end Stage

inductive Move (sized : Bool) : Stage -> Syscall -> SysResult -> Stage -> Prop where
  | forgets (v : Stage) (c : Syscall) (r : SysResult) : Move sized v c r Stage.nothing
  | stays (v : Stage) {c : Syscall} (r : SysResult) (h : c.changes = none) : Move sized v c r v
  | creates (v : Stage) (f : Nat) :
      Move sized v Syscall.openExcl (SysResult.opened f)
        (Stage.creating f false false false none)
  | writes (f : Nat) (st mu co : Bool) (size : Option Int) (n : Int) {r : SysResult}
      (h : r.Success) :
      Move sized (Stage.creating f st mu co size) (Syscall.write (some f) n) r
        (Stage.creating f st mu co (some n))
  | stores (f : Nat) (st mu co : Bool) (size : Option Int) (r : SysResult) :
      Move sized (Stage.creating f st mu co size) (Syscall.store (some f)) r
        (Stage.creating f true mu co size)
  | mutex (f : Nat) (st mu co : Bool) (size : Option Int) {r : SysResult} (h : r.Success) :
      Move sized (Stage.creating f st mu co size) (Syscall.mutexInit (some f)) r
        (Stage.creating f st true co size)
  | cond (f : Nat) (st mu co : Bool) (size : Option Int) {r : SysResult} (h : r.Success) :
      Move sized (Stage.creating f st mu co size) (Syscall.condInit (some f)) r
        (Stage.creating f st mu true size)
  | clears (f : Nat) (size : Option Int) {r : SysResult} (h : r.Success) :
      Move sized (Stage.creating f true true true size) (Syscall.fchmod (some f)) r
        (Stage.trusting f size)
  | opens (v : Stage) (f : Nat) :
      Move sized v Syscall.openRdwr (SysResult.opened f) (Stage.opened f)
  | trusts (f : Nat) (n : Int) :
      Move sized (Stage.opened f) Syscall.stat (SysResult.status false n)
        (Stage.trusting f (if sized then some n else none))

theorem Move.creator {sized : Bool} {v v' : Stage} {c : Syscall} {r : SysResult} {f : Nat}
    (h : Move sized v c r v') (hf : v'.creator = some f) :
    v.creator = some f ∨ c = Syscall.openExcl ∧ r = SysResult.opened f := by
  cases h with
  | forgets v c r => cases hf
  | stays v r h => exact Or.inl hf
  | creates v g =>
      cases hf
      exact Or.inr ⟨rfl, rfl⟩
  | writes g st mu co size n hr => exact Or.inl hf
  | stores g st mu co size r => exact Or.inl hf
  | mutex g st mu co size hr => exact Or.inl hf
  | cond g st mu co size hr => exact Or.inl hf
  | clears g size hr => cases hf
  | opens v g => cases hf
  | trusts g n => cases hf

/-- The code of an open function follows the stages: it changes only a file that it
creates, clears the bit of a file last, and returns what it trusts. `Ok` is
what holds of its variables. -/
structure Follows {args loc : Type} (code : OpenCode args loc) (sized : Bool) where
  stage : loc -> Stage
  Ok : loc -> Prop
  start : forall a, Ok (code.start a) ∧ stage (code.start a) = Stage.nothing
  changes : forall l f, Ok l -> (code.request l).changes = some f ->
    (stage l).creator = some f
  clears : forall l f, Ok l -> code.request l = Syscall.fchmod (some f) ->
    exists size, stage l = Stage.creating f true true true size
  asks : forall l, Ok l -> code.request l = Syscall.stat ->
    exists f, code.fd l = some f ∧ stage l = Stage.opened f
  moves : forall l r l', Ok l -> code.next l r = After.goes l' ->
    Ok l' ∧ Move sized (stage l) (code.request l) r (stage l')
  returns : forall l r d, Ok l -> code.next l r = After.returns (Except.ok d) ->
    (code.request l).changes = none ∧
      exists f size, d.file = some f ∧ stage l = Stage.trusting f size ∧
        (sized = true -> size = some d.length)

section OrErr

variable {loc : Type} {sized : Bool}

theorem orErr_ne_returns (next : loc) (err : Errno -> loc) (r : SysResult)
    (ret : Except Errno Descriptor) : orErr next err r ≠ After.returns ret := by
  intro h
  cases r <;> cases h

theorem orErr_goes {next l : loc} {err : Errno -> loc} {r : SysResult}
    (h : orErr next err r = After.goes l) :
    (exists e, r = SysResult.failed e ∧ l = err e) ∨ r.Success ∧ l = next := by
  cases r with
  | failed e =>
      cases h
      exact Or.inl ⟨e, rfl, rfl⟩
  | ok =>
      cases h
      exact Or.inr ⟨fun e he => (by cases he), rfl⟩
  | opened f =>
      cases h
      exact Or.inr ⟨fun e he => (by cases he), rfl⟩
  | status xusr size =>
      cases h
      exact Or.inr ⟨fun e he => (by cases he), rfl⟩

theorem orErr_rule {P : loc -> Prop} {next l : loc} {err : Errno -> loc} {r : SysResult}
    (h : orErr next err r = After.goes l) (herr : forall e, P (err e)) (hnext : P next) :
    P l := by
  rcases orErr_goes h with ⟨e, _, rfl⟩ | ⟨_, rfl⟩
  · exact herr e
  · exact hnext

variable {Ok : loc -> Prop} {stage : loc -> Stage}

theorem forgets_moves {l : loc} (h : Ok l ∧ stage l = Stage.nothing) (v : Stage) (c : Syscall)
    (r : SysResult) : Ok l ∧ Move sized v c r (stage l) := by
  rcases h with ⟨hok, hstage⟩
  rw [hstage]
  exact ⟨hok, Move.forgets v c r⟩

theorem orErr_moves {next l' : loc} {err : Errno -> loc} {v : Stage} {c : Syscall}
    {r : SysResult} (h : orErr next err r = After.goes l')
    (herr : forall e, Ok (err e) ∧ stage (err e) = Stage.nothing) (hok : Ok next)
    (hmove : r.Success -> Move sized v c r (stage next)) :
    Ok l' ∧ Move sized v c r (stage l') := by
  cases r with
  | failed e =>
      cases h
      exact forgets_moves (herr e) _ _ _
  | ok =>
      cases h
      exact ⟨hok, hmove fun e he => by cases he⟩
  | opened f =>
      cases h
      exact ⟨hok, hmove fun e he => by cases he⟩
  | status xusr size =>
      cases h
      exact ⟨hok, hmove fun e he => by cases he⟩

end OrErr

/-!
## What a system call changes
-/

/-- The name denotes a file, and the files whose bit is cleared are initialised. -/
structure FsInv (fs : Fs) : Prop where
  name : forall f, fs.name = some f -> f < fs.next
  files : forall f, f < fs.next -> (fs.files f).xusr = false -> (fs.files f).Complete

theorem exec_failed_or_run (fs : Fs) (c : Syscall) (fault : Option Errno) :
    (exists e, fs.exec c fault = (fs, SysResult.failed e)) ∨ fs.exec c fault = fs.run c := by
  cases fault with
  | none => exact Or.inr rfl
  | some e => cases c <;> first | exact Or.inr rfl | exact Or.inl ⟨e, rfl⟩

theorem FsInv.update {fs : Fs} {fd : Nat} {change : File -> File} (h : FsInv fs)
    (hfile : fd < fs.next -> (change (fs.files fd)).xusr = false ->
      (change (fs.files fd)).Complete) :
    FsInv (fs.update fd change) := by
  constructor
  · exact h.name
  · intro f hf hxusr
    rcases eq_or_ne f fd with heq | hne
    · subst heq
      simp only [Fs.update, Function.update_self] at hxusr ⊢
      exact hfile hf hxusr
    · simp only [Fs.update, Function.update_of_ne hne] at hxusr ⊢
      exact h.files f hf hxusr

/-- A call changes nothing, or the file it is meant to change, whose bit only `fchmod`
clears, or it creates the next file, or it removes the name. -/
theorem run_cases (fs : Fs) (c : Syscall) :
    (fs.run c).1 = fs ∨
      (exists fd change, c.changes = some fd ∧ fs.run c = (fs.update fd change, SysResult.ok) ∧
        ((forall x, (change x).xusr = x.xusr) ∨
          c = Syscall.fchmod (some fd) ∧ change = fun x => { x with xusr := false })) ∨
      (c = Syscall.openExcl ∧ fs.run c =
        ({ name := some fs.next, files := Function.update fs.files fs.next File.created,
           next := fs.next + 1 }, SysResult.opened fs.next)) ∨
      (fs.run c).1 = { fs with name := none } := by
  cases c with
  | openExcl =>
      cases hname : fs.name with
      | none => exact Or.inr (Or.inr (Or.inl ⟨rfl, by simp only [Fs.run, hname]⟩))
      | some g => exact Or.inl (by simp only [Fs.run, hname])
  | openRdwr => cases hname : fs.name <;> exact Or.inl (by simp only [Fs.run, hname])
  | stat => cases hname : fs.name <;> exact Or.inl (by simp only [Fs.run, hname])
  | lseek fd offset =>
      left
      simp only [Fs.run]
      split <;> rfl
  | write fd size =>
      cases fd with
      | none => exact Or.inl rfl
      | some f => exact Or.inr (Or.inl ⟨f, _, rfl, rfl, Or.inl fun _ => rfl⟩)
  | store fd =>
      cases fd with
      | none => exact Or.inl rfl
      | some f => exact Or.inr (Or.inl ⟨f, _, rfl, rfl, Or.inl fun _ => rfl⟩)
  | mutexInit fd =>
      cases fd with
      | none => exact Or.inl rfl
      | some f => exact Or.inr (Or.inl ⟨f, _, rfl, rfl, Or.inl fun _ => rfl⟩)
  | condInit fd =>
      cases fd with
      | none => exact Or.inl rfl
      | some f => exact Or.inr (Or.inl ⟨f, _, rfl, rfl, Or.inl fun _ => rfl⟩)
  | fchmod fd =>
      cases fd with
      | none => exact Or.inl rfl
      | some f => exact Or.inr (Or.inl ⟨f, _, rfl, rfl, Or.inr ⟨rfl, rfl⟩⟩)
  | unlink => exact Or.inr (Or.inr (Or.inr rfl))
  | storeMagic fd => exact Or.inl rfl
  | mmap fd length => exact Or.inl rfl
  | malloc => exact Or.inl rfl
  | mutexattrInit => exact Or.inl rfl
  | condattrInit => exact Or.inl rfl
  | sleep => exact Or.inl rfl
  | close fd => exact Or.inl rfl
  | munmap fd length => exact Or.inl rfl
  | free => exact Or.inl rfl

theorem run_files (fs : Fs) (c : Syscall) :
    fs.next ≤ (fs.run c).1.next ∧
      forall f, f < fs.next -> c.changes ≠ some f -> (fs.run c).1.files f = fs.files f := by
  rcases run_cases fs c with hsame | ⟨fd, change, hchanges, hupdate, _⟩ | ⟨_, hcreate⟩ | hunlink
  · rw [hsame]
    exact ⟨Nat.le_refl _, fun _ _ _ => rfl⟩
  · rw [hupdate, hchanges]
    refine ⟨Nat.le_refl _, ?_⟩
    intro f _ hne
    exact Function.update_of_ne (fun heq => hne (congrArg some heq.symm)) _ _
  · rw [hcreate]
    refine ⟨Nat.le_succ _, ?_⟩
    intro f hf _
    exact Function.update_of_ne (Nat.ne_of_lt hf) _ _
  · rw [hunlink]
    exact ⟨Nat.le_refl _, fun _ _ _ => rfl⟩

theorem exec_files (fs : Fs) (c : Syscall) (fault : Option Errno) :
    fs.next ≤ (fs.exec c fault).1.next ∧
      forall f, f < fs.next -> c.changes ≠ some f ->
        (fs.exec c fault).1.files f = fs.files f := by
  rcases exec_failed_or_run fs c fault with ⟨e, hfailed⟩ | hrun
  · rw [hfailed]
    exact ⟨Nat.le_refl _, fun _ _ _ => rfl⟩
  · rw [hrun]
    exact run_files fs c

theorem Stage.Holds.frame {fs fs' : Fs} {v : Stage} (h : v.Holds fs)
    (hnext : fs.next ≤ fs'.next)
    (hsame : forall f, f < fs.next -> (v.creator = some f ∨ (fs.files f).xusr = false) ->
      fs'.files f = fs.files f) : v.Holds fs' := by
  cases v with
  | nothing => trivial
  | creating f st mu co size =>
      have hfile := hsame f h.1 (Or.inl rfl)
      simp only [Stage.Holds] at h ⊢
      rw [hfile]
      exact ⟨Nat.lt_of_lt_of_le h.1 hnext, h.2⟩
  | opened f => exact Nat.lt_of_lt_of_le h hnext
  | trusting f size =>
      have hfile := hsame f h.1 (Or.inr h.2.1.1)
      simp only [Stage.Holds] at h ⊢
      rw [hfile]
      exact ⟨Nat.lt_of_lt_of_le h.1 hnext, h.2⟩

theorem Stage.Holds.creator_lt {fs : Fs} {v : Stage} {f : Nat} (h : v.Holds fs)
    (hf : v.creator = some f) : f < fs.next := by
  cases v with
  | creating g st mu co size =>
      cases hf
      exact h.1
  | nothing => cases hf
  | opened g => cases hf
  | trusting g size => cases hf

theorem Stage.Holds.creator_xusr {fs : Fs} {v : Stage} {f : Nat} (h : v.Holds fs)
    (hf : v.creator = some f) : (fs.files f).xusr = true := by
  cases v with
  | creating g st mu co size =>
      cases hf
      exact h.2.1
  | nothing => cases hf
  | opened g => cases hf
  | trusting g size => cases hf

theorem exec_fsInv {fs : Fs} {c : Syscall} {fault : Option Errno} {v : Stage}
    (hinv : FsInv fs) (hholds : v.Holds fs)
    (hchanges : forall f, c.changes = some f -> v.creator = some f)
    (hclears : forall f, c = Syscall.fchmod (some f) ->
      exists size, v = Stage.creating f true true true size) :
    FsInv (fs.exec c fault).1 := by
  rcases exec_failed_or_run fs c fault with ⟨e, hfailed⟩ | hrun
  · rw [hfailed]
    exact hinv
  · rw [hrun]
    rcases run_cases fs c with hsame | ⟨fd, change, hfd, hupdate, hchange⟩ | ⟨_, hcreate⟩ |
      hunlink
    · rw [hsame]
      exact hinv
    · rw [hupdate]
      apply hinv.update
      intro _ hxusr
      rcases hchange with hkeeps | ⟨hfchmod, hclear⟩
      · rw [hkeeps, hholds.creator_xusr (hchanges fd hfd)] at hxusr
        cases hxusr
      · rcases hclears fd hfchmod with ⟨size, hv⟩
        rw [hv] at hholds
        rw [hclear]
        exact ⟨rfl, hholds.2.2.1 rfl, hholds.2.2.2.1 rfl, hholds.2.2.2.2.1 rfl⟩
    · rw [hcreate]
      constructor
      · intro f hf
        cases hf
        exact Nat.lt_succ_self _
      · intro f hf hxusr
        rcases eq_or_ne f fs.next with hnew | hold
        · subst hnew
          simp [File.created] at hxusr
        · simp only [Function.update_of_ne hold] at hxusr ⊢
          exact hinv.files f (Nat.lt_of_le_of_ne (Nat.le_of_lt_succ hf) hold) hxusr
    · rw [hunlink]
      constructor
      · intro f hf
        cases hf
      · exact hinv.files

end Opening
end InterprocessComm
