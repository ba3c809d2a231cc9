import InterprocessComm.Lib.CString
import InterprocessComm.Lib.Transition
import InterprocessComm.LockReg.Operations
import Mathlib.Logic.Function.Basic

/-!
# One daemon

Any number of instances of `onedaemon` start and end at any time, and each takes the lock on the
file for its process id, or gives up.  A lock that fails for another reason than another instance
is only reported.
-/

namespace InterprocessComm
namespace LockReg
namespace Onedaemon

open Verification

def MAXLINE : Nat := 256

def NEWLINE : UInt8 := 10

/-- What `snprintf` leaves in `line`. -/
def line (pid : Pid) : List UInt8 :=
  (decimal pid.val.toNat ++ [NEWLINE]).take (MAXLINE - 1)

inductive Pc where
  | openFile
  | lock
  | testErrno (e : Errno)
  | ftruncate
  | write
  | sleep
  | ended
deriving DecidableEq

def Pc.running : Pc -> Bool
  | ftruncate => true
  | write => true
  | sleep => true
  | _ => false

structure State (proc : Type) where
  file : Option (List UInt8)
  locks : List (RecordLock proc)
  pc : proc -> Pc

inductive Action (proc : Type) where
  | step (p : proc) (fault : Option Errno)
  | kill (p : proc)

inductive Event (proc : Type) where
  | silent
  | failed (p : proc) (e : Errno)

section Step

variable {proc : Type} [DecidableEq proc]

def State.goes (s : State proc) (p : proc) (pc : Pc) : State proc :=
  { s with pc := Function.update s.pc p pc }

def State.ends (s : State proc) (p : proc) : State proc :=
  { s.goes p Pc.ended with locks := releaseAll s.locks p }

/-- `write_lock(pidfd, 0, SEEK_SET, 0)` -/
def lockPidfile (s : State proc) (p : proc) (fault : Option Errno) : Outcome proc :=
  match fault with
  | some e => Outcome.error e
  | none =>
      write_lock s.locks p { offset := 0, size := (s.file.getD []).length } 0 Whence.SEEK_SET 0

def step (pid : proc -> Pid) (s : State proc) : Action proc -> Option (State proc × Event proc)
  | Action.step p fault =>
      match s.pc p with
      | Pc.openFile =>
          some ({ s.goes p Pc.lock with file := some (s.file.getD []) }, Event.silent)
      | Pc.lock =>
          match lockPidfile s p fault with
          | Outcome.waits => none
          | Outcome.error e => some (s.goes p (Pc.testErrno e), Event.failed p e)
          | Outcome.ok locks => some ({ s.goes p Pc.ftruncate with locks := locks }, Event.silent)
      | Pc.testErrno e =>
          if e = Errno.EACCES ∨ e = Errno.EAGAIN then
            some (s.ends p, Event.silent)
          else
            some (s.goes p Pc.ftruncate, Event.silent)
      | Pc.ftruncate => some ({ s.goes p Pc.write with file := some [] }, Event.silent)
      | Pc.write =>
          -- the offset of the descriptor is still 0
          let file := line (pid p) ++ (s.file.getD []).drop (line (pid p)).length
          some ({ s.goes p Pc.sleep with file := some file }, Event.silent)
      | Pc.sleep => some (s.ends p, Event.silent)
      | Pc.ended => none
  | Action.kill p =>
      match s.pc p with
      | Pc.ended => none
      | _ => some (s.ends p, Event.silent)

structure Init (s : State proc) : Prop where
  locks : s.locks = []
  pc : forall p, s.pc p = Pc.openFile

inductive Stepped (pid : proc -> Pid) (s : State proc) (p : proc) (fault : Option Errno) :
    Event proc -> State proc -> Prop where
  | openFile (hpc : s.pc p = Pc.openFile) :
      Stepped pid s p fault Event.silent
        { s.goes p Pc.lock with file := some (s.file.getD []) }
  | fail {e : Errno} (hpc : s.pc p = Pc.lock)
      (hrefused : fault = none ->
        e = Errno.EAGAIN ∧ refused s.locks p LockType.write ByteRange.whole = true) :
      Stepped pid s p fault (Event.failed p e) (s.goes p (Pc.testErrno e))
  | lock (hpc : s.pc p = Pc.lock)
      (hfree : refused s.locks p LockType.write ByteRange.whole = false) :
      Stepped pid s p fault Event.silent
        { s.goes p Pc.ftruncate with
          locks := acquire s.locks p LockType.write ByteRange.whole }
  | goOn {e : Errno} (hpc : s.pc p = Pc.testErrno e)
      (he : e ≠ Errno.EACCES ∧ e ≠ Errno.EAGAIN) :
      Stepped pid s p fault Event.silent (s.goes p Pc.ftruncate)
  | ftruncate (hpc : s.pc p = Pc.ftruncate) :
      Stepped pid s p fault Event.silent { s.goes p Pc.write with file := some [] }
  | write (hpc : s.pc p = Pc.write) :
      Stepped pid s p fault Event.silent
        { s.goes p Pc.sleep with
          file := some (line (pid p) ++ (s.file.getD []).drop (line (pid p)).length) }
  | ends : Stepped pid s p fault Event.silent (s.ends p)

def Action.actor : Action proc -> proc
  | step p _ => p
  | kill p => p

def Action.fault : Action proc -> Option Errno
  | step _ fault => fault
  | kill _ => none

theorem write_lock_whole (locks : List (RecordLock proc)) (p : proc) (pos : Position) :
    write_lock locks p pos 0 Whence.SEEK_SET 0 =
      if refused locks p LockType.write ByteRange.whole then Outcome.error Errno.EAGAIN
      else Outcome.ok (acquire locks p LockType.write ByteRange.whole) := by
  rfl

theorem stepped_of_step {pid : proc -> Pid} {s t : State proc} {a : Action proc} {o : Event proc}
    (hstep : step pid s a = some (t, o)) : Stepped pid s a.actor a.fault o t := by
  cases a with
  | kill p =>
      simp only [step] at hstep
      split at hstep
      · cases hstep
      · cases hstep
        exact Stepped.ends
  | step p fault =>
      simp only [step] at hstep
      cases hpc : s.pc p with
      | openFile =>
          rw [hpc] at hstep
          cases hstep
          exact Stepped.openFile hpc
      | lock =>
          rw [hpc] at hstep
          cases fault with
          | some e =>
              cases hstep
              exact Stepped.fail hpc fun h => by cases h
          | none =>
              simp only [lockPidfile, write_lock_whole] at hstep
              cases hrefused : refused s.locks p LockType.write ByteRange.whole with
              | true =>
                  rw [hrefused] at hstep
                  cases hstep
                  exact Stepped.fail hpc fun _ => ⟨rfl, hrefused⟩
              | false =>
                  rw [hrefused] at hstep
                  cases hstep
                  exact Stepped.lock hpc hrefused
      | testErrno e =>
          rw [hpc] at hstep
          simp only at hstep
          split at hstep
          · cases hstep
            exact Stepped.ends
          · rename_i he
            cases hstep
            exact Stepped.goOn hpc (not_or.mp he)
      | ftruncate =>
          rw [hpc] at hstep
          cases hstep
          exact Stepped.ftruncate hpc
      | write =>
          rw [hpc] at hstep
          cases hstep
          exact Stepped.write hpc
      | sleep =>
          rw [hpc] at hstep
          cases hstep
          exact Stepped.ends
      | ended =>
          rw [hpc] at hstep
          cases hstep

end Step

/-!
# The invariant
-/

section Invariant

variable {proc : Type} [DecidableEq proc] {pid : proc -> Pid}

/-- A failure that the program only reports. -/
def Event.unlocks (p : proc) : Event proc -> Prop
  | silent => False
  | failed q e => q = p ∧ e ≠ Errno.EACCES ∧ e ≠ Errno.EAGAIN

instance (p : proc) : (o : Event proc) -> Decidable (o.unlocks p)
  | Event.silent => isFalse id
  | Event.failed q e => inferInstanceAs (Decidable (q = p ∧ e ≠ Errno.EACCES ∧ e ≠ Errno.EAGAIN))

/-- Who runs has the lock or has gone on without it, and where nobody has gone on without it the
file has the process id of who runs. -/
structure Inv (pid : proc -> Pid) (unlocked : proc -> Prop) (s : State proc) : Prop where
  exclusive : Exclusive s.locks
  owners : forall p t b, Held s.locks p t b -> (s.pc p).running = true
  held : forall p, (s.pc p).running = true ->
    unlocked p ∨ forall b, Held s.locks p LockType.write b
  failed : forall p e, s.pc p = Pc.testErrno e -> e ≠ Errno.EACCES -> e ≠ Errno.EAGAIN ->
    unlocked p
  truncated : (forall p, ¬ unlocked p) -> forall p, s.pc p = Pc.write -> s.file = some []
  written : (forall p, ¬ unlocked p) -> forall p, s.pc p = Pc.sleep ->
    s.file = some (line (pid p))

variable {unlocked unlocked' : proc -> Prop} {s t : State proc} {p q : proc}

theorem goes_self (s : State proc) (p : proc) (pc : Pc) : (s.goes p pc).pc p = pc :=
  Function.update_self ..

theorem goes_of_ne (s : State proc) (pc : Pc) (h : q ≠ p) : (s.goes p pc).pc q = s.pc q :=
  Function.update_of_ne h ..

theorem at_of_goes {pc pc' : Pc} (h : (s.goes p pc).pc q = pc') (hne : pc' ≠ pc) :
    q ≠ p ∧ s.pc q = pc' := by
  rcases eq_or_ne q p with rfl | hother
  · rw [goes_self] at h
    exact absurd h.symm hne
  · rw [goes_of_ne s pc hother] at h
    exact ⟨hother, h⟩

omit [DecidableEq proc] in
theorem Inv.one (h : Inv pid unlocked s) (hp : (s.pc p).running = true)
    (hq : (s.pc q).running = true) (hne : p ≠ q) : unlocked p ∨ unlocked q := by
  rcases h.held p hp with hfree | hmine
  · exact Or.inl hfree
  · rcases h.held q hq with hfree | hother
    · exact Or.inr hfree
    · rcases h.exclusive 0 p q _ _ (hmine 0) (hother 0) with ⟨heq, _⟩ | ⟨hread, _⟩
      · exact absurd heq hne
      · cases hread

theorem Inv.goes (h : Inv pid unlocked s) (hmono : forall q, unlocked q -> unlocked' q) {pc : Pc}
    {file : Option (List UInt8)} (hrun : (s.pc p).running = true -> pc.running = true)
    (hnew : pc.running = true -> (s.pc p).running = true ∨ unlocked' p)
    (hfailed : forall e, pc = Pc.testErrno e -> e ≠ Errno.EACCES -> e ≠ Errno.EAGAIN ->
      unlocked' p)
    (htruncated : (forall q, ¬ unlocked' q) -> forall q, (s.goes p pc).pc q = Pc.write ->
      file = some [])
    (hwritten : (forall q, ¬ unlocked' q) -> forall q, (s.goes p pc).pc q = Pc.sleep ->
      file = some (line (pid q))) :
    Inv pid unlocked' { s.goes p pc with file := file } := by
  constructor
  · exact h.exclusive
  · intro q t b hq
    have hold := h.owners q t b hq
    show ((s.goes p pc).pc q).running = true
    rcases eq_or_ne q p with rfl | hne
    · rw [goes_self]
      exact hrun hold
    · rwa [goes_of_ne s pc hne]
  · intro q hq
    change ((s.goes p pc).pc q).running = true at hq
    have hold : (s.pc q).running = true ∨ unlocked' q := by
      rcases eq_or_ne q p with rfl | hne
      · rw [goes_self] at hq
        exact hnew hq
      · rw [goes_of_ne s pc hne] at hq
        exact Or.inl hq
    rcases hold with hold | hfree
    · rcases h.held q hold with hfree | hmine
      · exact Or.inl (hmono q hfree)
      · exact Or.inr hmine
    · exact Or.inl hfree
  · intro q e hq hacces hagain
    change (s.goes p pc).pc q = Pc.testErrno e at hq
    rcases eq_or_ne q p with rfl | hne
    · rw [goes_self] at hq
      exact hfailed e hq hacces hagain
    · rw [goes_of_ne s pc hne] at hq
      exact hmono q (h.failed q e hq hacces hagain)
  · exact htruncated
  · exact hwritten

theorem Inv.ends (h : Inv pid unlocked s) (p : proc) : Inv pid unlocked (s.ends p) := by
  constructor
  · exact h.exclusive.releaseAll p
  · intro q t b hq
    rcases held_releaseAll.mp hq with ⟨hold, hne⟩
    show ((s.goes p Pc.ended).pc q).running = true
    rw [goes_of_ne s Pc.ended hne]
    exact h.owners q t b hold
  · intro q hq
    have hne : q ≠ p := by
      rintro rfl
      change ((s.goes q Pc.ended).pc q).running = true at hq
      rw [goes_self] at hq
      cases hq
    change ((s.goes p Pc.ended).pc q).running = true at hq
    rw [goes_of_ne s Pc.ended hne] at hq
    rcases h.held q hq with hfree | hmine
    · exact Or.inl hfree
    · exact Or.inr fun b => held_releaseAll.mpr ⟨hmine b, hne⟩
  · intro q e hq
    exact h.failed q e (at_of_goes hq (fun h => by cases h)).2
  · intro hnone q hq
    exact h.truncated hnone q (at_of_goes hq (fun h => by cases h)).2
  · intro hnone q hq
    exact h.written hnone q (at_of_goes hq (fun h => by cases h)).2

theorem Inv.lock (h : Inv pid unlocked s) (hpc : s.pc p = Pc.lock)
    (hfree : refused s.locks p LockType.write ByteRange.whole = false) :
    Inv pid unlocked { s.goes p Pc.ftruncate with
      locks := acquire s.locks p LockType.write ByteRange.whole } := by
  have hmine : forall b, Held (acquire s.locks p LockType.write ByteRange.whole) p
      LockType.write b := fun b =>
    held_acquire.mpr (Or.inl ⟨rfl, rfl, ByteRange.contains_whole b⟩)
  constructor
  · exact h.exclusive.acquire hfree
  · intro q t b hq
    show ((s.goes p Pc.ftruncate).pc q).running = true
    rcases held_acquire.mp hq with ⟨rfl, _, _⟩ | ⟨hold, hkept⟩
    · rw [goes_self]
      rfl
    · have hne : q ≠ p := fun heq => hkept ⟨heq, ByteRange.contains_whole b⟩
      rw [goes_of_ne s Pc.ftruncate hne]
      exact h.owners q t b hold
  · intro q hq
    change ((s.goes p Pc.ftruncate).pc q).running = true at hq
    rcases eq_or_ne q p with rfl | hne
    · exact Or.inr hmine
    · rw [goes_of_ne s Pc.ftruncate hne] at hq
      rcases h.held q hq with hunlocked | hheld
      · exact Or.inl hunlocked
      · exact Or.inr fun b => held_acquire.mpr (Or.inr ⟨hheld b, fun heq => hne heq.1⟩)
  · intro q e hq
    exact h.failed q e (at_of_goes hq (fun h => by cases h)).2
  · intro hnone q hq
    exact h.truncated hnone q (at_of_goes hq (fun h => by cases h)).2
  · intro hnone q hq
    exact h.written hnone q (at_of_goes hq (fun h => by cases h)).2

omit [DecidableEq proc] in
/-- Where nobody has gone on without the lock, who runs is alone. -/
theorem Inv.alone (h : Inv pid unlocked s) (hnone : forall q, ¬ unlocked q)
    (hp : (s.pc p).running = true) (hq : (s.pc q).running = true) : q = p := by
  by_contra hne
  rcases h.one hq hp hne with hfree | hfree
  · exact hnone q hfree
  · exact hnone p hfree

theorem Inv.step (h : Inv pid unlocked s) {a : Action proc} {o : Event proc}
    (hstep : step pid s a = some (t, o)) :
    Inv pid (fun p => unlocked p ∨ o.unlocks p) t := by
  have hsame : Inv pid (fun p => unlocked p ∨ Event.unlocks p (Event.silent : Event proc)) s := by
    simpa [Event.unlocks] using h
  generalize hp : a.actor = p
  have hmove := stepped_of_step hstep
  rw [hp] at hmove
  cases hmove with
  | openFile hpc =>
      refine hsame.goes (fun _ hq => hq) (by simp [hpc, Pc.running]) (by simp [Pc.running])
        (fun e he => by cases he) ?_ ?_
      · intro hnone q hq
        rw [hsame.truncated hnone q (at_of_goes hq (fun h => by cases h)).2]
        rfl
      · intro hnone q hq
        rw [hsame.written hnone q (at_of_goes hq (fun h => by cases h)).2]
        rfl
  | @fail e hpc hrefused =>
      refine h.goes (fun _ hq => Or.inl hq) (by simp [hpc, Pc.running]) (by simp [Pc.running])
        ?_ ?_ ?_
      · intro e' he hacces hagain
        cases he
        exact Or.inr ⟨rfl, hacces, hagain⟩
      · intro hnone q hq
        exact h.truncated (fun q hfree => hnone q (Or.inl hfree)) q
          (at_of_goes hq (fun h => by cases h)).2
      · intro hnone q hq
        exact h.written (fun q hfree => hnone q (Or.inl hfree)) q
          (at_of_goes hq (fun h => by cases h)).2
  | lock hpc hfree => exact hsame.lock hpc hfree
  | @goOn e hpc he =>
      refine hsame.goes (fun _ hq => hq) (fun _ => rfl)
        (fun _ => Or.inr (hsame.failed p e hpc he.1 he.2)) (fun e he => by cases he) ?_ ?_
      · intro hnone q hq
        exact hsame.truncated hnone q (at_of_goes hq (fun h => by cases h)).2
      · intro hnone q hq
        exact hsame.written hnone q (at_of_goes hq (fun h => by cases h)).2
  | ftruncate hpc =>
      have hrun : (s.pc p).running = true := by
        rw [hpc]
        rfl
      refine hsame.goes (fun _ hq => hq) (fun _ => rfl) (fun _ => Or.inl hrun)
        (fun e he => by cases he) (fun _ _ _ => rfl) ?_
      intro hnone q hq
      rcases at_of_goes hq (fun h => by cases h) with ⟨hne, hsleep⟩
      exact absurd (hsame.alone hnone hrun (by rw [hsleep]; rfl)) hne
  | write hpc =>
      have hrun : (s.pc p).running = true := by
        rw [hpc]
        rfl
      refine hsame.goes (fun _ hq => hq) (fun _ => rfl) (fun _ => Or.inl hrun)
        (fun e he => by cases he) ?_ ?_
      · intro hnone q hq
        rcases at_of_goes hq (fun h => by cases h) with ⟨hne, hwrite⟩
        exact absurd (hsame.alone hnone hrun (by rw [hwrite]; rfl)) hne
      · intro hnone q hq
        have hself : q = p := by
          rcases eq_or_ne q p with heq | hne
          · exact heq
          · rw [goes_of_ne s Pc.sleep hne] at hq
            exact hsame.alone hnone hrun (by rw [hq]; rfl)
        rw [hself, hsame.truncated hnone p hpc]
        simp
  | ends => exact hsame.ends p

end Invariant

/-!
# Runs
-/

section Runs

variable {proc : Type} [DecidableEq proc] {pid : proc -> Pid}
  {tr : List (Transition (State proc) (Action proc) (Event proc))} {s : State proc}

def Unlocked (tr : List (Transition (State proc) (Action proc) (Event proc))) (p : proc) : Prop :=
  exists e, e ∈ tr ∧ e.event.unlocks p

theorem inv_run (hrun : Run Init (step pid) tr s) : Inv pid (Unlocked tr) s := by
  refine run_induction (I := fun tr s => Inv pid (Unlocked tr) s) ?_ ?_ hrun
  · intro s hs
    constructor
    · rw [hs.locks]
      exact exclusive_nil
    · rintro p t b ⟨l, hl, _⟩
      rw [hs.locks] at hl
      cases hl
    · intro p hp
      rw [hs.pc p] at hp
      cases hp
    · intro p e hp
      cases (hs.pc p).symm.trans hp
    · intro _ p hp
      cases (hs.pc p).symm.trans hp
    · intro _ p hp
      cases (hs.pc p).symm.trans hp
  · intro tr s a o t _ ih hstep
    have hnext := ih.step hstep
    have heq : Unlocked (tr ++ [⟨s, a, o, t⟩]) = fun p => Unlocked tr p ∨ o.unlocks p := by
      funext p
      simp only [Unlocked, List.mem_append, List.mem_singleton, or_and_right, exists_or,
        exists_eq_left]
    rwa [heq]

/-- Two instances run only where one of them has gone on after a failure of the lock that it only
reported; without such an instance, the file has the process id of the daemon that runs.  A lock
whose call does not fail for a reason of its own fails only beside another instance that runs. -/
theorem one_daemon (hrun : Run Init (step pid) tr s) :
    (forall p q, p ≠ q -> (s.pc p).running = true -> (s.pc q).running = true ->
        Unlocked tr p ∨ Unlocked tr q) ∧
      ((forall p, ¬ Unlocked tr p) ->
        forall p, s.pc p = Pc.sleep -> s.file = some (line (pid p))) ∧
      (forall e, e ∈ tr -> forall p r, e.action = Action.step p none ->
        e.event = Event.failed p r ->
          r = Errno.EAGAIN ∧ exists q, q ≠ p ∧ (e.source.pc q).running = true) := by
  have hinv := inv_run hrun
  refine ⟨fun p q hne hp hq => hinv.one hp hq hne, hinv.written, ?_⟩
  intro e he p r haction hevent
  rcases run_transition hrun he with ⟨⟨front, hfront⟩, hvalid⟩
  rcases e with ⟨s, a, o, t⟩
  have hbefore : Inv pid (Unlocked front) s := inv_run hfront
  have hmove : Stepped pid s a.actor a.fault o t := stepped_of_step hvalid
  simp only at haction hevent
  subst haction hevent
  cases hmove with
  | fail hpc hrefused =>
      rcases hrefused rfl with ⟨heagain, htest⟩
      rcases refused_iff.mp htest with ⟨q, u, b, hne, _, hq, _⟩
      exact ⟨heagain, q, hne, hbefore.owners q u b hq⟩

def firstState (proc : Type) : State proc :=
  { file := none, locks := [], pc := fun _ => Pc.openFile }

theorem init_firstState (proc : Type) : Init (firstState proc) :=
  ⟨rfl, fun _ => rfl⟩

def pidOf (p : Bool) : Pid := if p then ⟨200, by decide⟩ else ⟨100, by decide⟩

/-- The second instance is refused beside the first, and ends. -/
theorem one_daemon_twoInstances :
    exists (tr : List (Transition (State Bool) (Action Bool) (Event Bool))) (s : State Bool),
      Run Init (step pidOf) tr s ∧ s.pc true = Pc.ended ∧ s.pc false = Pc.sleep ∧
        s.file = some (line (pidOf false)) := by
  have hreplay : exists tr s, Run Init (step pidOf) tr s ∧
      (decide (s.pc true = Pc.ended ∧ s.pc false = Pc.sleep) &&
        tr.all fun e => decide (forall p, ¬ e.event.unlocks p)) = true :=
    run_of_replay
      [Action.step false none, Action.step true none, Action.step false none,
        Action.step false none, Action.step true none, Action.step false none,
        Action.step true none]
      (init_firstState Bool) (by decide +kernel)
  rcases hreplay with ⟨tr, s, hrun, htest⟩
  rw [Bool.and_eq_true, decide_eq_true_eq, List.all_eq_true] at htest
  rcases htest with ⟨⟨hended, hsleep⟩, hall⟩
  have hnone : forall p, ¬ Unlocked tr p := by
    rintro p ⟨e, he, hunlocks⟩
    exact of_decide_eq_true (hall e he) p hunlocks
  exact ⟨tr, s, hrun, hended, hsleep, (one_daemon hrun).2.1 hnone false hsleep⟩

end Runs

end Onedaemon
end LockReg
end InterprocessComm
