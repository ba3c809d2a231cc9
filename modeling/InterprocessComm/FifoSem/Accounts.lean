import InterprocessComm.FifoSem.Creation
import InterprocessComm.Lib.Ledger

/-!
# The account of sem_open

What a `sem_open` has opened, allocated and created, and whether a call that fails has given
it back.
-/

namespace InterprocessComm
namespace FifoSem

open Verification

/-!
# The account
-/

/-- The descriptors and blocks that the call has, and whether it created the FIFO and called
`unlink`. -/
structure Account where
  descriptors : Ledger Int
  blocks : Ledger Unit
  created : Bool
  unlinked : Bool
deriving DecidableEq

namespace Account

def empty : Account where
  descriptors := Ledger.holding none
  blocks := Ledger.holding none
  created := false
  unlinked := false

/-- `close` of a negative number closes nothing. -/
def record (g : Account) : OpenCall × CallResult -> Account
  | (OpenCall.mkfifo, CallResult.value _) => { g with created := true }
  | (OpenCall.malloc, CallResult.block _) => { g with blocks := g.blocks.take () }
  | (OpenCall.openRead, CallResult.value fd) => { g with descriptors := g.descriptors.take fd }
  | (OpenCall.openWrite, CallResult.value fd) => { g with descriptors := g.descriptors.take fd }
  | (OpenCall.close fd, _) =>
      if 0 ≤ fd then { g with descriptors := g.descriptors.giveBack fd } else g
  | (OpenCall.free, _) => { g with blocks := g.blocks.giveBack () }
  | (OpenCall.unlink, _) => { g with unlinked := true }
  | _ => g

/-- Everything that was taken has been given back once, and nothing else; the FIFO has been
removed exactly if the call created it. -/
def Settled (g : Account) : Prop :=
  g.descriptors = Ledger.holding none ∧ g.blocks = Ledger.holding none ∧
    (g.unlinked = true <-> g.created = true)

def SettledButBlock (g : Account) : Prop :=
  g.descriptors = Ledger.holding none ∧ g.blocks = Ledger.holding (some ()) ∧
    (g.unlinked = true <-> g.created = true)

end Account

def account (tr : List OpenTransition) : Account :=
  observed Account.record Account.empty tr

def SettlesFailure (g : Account) : OpenRet -> Prop
  | OpenRet.sem _ => True
  | OpenRet.failed _ => g.Settled
  | OpenRet.undefined => False

/-!
# The steps that spoil it
-/

namespace OpenLoc

/-- `malloc` fails after the call has made the FIFO, or a call behind `malloc` fails. -/
def fails (l : OpenLoc) (r : CallResult) : Bool :=
  match l.pc, r with
  | OpenPc.malloc, CallResult.failed _ => l.creates
  | OpenPc.openRead, CallResult.failed _ => true
  | OpenPc.openWrite, CallResult.failed _ => true
  | OpenPc.getfl, CallResult.failed _ => true
  | OpenPc.setfl, CallResult.failed _ => true
  | OpenPc.write, CallResult.failed _ => true
  | OpenPc.write, CallResult.value count => count ≠ 1
  | _, _ => false

/-- The first `open` fails while there is a descriptor number in the second place of the array. -/
def strays (l : OpenLoc) (r : CallResult) : Bool :=
  match l.pc, r with
  | OpenPc.openRead, CallResult.failed _ => 0 ≤ l.sem.sem_fd 1
  | _, _ => false

def Exits (l : OpenLoc) : Prop :=
  l.pc = OpenPc.errUnlink ∨ l.pc = OpenPc.errClose0 ∨ l.pc = OpenPc.errClose1 ∨
    l.pc = OpenPc.errFree

def descriptors (l : OpenLoc) : List Int :=
  [l.sem.sem_fd 1, l.sem.sem_fd 0].filter fun fd => 0 ≤ fd

def holding (l : OpenLoc) (fds : List Int) : Account where
  descriptors := { held := fds, astray := false }
  blocks := Ledger.holding (some ())
  created := l.creates
  unlinked := false

/-- What the account of a call at this place is, unless it has been spoilt. -/
def expected (l : OpenLoc) : Account :=
  match l.pc with
  | OpenPc.mkfifo => Account.empty
  | OpenPc.malloc => { Account.empty with created := l.creates }
  | OpenPc.openRead => l.holding []
  | OpenPc.openWrite => l.holding ([l.sem.sem_fd 0].filter fun fd => 0 ≤ fd)
  | OpenPc.errClose0 => { l.holding l.descriptors with unlinked := l.creates }
  | OpenPc.errClose1 =>
      { l.holding ([l.sem.sem_fd 1].filter fun fd => 0 ≤ fd) with unlinked := l.creates }
  | OpenPc.errFree => { l.holding [] with unlinked := l.creates }
  | _ => l.holding l.descriptors

/-- `mkfifo` and `unlink` are called for `O_CREAT` only, and a block is damaged at once. -/
structure Ok (l : OpenLoc) : Prop where
  creates : l.pc = OpenPc.mkfifo ∨ l.pc = OpenPc.errUnlink -> l.creates = true
  damaged : l.pc ≠ OpenPc.mkfifo -> l.pc ≠ OpenPc.malloc -> l.sem.intact = false

/-- The error exit will close a number that the call has not opened, or has done so. -/
def Spoilt (g : Account) (l : OpenLoc) : Prop :=
  match l.pc with
  | OpenPc.errUnlink => g.descriptors.held = [] ∧ l.sem.sem_fd 0 < 0 ∧ 0 ≤ l.sem.sem_fd 1
  | OpenPc.errClose0 => g.descriptors.held = [] ∧ l.sem.sem_fd 0 < 0 ∧ 0 ≤ l.sem.sem_fd 1
  | OpenPc.errClose1 => g.descriptors.held = [] ∧ 0 ≤ l.sem.sem_fd 1
  | OpenPc.errFree => g.descriptors.astray = true
  | _ => False

section Steps

variable {l l' : OpenLoc} {g : Account} {r : CallResult} {c : OpenControl}

theorem fill_cases (l : OpenLoc) :
    l.fill = Control.goes { l with pc := OpenPc.write } ∨ l.fill = l.succeeds := by
  unfold fill
  split
  · exact Or.inl rfl
  · exact Or.inr rfl

/-- Without `O_CREAT` the FIFO is somebody else's. -/
theorem creates_cleared (l : OpenLoc) (pc : OpenPc) (e : Errno) :
    { l with pc := pc, oflag := l.oflag &&& ~~~O_CREAT, errno := e }.creates = false := by
  unfold creates
  simp only [UInt32.and_assoc, UInt32.not_and_self, UInt32.and_zero, ne_eq, not_true_eq_false,
    decide_false]

theorem no_descriptors {sem : SemBlock} (h : sem.sem_fd 1 < 0) :
    [(sem.setFd 0 (-1)).sem_fd 1, (sem.setFd 0 (-1)).sem_fd 0].filter (fun fd => 0 ≤ fd) =
      [] := by
  have hsecond : (sem.setFd 0 (-1)).sem_fd 1 = sem.sem_fd 1 := rfl
  have hfirst : (sem.setFd 0 (-1)).sem_fd 0 = -1 := rfl
  rw [hsecond, hfirst, List.filter_cons_of_neg (by simpa using h)]
  rfl

theorem close_descriptor (g : Account) {fds : List Int} (hone : fds.length ≤ 1) (fd : Int)
    (r : CallResult) :
    { g with descriptors := { held := (fds ++ [fd]).filter fun fd => 0 ≤ fd,
                              astray := false } }.record (OpenCall.close fd, r) =
      { g with descriptors := { held := fds.filter fun fd => 0 ≤ fd, astray := false } } := by
  rw [List.filter_append]
  unfold Account.record
  by_cases hfd : 0 ≤ fd
  · have hlast : [fd].filter (fun fd => 0 ≤ fd) = [fd] := by simp [hfd]
    have hrest := Nat.le_trans (List.length_filter_le (fun fd : Int => decide (0 ≤ fd)) fds) hone
    simp only [if_pos hfd, hlast, Ledger.giveBack_last hrest]
  · have hnone : [fd].filter (fun fd => 0 ≤ fd) = [] := by simp [hfd]
    simp only [if_neg hfd, hnone, List.append_nil]

theorem strays_of_fails (h : l.fails r = false) : l.strays r = false := by
  rcases l with ⟨pc, oflag, value, sem, flags, i, errno, save_errno⟩
  cases pc <;> cases r <;> first | rfl | cases h

/-!
## What one call keeps
-/

/-- A call goes behind the label `error` where it fails, and keeps its account unless it closes what
it has not opened; from there it returns nothing. -/
def Kept (l : OpenLoc) (r : CallResult) : OpenControl -> Prop
  | Control.goes l' =>
      l'.Ok ∧ (l'.Exits <-> l.Exits ∨ l.fails r = true) ∧
        (l.strays r = false -> l.expected.record (l.request, r) = l'.expected)
  | Control.returns ret =>
      (l.Exits -> ret = OpenRet.undefined) ∧
        (¬ l.Exits ->
          (SettlesFailure (l.expected.record (l.request, r)) ret <-> l.fails r = false))

theorem error_of_creates (h : l.creates = true) :
    l.error = Control.goes { l with save_errno := l.errno, pc := OpenPc.errUnlink } :=
  if_pos h

theorem error_of_finds (h : l.creates = false) :
    l.error = Control.goes { l with save_errno := l.errno, pc := OpenPc.errClose0 } :=
  if_neg (Bool.eq_false_iff.mp h)

theorem error_kept (hdamaged : l'.sem.intact = false) (hfails : l.fails r = true)
    (hg : l.strays r = false ->
      l.expected.record (l.request, r) = l'.holding l'.descriptors) :
    l.Kept r l'.error := by
  cases hcreates : l'.creates with
  | true =>
      rw [error_of_creates hcreates]
      refine ⟨⟨fun _ => hcreates, fun _ _ => hdamaged⟩, ?_, hg⟩
      exact iff_of_true (Or.inl rfl) (Or.inr hfails)
  | false =>
      rw [error_of_finds hcreates]
      refine ⟨⟨?_, fun _ _ => hdamaged⟩, ?_, ?_⟩
      · rintro (hpc | hpc) <;> cases hpc
      · exact iff_of_true (Or.inr (Or.inl rfl)) (Or.inr hfails)
      · intro hkeeps
        rw [hg hkeeps]
        exact congrArg (fun b => { l'.holding l'.descriptors with unlinked := b }) hcreates.symm

theorem goes_kept (hexits : l'.Exits <-> l.Exits ∨ l.fails r = true)
    (hpc : l'.pc ≠ OpenPc.mkfifo ∧ l'.pc ≠ OpenPc.errUnlink)
    (hdamaged : l'.pc ≠ OpenPc.malloc -> l'.sem.intact = false)
    (hg : l.expected.record (l.request, r) = l'.expected) : l.Kept r (Control.goes l') :=
  ⟨⟨fun h => absurd h (not_or.mpr hpc), fun _ => hdamaged⟩, hexits, fun _ => hg⟩

theorem succeeds_kept (hnot : ¬ l.Exits) (hfails : l.fails r = false) :
    l.Kept r l'.succeeds :=
  ⟨fun hexits => absurd hexits hnot, fun _ => iff_of_true trivial hfails⟩

theorem fill_kept (hnot : ¬ l.Exits) (hfails : l.fails r = false)
    (hdamaged : l'.sem.intact = false)
    (hg : l.expected.record (l.request, r) = l'.holding l'.descriptors) :
    l.Kept r l'.fill := by
  rcases fill_cases l' with hgoes | hdone
  · rw [hgoes]
    refine goes_kept ?_ ⟨OpenPc.noConfusion, OpenPc.noConfusion⟩ (fun _ => hdamaged) hg
    exact iff_of_false (by simp [Exits]) (by simp [hnot, hfails])
  · rw [hdone]
    exact succeeds_kept hnot hfails

theorem next_kept (hok : l.Ok) (h : l.next r = some c) : l.Kept r c := by
  rcases l with ⟨pc, oflag, value, sem, flags, i, errno, save_errno⟩
  cases pc with
  | mkfifo =>
      cases r with
      | failed e =>
          simp only [next] at h
          split at h
          · cases h
            refine goes_kept (by simp [Exits, fails]) ⟨OpenPc.noConfusion, OpenPc.noConfusion⟩
              (fun hne => absurd rfl hne) ?_
            have hcleared := creates_cleared
              ⟨OpenPc.mkfifo, oflag, value, sem, flags, i, errno, save_errno⟩ OpenPc.malloc e
            exact congrArg (fun b => { Account.empty with created := b }) hcleared.symm
          · cases h
            refine ⟨by simp [Exits], fun _ => iff_of_true ?_ rfl⟩
            exact ⟨rfl, rfl, Iff.rfl⟩
      | value n =>
          cases h
          refine goes_kept (by simp [Exits, fails]) ⟨OpenPc.noConfusion, OpenPc.noConfusion⟩
            (fun hne => absurd rfl hne) ?_
          have hcreates := hok.creates (Or.inl rfl)
          exact congrArg (fun b => { Account.empty with created := b }) hcreates.symm
      | block sem => cases h
  | malloc =>
      cases r with
      | failed e =>
          cases h
          refine ⟨by simp [Exits], fun _ => ⟨?_, ?_⟩⟩
          · rintro ⟨_, _, hsame⟩
            exact Bool.eq_false_iff.mpr fun hcreated => Bool.noConfusion (hsame.mpr hcreated)
          · intro hcreates
            refine ⟨rfl, rfl, ?_⟩
            exact iff_of_false Bool.noConfusion (Bool.eq_false_iff.mp hcreates)
      | value n => cases h
      | block sem =>
          cases h
          exact goes_kept (by simp [Exits, fails]) ⟨OpenPc.noConfusion, OpenPc.noConfusion⟩
            (fun _ => rfl) rfl
  | openRead =>
      have hdamaged := hok.damaged OpenPc.noConfusion OpenPc.noConfusion
      cases r with
      | failed e =>
          cases h
          refine error_kept (by rw [SemBlock.setFd_first]; exact hdamaged) rfl ?_
          intro hkeeps
          have hnegative : sem.sem_fd 1 < 0 := by simpa [strays] using hkeeps
          exact congrArg (holding _) (no_descriptors hnegative).symm
      | value fd =>
          cases h
          rw [SemBlock.setFd_first]
          exact goes_kept (by simp [Exits, fails]) ⟨OpenPc.noConfusion, OpenPc.noConfusion⟩
            (fun _ => hdamaged) rfl
      | block sem => cases h
  | openWrite =>
      have hdamaged := hok.damaged OpenPc.noConfusion OpenPc.noConfusion
      cases r with
      | failed e =>
          cases h
          rw [SemBlock.setFd_second]
          exact error_kept hdamaged rfl fun _ => rfl
      | value fd =>
          cases h
          rw [SemBlock.setFd_second]
          exact goes_kept (by simp [Exits, fails]) ⟨OpenPc.noConfusion, OpenPc.noConfusion⟩
            (fun _ => hdamaged) rfl
      | block sem => cases h
  | getfl =>
      have hdamaged := hok.damaged OpenPc.noConfusion OpenPc.noConfusion
      cases r with
      | failed e =>
          cases h
          exact error_kept hdamaged rfl fun _ => rfl
      | value n =>
          cases h
          exact goes_kept (by simp [Exits, fails]) ⟨OpenPc.noConfusion, OpenPc.noConfusion⟩
            (fun _ => hdamaged) rfl
      | block sem => cases h
  | setfl =>
      have hdamaged := hok.damaged OpenPc.noConfusion OpenPc.noConfusion
      cases r with
      | failed e =>
          cases h
          exact error_kept hdamaged rfl fun _ => rfl
      | value n =>
          simp only [next] at h
          split at h
          · cases h
            exact fill_kept (by simp [Exits]) rfl hdamaged rfl
          · cases h
            exact succeeds_kept (by simp [Exits]) rfl
      | block sem => cases h
  | write =>
      have hdamaged := hok.damaged OpenPc.noConfusion OpenPc.noConfusion
      cases r with
      | failed e =>
          cases h
          exact error_kept hdamaged rfl fun _ => rfl
      | value count =>
          simp only [next] at h
          split at h
          · rename_i hcount
            cases h
            exact error_kept hdamaged (decide_eq_true hcount) fun _ => rfl
          · rename_i hcount
            rcases Option.map_eq_some_iff.mp h with ⟨k, _, hdone⟩
            cases hdone
            exact fill_kept (by simp [Exits]) (decide_eq_false hcount) hdamaged rfl
      | block sem => cases h
  | errUnlink =>
      have hdamaged := hok.damaged OpenPc.noConfusion OpenPc.noConfusion
      have hcreates := hok.creates (Or.inr rfl)
      cases r with
      | block sem => cases h
      | _ =>
          cases h
          refine goes_kept (by simp [Exits]) ⟨OpenPc.noConfusion, OpenPc.noConfusion⟩
            (fun _ => hdamaged) ?_
          exact congrArg (fun b => { holding _ (descriptors _) with unlinked := b }) hcreates.symm
  | errClose0 =>
      have hdamaged := hok.damaged OpenPc.noConfusion OpenPc.noConfusion
      cases r with
      | block sem => cases h
      | _ =>
          cases h
          have hone : [sem.sem_fd 1].length ≤ 1 := Nat.le_refl 1
          exact goes_kept (by simp [Exits]) ⟨OpenPc.noConfusion, OpenPc.noConfusion⟩
            (fun _ => hdamaged) (close_descriptor { holding _ [] with unlinked := _ } hone _ _)
  | errClose1 =>
      have hdamaged := hok.damaged OpenPc.noConfusion OpenPc.noConfusion
      cases r with
      | block sem => cases h
      | _ =>
          cases h
          have hone : ([] : List Int).length ≤ 1 := Nat.zero_le 1
          exact goes_kept (by simp [Exits]) ⟨OpenPc.noConfusion, OpenPc.noConfusion⟩
            (fun _ => hdamaged) (close_descriptor { holding _ [] with unlinked := _ } hone _ _)
  | errFree =>
      have hdamaged : sem.intact = false := hok.damaged OpenPc.noConfusion OpenPc.noConfusion
      cases r with
      | value n =>
          simp only [next, hdamaged, Bool.false_eq_true, if_false] at h
          cases h
          exact ⟨fun _ => rfl, fun hnot => absurd (by simp [Exits]) hnot⟩
      | _ => cases h

/-!
## Behind a descriptor that is not the call's own
-/

theorem next_strays (h : l.next r = some c) (hstrays : l.strays r = true) :
    exists l', c = Control.goes l' ∧ l'.Spoilt (l.expected.record (l.request, r)) := by
  rcases l with ⟨pc, oflag, value, sem, flags, i, errno, save_errno⟩
  cases pc with
  | openRead =>
      cases r with
      | failed e =>
          cases h
          have hsecond : 0 ≤ sem.sem_fd 1 := of_decide_eq_true hstrays
          have hfirst : (-1 : Int) < 0 := by decide
          rw [SemBlock.setFd_first]
          cases hcreates : OpenLoc.creates _ with
          | true =>
              rw [error_of_creates hcreates]
              exact ⟨_, rfl, rfl, hfirst, hsecond⟩
          | false =>
              rw [error_of_finds hcreates]
              exact ⟨_, rfl, rfl, hfirst, hsecond⟩
      | _ => cases hstrays
  | _ => cases hstrays

theorem next_spoilt (hspoilt : l.Spoilt g) (h : l.next r = some (Control.goes l')) :
    l'.Spoilt (g.record (l.request, r)) := by
  rcases l with ⟨pc, oflag, value, sem, flags, i, errno, save_errno⟩
  cases pc with
  | errUnlink =>
      cases r with
      | block sem => cases h
      | _ =>
          cases h
          exact hspoilt
  | errClose0 =>
      rcases hspoilt with ⟨hheld, hfirst, hsecond⟩
      have hclose : g.record (request ⟨OpenPc.errClose0, oflag, value, sem, flags, i, errno,
          save_errno⟩, r) = g := if_neg (Int.not_le.mpr hfirst)
      rw [hclose]
      cases r with
      | block sem => cases h
      | _ =>
          cases h
          exact ⟨hheld, hsecond⟩
  | errClose1 =>
      rcases hspoilt with ⟨hheld, hsecond⟩
      have hastray : (g.record (request ⟨OpenPc.errClose1, oflag, value, sem, flags, i, errno,
          save_errno⟩, r)).descriptors.astray = true := by
        simp only [request, Account.record, if_pos (show 0 ≤ sem.sem_fd 1 from hsecond)]
        exact Ledger.giveBack_astray hheld _
      cases r with
      | block sem => cases h
      | _ =>
          cases h
          exact hastray
  | errFree =>
      cases r with
      | value n =>
          simp only [next] at h
          split at h <;> cases h
      | _ => cases h
  | _ => exact False.elim hspoilt

end Steps

end OpenLoc

/-!
# Whole calls
-/

def failsAt (e : OpenTransition) : Bool :=
  match e.source with
  | Control.goes l => l.fails e.action
  | Control.returns _ => false

def straysAt (e : OpenTransition) : Bool :=
  match e.source with
  | Control.goes l => l.strays e.action
  | Control.returns _ => false

section Calls

variable {oflag value : UInt32} {tr : List OpenTransition} {s : OpenControl} {ret : OpenRet}
  {l : OpenLoc}

theorem opens_ok (h : Opens oflag value s) :
    exists l, s = Control.goes l ∧ l.Ok ∧ ¬ l.Exits ∧ Account.empty = l.expected := by
  rcases h with ⟨l, _, _, hpc, rfl⟩
  refine ⟨l, rfl, ?_⟩
  cases hcreates : l.creates with
  | true =>
      rw [hcreates, if_pos rfl] at hpc
      refine ⟨⟨fun _ => hcreates, fun hne => absurd hpc hne⟩, by simp [OpenLoc.Exits, hpc], ?_⟩
      simp only [OpenLoc.expected, hpc]
  | false =>
      rw [hcreates, if_neg Bool.noConfusion] at hpc
      refine ⟨⟨by simp [hpc], fun _ hne => absurd hpc hne⟩, by simp [OpenLoc.Exits, hpc], ?_⟩
      simp only [OpenLoc.expected, hpc, hcreates]
      rfl

def FineAt (g : Account) : OpenControl -> Prop
  | Control.goes l => l.Ok ∧ ¬ l.Exits ∧ g = l.expected
  | Control.returns ret => SettlesFailure g ret

def FailedAt (g : Account) : OpenControl -> Prop
  | Control.goes l => l.Ok ∧ l.Exits
  | Control.returns ret => ¬ SettlesFailure g ret

theorem fine_or_failed (hrun : Run (Opens oflag value) semOpen.step tr s) :
    (forall e, e ∈ tr -> ¬ failsAt e = true) ∧ FineAt (account tr) s ∨
      (exists e, e ∈ tr ∧ failsAt e = true) ∧ FailedAt (account tr) s := by
  refine run_fine_or_spoilt ?_ ?_ ?_ ?_ hrun
  · intro s h
    rcases opens_ok h with ⟨l, rfl, hok, hnot, hg⟩
    exact ⟨hok, hnot, hg⟩
  · intro g s r o t hfine hstep hnone
    rcases CallProgram.step_goes hstep with ⟨l, rfl, hnext, rfl⟩
    rcases hfine with ⟨hok, hnot, rfl⟩
    have hkept := OpenLoc.next_kept hok hnext
    have hfails : l.fails r = false := Bool.eq_false_iff.mpr hnone
    cases t with
    | goes l' =>
        rcases hkept with ⟨hok', hexits, hg⟩
        refine ⟨hok', ?_, hg (OpenLoc.strays_of_fails hfails)⟩
        rw [hexits, hfails]
        simpa using hnot
    | returns ret => exact (hkept.2 hnot).mpr hfails
  · intro g s r o t hfine hstep hfails
    rcases CallProgram.step_goes hstep with ⟨l, rfl, hnext, rfl⟩
    rcases hfine with ⟨hok, hnot, rfl⟩
    have hkept := OpenLoc.next_kept hok hnext
    cases t with
    | goes l' => exact ⟨hkept.1, hkept.2.1.mpr (Or.inr hfails)⟩
    | returns ret =>
        intro hsettled
        cases ((hkept.2 hnot).mp hsettled).symm.trans hfails
  · intro g s r o t hfailed hstep
    rcases CallProgram.step_goes hstep with ⟨l, rfl, hnext, rfl⟩
    rcases hfailed with ⟨hok, hexits⟩
    have hkept := OpenLoc.next_kept hok hnext
    cases t with
    | goes l' => exact ⟨hkept.1, hkept.2.1.mpr (Or.inl hexits)⟩
    | returns ret =>
        rw [hkept.1 hexits]
        exact id

def KeepsAt (g : Account) (s : OpenControl) : Prop :=
  forall l, s = Control.goes l -> l.Ok ∧ g = l.expected

def StraysAt (g : Account) (s : OpenControl) : Prop :=
  forall l, s = Control.goes l -> l.Ok ∧ l.Spoilt g

theorem keeps_or_strays (hrun : Run (Opens oflag value) semOpen.step tr s) :
    (forall e, e ∈ tr -> ¬ straysAt e = true) ∧ KeepsAt (account tr) s ∨
      (exists e, e ∈ tr ∧ straysAt e = true) ∧ StraysAt (account tr) s := by
  refine run_fine_or_spoilt ?_ ?_ ?_ ?_ hrun
  · intro s h
    rcases opens_ok h with ⟨l, rfl, hok, _, hg⟩
    intro l' heq
    cases heq
    exact ⟨hok, hg⟩
  · intro g s r o t hkeeps hstep hnone
    rcases CallProgram.step_goes hstep with ⟨l, rfl, hnext, rfl⟩
    rcases hkeeps l rfl with ⟨hok, rfl⟩
    rintro l' rfl
    rcases OpenLoc.next_kept hok hnext with ⟨hok', _, hg⟩
    exact ⟨hok', hg (Bool.eq_false_iff.mpr hnone)⟩
  · intro g s r o t hkeeps hstep hstrays
    rcases CallProgram.step_goes hstep with ⟨l, rfl, hnext, rfl⟩
    rcases hkeeps l rfl with ⟨hok, rfl⟩
    rcases OpenLoc.next_strays hnext hstrays with ⟨l', rfl, hspoilt⟩
    rintro l'' heq
    cases heq
    exact ⟨(OpenLoc.next_kept hok hnext).1, hspoilt⟩
  · intro g s r o t hstrays hstep
    rcases CallProgram.step_goes hstep with ⟨l, rfl, hnext, rfl⟩
    rcases hstrays l rfl with ⟨hok, hspoilt⟩
    rintro l' rfl
    exact ⟨(OpenLoc.next_kept hok hnext).1, OpenLoc.next_spoilt hspoilt hnext⟩

/-- A `sem_open` that returns no semaphore has returned `SEM_FAILED` and given everything back,
unless `malloc` fails after `mkfifo` has made the FIFO, or a call behind `malloc` fails: its block
is damaged.  Before it frees its block it has closed what it opened and nothing else, and has
removed the FIFO exactly if it made it, unless the first `open` fails over a descriptor number in
the second place of the array. -/
theorem fifo_open_settles_iff (hrun : Run (Opens oflag value) semOpen.step tr s) :
    (forall ret, s = Control.returns ret ->
        (SettlesFailure (account tr) ret <-> forall e, e ∈ tr -> failsAt e = false)) ∧
      (forall l, s = Control.goes l -> l.pc = OpenPc.errFree ->
        ((account tr).SettledButBlock <-> forall e, e ∈ tr -> straysAt e = false)) := by
  constructor
  · rintro ret rfl
    rcases fine_or_failed hrun with ⟨hnone, hsettled⟩ | ⟨⟨e, he, hfails⟩, hunsettled⟩
    · exact iff_of_true hsettled fun e he => Bool.eq_false_iff.mpr (hnone e he)
    · refine iff_of_false hunsettled fun hall => ?_
      rw [hall e he] at hfails
      cases hfails
  · rintro l rfl hfree
    rcases keeps_or_strays hrun with ⟨hnone, hkeeps⟩ | ⟨⟨e, he, hstrays⟩, hspoilt⟩
    · refine iff_of_true ?_ fun e he => Bool.eq_false_iff.mpr (hnone e he)
      rw [(hkeeps l rfl).2]
      simp only [OpenLoc.expected, hfree]
      exact ⟨rfl, rfl, Iff.rfl⟩
    · refine iff_of_false ?_ fun hall => ?_
      · rintro ⟨hdescriptors, _, _⟩
        have hastray := (hspoilt l rfl).2
        simp only [OpenLoc.Spoilt, hfree, hdescriptors] at hastray
        cases hastray
      · rw [hall e he] at hstrays
        cases hstrays

end Calls

def openStart (oflag value : UInt32) (sem : SemBlock) : OpenLoc where
  pc := if oflag &&& O_CREAT ≠ 0 then OpenPc.mkfifo else OpenPc.malloc
  oflag := oflag
  value := value
  sem := sem
  flags := 0
  i := 0
  errno := Errno.other 0
  save_errno := Errno.other 0

theorem opens_openStart (oflag value : UInt32) (sem : SemBlock) :
    Opens oflag value (Control.goes (openStart oflag value sem)) := by
  refine ⟨openStart oflag value sem, rfl, rfl, ?_, rfl⟩
  simp [openStart, OpenLoc.creates]

def sevens : SemBlock where
  sem_fd := fun _ => 7
  sem_magic := 7
  intact := true

def isFailure : OpenRet -> Bool
  | OpenRet.failed _ => true
  | _ => false

def isUndefined : OpenRet -> Bool
  | OpenRet.undefined => true
  | _ => false

/-- A call that finds the FIFO, and no memory. -/
theorem fifo_open_settles_iff_noMemory :
    exists tr ret, Run (Opens O_CREAT 2) semOpen.step tr (Control.returns ret) ∧
      isFailure ret = true ∧ tr.length = 2 ∧ SettlesFailure (account tr) ret := by
  have hcall : exists tr ret, Run (Opens O_CREAT 2) semOpen.step tr (Control.returns ret) ∧
      isFailure ret = true ∧
      decide (tr.length = 2 ∧ forall e, e ∈ tr -> failsAt e = false) = true :=
    CallProgram.call_of_replay [CallResult.failed Errno.EEXIST, CallResult.failed (Errno.other 12)]
      (opens_openStart O_CREAT 2 sevens) (by decide +kernel)
  rcases hcall with ⟨tr, ret, hrun, hfails, htest⟩
  rcases of_decide_eq_true htest with ⟨hlength, hkeeps⟩
  exact ⟨tr, ret, hrun, hfails, hlength, ((fifo_open_settles_iff hrun).1 ret rfl).mpr hkeeps⟩

/-- A call that makes the FIFO leaves it behind when there is no memory; and a call whose second
write fails never returns from `free`. -/
theorem fifo_open_leaves_unsettled :
    (exists tr ret, Run (Opens O_CREAT 1) semOpen.step tr (Control.returns ret) ∧
      isFailure ret = true ∧ (account tr).created = true ∧ (account tr).unlinked = false ∧
      ¬ SettlesFailure (account tr) ret) ∧
    (exists tr ret, Run (Opens O_CREAT 2) semOpen.step tr (Control.returns ret) ∧
      isUndefined ret = true ∧ tr.length = 12 ∧ ¬ SettlesFailure (account tr) ret) := by
  have hkept : exists tr ret, Run (Opens O_CREAT 1) semOpen.step tr (Control.returns ret) ∧
      isFailure ret = true ∧
      decide ((account tr).created = true ∧ (account tr).unlinked = false) = true :=
    CallProgram.call_of_replay [CallResult.value 0, CallResult.failed (Errno.other 12)]
      (opens_openStart O_CREAT 1 sevens) (by decide +kernel)
  have hdamaged : exists tr ret, Run (Opens O_CREAT 2) semOpen.step tr (Control.returns ret) ∧
      isUndefined ret = true ∧ decide (tr.length = 12) = true :=
    CallProgram.call_of_replay [CallResult.value 0, CallResult.block sevens, CallResult.value 3,
      CallResult.value 4, CallResult.value 2048, CallResult.value 0, CallResult.value 1,
      CallResult.failed Errno.EAGAIN, CallResult.value 0, CallResult.value 0,
      CallResult.value 0, CallResult.value 0] (opens_openStart O_CREAT 2 sevens)
      (by decide +kernel)
  constructor
  · rcases hkept with ⟨tr, ret, hrun, hfails, htest⟩
    rcases of_decide_eq_true htest with ⟨hcreated, hunlinked⟩
    refine ⟨tr, ret, hrun, hfails, hcreated, hunlinked, ?_⟩
    cases ret with
    | failed e =>
        rintro ⟨_, _, hsame⟩
        rw [hsame.mpr hcreated] at hunlinked
        cases hunlinked
    | sem sem => cases hfails
    | undefined => cases hfails
  · rcases hdamaged with ⟨tr, ret, hrun, hends, htest⟩
    refine ⟨tr, ret, hrun, hends, of_decide_eq_true htest, ?_⟩
    cases ret with
    | undefined => exact id
    | sem sem => cases hends
    | failed e => cases hends

end FifoSem
end InterprocessComm
