import InterprocessComm.Opening.Protocol

/-!
# Attempts to open a name

One call of an open function while other processes remove its name and create it
again, also as a symbolic link.  A code that goes back to its first `open` only
after it has found the name missing does so at most once for each removal, and
returns after a bounded number of system calls.
-/

namespace InterprocessComm
namespace Opening

open Verification

/-- What a pathname denotes; a dangling link has no target. -/
inductive PathName where
  | absent
  | file (f : Nat)
  | link (target : Option Nat)
deriving DecidableEq

namespace PathName

def target : PathName -> Option Nat
  | absent => none
  | file f => some f
  | link t => t

/-- The results a system call can have. `open` with `O_EXCL` finds every name there is,
`open` without `O_CREAT` and `stat` find a file; each can fail for another reason. -/
def answers (n : PathName) : Syscall -> SysResult -> Bool
  | Syscall.openExcl, SysResult.opened _ => n = absent
  | Syscall.openExcl, SysResult.failed e => e ≠ Errno.EEXIST || n ≠ absent
  | Syscall.openExcl, _ => false
  | Syscall.openRdwr, SysResult.opened f => n.target = some f
  | Syscall.openRdwr, SysResult.failed e => e ≠ Errno.ENOENT || n.target = none
  | Syscall.openRdwr, _ => false
  | Syscall.stat, SysResult.status _ _ => n.target ≠ none
  | Syscall.stat, SysResult.failed e => e ≠ Errno.ENOENT || n.target = none
  | Syscall.stat, _ => false
  | _, _ => true

def after (n : PathName) : Syscall -> SysResult -> PathName
  | Syscall.openExcl, SysResult.opened f => file f
  | Syscall.unlink, SysResult.failed _ => n
  | Syscall.unlink, _ => absent
  | _, _ => n

end PathName

/-- The calls that change what the name denotes. -/
def Syscall.renames : Syscall -> Bool
  | openExcl => true
  | unlink => true
  | _ => false

structure NamedCall (loc : Type) where
  name : PathName
  call : After loc

/-- The call makes its next system call, or another process removes the name or creates it
again. -/
inductive NameAction where
  | syscall (r : SysResult)
  | remove
  | create (n : PathName)

inductive NameEvent where
  | called (c : Syscall) (r : SysResult) (n : PathName) (jump : Bool)
  | removed
  | created

section System

variable {args loc : Type}

/-- `jumps` says which steps of the code go back to the label `again`. -/
def nameStep (code : OpenCode args loc) (jumps : loc -> After loc -> Bool) (s : NamedCall loc) :
    NameAction -> Option (NamedCall loc × NameEvent)
  | NameAction.syscall r =>
      match s.call with
      | After.returns _ => none
      | After.goes l =>
          if s.name.answers (code.request l) r then
            some ({ name := s.name.after (code.request l) r, call := code.next l r },
              NameEvent.called (code.request l) r s.name (jumps l (code.next l r)))
          else
            none
  | NameAction.remove =>
      if s.name = PathName.absent then
        none
      else
        some ({ s with name := PathName.absent }, NameEvent.removed)
  | NameAction.create n =>
      if s.name = PathName.absent ∧ n ≠ PathName.absent then
        some ({ s with name := n }, NameEvent.created)
      else
        none

def NameInit (code : OpenCode args loc) (a : args) (s : NamedCall loc) : Prop :=
  s.call = After.goes (code.start a)

def calledOn (code : OpenCode args loc) (a : args) (n : PathName) : NamedCall loc :=
  { name := n, call := After.goes (code.start a) }

theorem calledOn_init (code : OpenCode args loc) (a : args) (n : PathName) :
    NameInit code a (calledOn code a n) := rfl

abbrev NameTransition (loc : Type) : Type :=
  Transition (NamedCall loc) NameAction NameEvent

end System

/-- The system calls and jumps of the call so far and the removals by others; whether the
name was missing when the call last looked for its file, and the error of a second `open`
that ended the attempts. -/
structure Tally where
  calls : Nat
  jumps : Nat
  removals : Nat
  missing : Bool
  failure : Option Errno

namespace Tally

def start : Tally :=
  { calls := 0, jumps := 0, removals := 0, missing := false, failure := none }

def looked (missing : Bool) (n : PathName) : Syscall -> SysResult -> Bool
  | Syscall.openRdwr, r => r = SysResult.failed Errno.ENOENT && n.target = none
  | Syscall.stat, r => r = SysResult.failed Errno.ENOENT && n.target = none
  | _, _ => missing

def failing (failure : Option Errno) (jump : Bool) : Syscall -> SysResult -> Option Errno
  | Syscall.openRdwr, SysResult.failed e => if jump then failure else some e
  | _, _ => failure

theorem failing_eq {failure : Option Errno} {jump : Bool} {c : Syscall} {r : SysResult}
    (h : forall e, c = Syscall.openRdwr -> r = SysResult.failed e -> jump = true) :
    failing failure jump c r = failure := by
  cases c with
  | openRdwr =>
      cases r with
      | failed e => exact if_pos (h e rfl rfl)
      | _ => rfl
  | _ => rfl

def record (t : Tally) : NameEvent -> Tally
  | NameEvent.called c r n jump =>
      { calls := t.calls + 1, jumps := if jump then t.jumps + 1 else t.jumps,
        removals := t.removals, missing := looked t.missing n c r,
        failure := failing t.failure jump c r }
  | NameEvent.removed => { t with removals := t.removals + 1 }
  | NameEvent.created => t

end Tally

def tally {loc : Type} (tr : List (NameTransition loc)) : Tally :=
  observed Tally.record Tally.start tr

/-!
## Attempts
-/

/-- How far an attempt has come: before the first `open`, after it has found the name, after
the second `open`, after `stat` has missed the name; or there will be no further attempt. -/
inductive Attempt where
  | asking
  | found
  | opened
  | missed
  | settled

namespace Attempt

inductive Next : Attempt -> Syscall -> SysResult -> Bool -> Attempt -> Prop where
  | settles (v : Attempt) (c : Syscall) (r : SysResult) : Next v c r false settled
  | finds : Next asking Syscall.openExcl (SysResult.failed Errno.EEXIST) false found
  | retries (e : Errno) : Next found Syscall.openRdwr (SysResult.failed e) true asking
  | opens (f : Nat) : Next found Syscall.openRdwr (SysResult.opened f) false opened
  | waits {c : Syscall} (r : SysResult) (h : c.renames = false) : Next opened c r false opened
  | misses : Next opened Syscall.stat (SysResult.failed Errno.ENOENT) false missed
  | leaves (fd : Option Nat) (r : SysResult) : Next missed (Syscall.close fd) r true asking

/-- A name that an attempt does not find any more has been removed since the last jump. -/
def Owes (t : Tally) (n : PathName) : Attempt -> Prop
  | asking => True
  | found => n = PathName.absent -> t.jumps < t.removals
  | opened => n.target = none -> t.jumps < t.removals
  | missed => t.jumps < t.removals ∧ t.missing = true
  | settled => True

end Attempt

theorem PathName.after_of_not_renames {c : Syscall} (h : c.renames = false) (n : PathName)
    (r : SysResult) : n.after c r = n := by
  cases c with
  | openExcl => cases h
  | unlink => cases h
  | _ => rfl

/-- What is found missing by a second `open` is neither there nor a dangling link. -/
def MissesOnlyAbsent {args loc : Type} (code : OpenCode args loc)
    (jumps : loc -> After loc -> Bool) (e : NameTransition loc) : Prop :=
  forall l r, e.source.call = After.goes l -> e.action = NameAction.syscall r ->
    code.request l = Syscall.openRdwr -> jumps l (code.next l r) = true ->
    r = SysResult.failed Errno.ENOENT ∧ e.source.name = PathName.absent

theorem Attempt.Next.owes {t : Tally} {n : PathName} {v v' : Attempt} {c : Syscall}
    {r : SysResult} {jump : Bool} (h : Attempt.Next v c r jump v')
    (hanswer : n.answers c r = true) (hjumps : t.jumps ≤ t.removals) (howes : v.Owes t n)
    (habsent : c = Syscall.openRdwr -> jump = true ->
      r = SysResult.failed Errno.ENOENT ∧ n = PathName.absent) :
    (t.record (NameEvent.called c r n jump)).jumps ≤ t.removals ∧
      v'.Owes (t.record (NameEvent.called c r n jump)) (n.after c r) ∧
      (jump = true -> (t.record (NameEvent.called c r n jump)).missing = true) := by
  cases h with
  | settles v c r => exact ⟨hjumps, trivial, fun hjump => by cases hjump⟩
  | finds =>
      refine ⟨hjumps, ?_, fun hjump => by cases hjump⟩
      intro hname
      change n = PathName.absent at hname
      rw [hname] at hanswer
      cases hanswer
  | retries e =>
      rcases habsent rfl rfl with ⟨hresult, rfl⟩
      cases hresult
      exact ⟨howes rfl, trivial, fun _ => rfl⟩
  | opens f =>
      refine ⟨hjumps, ?_, fun hjump => by cases hjump⟩
      intro hname
      change n.target = none at hname
      have htarget : n.target = some f := of_decide_eq_true hanswer
      rw [hname] at htarget
      cases htarget
  | waits r hc =>
      refine ⟨hjumps, ?_, fun hjump => by cases hjump⟩
      rw [PathName.after_of_not_renames hc]
      exact howes
  | misses =>
      have htarget : n.target = none := by simpa [PathName.answers] using hanswer
      refine ⟨hjumps, ⟨howes htarget, ?_⟩, fun hjump => by cases hjump⟩
      simp [Tally.record, Tally.looked, htarget]
  | leaves fd r => exact ⟨howes.1, trivial, fun _ => howes.2⟩

/-!
## Codes that retry
-/

/-- A code whose jumps are those of its attempts; between two jumps its rank falls with each
system call. `Ok` is what holds of its variables. -/
structure Retries {args loc : Type} (code : OpenCode args loc)
    (jumps : loc -> After loc -> Bool) (bound : Nat) where
  attempt : loc -> Attempt
  rank : loc -> Nat
  Ok : loc -> Prop
  start : forall a, Ok (code.start a) ∧ rank (code.start a) ≤ bound ∧
    (attempt (code.start a) = Attempt.asking ∨ attempt (code.start a) = Attempt.settled)
  positive : forall l, 0 < rank l
  next : forall l r l', Ok l -> code.next l r = After.goes l' ->
    Ok l' ∧ (attempt l).Next (code.request l) r (jumps l (After.goes l')) (attempt l')
  falls : forall l r l', Ok l -> code.next l r = After.goes l' ->
    rank l' < if jumps l (After.goes l') then bound + 1 else rank l
  returns : forall l ret, jumps l (After.returns ret) = false

/-- At a jump the name was missing when the call last looked. -/
def JumpsWhenMissing {loc : Type} (t : Tally) (e : NameTransition loc) : Prop :=
  forall c r n, e.event = NameEvent.called c r n true -> (t.record e.event).missing = true

namespace Retries

variable {args loc : Type} {code : OpenCode args loc} {jumps : loc -> After loc -> Bool}
  {bound : Nat}

def Inv (v : Retries code jumps bound) (t : Tally) (s : NamedCall loc) : Prop :=
  t.jumps ≤ t.removals ∧
    match s.call with
    | After.goes l =>
        v.Ok l ∧ t.calls + v.rank l ≤ bound * (t.jumps + 1) ∧ (v.attempt l).Owes t s.name
    | After.returns _ => t.calls ≤ bound * (t.jumps + 1)

theorem inv_init (v : Retries code jumps bound) {a : args} {s : NamedCall loc}
    (h : NameInit code a s) : v.Inv Tally.start s := by
  rcases s with ⟨name, call⟩
  cases h
  rcases v.start a with ⟨hok, hrank, hattempt⟩
  refine ⟨Nat.le_refl _, hok, ?_, ?_⟩
  · simpa [Tally.start] using hrank
  · rcases hattempt with h | h <;> simp only [h, Attempt.Owes]

theorem inv_syscall (v : Retries code jumps bound) {t : Tally} {s s' : NamedCall loc}
    {r : SysResult} {o : NameEvent} (hinv : v.Inv t s)
    (h : nameStep code jumps s (NameAction.syscall r) = some (s', o))
    (habsent : MissesOnlyAbsent code jumps ⟨s, NameAction.syscall r, o, s'⟩) :
    v.Inv (t.record o) s' ∧ JumpsWhenMissing t ⟨s, NameAction.syscall r, o, s'⟩ := by
  rcases s with ⟨name, call⟩
  cases call with
  | returns ret => cases h
  | goes l =>
      rcases hinv with ⟨hjumps, hok, hcalls, howes⟩
      have hmisses := habsent l r rfl rfl
      simp only [nameStep] at h
      split at h
      · rename_i hanswer
        cases h
        cases hnext : code.next l r with
        | returns ret =>
            have hrank := v.positive l
            simp only [Inv, v.returns, Tally.record]
            refine ⟨⟨hjumps, ?_⟩, ?_⟩
            · simp only [Bool.false_eq_true, if_false]
              lia
            · intro c r n hjump
              cases hjump
        | goes l' =>
            rcases v.next l r l' hok hnext with ⟨hok', hgoes⟩
            have hrank := v.falls l r l' hok hnext
            rw [hnext] at hmisses
            rcases hgoes.owes hanswer hjumps howes hmisses with ⟨hjumps', howes', hmissing⟩
            simp only [Inv]
            refine ⟨⟨hjumps', hok', ?_, howes'⟩, ?_⟩
            · simp only [Tally.record]
              cases hjump : jumps l (After.goes l') with
              | true =>
                  simp only [hjump, if_true] at hrank ⊢
                  have hround : bound * (t.jumps + 1 + 1) = bound * (t.jumps + 1) + bound :=
                    Nat.mul_succ bound (t.jumps + 1)
                  have hrank' := v.positive l
                  lia
              | false =>
                  simp only [hjump, Bool.false_eq_true, if_false] at hrank ⊢
                  lia
            · intro c r n hjump
              rcases NameEvent.called.inj hjump with ⟨_, _, _, htrue⟩
              exact hmissing htrue
      · cases h

theorem inv_step (v : Retries code jumps bound) {t : Tally} {s s' : NamedCall loc}
    {act : NameAction} {o : NameEvent} (hinv : v.Inv t s)
    (h : nameStep code jumps s act = some (s', o))
    (habsent : MissesOnlyAbsent code jumps ⟨s, act, o, s'⟩) :
    v.Inv (t.record o) s' ∧ JumpsWhenMissing t ⟨s, act, o, s'⟩ := by
  rcases s with ⟨name, call⟩
  cases act with
  | syscall r => exact v.inv_syscall hinv h habsent
  | remove =>
      simp only [nameStep] at h
      split at h
      · cases h
      · cases h
        have howed := Nat.lt_succ_of_le hinv.1
        refine ⟨⟨Nat.le_of_lt howed, ?_⟩, fun c r n hjump => by cases hjump⟩
        cases call with
        | returns ret => exact hinv.2
        | goes l =>
            rcases hinv with ⟨_, hok, hcalls, howes⟩
            refine ⟨hok, hcalls, ?_⟩
            cases hattempt : v.attempt l with
            | asking => trivial
            | found => exact fun _ => howed
            | opened => exact fun _ => howed
            | missed =>
                rw [hattempt] at howes
                exact ⟨howed, howes.2⟩
            | settled => trivial
  | create n =>
      simp only [nameStep] at h
      split at h
      · rename_i hcond
        rcases hcond with ⟨rfl, hn⟩
        cases h
        refine ⟨⟨hinv.1, ?_⟩, fun c r n hjump => by cases hjump⟩
        cases call with
        | returns ret => exact hinv.2
        | goes l =>
            rcases hinv with ⟨_, hok, hcalls, howes⟩
            refine ⟨hok, hcalls, ?_⟩
            cases hattempt : v.attempt l with
            | asking => trivial
            | found => exact fun habs => absurd habs hn
            | opened =>
                rw [hattempt] at howes
                exact fun _ => howes rfl
            | missed =>
                rw [hattempt] at howes
                exact howes
            | settled => trivial
      · cases h

/-- The attempts of a call are bounded by the removals. -/
theorem bounded (v : Retries code jumps bound) {a : args}
    {tr : List (NameTransition loc)} {s : NamedCall loc}
    (hrun : Run (NameInit code a) (nameStep code jumps) tr s)
    (habsent : forall e, e ∈ tr -> MissesOnlyAbsent code jumps e) :
    (tally tr).jumps ≤ (tally tr).removals ∧
      (tally tr).calls ≤ bound * ((tally tr).removals + 1) ∧
      AtEachStep Tally.record Tally.start JumpsWhenMissing tr := by
  have hsteps := run_observed_steps (I := v.Inv) (P := JumpsWhenMissing)
    (G := fun _ e => MissesOnlyAbsent code jumps e) (fun s hs => v.inv_init hs)
    (fun t s act o s' hinv hguard hstep => v.inv_step hinv hstep hguard) hrun
    (fun tr₁ e tr₂ heq => habsent e (by simp [heq]))
  rcases hsteps with ⟨⟨hjumps, hcalls⟩, hmissing⟩
  refine ⟨hjumps, ?_, hmissing⟩
  have hround : bound * ((tally tr).jumps + 1) ≤ bound * ((tally tr).removals + 1) :=
    Nat.mul_le_mul_left bound (Nat.succ_le_succ hjumps)
  cases hcall : s.call with
  | goes l =>
      rw [hcall] at hcalls
      exact Nat.le_trans (Nat.le_trans (Nat.le_add_right _ _) hcalls.2.1) hround
  | returns ret =>
      rw [hcall] at hcalls
      exact Nat.le_trans hcalls hround

end Retries

/-- A call that has not returned makes its next system call. -/
theorem call_goes_on {args loc : Type} (code : OpenCode args loc)
    (jumps : loc -> After loc -> Bool) (s : NamedCall loc) :
    (exists ret, s.call = After.returns ret) ∨
      exists r t o, nameStep code jumps s (NameAction.syscall r) = some (t, o) := by
  rcases s with ⟨name, call⟩
  cases call with
  | returns ret => exact Or.inl ⟨ret, rfl⟩
  | goes l =>
      have hanswer : name.answers (code.request l) (SysResult.failed (Errno.other 24)) = true := by
        cases code.request l <;> rfl
      exact Or.inr ⟨_, _, _, if_pos hanswer⟩

end Opening
end InterprocessComm
