import InterprocessComm.Opening.Retries
import InterprocessComm.Opening.SemOpen

/-!
# The attempts of sem_open

With `O_CREAT`, `sem_open` goes back to `again` whenever its second `open` fails, for
whatever reason; without, it returns without the error of this `open`.  Where this `open`
only fails because the name is gone, a removal accounts for each time.
-/

namespace InterprocessComm
namespace Opening

open Verification

def SemOpenPc.attempt : SemOpenPc -> Attempt
  | openExcl => Attempt.asking
  | openRdwr => Attempt.found
  | mmapOld => Attempt.opened
  | stat => Attempt.opened
  | sleep => Attempt.opened
  | closeAgain => Attempt.missed
  | _ => Attempt.settled

namespace SemOpenLoc

def jumps (l : SemOpenLoc) : After SemOpenLoc -> Bool
  | After.goes l' =>
      l.pc = SemOpenPc.closeAgain || l.pc = SemOpenPc.openRdwr && l'.pc = SemOpenPc.openExcl
  | After.returns _ => false

def attempt (l : SemOpenLoc) : Attempt :=
  if l.args.o_creat then l.pc.attempt else Attempt.settled

def rank (l : SemOpenLoc) : Nat :=
  match l.pc with
  | SemOpenPc.openExcl => 28
  | SemOpenPc.write => 12
  | SemOpenPc.mmapNew => 11
  | SemOpenPc.mutexattrInit => 10
  | SemOpenPc.mutexInit => 9
  | SemOpenPc.condattrInit => 8
  | SemOpenPc.condInit => 7
  | SemOpenPc.initCount => 6
  | SemOpenPc.fchmod => 5
  | SemOpenPc.closeNew => 4
  | SemOpenPc.magicNew => 3
  | SemOpenPc.openRdwr => 27
  | SemOpenPc.mmapOld => 26
  | SemOpenPc.stat => 5 + 2 * (SemOpen.MAX_TRIES - l.i)
  | SemOpenPc.sleep => 4 + 2 * (SemOpen.MAX_TRIES - l.i)
  | SemOpenPc.closeAgain => 4
  | SemOpenPc.closeOld => 4
  | SemOpenPc.magicOld => 3
  | SemOpenPc.errUnlink => 3
  | SemOpenPc.errMunmap => 2
  | SemOpenPc.errClose => 1

def Retrying (l : SemOpenLoc) : Prop :=
  l.pc = SemOpenPc.closeAgain -> l.args.o_creat = true

def Goes (l : SemOpenLoc) (r : SysResult) (l' : SemOpenLoc) : Prop :=
  l'.Retrying ∧ l.attempt.Next (semOpenRequest l) r (l.jumps (After.goes l')) l'.attempt ∧
    l'.rank < if l.jumps (After.goes l') then 29 else l.rank

theorem goes_of_settled {l l' : SemOpenLoc} (r : SysResult) (hpc : l.pc ≠ SemOpenPc.closeAgain)
    (hsettled : l'.pc.attempt = Attempt.settled) (hrank : l'.rank < l.rank) : Goes l r l' := by
  have hattempt : l'.attempt = Attempt.settled := by
    unfold attempt
    split
    · exact hsettled
    · rfl
  have hnojump : l.jumps (After.goes l') = false := by
    have hne : l'.pc ≠ SemOpenPc.openExcl := by
      intro heq
      rw [heq] at hsettled
      cases hsettled
    simp [jumps, hpc, hne]
  refine ⟨?_, ?_, ?_⟩
  · intro hclose
    rw [hclose] at hsettled
    cases hsettled
  · rw [hattempt, hnojump]
    exact Attempt.Next.settles _ _ _
  · rw [hnojump]
    exact hrank

theorem afterUnlink_settled (l : SemOpenLoc) :
    l.afterUnlink.pc.attempt = Attempt.settled ∧ l.afterUnlink.rank ≤ 2 := by
  unfold afterUnlink
  split
  · exact ⟨rfl, Nat.le_refl 2⟩
  · exact ⟨rfl, Nat.le_succ 1⟩

theorem err_settled (l : SemOpenLoc) (e : Errno) :
    (l.err e).pc.attempt = Attempt.settled ∧ (l.err e).rank ≤ 3 := by
  unfold err
  split
  · exact ⟨rfl, Nat.le_refl 3⟩
  · rcases afterUnlink_settled { l with errno := e } with ⟨hsettled, hrank⟩
    exact ⟨hsettled, Nat.le_succ_of_le hrank⟩

theorem goes_err {l : SemOpenLoc} (m : SemOpenLoc) (r : SysResult) (e : Errno)
    (hpc : l.pc ≠ SemOpenPc.closeAgain) (hrank : 3 < l.rank) : Goes l r (m.err e) :=
  goes_of_settled r hpc (m.err_settled e).1 (Nat.lt_of_le_of_lt (m.err_settled e).2 hrank)

theorem goes_orErr {l l' m next : SemOpenLoc} {r : SysResult}
    (h : orErr next m.err r = After.goes l') (hpc : l.pc ≠ SemOpenPc.closeAgain)
    (hrank : 3 < l.rank) (hsettled : next.pc.attempt = Attempt.settled)
    (hnext : next.rank < l.rank) : Goes l r l' :=
  orErr_rule h (fun e => goes_err m r e hpc hrank) (goes_of_settled r hpc hsettled hnext)

theorem goes_tries {l m : SemOpenLoc} {r : SysResult} (hargs : m.args = l.args)
    (hpc : l.pc = SemOpenPc.mmapOld ∨ l.pc = SemOpenPc.sleep)
    (hnext : l.pc.attempt.Next (semOpenRequest l) r false Attempt.opened)
    (hrank : m.i < SemOpen.MAX_TRIES -> 5 + 2 * (SemOpen.MAX_TRIES - m.i) < l.rank)
    (herr : 3 < l.rank) : Goes l r m.tries := by
  have hclose : l.pc ≠ SemOpenPc.closeAgain := by
    intro heq
    rw [heq] at hpc
    rcases hpc with h | h <;> cases h
  unfold tries
  split
  · rename_i hi
    have hnojump : l.jumps (After.goes { m with pc := SemOpenPc.stat }) = false := by
      simp [jumps, hclose]
    refine ⟨SemOpenPc.noConfusion, ?_, ?_⟩
    · rw [hnojump]
      simp only [attempt, hargs]
      split
      · exact hnext
      · exact Attempt.Next.settles _ _ _
    · rw [hnojump]
      exact hrank hi
  · exact goes_err m r _ hclose herr

theorem goes_again {l m : SemOpenLoc} {r : SysResult} (hargs : m.args = l.args)
    (hcreat : l.args.o_creat = true)
    (hpc : l.pc = SemOpenPc.openRdwr ∨ l.pc = SemOpenPc.closeAgain)
    (hnext : l.pc.attempt.Next (semOpenRequest l) r true Attempt.asking) : Goes l r m.again := by
  have hagain : m.again = { m with pc := SemOpenPc.openExcl } := by
    unfold again
    rw [hargs, if_pos hcreat]
  have hjump : l.jumps (After.goes { m with pc := SemOpenPc.openExcl }) = true := by
    rcases hpc with h | h <;> simp [jumps, h]
  rw [hagain]
  refine ⟨SemOpenPc.noConfusion, ?_, ?_⟩
  · rw [hjump]
    simp only [attempt, hargs, hcreat, if_true]
    exact hnext
  · rw [hjump]
    exact Nat.lt_succ_self 28

theorem openExcl_goes {valueMax : Int} {l l' : SemOpenLoc} {r : SysResult}
    (hpc : l.pc = SemOpenPc.openExcl) (h : semOpenNext valueMax l r = After.goes l') :
    Goes l r l' := by
  rcases l with ⟨pc, args, created, fd, sem, i, errno⟩
  cases hpc
  cases r with
  | opened f =>
      cases h
      exact goes_of_settled _ SemOpenPc.noConfusion rfl (by simp [rank])
  | failed e =>
      rcases next_openExcl_failed rfl h with ⟨⟨rfl, _⟩, hgoes⟩ | ⟨_, hreturns⟩
      · cases hgoes
        refine ⟨SemOpenPc.noConfusion, ?_, Nat.lt_succ_self 27⟩
        simp only [attempt]
        split
        · exact Attempt.Next.finds
        · exact Attempt.Next.settles _ _ _
      · cases hreturns
  | ok => cases h
  | status xusr size => cases h

theorem openRdwr_goes {valueMax : Int} {l l' : SemOpenLoc} {r : SysResult}
    (hpc : l.pc = SemOpenPc.openRdwr) (h : semOpenNext valueMax l r = After.goes l') :
    Goes l r l' := by
  rcases l with ⟨pc, args, created, fd, sem, i, errno⟩
  cases hpc
  cases r with
  | opened f =>
      cases h
      refine ⟨SemOpenPc.noConfusion, ?_, Nat.lt_succ_self 26⟩
      simp only [attempt]
      split
      · exact Attempt.Next.opens f
      · exact Attempt.Next.settles _ _ _
  | failed e =>
      rcases next_openRdwr_failed rfl h with ⟨hcreat, hgoes⟩ | ⟨_, hgoes⟩
      · cases hgoes
        exact goes_again rfl hcreat (Or.inl rfl) (Attempt.Next.retries e)
      · cases hgoes
        exact goes_err _ _ _ SemOpenPc.noConfusion (by simp [rank])
  | ok =>
      cases h
      exact goes_err _ _ _ SemOpenPc.noConfusion (by simp [rank])
  | status xusr size =>
      cases h
      exact goes_err _ _ _ SemOpenPc.noConfusion (by simp [rank])

theorem stat_goes {valueMax : Int} {l l' : SemOpenLoc} {r : SysResult}
    (hpc : l.pc = SemOpenPc.stat) (h : semOpenNext valueMax l r = After.goes l') :
    Goes l r l' := by
  rcases l with ⟨pc, args, created, fd, sem, i, errno⟩
  cases hpc
  have herr : 3 < 5 + 2 * (SemOpen.MAX_TRIES - i) := by lia
  cases r with
  | status xusr size =>
      cases xusr with
      | false =>
          cases h
          refine goes_of_settled _ SemOpenPc.noConfusion rfl ?_
          simp only [rank]
          lia
      | true =>
          cases h
          refine ⟨SemOpenPc.noConfusion, ?_, Nat.add_lt_add_right (by decide) _⟩
          simp only [attempt]
          split
          · exact Attempt.Next.waits _ rfl
          · exact Attempt.Next.settles _ _ _
  | failed e =>
      rcases next_stat_failed rfl h with ⟨⟨rfl, hcreat⟩, hgoes⟩ | ⟨_, hgoes⟩
      · change args.o_creat = true at hcreat
        cases hgoes
        refine ⟨fun _ => hcreat, ?_, ?_⟩
        · simp only [attempt, hcreat, if_true]
          exact Attempt.Next.misses
        · simp only [rank, jumps]
          lia
      · cases hgoes
        exact goes_err _ _ e SemOpenPc.noConfusion herr
  | ok =>
      cases h
      exact goes_err _ _ _ SemOpenPc.noConfusion herr
  | opened f =>
      cases h
      exact goes_err _ _ _ SemOpenPc.noConfusion herr

theorem next_goes {valueMax : Int} {l l' : SemOpenLoc} {r : SysResult} (hretrying : l.Retrying)
    (h : semOpenNext valueMax l r = After.goes l') : Goes l r l' := by
  rcases l with ⟨pc, args, created, fd, sem, i, errno⟩
  cases pc with
  | openExcl => exact openExcl_goes rfl h
  | write =>
      exact goes_orErr h SemOpenPc.noConfusion (by simp [rank]) rfl (Nat.lt_succ_self _)
  | mmapNew =>
      exact goes_orErr h SemOpenPc.noConfusion (by simp [rank]) rfl (Nat.lt_succ_self _)
  | mutexattrInit =>
      exact goes_orErr h SemOpenPc.noConfusion (by simp [rank]) rfl (Nat.lt_succ_self _)
  | mutexInit =>
      exact goes_orErr h SemOpenPc.noConfusion (by simp [rank]) rfl (Nat.lt_succ_self _)
  | condattrInit =>
      exact goes_orErr h SemOpenPc.noConfusion (by simp [rank]) rfl (Nat.lt_succ_self _)
  | condInit =>
      exact goes_orErr h SemOpenPc.noConfusion (by simp [rank]) rfl (Nat.lt_succ_self _)
  | initCount =>
      rcases next_initCount rfl h with hgoes | hgoes
      · cases hgoes
        exact goes_err _ _ _ SemOpenPc.noConfusion (by simp [rank])
      · cases hgoes
        exact goes_of_settled _ SemOpenPc.noConfusion rfl (Nat.lt_succ_self _)
  | fchmod =>
      exact goes_orErr h SemOpenPc.noConfusion (by simp [rank]) rfl (Nat.lt_succ_self _)
  | closeNew =>
      cases h
      exact goes_of_settled _ SemOpenPc.noConfusion rfl (Nat.lt_succ_self _)
  | magicNew => cases h
  | openRdwr => exact openRdwr_goes rfl h
  | mmapOld =>
      rcases orErr_goes h with ⟨e, rfl, rfl⟩ | ⟨_, rfl⟩
      · exact goes_err _ _ e SemOpenPc.noConfusion (by simp [rank])
      · refine goes_tries rfl (Or.inl rfl) (Attempt.Next.waits _ rfl) ?_ ?_
        · intro _
          simp [rank, SemOpen.MAX_TRIES]
        · simp [rank]
  | stat => exact stat_goes rfl h
  | sleep =>
      cases h
      refine goes_tries rfl (Or.inr rfl) (Attempt.Next.waits _ rfl) ?_ ?_
      · intro hi
        simp only [rank] at hi ⊢
        lia
      · simp only [rank]
        lia
  | closeAgain =>
      cases h
      exact goes_again rfl (hretrying rfl) (Or.inr rfl) (Attempt.Next.leaves fd r)
  | closeOld =>
      cases h
      exact goes_of_settled _ SemOpenPc.noConfusion rfl (Nat.lt_succ_self _)
  | magicOld => cases h
  | errUnlink =>
      cases h
      exact goes_of_settled _ SemOpenPc.noConfusion (afterUnlink_settled _).1
        (Nat.lt_succ_of_le (afterUnlink_settled _).2)
  | errMunmap =>
      cases h
      exact goes_of_settled _ SemOpenPc.noConfusion rfl (Nat.lt_succ_self _)
  | errClose => cases h

theorem positive (l : SemOpenLoc) : 0 < l.rank := by
  rcases l with ⟨pc, args, created, fd, sem, i, errno⟩
  cases pc with
  | stat => exact Nat.lt_add_right _ (by decide)
  | sleep => exact Nat.lt_add_right _ (by decide)
  | _ => exact Nat.zero_lt_succ _

theorem not_jumps_err (l m : SemOpenLoc) (e : Errno) (hpc : l.pc ≠ SemOpenPc.closeAgain) :
    l.jumps (After.goes (m.err e)) = false := by
  have hne : (m.err e).pc ≠ SemOpenPc.openExcl := by
    intro heq
    have hsettled := (m.err_settled e).1
    rw [heq] at hsettled
    cases hsettled
  simp [jumps, hpc, hne]

theorem pc_of_openRdwr {l : SemOpenLoc} (h : semOpenRequest l = Syscall.openRdwr) :
    l.pc = SemOpenPc.openRdwr := by
  rcases l with ⟨pc, args, created, fd, sem, i, errno⟩
  cases pc with
  | openRdwr => rfl
  | _ => cases h

theorem jump_of_openRdwr {valueMax : Int} {l : SemOpenLoc} {r : SysResult}
    (hrequest : semOpenRequest l = Syscall.openRdwr)
    (hjump : l.jumps (semOpenNext valueMax l r) = true) :
    l.pc = SemOpenPc.openRdwr ∧ exists e, r = SysResult.failed e := by
  rcases l with ⟨pc, args, created, fd, sem, i, errno⟩
  cases pc with
  | openRdwr =>
      cases r with
      | opened f => cases hjump
      | failed e => exact ⟨rfl, e, rfl⟩
      | ok =>
          change jumps _ (After.goes (err _ _)) = true at hjump
          rw [not_jumps_err _ _ _ SemOpenPc.noConfusion] at hjump
          cases hjump
      | status xusr size =>
          change jumps _ (After.goes (err _ _)) = true at hjump
          rw [not_jumps_err _ _ _ SemOpenPc.noConfusion] at hjump
          cases hjump
  | _ => cases hrequest

theorem openRdwr_jumps {valueMax : Int} {l : SemOpenLoc} (e : Errno)
    (hpc : l.pc = SemOpenPc.openRdwr) (hcreat : l.args.o_creat = true) :
    l.jumps (semOpenNext valueMax l (SysResult.failed e)) = true := by
  rcases l with ⟨pc, ⟨o_creat, o_excl, value⟩, created, fd, sem, i, errno⟩
  cases hpc
  cases hcreat
  rfl

end SemOpenLoc

def semOpenRetries (valueMax : Int) : Retries (semOpenCode valueMax) SemOpenLoc.jumps 28 where
  attempt := SemOpenLoc.attempt
  rank := SemOpenLoc.rank
  Ok := SemOpenLoc.Retrying
  start := by
    rintro ⟨o_creat, o_excl, value⟩
    cases o_creat with
    | true => exact ⟨SemOpenPc.noConfusion, Nat.le_refl 28, Or.inl rfl⟩
    | false => exact ⟨SemOpenPc.noConfusion, Nat.le_succ 27, Or.inr rfl⟩
  positive := SemOpenLoc.positive
  next := by
    intro l r l' hretrying h
    rcases SemOpenLoc.next_goes hretrying h with ⟨hok, hnext, _⟩
    exact ⟨hok, hnext⟩
  falls := fun _ _ _ hretrying h => (SemOpenLoc.next_goes hretrying h).2.2
  returns := fun _ _ => rfl

def failsOtherwise (e : NameTransition SemOpenLoc) : Bool :=
  match e.source.call, e.action with
  | After.goes l, NameAction.syscall (SysResult.failed x) =>
      l.pc = SemOpenPc.openRdwr &&
        !(l.args.o_creat && x = Errno.ENOENT && e.source.name = PathName.absent)
  | _, _ => false

/-- A call that fails returns the error of the second `open` that ended its attempts. -/
def KeepsError {loc : Type} (t : Tally) (e : NameTransition loc) : Prop :=
  forall x y, (t.record e.event).failure = some x ->
    e.target.call = After.returns (Except.error y) -> y = x

theorem missesOnlyAbsent_of_failsOtherwise {valueMax : Int} {e : NameTransition SemOpenLoc}
    (h : failsOtherwise e = false) :
    MissesOnlyAbsent (semOpenCode valueMax) SemOpenLoc.jumps e := by
  rcases e with ⟨⟨name, call⟩, action, event, target⟩
  intro l r hcall haction hrequest hjump
  cases hcall
  cases haction
  rcases SemOpenLoc.jump_of_openRdwr hrequest hjump with ⟨hpc, x, rfl⟩
  simp only [failsOtherwise, hpc, decide_true, Bool.true_and, Bool.not_eq_false',
    Bool.and_eq_true, decide_eq_true_eq] at h
  rcases h with ⟨⟨_, rfl⟩, hname⟩
  exact ⟨rfl, hname⟩

/-- The second `open` never ends the attempts. -/
theorem failure_none {valueMax : Int} {t : Tally} {s s' : NamedCall SemOpenLoc}
    {act : NameAction} {o : NameEvent} (ht : t.failure = none)
    (hstep : nameStep (semOpenCode valueMax) SemOpenLoc.jumps s act = some (s', o))
    (hfails : failsOtherwise ⟨s, act, o, s'⟩ = false) : (t.record o).failure = none := by
  rcases s with ⟨name, call⟩
  cases act with
  | remove =>
      simp only [nameStep] at hstep
      split at hstep
      · cases hstep
      · cases hstep
        exact ht
  | create n =>
      simp only [nameStep] at hstep
      split at hstep
      · cases hstep
        exact ht
      · cases hstep
  | syscall r =>
      cases call with
      | returns ret => cases hstep
      | goes l =>
          simp only [nameStep] at hstep
          split at hstep
          · cases hstep
            refine (Tally.failing_eq ?_).trans ht
            rintro e hrequest rfl
            have hpc : l.pc = SemOpenPc.openRdwr := SemOpenLoc.pc_of_openRdwr hrequest
            simp only [failsOtherwise, hpc, decide_true, Bool.true_and, Bool.not_eq_false',
              Bool.and_eq_true] at hfails
            exact SemOpenLoc.openRdwr_jumps e hpc hfails.1.1
          · cases hstep

/-- Where the second `open` fails only because the name is gone, `sem_open` jumps back only
when it has found the name missing, at most once for each removal, loses no error, and
comes to its end. -/
theorem sem_open_terminates (valueMax : Int) (a : SemOpenArgs)
    (tr : List (NameTransition SemOpenLoc)) (s : NamedCall SemOpenLoc)
    (hrun : Run (NameInit (semOpenCode valueMax) a)
      (nameStep (semOpenCode valueMax) SemOpenLoc.jumps) tr s)
    (hfails : forall e, e ∈ tr -> failsOtherwise e = false) :
    (tally tr).jumps ≤ (tally tr).removals ∧
      (tally tr).calls ≤ 28 * ((tally tr).removals + 1) ∧
      ((exists ret, s.call = After.returns ret) ∨
        exists r t o,
          nameStep (semOpenCode valueMax) SemOpenLoc.jumps s (NameAction.syscall r) =
            some (t, o)) ∧
      AtEachStep Tally.record Tally.start
        (fun t e => JumpsWhenMissing t e ∧ KeepsError t e) tr := by
  rcases (semOpenRetries valueMax).bounded hrun
    (fun e he => missesOnlyAbsent_of_failsOtherwise (hfails e he)) with
    ⟨hjumps, hcalls, hmissing⟩
  have herrors : (tally tr).failure = none ∧ AtEachStep Tally.record Tally.start KeepsError tr := by
    refine run_observed_steps (I := fun (t : Tally) _ => t.failure = none)
      (G := fun _ e => failsOtherwise e = false) (fun _ _ => rfl) ?_ hrun
      (fun tr₁ e tr₂ heq => hfails e (by simp [heq]))
    intro t s act o s' ht hguard hstep
    have hnone := failure_none ht hstep hguard
    refine ⟨hnone, ?_⟩
    intro x y hx _
    rw [hnone] at hx
    cases hx
  exact ⟨hjumps, hcalls, call_goes_on _ _ s,
    fun tr₁ e tr₂ heq => ⟨hmissing tr₁ e tr₂ heq, herrors.2 tr₁ e tr₂ heq⟩⟩

/-- A name that is removed twice during a call: between the two calls of `open`, and while
the call waits. -/
theorem sem_open_terminates_twoRemovals :
    exists tr s,
      Run (NameInit (semOpenCode 32767) { o_creat := true, o_excl := false, value := 1 })
          (nameStep (semOpenCode 32767) SemOpenLoc.jumps) tr s ∧
        (tally tr).jumps = 2 ∧ (tally tr).removals = 2 ∧
        (tally tr).calls ≤ 28 * ((tally tr).removals + 1) := by
  have hrun : exists tr s,
      Run (NameInit (semOpenCode 32767) { o_creat := true, o_excl := false, value := 1 })
          (nameStep (semOpenCode 32767) SemOpenLoc.jumps) tr s ∧
        decide ((tally tr).jumps = 2 ∧ (tally tr).removals = 2 ∧
          forall e, e ∈ tr -> failsOtherwise e = false) = true :=
    run_of_replay
      [NameAction.syscall (SysResult.failed Errno.EEXIST), NameAction.remove,
        NameAction.syscall (SysResult.failed Errno.ENOENT),
        NameAction.create (PathName.file 1),
        NameAction.syscall (SysResult.failed Errno.EEXIST),
        NameAction.syscall (SysResult.opened 1), NameAction.syscall SysResult.ok,
        NameAction.syscall (SysResult.status true 96), NameAction.remove,
        NameAction.syscall SysResult.ok, NameAction.syscall (SysResult.failed Errno.ENOENT),
        NameAction.syscall SysResult.ok, NameAction.syscall (SysResult.opened 2),
        NameAction.syscall (SysResult.failed (Errno.other 28))]
      (calledOn_init (semOpenCode 32767) _ (PathName.file 0)) (by decide +kernel)
  rcases hrun with ⟨tr, s, hrun, htest⟩
  rcases of_decide_eq_true htest with ⟨hjumps, hremovals, hfails⟩
  exact ⟨tr, s, hrun, hjumps, hremovals, (sem_open_terminates 32767 _ tr s hrun hfails).2.1⟩

/-- A second `open` that is refused access is repeated as often as it is made. -/
theorem refused_open_jumps (n : Nat) :
    exists tr e,
      Run (NameInit (semOpenCode 32767) { o_creat := true, o_excl := false, value := 1 })
          (nameStep (semOpenCode 32767) SemOpenLoc.jumps) tr
          { name := PathName.file 0,
            call := After.goes
              { semOpenStart { o_creat := true, o_excl := false, value := 1 } with errno := e } } ∧
        (tally tr).jumps = n ∧ (tally tr).removals = 0 := by
  induction n with
  | zero => exact ⟨[], _, ⟨_, calledOn_init _ _ _, Path.nil⟩, rfl, rfl⟩
  | succ n ih =>
      rcases ih with ⟨tr, e, ⟨s0, hinit, hpath⟩, hjumps, hremovals⟩
      have hfound := Path.snoc (a := NameAction.syscall (SysResult.failed Errno.EEXIST)) hpath rfl
      have hrefused := Path.snoc (a := NameAction.syscall (SysResult.failed Errno.EACCES))
        hfound rfl
      refine ⟨_, Errno.other 1, ⟨s0, hinit, hrefused⟩, ?_, ?_⟩
      · simp only [tally, observed_snoc]
        exact congrArg Nat.succ hjumps
      · simp only [tally, observed_snoc]
        exact hremovals

/-- Nobody removes the name, and `sem_open` jumps back for ever, since it may not open the
file; without `O_CREAT` it returns 0 for `ENOENT`. -/
theorem sem_open_never_ends_refusedOpen :
    (exists tr s,
      Run (NameInit (semOpenCode 32767) { o_creat := true, o_excl := false, value := 1 })
          (nameStep (semOpenCode 32767) SemOpenLoc.jumps) tr s ∧
        (tally tr).removals < (tally tr).jumps) ∧
    (forall n, exists tr s,
      Run (NameInit (semOpenCode 32767) { o_creat := true, o_excl := false, value := 1 })
          (nameStep (semOpenCode 32767) SemOpenLoc.jumps) tr s ∧
        (tally tr).removals = 0 ∧ (tally tr).jumps = n) ∧
    exists tr s,
      Run (NameInit (semOpenCode 32767) { o_creat := false, o_excl := false, value := 0 })
          (nameStep (semOpenCode 32767) SemOpenLoc.jumps) tr s ∧
        (tally tr).failure = some Errno.ENOENT ∧
        s.call = After.returns (Except.error (Errno.other 0)) := by
  refine ⟨?_, ?_, ?_⟩
  · rcases refused_open_jumps 1 with ⟨tr, e, hrun, hjumps, hremovals⟩
    exact ⟨tr, _, hrun, by rw [hjumps, hremovals]; exact Nat.one_pos⟩
  · intro n
    rcases refused_open_jumps n with ⟨tr, e, hrun, hjumps, hremovals⟩
    exact ⟨tr, _, hrun, hremovals, hjumps⟩
  · have hcalled : Path (nameStep (semOpenCode 32767) SemOpenLoc.jumps)
        (calledOn (semOpenCode 32767) { o_creat := false, o_excl := false, value := 0 }
          PathName.absent) []
        (calledOn (semOpenCode 32767) { o_creat := false, o_excl := false, value := 0 }
          PathName.absent) := Path.nil
    have hfailed := Path.snoc (a := NameAction.syscall (SysResult.failed Errno.ENOENT))
      hcalled rfl
    have hclosed := Path.snoc (a := NameAction.syscall SysResult.ok) hfailed rfl
    exact ⟨_, _, ⟨_, calledOn_init _ _ _, hclosed⟩, rfl, rfl⟩

end Opening
end InterprocessComm
