import InterprocessComm.Opening.MqOpen
import InterprocessComm.Opening.Retries

/-!
# The attempts of mq_open

`mq_open` goes back to `again` when its second `open` or `stat` reports `ENOENT`.
A removal accounts for each time, unless the second `open` finds a dangling link,
which the first one takes for an existing file for ever.
-/

namespace InterprocessComm
namespace Opening

open Verification

def MqOpenPc.attempt : MqOpenPc -> Attempt
  | openExcl => Attempt.asking
  | openRdwr => Attempt.found
  | stat => Attempt.opened
  | sleep => Attempt.opened
  | closeAgain => Attempt.missed
  | _ => Attempt.settled

namespace MqOpenLoc

def jumps (l : MqOpenLoc) : After MqOpenLoc -> Bool
  | After.goes l' =>
      l.pc = MqOpenPc.closeAgain || l.pc = MqOpenPc.openRdwr && l'.pc = MqOpenPc.openExcl
  | After.returns _ => false

def attempt (l : MqOpenLoc) : Attempt :=
  if l.args.o_creat then l.pc.attempt else Attempt.settled

def rank (l : MqOpenLoc) : Nat :=
  match l.pc with
  | MqOpenPc.openExcl => 30
  | MqOpenPc.lseek => 15
  | MqOpenPc.write => 14
  | MqOpenPc.mmapNew => 13
  | MqOpenPc.mallocNew => 12
  | MqOpenPc.initHeader => 11
  | MqOpenPc.mutexattrInit => 10
  | MqOpenPc.mutexInit => 9
  | MqOpenPc.condattrInit => 8
  | MqOpenPc.condInit => 7
  | MqOpenPc.fchmod => 6
  | MqOpenPc.closeNew => 5
  | MqOpenPc.openRdwr => 29
  | MqOpenPc.stat => 8 + 2 * (MAX_TRIES - l.i)
  | MqOpenPc.sleep => 7 + 2 * (MAX_TRIES - l.i)
  | MqOpenPc.closeAgain => 5
  | MqOpenPc.mmapOld => 7
  | MqOpenPc.closeOld => 6
  | MqOpenPc.mallocOld => 5
  | MqOpenPc.errUnlink => 4
  | MqOpenPc.errMunmap => 3
  | MqOpenPc.errFree => 2
  | MqOpenPc.errClose => 1

def Retrying (l : MqOpenLoc) : Prop :=
  l.pc = MqOpenPc.closeAgain -> l.args.o_creat = true

def Goes (l : MqOpenLoc) (r : SysResult) (l' : MqOpenLoc) : Prop :=
  l'.Retrying ∧ l.attempt.Next (mqOpenRequest l) r (l.jumps (After.goes l')) l'.attempt ∧
    l'.rank < if l.jumps (After.goes l') then 31 else l.rank

theorem goes_of_settled {l l' : MqOpenLoc} (r : SysResult) (hpc : l.pc ≠ MqOpenPc.closeAgain)
    (hsettled : l'.pc.attempt = Attempt.settled) (hrank : l'.rank < l.rank) : Goes l r l' := by
  have hattempt : l'.attempt = Attempt.settled := by
    unfold attempt
    split
    · exact hsettled
    · rfl
  have hnojump : l.jumps (After.goes l') = false := by
    have hne : l'.pc ≠ MqOpenPc.openExcl := by
      intro heq
      rw [heq] at hsettled
      cases hsettled
    simp [jumps, hpc, hne]
  refine ⟨?_, ?_, ?_⟩
  · intro hclose
    rw [hclose] at hsettled
    cases hsettled
  · rw [hattempt, hnojump]
    exact Attempt.Next.settles _ _ _
  · rw [hnojump]
    exact hrank

theorem afterMunmap_settled (l : MqOpenLoc) :
    l.afterMunmap.pc.attempt = Attempt.settled ∧ l.afterMunmap.rank ≤ 2 := by
  unfold afterMunmap
  split
  · exact ⟨rfl, Nat.le_refl 2⟩
  · exact ⟨rfl, Nat.le_succ 1⟩

theorem afterUnlink_settled (l : MqOpenLoc) :
    l.afterUnlink.pc.attempt = Attempt.settled ∧ l.afterUnlink.rank ≤ 3 := by
  unfold afterUnlink
  split
  · exact ⟨rfl, Nat.le_refl 3⟩
  · exact ⟨l.afterMunmap_settled.1, Nat.le_succ_of_le l.afterMunmap_settled.2⟩

theorem err_settled (l : MqOpenLoc) (e : Errno) :
    (l.err e).pc.attempt = Attempt.settled ∧ (l.err e).rank ≤ 4 := by
  unfold err
  split
  · exact ⟨rfl, Nat.le_refl 4⟩
  · rcases afterUnlink_settled { l with errno := e } with ⟨hsettled, hrank⟩
    exact ⟨hsettled, Nat.le_succ_of_le hrank⟩

theorem goes_err {l : MqOpenLoc} (m : MqOpenLoc) (r : SysResult) (e : Errno)
    (hpc : l.pc ≠ MqOpenPc.closeAgain) (hrank : 4 < l.rank) : Goes l r (m.err e) :=
  goes_of_settled r hpc (m.err_settled e).1 (Nat.lt_of_le_of_lt (m.err_settled e).2 hrank)

theorem goes_orErr {l l' m next : MqOpenLoc} {r : SysResult}
    (h : orErr next m.err r = After.goes l') (hpc : l.pc ≠ MqOpenPc.closeAgain)
    (hrank : 4 < l.rank) (hsettled : next.pc.attempt = Attempt.settled)
    (hnext : next.rank < l.rank) : Goes l r l' :=
  orErr_rule h (fun e => goes_err m r e hpc hrank) (goes_of_settled r hpc hsettled hnext)

theorem create_settled (l : MqOpenLoc) (f : Nat) :
    (l.create f).pc.attempt = Attempt.settled ∧ (l.create f).rank ≤ 15 := by
  unfold create
  simp only []
  split
  · rcases err_settled { l with created := true, fd := some f } Errno.EINVAL with
      ⟨hsettled, hrank⟩
    exact ⟨hsettled, Nat.le_trans hrank (by decide)⟩
  · exact ⟨rfl, Nat.le_refl 15⟩

theorem goes_tries {l m : MqOpenLoc} {r : SysResult} (hargs : m.args = l.args)
    (hpc : l.pc = MqOpenPc.openRdwr ∨ l.pc = MqOpenPc.sleep)
    (hnext : l.args.o_creat = true ->
      l.pc.attempt.Next (mqOpenRequest l) r false Attempt.opened)
    (hrank : m.i < MAX_TRIES -> 8 + 2 * (MAX_TRIES - m.i) < l.rank) (herr : 4 < l.rank) :
    Goes l r m.tries := by
  have hclose : l.pc ≠ MqOpenPc.closeAgain := by
    intro heq
    rw [heq] at hpc
    rcases hpc with h | h <;> cases h
  unfold tries
  split
  · rename_i hi
    have hnojump : l.jumps (After.goes { m with pc := MqOpenPc.stat }) = false := by
      simp [jumps, hclose]
    refine ⟨MqOpenPc.noConfusion, ?_, ?_⟩
    · rw [hnojump]
      simp only [attempt, hargs]
      split
      · rename_i hcreat
        exact hnext hcreat
      · exact Attempt.Next.settles _ _ _
    · rw [hnojump]
      exact hrank hi
  · exact goes_err m r _ hclose herr

theorem goes_again {l m : MqOpenLoc} {r : SysResult} (hargs : m.args = l.args)
    (hcreat : l.args.o_creat = true)
    (hpc : l.pc = MqOpenPc.openRdwr ∨ l.pc = MqOpenPc.closeAgain)
    (hnext : l.pc.attempt.Next (mqOpenRequest l) r true Attempt.asking) : Goes l r m.again := by
  have hagain : m.again = { m with pc := MqOpenPc.openExcl } := by
    unfold again
    rw [hargs, if_pos hcreat]
  have hjump : l.jumps (After.goes { m with pc := MqOpenPc.openExcl }) = true := by
    rcases hpc with h | h <;> simp [jumps, h]
  rw [hagain]
  refine ⟨MqOpenPc.noConfusion, ?_, ?_⟩
  · rw [hjump]
    simp only [attempt, hargs, hcreat, if_true]
    exact hnext
  · rw [hjump]
    exact Nat.lt_succ_self 30

theorem openExcl_goes {l l' : MqOpenLoc} {r : SysResult} (hpc : l.pc = MqOpenPc.openExcl)
    (h : mqOpenNext l r = After.goes l') : Goes l r l' := by
  rcases l with ⟨pc, args, created, fd, filesize, mptr, mqinfo, i, errno⟩
  cases hpc
  cases r with
  | opened f =>
      cases h
      rcases create_settled ⟨MqOpenPc.openExcl, args, created, fd, filesize, mptr, mqinfo, i,
        errno⟩ f with ⟨hsettled, hrank⟩
      exact goes_of_settled _ MqOpenPc.noConfusion hsettled
        (Nat.lt_of_le_of_lt hrank (by simp [rank]))
  | failed e =>
      rcases next_openExcl_failed rfl h with ⟨⟨rfl, _⟩, hgoes⟩ | ⟨_, hreturns⟩
      · cases hgoes
        refine ⟨MqOpenPc.noConfusion, ?_, Nat.lt_succ_self 29⟩
        simp only [attempt]
        split
        · exact Attempt.Next.finds
        · exact Attempt.Next.settles _ _ _
      · cases hreturns
  | ok => cases h
  | status xusr size => cases h

theorem openRdwr_goes {l l' : MqOpenLoc} {r : SysResult} (hpc : l.pc = MqOpenPc.openRdwr)
    (h : mqOpenNext l r = After.goes l') : Goes l r l' := by
  rcases l with ⟨pc, args, created, fd, filesize, mptr, mqinfo, i, errno⟩
  cases hpc
  cases r with
  | opened f =>
      cases h
      refine goes_tries rfl (Or.inl rfl) (fun _ => Attempt.Next.opens f) ?_ ?_
      · intro _
        simp [rank, MAX_TRIES]
      · simp [rank]
  | failed e =>
      rcases next_openRdwr_failed rfl h with ⟨hcond, hgoes⟩ | ⟨_, hgoes⟩
      · cases hgoes
        exact goes_again rfl hcond.2 (Or.inl rfl) (Attempt.Next.retries e)
      · cases hgoes
        exact goes_err _ _ e MqOpenPc.noConfusion (by simp [rank])
  | ok =>
      cases h
      exact goes_err _ _ _ MqOpenPc.noConfusion (by simp [rank])
  | status xusr size =>
      cases h
      exact goes_err _ _ _ MqOpenPc.noConfusion (by simp [rank])

theorem stat_goes {l l' : MqOpenLoc} {r : SysResult} (hpc : l.pc = MqOpenPc.stat)
    (h : mqOpenNext l r = After.goes l') : Goes l r l' := by
  rcases l with ⟨pc, args, created, fd, filesize, mptr, mqinfo, i, errno⟩
  cases hpc
  have herr : 4 < 8 + 2 * (MAX_TRIES - i) := by lia
  cases r with
  | status xusr size =>
      cases xusr with
      | false =>
          cases h
          refine goes_of_settled _ MqOpenPc.noConfusion rfl ?_
          simp only [rank]
          lia
      | true =>
          cases h
          refine ⟨MqOpenPc.noConfusion, ?_, Nat.add_lt_add_right (by decide) _⟩
          simp only [attempt]
          split
          · exact Attempt.Next.waits _ rfl
          · exact Attempt.Next.settles _ _ _
  | failed e =>
      rcases next_stat_failed rfl h with ⟨⟨rfl, hcreat⟩, hgoes⟩ | ⟨_, hgoes⟩
      · change args.o_creat = true at hcreat
        cases hgoes
        refine ⟨fun _ => hcreat, ?_, ?_⟩
        · simp only [attempt, hcreat, if_true]
          exact Attempt.Next.misses
        · simp only [rank, jumps]
          lia
      · cases hgoes
        exact goes_err _ _ e MqOpenPc.noConfusion herr
  | ok =>
      cases h
      exact goes_err _ _ _ MqOpenPc.noConfusion herr
  | opened f =>
      cases h
      exact goes_err _ _ _ MqOpenPc.noConfusion herr

theorem next_goes {l l' : MqOpenLoc} {r : SysResult} (hretrying : l.Retrying)
    (h : mqOpenNext l r = After.goes l') : Goes l r l' := by
  rcases l with ⟨pc, args, created, fd, filesize, mptr, mqinfo, i, errno⟩
  cases pc with
  | openExcl => exact openExcl_goes rfl h
  | lseek =>
      exact goes_orErr h MqOpenPc.noConfusion (by simp [rank]) rfl (Nat.lt_succ_self _)
  | write =>
      exact goes_orErr h MqOpenPc.noConfusion (by simp [rank]) rfl (Nat.lt_succ_self _)
  | mmapNew =>
      exact goes_orErr h MqOpenPc.noConfusion (by simp [rank]) rfl (Nat.lt_succ_self _)
  | mallocNew =>
      exact goes_orErr h MqOpenPc.noConfusion (by simp [rank]) rfl (Nat.lt_succ_self _)
  | initHeader =>
      cases h
      exact goes_of_settled _ MqOpenPc.noConfusion rfl (Nat.lt_succ_self _)
  | mutexattrInit =>
      exact goes_orErr h MqOpenPc.noConfusion (by simp [rank]) rfl (Nat.lt_succ_self _)
  | mutexInit =>
      exact goes_orErr h MqOpenPc.noConfusion (by simp [rank]) rfl (Nat.lt_succ_self _)
  | condattrInit =>
      exact goes_orErr h MqOpenPc.noConfusion (by simp [rank]) rfl (Nat.lt_succ_self _)
  | condInit =>
      exact goes_orErr h MqOpenPc.noConfusion (by simp [rank]) rfl (Nat.lt_succ_self _)
  | fchmod =>
      exact goes_orErr h MqOpenPc.noConfusion (by simp [rank]) rfl (Nat.lt_succ_self _)
  | closeNew => cases h
  | openRdwr => exact openRdwr_goes rfl h
  | stat => exact stat_goes rfl h
  | sleep =>
      cases h
      refine goes_tries rfl (Or.inr rfl) (fun _ => Attempt.Next.waits _ rfl) ?_ ?_
      · intro hi
        simp only [rank] at hi ⊢
        lia
      · simp only [rank]
        lia
  | closeAgain =>
      cases h
      exact goes_again rfl (hretrying rfl) (Or.inr rfl) (Attempt.Next.leaves fd r)
  | mmapOld =>
      exact goes_orErr h MqOpenPc.noConfusion (by simp [rank]) rfl (Nat.lt_succ_self _)
  | closeOld =>
      cases h
      exact goes_of_settled _ MqOpenPc.noConfusion rfl (Nat.lt_succ_self _)
  | mallocOld =>
      cases r with
      | failed e =>
          cases h
          exact goes_err _ _ e MqOpenPc.noConfusion (by simp [rank])
      | ok => cases h
      | opened f => cases h
      | status xusr size => cases h
  | errUnlink =>
      cases h
      exact goes_of_settled _ MqOpenPc.noConfusion (afterUnlink_settled _).1
        (Nat.lt_succ_of_le (afterUnlink_settled _).2)
  | errMunmap =>
      cases h
      exact goes_of_settled _ MqOpenPc.noConfusion (afterMunmap_settled _).1
        (Nat.lt_succ_of_le (afterMunmap_settled _).2)
  | errFree =>
      cases h
      exact goes_of_settled _ MqOpenPc.noConfusion rfl (Nat.lt_succ_self _)
  | errClose => cases h

theorem positive (l : MqOpenLoc) : 0 < l.rank := by
  rcases l with ⟨pc, args, created, fd, filesize, mptr, mqinfo, i, errno⟩
  cases pc with
  | stat => exact Nat.lt_add_right _ (by decide)
  | sleep => exact Nat.lt_add_right _ (by decide)
  | _ => exact Nat.zero_lt_succ _

theorem not_jumps_err (l m : MqOpenLoc) (e : Errno) (hpc : l.pc ≠ MqOpenPc.closeAgain) :
    l.jumps (After.goes (m.err e)) = false := by
  have hne : (m.err e).pc ≠ MqOpenPc.openExcl := by
    intro heq
    have hsettled := (m.err_settled e).1
    rw [heq] at hsettled
    cases hsettled
  simp [jumps, hpc, hne]

/-- The second `open` jumps back only with `O_CREAT` and on `ENOENT`. -/
theorem jump_of_openRdwr {l : MqOpenLoc} {r : SysResult}
    (hrequest : mqOpenRequest l = Syscall.openRdwr)
    (hjump : l.jumps (mqOpenNext l r) = true) :
    l.pc = MqOpenPc.openRdwr ∧ l.args.o_creat = true ∧ r = SysResult.failed Errno.ENOENT := by
  rcases l with ⟨pc, args, created, fd, filesize, mptr, mqinfo, i, errno⟩
  cases pc with
  | openRdwr =>
      cases r with
      | opened f => cases hjump
      | failed e =>
          rcases next_openRdwr_failed (l := ⟨MqOpenPc.openRdwr, args, created, fd, filesize, mptr,
            mqinfo, i, errno⟩) rfl rfl with ⟨hcond, _⟩ | ⟨_, hgoes⟩
          · exact ⟨rfl, hcond.2, congrArg SysResult.failed hcond.1⟩
          · rw [hgoes, not_jumps_err _ _ e MqOpenPc.noConfusion] at hjump
            cases hjump
      | ok =>
          change jumps _ (After.goes (err _ _)) = true at hjump
          rw [not_jumps_err _ _ _ MqOpenPc.noConfusion] at hjump
          cases hjump
      | status xusr size =>
          change jumps _ (After.goes (err _ _)) = true at hjump
          rw [not_jumps_err _ _ _ MqOpenPc.noConfusion] at hjump
          cases hjump
  | _ => cases hrequest

end MqOpenLoc

def mqOpenRetries : Retries mqOpenCode MqOpenLoc.jumps 30 where
  attempt := MqOpenLoc.attempt
  rank := MqOpenLoc.rank
  Ok := MqOpenLoc.Retrying
  start := by
    rintro ⟨o_creat, o_excl, attr⟩
    cases o_creat with
    | true => exact ⟨MqOpenPc.noConfusion, Nat.le_refl 30, Or.inl rfl⟩
    | false => exact ⟨MqOpenPc.noConfusion, Nat.le_succ 29, Or.inr rfl⟩
  positive := MqOpenLoc.positive
  next := by
    intro l r l' hretrying h
    rcases MqOpenLoc.next_goes hretrying h with ⟨hok, hnext, _⟩
    exact ⟨hok, hnext⟩
  falls := fun _ _ _ hretrying h => (MqOpenLoc.next_goes hretrying h).2.2
  returns := fun _ _ => rfl

/-- The second `open`, with `O_CREAT`, reports `ENOENT` for a dangling link. -/
def findsDanglingLink (e : NameTransition MqOpenLoc) : Bool :=
  match e.source.call, e.action with
  | After.goes l, NameAction.syscall r =>
      l.pc = MqOpenPc.openRdwr && l.args.o_creat && e.source.name = PathName.link none &&
        r = SysResult.failed Errno.ENOENT
  | _, _ => false

theorem missesOnlyAbsent_of_noDanglingLink {e : NameTransition MqOpenLoc}
    (hvalid : e.Valid (nameStep mqOpenCode MqOpenLoc.jumps))
    (hlink : findsDanglingLink e = false) : MissesOnlyAbsent mqOpenCode MqOpenLoc.jumps e := by
  rcases e with ⟨⟨name, call⟩, action, event, target⟩
  intro l r hcall haction hrequest hjump
  cases hcall
  cases haction
  rcases MqOpenLoc.jump_of_openRdwr hrequest hjump with ⟨hpc, hcreat, rfl⟩
  refine ⟨rfl, ?_⟩
  simp only [Transition.Valid, nameStep, hrequest] at hvalid
  split at hvalid
  · rename_i hanswer
    cases name with
    | absent => rfl
    | file f => cases hanswer
    | link t =>
        cases t with
        | some f => cases hanswer
        | none => simp [findsDanglingLink, hpc, hcreat] at hlink
  · cases hvalid

/-- Where no second `open` finds a dangling link, `mq_open` jumps back at most once for each
removal, and comes to its end. -/
theorem mq_open_terminates (a : MqOpenArgs) (tr : List (NameTransition MqOpenLoc))
    (s : NamedCall MqOpenLoc)
    (hrun : Run (NameInit mqOpenCode a) (nameStep mqOpenCode MqOpenLoc.jumps) tr s)
    (hlinks : forall e, e ∈ tr -> findsDanglingLink e = false) :
    (tally tr).jumps ≤ (tally tr).removals ∧
      (tally tr).calls ≤ 30 * ((tally tr).removals + 1) ∧
      ((exists ret, s.call = After.returns ret) ∨
        exists r t o,
          nameStep mqOpenCode MqOpenLoc.jumps s (NameAction.syscall r) = some (t, o)) := by
  have habsent : forall e, e ∈ tr -> MissesOnlyAbsent mqOpenCode MqOpenLoc.jumps e := by
    intro e he
    exact missesOnlyAbsent_of_noDanglingLink (run_transition hrun he).2 (hlinks e he)
  rcases mqOpenRetries.bounded hrun habsent with ⟨hjumps, hcalls, _⟩
  exact ⟨hjumps, hcalls, call_goes_on _ _ s⟩

/-- A name that is removed three times during a call: between the first two calls of `open`,
while the call waits, and once it denotes a dangling link. -/
theorem mq_open_terminates_threeRemovals :
    exists tr s,
      Run (NameInit mqOpenCode { o_creat := true, o_excl := false, attr := none })
          (nameStep mqOpenCode MqOpenLoc.jumps) tr s ∧
        (tally tr).jumps = 3 ∧ (tally tr).removals = 3 ∧
        (tally tr).calls ≤ 30 * ((tally tr).removals + 1) := by
  have hrun : exists tr s,
      Run (NameInit mqOpenCode { o_creat := true, o_excl := false, attr := none })
          (nameStep mqOpenCode MqOpenLoc.jumps) tr s ∧
        decide ((tally tr).jumps = 3 ∧ (tally tr).removals = 3 ∧
          forall e, e ∈ tr -> findsDanglingLink e = false) = true :=
    run_of_replay
      [NameAction.syscall (SysResult.failed Errno.EEXIST), NameAction.remove,
        NameAction.syscall (SysResult.failed Errno.ENOENT),
        NameAction.create (PathName.link (some 1)),
        NameAction.syscall (SysResult.failed Errno.EEXIST),
        NameAction.syscall (SysResult.opened 1),
        NameAction.syscall (SysResult.status true 0), NameAction.remove,
        NameAction.create (PathName.link none), NameAction.syscall SysResult.ok,
        NameAction.syscall (SysResult.failed Errno.ENOENT), NameAction.syscall SysResult.ok,
        NameAction.syscall (SysResult.failed Errno.EEXIST), NameAction.remove,
        NameAction.syscall (SysResult.failed Errno.ENOENT),
        NameAction.syscall (SysResult.failed Errno.EACCES)]
      (calledOn_init mqOpenCode _ (PathName.file 0)) (by decide +kernel)
  rcases hrun with ⟨tr, s, hrun, htest⟩
  rcases of_decide_eq_true htest with ⟨hjumps, hremovals, hlinks⟩
  exact ⟨tr, s, hrun, hjumps, hremovals, (mq_open_terminates _ tr s hrun hlinks).2.1⟩

/-- The two calls of `open` disagree about a dangling link as often as they are made. -/
theorem dangling_link_jumps (n : Nat) :
    exists tr,
      Run (NameInit mqOpenCode { o_creat := true, o_excl := false, attr := none })
          (nameStep mqOpenCode MqOpenLoc.jumps) tr
          (calledOn mqOpenCode { o_creat := true, o_excl := false, attr := none }
            (PathName.link none)) ∧
        (tally tr).jumps = n ∧ (tally tr).removals = 0 := by
  induction n with
  | zero => exact ⟨[], ⟨_, calledOn_init _ _ _, Path.nil⟩, rfl, rfl⟩
  | succ n ih =>
      rcases ih with ⟨tr, ⟨s0, hinit, hpath⟩, hjumps, hremovals⟩
      have hfound := Path.snoc (a := NameAction.syscall (SysResult.failed Errno.EEXIST)) hpath rfl
      have hmissed := Path.snoc (a := NameAction.syscall (SysResult.failed Errno.ENOENT))
        hfound rfl
      refine ⟨_, ⟨s0, hinit, hmissed⟩, ?_, ?_⟩
      · simp only [tally, observed_snoc]
        exact congrArg Nat.succ hjumps
      · simp only [tally, observed_snoc]
        exact hremovals

/-- Nobody removes the dangling link, and `mq_open` jumps back for ever. -/
theorem mq_open_never_ends_danglingLink :
    (exists tr s,
      Run (NameInit mqOpenCode { o_creat := true, o_excl := false, attr := none })
          (nameStep mqOpenCode MqOpenLoc.jumps) tr s ∧
        (tally tr).removals < (tally tr).jumps) ∧
    forall n, exists tr s,
      Run (NameInit mqOpenCode { o_creat := true, o_excl := false, attr := none })
          (nameStep mqOpenCode MqOpenLoc.jumps) tr s ∧
        (tally tr).removals = 0 ∧ (tally tr).jumps = n := by
  constructor
  · rcases dangling_link_jumps 1 with ⟨tr, hrun, hjumps, hremovals⟩
    exact ⟨tr, _, hrun, by rw [hjumps, hremovals]; exact Nat.one_pos⟩
  · intro n
    rcases dangling_link_jumps n with ⟨tr, hrun, hjumps, hremovals⟩
    exact ⟨tr, _, hrun, hremovals, hjumps⟩

end Opening
end InterprocessComm
