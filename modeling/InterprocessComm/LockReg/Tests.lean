import InterprocessComm.LockReg.Announcements

/-!
# The two tests

In `test2` whatever a process announces is so.  In `test3` the first child does not wait for its
lock, and announces it where it has been refused.
-/

namespace InterprocessComm
namespace LockReg

open Verification

section Runs

variable {proc : Type} [DecidableEq proc] {prog : Program proc} {pos : Position}
  {tr : List (Transition (State proc) (Action proc) (Event proc))} {s : State proc}

def lastCall (tr : List (Transition (State proc) (Action proc) (Event proc))) : proc -> LastCall :=
  observed observeCalls (fun _ => none) tr

theorem inv_init (hinit : Init prog s) : Inv prog (fun _ => none) s := by
  have hnothing : forall p t b, ¬ Held s.locks p t b := by
    rintro p t b ⟨l, hl, _⟩
    rw [hinit.locks] at hl
    cases hl
  have hparent : s.rest prog.parent = some (prog.code prog.parent) := by
    rw [hinit.rest]
    exact Function.update_self ..
  have hchild : forall c, c ≠ prog.parent -> s.rest c = none := by
    intro c hne
    rw [hinit.rest]
    exact Function.update_of_ne hne ..
  constructor
  · rw [hinit.locks]
    exact exclusive_nil
  · intro p
    rcases eq_or_ne p prog.parent with rfl | hne
    · rw [hparent]
      exact Placed.runs (prog.ordered _) (Fits.idle (hnothing _)) (List.suffix_refl _)
    · rw [hchild p hne]
      exact Placed.absent (hnothing p)
  · intro p hne hp
    exact absurd (hchild p hne) hp
  · intro rest c hrest hc
    rw [hparent] at hrest
    cases hrest
    exact hchild c (prog.forks _ c hc).2

theorem inv_run (hrun : Run (Init prog) (step prog pos) tr s) : Inv prog (lastCall tr) s := by
  refine run_induction (I := fun tr s => Inv prog (lastCall tr) s) (fun s hs => inv_init hs) ?_ hrun
  intro tr s a o t _ ih hstep
  rw [lastCall, observed_snoc]
  exact ih.step hstep

theorem called_of_lastCall {p : proc} {type : LType} {r : Except Errno Unit}
    (hrun : Run (Init prog) (step prog pos) tr s) (hlast : lastCall tr p = some (type, r)) :
    exists e, e ∈ tr ∧ e.event = Event.called p type r := by
  refine run_induction (I := fun tr _ => lastCall tr p = some (type, r) ->
    exists e, e ∈ tr ∧ e.event = Event.called p type r) ?_ ?_ hrun hlast
  · intro s _ hnone
    cases hnone
  · intro tr s a o t _ ih _ hcall
    rw [lastCall, observed_snoc] at hcall
    have hold : lastCall tr p = some (type, r) ->
        exists e, e ∈ tr ++ [⟨s, a, o, t⟩] ∧ e.event = Event.called p type r := by
      intro hprior
      rcases ih hprior with ⟨e, he, hevent⟩
      exact ⟨e, List.mem_append_left _ he, hevent⟩
    cases o with
    | silent => exact hold hcall
    | printed _ _ _ => exact hold hcall
    | called q u x =>
        rcases eq_or_ne p q with rfl | hne
        · simp only [observeCalls, Function.update_self] at hcall
          cases hcall
          exact ⟨_, List.mem_append_right _ (List.mem_singleton_self _), rfl⟩
        · simp only [observeCalls, Function.update_of_ne hne] at hcall
          exact hold hcall

theorem told_run (hrun : Run (Init prog) (step prog pos) tr s)
    {tr₁ tr₂ : List (Transition (State proc) (Action proc) (Event proc))}
    {e : Transition (State proc) (Action proc) (Event proc)} (heq : tr = tr₁ ++ e :: tr₂)
    {p : proc} {text : String} {m : Meaning} (hprinted : e.event = Event.printed p text m) :
    Told (lastCall tr₁ p) (Held e.source.locks p) m := by
  subst heq
  rcases run_split hrun with ⟨hprior, hvalid, _⟩
  rcases e with ⟨s, a, o, t⟩
  exact ((inv_run hprior).step_told hvalid).2.1 p text m hprinted

theorem refused_run (hrun : Run (Init prog) (step prog pos) tr s)
    (hfine : forall e, e ∈ tr -> e.action.fault = none)
    {e : Transition (State proc) (Action proc) (Event proc)} (he : e ∈ tr)
    {p : proc} {type : LType} {r : Errno}
    (hcalled : e.event = Event.called p type (Except.error r)) :
    Refused prog e.source p type r := by
  rcases run_transition hrun he with ⟨⟨front, hfront⟩, hvalid⟩
  have hfault := hfine e he
  rcases e with ⟨s, a, o, t⟩
  exact ((inv_run hfront).step_told hvalid).2.2 p type r hfault hcalled

theorem refused_of_lastCall (hrun : Run (Init prog) (step prog pos) tr s)
    (hfine : forall e, e ∈ tr -> e.action.fault = none) {p : proc} {type : LType} {r : Errno}
    (hlast : lastCall tr p = some (type, Except.error r)) :
    exists e, e ∈ tr ∧ Refused prog e.source p type r := by
  rcases called_of_lastCall hrun hlast with ⟨e, he, hcalled⟩
  exact ⟨e, he, refused_run hrun hfine he hcalled⟩

/-- In such a run a message is wrong where it is about the lock that the process has been
refused. -/
theorem holds_iff (hrun : Run (Init prog) (step prog pos) tr s)
    (hfine : forall e, e ∈ tr -> e.action.fault = none)
    {tr₁ tr₂ : List (Transition (State proc) (Action proc) (Event proc))}
    {e : Transition (State proc) (Action proc) (Event proc)} (heq : tr = tr₁ ++ e :: tr₂)
    {p : proc} {text : String} {m : Meaning} (hprinted : e.event = Event.printed p text m) :
    m.Holds (Held e.source.locks p) <->
      ¬ exists type r e', e' ∈ tr₁ ∧ m.about type ∧ lastCall tr₁ p = some (type, Except.error r) ∧
        Refused prog e'.source p type r := by
  have htold := told_run hrun heq hprinted
  subst heq
  rcases run_split hrun with ⟨hprior, _, _⟩
  rcases htold with rfl | ⟨type, habout, ⟨hlast, hholds⟩ | ⟨⟨r, hlast⟩, hnot⟩⟩
  · refine ⟨?_, fun _ => trivial⟩
    rintro _ ⟨_, _, _, _, habout, _⟩
    exact habout
  · refine ⟨?_, fun _ => hholds⟩
    rintro _ ⟨_, _, _, _, _, herror, _⟩
    rw [hlast] at herror
    cases herror
  · rcases refused_of_lastCall hprior (fun e he => hfine e (List.mem_append_left _ he)) hlast
      with ⟨e', he', hrefused⟩
    constructor
    · intro hholds _
      cases m with
      | tries => exact habout
      | has t => exact hnot t rfl hholds
      | releases => exact hrefused.2.2.1 habout
    · intro hnone
      exact absurd ⟨type, r, e', he', habout, hlast, hrefused⟩ hnone

end Runs

/-!
# Progress
-/

section Progress

variable {proc : Type} [DecidableEq proc] {prog : Program proc} {pos : Position}
  {last : proc -> LastCall} {s t : State proc} {p : proc}

theorem Inv.idle_of_waits (h : Inv prog last s) {i : Instr proc} {rest : List (Instr proc)}
    (hrest : s.rest p = some (i :: rest)) (hwaits : LockReg.step prog pos s ⟨p, none⟩ = none) :
    last p = none ∧ exists q t b, q ≠ p ∧ Held s.locks q t b := by
  rcases h.runs hrest with ⟨st, hordered, hfits, _⟩
  cases i with
  | debugPrintf text m => simp [LockReg.step, hrest] at hwaits
  | fork c => simp [LockReg.step, hrest] at hwaits
  | exit => simp [LockReg.step, hrest] at hwaits
  | lock_reg cmd type =>
      simp only [LockReg.step, hrest, lock_reg_whole] at hwaits
      cases hasked : type.asked with
      | none => simp [hasked] at hwaits
      | some u =>
          rcases idle_of_asked hordered hasked with ⟨rfl, _⟩
          constructor
          · generalize last p = r at hfits
            cases hfits
            rfl
          · simp only [hasked, setlk] at hwaits
            cases hrefused : Verification.refused s.locks p u ByteRange.whole with
            | false => simp [hrefused] at hwaits
            | true =>
                rcases refused_iff.mp hrefused with ⟨q, t, b, hne, _, hheld, _⟩
                exact ⟨q, t, b, hne, hheld⟩

theorem Inv.ended_of_stuck (h : Inv prog last s)
    (hstuck : forall p, LockReg.step prog pos s ⟨p, none⟩ = none) {rest : List (Instr proc)}
    (hrest : s.rest p = some rest) : rest = [] := by
  cases rest with
  | nil => rfl
  | cons i rest =>
      exfalso
      rcases (h.idle_of_waits hrest (hstuck p)).2 with ⟨q, t, b, _, hheld⟩
      have hplaced := h.placed q
      generalize hlast : last q = r at hplaced
      generalize hcode : s.rest q = code at hplaced
      cases hplaced with
      | absent hnone => exact hnone t b hheld
      | ended hnone => exact hnone t b hheld
      | @runs _ st left hordered hfits _ =>
          cases left with
          | nil => cases st <;> cases hordered
          | cons j left =>
              have hnone := (h.idle_of_waits hcode (hstuck q)).1
              rw [hlast] at hnone
              subst hnone
              cases hfits with
              | idle hnothing => exact hnothing t b hheld

def ahead (prog : Program proc) (s : State proc) (p : proc) : Nat :=
  match s.rest p with
  | none => (prog.code p).length
  | some rest => rest.length

theorem ahead_goes (rest : List (Instr proc)) : ahead prog (s.goes p rest) p = rest.length := by
  rw [ahead, goes_self]

theorem ahead_goes_of_ne {q : proc} (rest : List (Instr proc)) (hne : q ≠ p) :
    ahead prog (s.goes p rest) q = ahead prog s q := by
  rw [ahead, ahead, goes_of_ne s rest hne]

variable [Fintype proc]

theorem ahead_lt {i : Instr proc} {rest rest' : List (Instr proc)}
    {locks : List (RecordLock proc)} (hrest : s.rest p = some (i :: rest))
    (hle : rest'.length ≤ rest.length) :
    total id (ahead prog { s.goes p rest' with locks := locks }) < total id (ahead prog s) := by
  apply total_lt_of_one (t := p)
  · show ahead prog (s.goes p rest') p < _
    rw [ahead_goes, ahead, hrest]
    exact Nat.lt_succ_of_le hle
  · intro q hne
    exact ahead_goes_of_ne rest' hne

theorem Inv.ahead_step {a : Action proc} {o : Event proc} (h : Inv prog last s)
    (hstep : LockReg.step prog pos s a = some (t, o)) :
    total id (ahead prog t) < total id (ahead prog s) := by
  generalize hp : a.actor = p
  have hmove := stepped_of_step hstep
  rw [hp] at hmove
  cases hmove with
  | fail hrest _ => exact ahead_lt hrest (Nat.le_refl _)
  | lock hrest _ _ => exact ahead_lt hrest (Nat.le_refl _)
  | unlock hrest => exact ahead_lt hrest (Nat.le_refl _)
  | print hrest => exact ahead_lt hrest (Nat.le_refl _)
  | childless hrest => exact ahead_lt hrest (Nat.le_refl _)
  | exit hrest => exact ahead_lt hrest (Nat.zero_le _)
  | @fork c rest hrest =>
      rcases h.runs hrest with ⟨st, _, _, hsuffix⟩
      rcases prog.forks p c (hsuffix.subset List.mem_cons_self) with ⟨rfl, hchild⟩
      have hfresh : s.rest c = none := h.unforked _ c hrest List.mem_cons_self
      have hsame : ahead prog ((s.goes prog.parent rest).goes c (prog.code c)) =
          ahead prog (s.goes prog.parent rest) := by
        funext q
        rcases eq_or_ne q c with rfl | hne
        · rw [ahead_goes, ahead_goes_of_ne rest hchild, ahead, hfresh]
        · exact ahead_goes_of_ne _ hne
      rw [hsame]
      exact ahead_lt hrest (Nat.le_refl _)

theorem length_run {tr : List (Transition (State proc) (Action proc) (Event proc))}
    (hrun : Run (Init prog) (step prog pos) tr s) :
    tr.length ≤ total (fun code => code.length) prog.code := by
  have hbound : tr.length + total id (ahead prog s) ≤
      total (fun code => code.length) prog.code := by
    refine run_length_add_rank_le observeCalls (fun _ => none) (Inv prog)
      (fun _ s => total id (ahead prog s)) ?_ ?_ hrun
    · intro s hs
      refine ⟨inv_init hs, Nat.le_of_eq (Finset.sum_congr rfl ?_)⟩
      intro p _
      rcases eq_or_ne p prog.parent with rfl | hne
      · simp [ahead, hs.rest]
      · simp [ahead, hs.rest, Function.update_of_ne hne]
    · intro last s a o t hinv hstep
      exact ⟨hinv.step hstep, hinv.ahead_step hstep⟩
  lia

end Progress

/-!
# test2 and test3
-/

inductive Who where
  | parent
  | first
  | second
deriving DecidableEq

instance : Fintype Who where
  elems := {Who.parent, Who.first, Who.second}
  complete := by
    intro p
    cases p <;> decide

def test2Code : Who -> List (Instr Who)
  | Who.parent =>
      [Instr.lock_reg Cmd.F_SETLK LType.F_RDLCK,
        Instr.debugPrintf "%s, parent has read lock\n" (Meaning.has LockType.read),
        Instr.fork Who.first,
        Instr.fork Who.second,
        Instr.lock_reg Cmd.F_SETLK LType.F_UNLCK,
        Instr.debugPrintf "%s,parent releases read lock\n" Meaning.releases,
        Instr.exit]
  | Who.first =>
      [Instr.debugPrintf "%s: first child tries to obtain write lock\n" Meaning.tries,
        Instr.lock_reg Cmd.F_SETLKW LType.F_WRLCK,
        Instr.debugPrintf "%s: first child obtains write lock\n" (Meaning.has LockType.write),
        Instr.lock_reg Cmd.F_SETLK LType.F_UNLCK,
        Instr.debugPrintf "%s:first child releases write lock\n" Meaning.releases,
        Instr.exit]
  | Who.second =>
      [Instr.debugPrintf "%s:second child tries to obtain read lock\n" Meaning.tries,
        Instr.lock_reg Cmd.F_SETLKW LType.F_RDLCK,
        Instr.debugPrintf "%s:second child contains read lock\n" (Meaning.has LockType.read),
        Instr.lock_reg Cmd.F_SETLK LType.F_UNLCK,
        Instr.debugPrintf "%s:second child release read lock\n" Meaning.releases,
        Instr.exit]

def test3Code : Who -> List (Instr Who)
  | Who.parent =>
      [Instr.lock_reg Cmd.F_SETLKW LType.F_WRLCK,
        Instr.debugPrintf "%s: parent has write lock\n" (Meaning.has LockType.write),
        Instr.fork Who.first,
        Instr.fork Who.second,
        Instr.lock_reg Cmd.F_SETLK LType.F_UNLCK,
        Instr.debugPrintf "%s: parent releases write lock\n" Meaning.releases,
        Instr.exit]
  | Who.first =>
      [Instr.debugPrintf "%s: first child tries to obtain write lock\n" Meaning.tries,
        Instr.lock_reg Cmd.F_SETLK LType.F_WRLCK,
        Instr.debugPrintf "%s: first child obtains write lock\n" (Meaning.has LockType.write),
        Instr.lock_reg Cmd.F_SETLK LType.F_UNLCK,
        Instr.debugPrintf "%s, fisrt child rlease write lock\n" Meaning.releases,
        Instr.exit]
  | Who.second =>
      [Instr.debugPrintf "%s: second child tries to obtain read lock\n" Meaning.tries,
        Instr.lock_reg Cmd.F_SETLKW LType.F_RDLCK,
        Instr.debugPrintf "%s: second child obtains read lock\n" (Meaning.has LockType.read),
        Instr.lock_reg Cmd.F_SETLK LType.F_UNLCK,
        Instr.debugPrintf "%s: second child releases read lock\n" Meaning.releases,
        Instr.exit]

def test2 : Program Who where
  parent := Who.parent
  code := test2Code
  ordered := by
    intro p
    cases p <;> rfl
  forks := by
    intro p c hc
    cases p <;> simp_all [test2Code]
    cases hc <;> simp_all
  once := by decide

def test3 : Program Who where
  parent := Who.parent
  code := test3Code
  ordered := by
    intro p
    cases p <;> rfl
  forks := by
    intro p c hc
    cases p <;> simp_all [test3Code]
    cases hc <;> simp_all
  once := by decide

section Tests

variable {pos : Position} {tr : List (Transition (State Who) (Action Who) (Event Who))}
  {s : State Who}

theorem not_refused_test2 {p : Who} {type : LType} {r : Errno} :
    ¬ Refused test2 s p type r := by
  rintro ⟨_, hchild, htype, hcode, _⟩
  cases p with
  | parent => exact hchild rfl
  | first => cases type <;> simp_all [test2, test2Code]
  | second => cases type <;> simp_all [test2, test2Code]

theorem first_of_refused_test3 {p : Who} {type : LType} {r : Errno}
    (h : Refused test3 s p type r) : p = Who.first ∧ type = LType.F_WRLCK ∧ r = Errno.EAGAIN := by
  rcases h with ⟨heagain, hchild, htype, hcode, _⟩
  cases p with
  | parent => exact absurd rfl hchild
  | first =>
      cases type with
      | F_WRLCK => exact ⟨rfl, rfl, heagain⟩
      | F_RDLCK => simp [test3, test3Code] at hcode
      | F_UNLCK => exact absurd rfl htype
  | second =>
      cases type with
      | F_UNLCK => exact absurd rfl htype
      | _ => simp [test3, test3Code] at hcode

/-- In a run of `test2` whose calls do not fail for reasons of their own each message is so when it
is printed; no run is longer than the code of the three processes, and where none of them can go
on, all that have started have ended. -/
theorem test2_announces (hrun : Run (Init test2) (step test2 pos) tr s) :
    ((forall e, e ∈ tr -> e.action.fault = none) ->
      forall e, e ∈ tr -> forall p text m, e.event = Event.printed p text m ->
        m.Holds (Held e.source.locks p)) ∧
      tr.length ≤ 19 ∧
      ((forall p, step test2 pos s ⟨p, none⟩ = none) ->
        forall p rest, s.rest p = some rest -> rest = []) := by
  refine ⟨?_, length_run hrun,
    fun hstuck p rest hrest => (inv_run hrun).ended_of_stuck hstuck hrest⟩
  intro hfine e he p text m hprinted
  rcases List.append_of_mem he with ⟨tr₁, tr₂, heq⟩
  apply (holds_iff hrun hfine heq hprinted).mpr
  rintro ⟨type, r, e', _, _, _, hrefused⟩
  exact not_refused_test2 hrefused

/-- In a run of `test3` whose calls do not fail for reasons of their own only the first child's
message that it has obtained the write lock may be wrong: it is so exactly where its call has
succeeded, and the call fails only beside another process that has a lock.  No run is longer than
the code, and where no process can go on, all that have started have ended. -/
theorem test3_announces (hrun : Run (Init test3) (step test3 pos) tr s) :
    ((forall e, e ∈ tr -> e.action.fault = none) ->
      (forall tr₁ e tr₂, tr = tr₁ ++ e :: tr₂ -> forall p text m,
        e.event = Event.printed p text m ->
          (m.Holds (Held e.source.locks p) <->
            ¬ (p = Who.first ∧ m = Meaning.has LockType.write ∧
              lastCall tr₁ p = some (LType.F_WRLCK, Except.error Errno.EAGAIN)))) ∧
      forall e, e ∈ tr -> forall p type r, e.event = Event.called p type (Except.error r) ->
        p = Who.first ∧ type = LType.F_WRLCK ∧ r = Errno.EAGAIN ∧
          exists q t b, q ≠ Who.first ∧ Held e.source.locks q t b) ∧
      tr.length ≤ 19 ∧
      ((forall p, step test3 pos s ⟨p, none⟩ = none) ->
        forall p rest, s.rest p = some rest -> rest = []) := by
  refine ⟨?_, length_run hrun,
    fun hstuck p rest hrest => (inv_run hrun).ended_of_stuck hstuck hrest⟩
  intro hfine
  constructor
  · intro tr₁ e tr₂ heq p text m hprinted
    rw [holds_iff hrun hfine heq hprinted, not_iff_not]
    constructor
    · rintro ⟨type, r, e', _, habout, hlast, hrefused⟩
      rcases first_of_refused_test3 hrefused with ⟨rfl, rfl, rfl⟩
      refine ⟨rfl, ?_, hlast⟩
      cases m with
      | tries => cases habout
      | releases => cases habout
      | has t =>
          cases habout
          rfl
    · rintro ⟨rfl, rfl, hlast⟩
      subst heq
      rcases run_split hrun with ⟨hprior, _, _⟩
      rcases refused_of_lastCall hprior (fun e he => hfine e (List.mem_append_left _ he)) hlast
        with ⟨e', he', hrefused⟩
      exact ⟨LType.F_WRLCK, Errno.EAGAIN, e', he', rfl, hlast, hrefused⟩
  · intro e he p type r hcalled
    have hrefused := refused_run hrun hfine he hcalled
    rcases first_of_refused_test3 hrefused with ⟨rfl, rfl, rfl⟩
    exact ⟨rfl, rfl, rfl, hrefused.2.2.2.2⟩

def firstState (prog : Program Who) : State Who :=
  { locks := []
    rest := Function.update (fun _ => none) prog.parent (some (prog.code prog.parent)) }

theorem init_firstState (prog : Program Who) : Init prog (firstState prog) :=
  ⟨rfl, rfl⟩

def goOn (ps : List Who) : List (Action Who) := ps.map fun p => ⟨p, none⟩

def waitingRun : List (Action Who) :=
  goOn (List.replicate 4 Who.parent ++ [Who.first] ++ List.replicate 3 Who.parent ++
    List.replicate 5 Who.first ++ List.replicate 6 Who.second)

theorem test2_announces_waiting :
    exists (tr : List (Transition (State Who) (Action Who) (Event Who))) (s : State Who),
      Run (Init test2) (step test2 ⟨0, 0⟩) tr s ∧ tr.length ≤ 19 ∧
        forall e, e ∈ tr -> forall p text m, e.event = Event.printed p text m ->
          m.Holds (Held e.source.locks p) := by
  have hreplay : exists tr s, Run (Init test2) (step test2 ⟨0, 0⟩) tr s ∧
      decide (tr.length = 19 ∧ forall e, e ∈ tr -> e.action.fault = none) = true :=
    run_of_replay waitingRun (init_firstState test2) (by decide +kernel)
  rcases hreplay with ⟨tr, s, hrun, htest⟩
  have hfine := (of_decide_eq_true htest).2
  exact ⟨tr, s, hrun, (test2_announces hrun).2.1, (test2_announces hrun).1 hfine⟩

/-- The first child announces the write lock that the parent still has. -/
theorem test3_announces_refused :
    exists (tr : List (Transition (State Who) (Action Who) (Event Who))) (s : State Who)
        (e : Transition (State Who) (Action Who) (Event Who)) (text : String),
      Run (Init test3) (step test3 ⟨0, 0⟩) (tr ++ [e]) s ∧
        e.event = Event.printed Who.first text (Meaning.has LockType.write) ∧
        ¬ (Meaning.has LockType.write).Holds (Held e.source.locks Who.first) := by
  have hreplay : exists tr s, Run (Init test3) (step test3 ⟨0, 0⟩) tr s ∧
      decide ((forall e, e ∈ tr -> e.action.fault = none) ∧
        lastCall tr Who.first = some (LType.F_WRLCK, Except.error Errno.EAGAIN) ∧
        s.rest Who.first = some ((test3.code Who.first).drop 2)) = true :=
    run_of_replay (goOn (List.replicate 4 Who.parent ++ List.replicate 2 Who.first))
      (init_firstState test3) (by decide +kernel)
  rcases hreplay with ⟨tr, s, hrun, htest⟩
  rcases of_decide_eq_true htest with ⟨hfine, hlast, hrest⟩
  have hprint : exists text t, step test3 ⟨0, 0⟩ s ⟨Who.first, none⟩ =
      some (t, Event.printed Who.first text (Meaning.has LockType.write)) := by
    simp [step, hrest, test3, test3Code]
  rcases hprint with ⟨text, t, hstep⟩
  have hmore := run_append hrun (path_cons hstep Path.nil)
  refine ⟨tr, t, ⟨s, ⟨Who.first, none⟩, _, t⟩, text, hmore, rfl, ?_⟩
  have hall : forall e, e ∈ tr ++ [⟨s, ⟨Who.first, none⟩,
      Event.printed Who.first text (Meaning.has LockType.write), t⟩] -> e.action.fault = none := by
    intro e he
    rcases List.mem_append.mp he with hold | hnew
    · exact hfine e hold
    · cases List.mem_singleton.mp hnew
      rfl
  rw [((test3_announces hmore).1 hall).1 tr _ [] rfl Who.first text _ rfl]
  exact not_not_intro ⟨rfl, rfl, hlast⟩

end Tests

end LockReg
end InterprocessComm
