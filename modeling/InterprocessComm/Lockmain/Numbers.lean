import InterprocessComm.Lib.Threads
import InterprocessComm.Lockmain.Locks
import InterprocessComm.Lockmain.Operations

/-!
# The sequence numbers

The file is written over in place, so what is left of longer contents stays behind the
newline.  Whatever that is, the file starts with the number of rounds that have been
written, and with a lock that excludes no number is taken twice or left out.
-/

namespace InterprocessComm
namespace Lockmain

open Verification
open Verification.LockImpl

/-!
# The text in the file
-/

theorem fileNumber_of_short {file : List UInt8} (h : file.length ≤ MAXLINE) :
    fileNumber file = scanLong (beforeNul file) := by
  unfold fileNumber
  rw [List.take_of_length_le h]

theorem overwrite_start (file bs : List UInt8) :
    overwrite file 0 bs = bs ++ file.drop bs.length := by
  simp [overwrite]

def numberLine (v : Int) : List UInt8 := longText v ++ [NEWLINE]

theorem zero_not_mem_numberLine (v : Int) : 0 ∉ numberLine v := by
  unfold numberLine
  rw [List.mem_append, not_or]
  exact ⟨zero_not_mem_longText v, by decide⟩

theorem numberLine_length_le {v : Int} (hlow : -(2 ^ 63) ≤ v) (hhigh : v < 2 ^ 63) :
    (numberLine v).length ≤ 21 := by
  have htext := longText_length_le hlow hhigh
  unfold numberLine
  rw [List.length_append, List.length_singleton]
  lia

theorem fileNumber_overwrite {file : List UInt8} {v : Int} (hshort : file.length ≤ MAXLINE)
    (hlow : -(2 ^ 63) ≤ v) (hhigh : v < 2 ^ 63) :
    fileNumber (overwrite file 0 (numberLine v)) = some v ∧
      (overwrite file 0 (numberLine v)).length ≤ MAXLINE := by
  have hline := numberLine_length_le hlow hhigh
  have hlength : (overwrite file 0 (numberLine v)).length ≤ MAXLINE := by
    rw [overwrite_start, List.length_append, List.length_drop]
    unfold MAXLINE at *
    lia
  refine ⟨?_, hlength⟩
  rw [fileNumber_of_short hlength, overwrite_start,
    beforeNul_append (zero_not_mem_numberLine v), numberLine, List.append_assoc]
  exact scanLong_longText hlow hhigh (by decide) _

/-!
# One process
-/

def written (x : Main) : Nat :=
  match x.pc with
  | MainPc.unlock => x.i + 1
  | MainPc.unlocking => x.i + 1
  | _ => x.i

def printed (x : Main) : Nat :=
  match x.pc with
  | MainPc.add => x.i + 1
  | MainPc.snprintf => x.i + 1
  | MainPc.lseekWrite => x.i + 1
  | MainPc.write => x.i + 1
  | MainPc.unlock => x.i + 1
  | MainPc.unlocking => x.i + 1
  | _ => x.i

def Ready (file : List UInt8) (v : Int) (x : Main) : Prop :=
  match x.pc with
  | MainPc.read => x.offset = 0
  | MainPc.terminate => Contains x.line 0 file ∧ x.n = file.length
  | MainPc.sscanf => cString x.line 0 (MAXLINE + 1) = some (beforeNul file)
  | MainPc.print => x.seqno = v
  | MainPc.add => x.seqno = v
  | MainPc.snprintf => x.seqno = v + 1
  | MainPc.lseekWrite => cString x.line 0 (MAXLINE + 1) = some (numberLine (v + 1))
  | MainPc.write => cString x.line 0 (MAXLINE + 1) = some (numberLine (v + 1)) ∧ x.offset = 0
  | _ => True

def MainPc.works : MainPc -> Bool
  | idle => false
  | unlock => false
  | unlocking => false
  | _ => true

def MainPc.inside : MainPc -> Bool
  | idle => false
  | unlocking => false
  | _ => true

/-- What one call leaves: nothing is written but the next number, and nothing is printed
but the number of the file. -/
structure Worked (file : List UInt8) (v : Int) (x : Main)
    (r : List UInt8 × Main × Option Int) : Prop where
  i : r.2.1.i = x.i
  inside : r.2.1.pc.inside = true
  printed : r.2.2 = none ∧ printed r.2.1 = printed x ∨
    r.2.2 = some v ∧ printed r.2.1 = printed x + 1 ∧ printed x = written x
  written : r.1 = file ∧ written r.2.1 = written x ∧ Ready file v r.2.1 ∨
    fileNumber r.1 = some (v + 1) ∧ r.1.length ≤ MAXLINE ∧ written r.2.1 = written x + 1 ∧
      r.2.1.pc = MainPc.unlock

theorem mainStep_worked {file : List UInt8} {v : Int} {x : Main}
    (hnumber : fileNumber file = some v) (hshort : file.length ≤ MAXLINE)
    (hlow : -(2 ^ 63) ≤ v) (hhigh : v + 1 < 2 ^ 63) (hready : Ready file v x)
    (hworks : x.pc.works = true) :
    exists r, mainStep file x = some r ∧ Worked file v x r := by
  cases hpc : x.pc with
  | idle => simp [hpc, MainPc.works] at hworks
  | unlock => simp [hpc, MainPc.works] at hworks
  | unlocking => simp [hpc, MainPc.works] at hworks
  | lseekRead =>
      simp only [mainStep, hpc, Option.some.injEq, exists_eq_left']
      refine ⟨rfl, rfl, Or.inl ⟨rfl, ?_⟩, Or.inl ⟨rfl, ?_, rfl⟩⟩
      · simp [printed, hpc]
      · simp [written, hpc]
  | read =>
      simp only [Ready, hpc] at hready
      simp only [mainStep, hpc, Option.some.injEq, exists_eq_left']
      refine ⟨rfl, rfl, Or.inl ⟨rfl, ?_⟩, Or.inl ⟨rfl, ?_, ?_⟩⟩
      · simp [printed, hpc]
      · simp [written, hpc]
      · have hgot : (file.drop x.offset).take MAXLINE = file := by
          rw [hready, List.drop_zero, List.take_of_length_le hshort]
        simp only [Ready, hgot]
        exact ⟨contains_write _ _ _, trivial⟩
  | terminate =>
      simp only [Ready, hpc] at hready
      rcases hready with ⟨hcontains, hn⟩
      simp only [mainStep, hpc, Option.some.injEq, exists_eq_left']
      refine ⟨rfl, rfl, Or.inl ⟨rfl, ?_⟩, Or.inl ⟨rfl, ?_, ?_⟩⟩
      · simp [printed, hpc]
      · simp [written, hpc]
      · have hline : Contains (writeBytes x.line x.n [0]) 0 (file ++ [0]) := by
          rw [contains_append]
          constructor
          · exact hcontains.frame (Or.inl (by rw [hn]; lia))
          · rw [hn, Int.zero_add]
            exact contains_write _ _ _
        simp only [Ready]
        rw [cString_of_contains hline (by simp) (by simpa using hshort), beforeNul_snoc]
  | sscanf =>
      simp only [Ready, hpc] at hready
      rw [fileNumber_of_short hshort] at hnumber
      simp only [mainStep, hpc, hready, Option.map_some, Option.some.injEq, exists_eq_left']
      refine ⟨rfl, rfl, Or.inl ⟨rfl, ?_⟩, Or.inl ⟨rfl, ?_, ?_⟩⟩
      · simp [printed, hpc]
      · simp [written, hpc]
      · simp [Ready, hnumber]
  | print =>
      simp only [Ready, hpc] at hready
      simp only [mainStep, hpc, Option.some.injEq, exists_eq_left']
      refine ⟨rfl, rfl, Or.inr ⟨?_, ?_, ?_⟩, Or.inl ⟨rfl, ?_, ?_⟩⟩
      · rw [hready]
      · simp [printed, hpc]
      · simp [printed, written, hpc]
      · simp [written, hpc]
      · exact hready
  | add =>
      simp only [Ready, hpc] at hready
      have hnext : incrementLong x.seqno = some (v + 1) := by
        unfold incrementLong LONG_MAX
        rw [hready, if_pos (by lia)]
      simp only [mainStep, hpc, hnext, Option.map_some, Option.some.injEq, exists_eq_left']
      refine ⟨rfl, rfl, Or.inl ⟨rfl, ?_⟩, Or.inl ⟨rfl, ?_, rfl⟩⟩
      · simp [printed, hpc]
      · simp [written, hpc]
  | snprintf =>
      simp only [Ready, hpc] at hready
      simp only [mainStep, hpc, Option.some.injEq, exists_eq_left']
      refine ⟨rfl, rfl, Or.inl ⟨rfl, ?_⟩, Or.inl ⟨rfl, ?_, ?_⟩⟩
      · simp [printed, hpc]
      · simp [written, hpc]
      · have hline := numberLine_length_le (v := v + 1) (by lia) hhigh
        have hroom : (numberLine (v + 1)).length < MAXLINE + 1 := by
          unfold MAXLINE
          lia
        simp only [Ready, hready]
        exact cString_of_string (contains_snprintf hroom) (zero_not_mem_numberLine _) hroom
  | lseekWrite =>
      simp only [Ready, hpc] at hready
      simp only [mainStep, hpc, Option.some.injEq, exists_eq_left']
      refine ⟨rfl, rfl, Or.inl ⟨rfl, ?_⟩, Or.inl ⟨rfl, ?_, ?_⟩⟩
      · simp [printed, hpc]
      · simp [written, hpc]
      · exact ⟨hready, rfl⟩
  | write =>
      simp only [Ready, hpc] at hready
      rcases hready with ⟨htext, hoffset⟩
      have hfile := fileNumber_overwrite hshort (v := v + 1) (by lia) hhigh
      simp only [mainStep, hpc, htext, Option.map_some, Option.some.injEq, exists_eq_left']
      refine ⟨rfl, rfl, Or.inl ⟨rfl, ?_⟩, Or.inr ⟨?_, ?_, ?_, rfl⟩⟩
      · simp [printed, hpc]
      · rw [hoffset]
        exact hfile.1
      · rw [hoffset]
        exact hfile.2
      · simp [written, hpc]

/-!
# All processes
-/

section System

variable {proc : Type} {L : LockImpl proc}

def Agrees (phase : LockPhase L.lockPc L.unlockPc) (x : Main) : Prop :=
  match phase with
  | LockPhase.outside => x.pc = MainPc.idle
  | LockPhase.locking _ => x.pc = MainPc.idle ∧ x.i < ROUNDS
  | LockPhase.inside => x.pc.inside = true ∧ x.i < ROUNDS
  | LockPhase.unlocking _ => x.pc = MainPc.unlocking ∧ x.i < ROUNDS

theorem printed_le {phase : LockPhase L.lockPc L.unlockPc} {x : Main}
    (h : Agrees phase x) (hrounds : x.i ≤ ROUNDS) : printed x ≤ ROUNDS := by
  have hnext : printed x ≤ x.i + 1 := by
    unfold printed
    split <;> lia
  cases phase with
  | outside =>
      have hidle : x.pc = MainPc.idle := h
      simpa [printed, hidle] using hrounds
  | locking pc => simpa [printed, h.1] using hrounds
  | inside => exact hnext.trans h.2
  | unlocking pc => exact hnext.trans h.2

theorem written_le_printed (x : Main) : written x ≤ printed x := by
  unfold written printed
  cases x.pc <;> simp

/-- Outside of the lock no number is printed that is not in the file. -/
theorem printed_eq_written {phase : LockPhase L.lockPc L.unlockPc} {x : Main}
    (h : Agrees phase x) (houtside : phase ≠ LockPhase.inside) : printed x = written x := by
  cases phase with
  | outside =>
      have hidle : x.pc = MainPc.idle := h
      simp [printed, written, hidle]
  | locking pc => simp [printed, written, h.1]
  | inside => exact absurd rfl houtside
  | unlocking pc => simp [printed, written, h.1]

variable [Fintype proc]

def numbersFrom (first : Int) (n : Nat) : List Int :=
  (List.range n).map fun i : Nat => first + i

theorem numbersFrom_succ (first : Int) (n : Nat) :
    numbersFrom first (n + 1) = numbersFrom first n ++ [first + n] := by
  simp [numbersFrom, List.range_succ]

/-- The number in the file: one more for each round that has been written. -/
def current (first : Int) (s : SeqState L) : Int :=
  first + total written s.procs

variable [DecidableEq proc]

structure SeqInv (first : Int) (nums : List Int) (s : SeqState L) : Prop where
  lock : Reachable L.Starts L.next s.lock
  agrees : forall p, Agrees (s.lock.phase p) (s.procs p)
  rounds : forall p, (s.procs p).i ≤ ROUNDS
  number : fileNumber s.file = some (current first s)
  short : s.file.length ≤ MAXLINE
  ready : forall p, s.lock.phase p = LockPhase.inside ->
    Ready s.file (current first s) (s.procs p)
  sequence : nums = numbersFrom first nums.length
  count : nums.length = total printed s.procs

variable {first : Int} {nums : List Int} {s s' : SeqState L}

omit [DecidableEq proc] in
variable (first) in
theorem current_lt (hagrees : forall p, Agrees (s.lock.phase p) (s.procs p))
    (hrounds : forall p, (s.procs p).i ≤ ROUNDS) {p : proc}
    (hlt : written (s.procs p) < ROUNDS) :
    current first s + 1 ≤ first + ROUNDS * Fintype.card proc := by
  have htotal := total_lt (w := written) (f := s.procs) (b := ROUNDS)
    (fun q => (written_le_printed _).trans (printed_le (hagrees q) (hrounds q))) hlt
  have hmul : Fintype.card proc * ROUNDS = ROUNDS * Fintype.card proc := Nat.mul_comm _ _
  unfold current
  lia

theorem total_written_update {p : proc} {x : Main} {k : Nat}
    (h : written x = written (s.procs p) + k) :
    total written (Function.update s.procs p x) = total written s.procs + k := by
  have hupdate := total_update written s.procs p x
  lia

theorem total_printed_update {p : proc} {x : Main} {k : Nat}
    (h : printed x = printed (s.procs p) + k) :
    total printed (Function.update s.procs p x) = total printed s.procs + k := by
  have hupdate := total_update printed s.procs p x
  lia

theorem SeqInv.move (hinv : SeqInv first nums s) {lock : LockState L} {a : LockAction L}
    {o : Unit} (hlock : L.next s.lock a = some (lock, o)) {x : Main}
    (hagrees : Agrees (lock.phase a.actor) x) (hrounds : x.i ≤ ROUNDS)
    (hwritten : written x = written (s.procs a.actor))
    (hprinted : printed x = printed (s.procs a.actor))
    (hready : lock.phase a.actor = LockPhase.inside -> Ready s.file (current first s) x) :
    SeqInv first nums
      { lock := lock, file := s.file, procs := Function.update s.procs a.actor x } := by
  have hsame := total_written_update (k := 0) hwritten
  have hcurrent : current first
      { lock := lock, file := s.file, procs := Function.update s.procs a.actor x } =
        current first s := by
    unfold current
    rw [hsame, Nat.add_zero]
  constructor
  · exact reachable_step hinv.lock hlock
  · intro q
    by_cases hq : q = a.actor
    · subst hq
      simp only [Function.update_self]
      exact hagrees
    · simp only [Function.update_of_ne hq, next_other hlock hq]
      exact hinv.agrees q
  · intro q
    by_cases hq : q = a.actor
    · subst hq
      simp only [Function.update_self]
      exact hrounds
    · simp only [Function.update_of_ne hq]
      exact hinv.rounds q
  · rw [hcurrent]
    exact hinv.number
  · exact hinv.short
  · intro q hinside
    rw [hcurrent]
    by_cases hq : q = a.actor
    · subst hq
      simp only [Function.update_self]
      exact hready hinside
    · simp only [Function.update_of_ne hq]
      rw [next_other hlock hq] at hinside
      exact hinv.ready q hinside
  · exact hinv.sequence
  · have hsamePrinted := total_printed_update (k := 0) hprinted
    rw [hinv.count, hsamePrinted, Nat.add_zero]

theorem SeqInv.work (hexclusive : L.Exclusive) (hinv : SeqInv first nums s) {p : proc}
    (hinside : s.lock.phase p = LockPhase.inside) {r : List UInt8 × Main × Option Int}
    (hworked : Worked s.file (current first s) (s.procs p) r) :
    SeqInv first (nums ++ r.2.2.toList)
      { lock := s.lock, file := r.1, procs := Function.update s.procs p r.2.1 } := by
  have honly : forall q, s.lock.phase q = LockPhase.inside -> q = p :=
    fun q hq => hexclusive s.lock hinv.lock q p hq hinside
  have hagreesP : r.2.1.pc.inside = true ∧ r.2.1.i < ROUNDS := by
    have hold := hinv.agrees p
    rw [hinside] at hold
    rw [hworked.i]
    exact ⟨hworked.inside, hold.2⟩
  -- the process keeps its phase, the others everything
  have hagrees : forall q, Agrees (s.lock.phase q) (Function.update s.procs p r.2.1 q) := by
    intro q
    by_cases hq : q = p
    · subst hq
      rw [Function.update_self, hinside]
      exact hagreesP
    · rw [Function.update_of_ne hq]
      exact hinv.agrees q
  have hrounds : forall q, (Function.update s.procs p r.2.1 q).i ≤ ROUNDS := by
    intro q
    by_cases hq : q = p
    · subst hq
      rw [Function.update_self]
      exact Nat.le_of_lt hagreesP.2
    · rw [Function.update_of_ne hq]
      exact hinv.rounds q
  have hnums : nums ++ r.2.2.toList = numbersFrom first (nums ++ r.2.2.toList).length ∧
      (nums ++ r.2.2.toList).length =
        total printed (Function.update s.procs p r.2.1) := by
    rcases hworked.printed with ⟨hnone, hsame⟩ | ⟨hsome, hone, heq⟩
    · rw [hnone, total_printed_update (k := 0) hsame]
      simp only [Option.toList_none, List.append_nil, Nat.add_zero]
      exact ⟨hinv.sequence, hinv.count⟩
    · have htotal : total written s.procs = total printed s.procs := by
        refine Finset.sum_congr rfl fun q _ => ?_
        by_cases hq : q = p
        · rw [hq]
          exact heq.symm
        · exact (printed_eq_written (hinv.agrees q) fun hin => hq (honly q hin)).symm
      have hvalue : current first s = first + nums.length := by
        unfold current
        rw [htotal, hinv.count]
      rw [hsome, total_printed_update (k := 1) hone, hvalue]
      simp only [Option.toList_some, List.length_append, List.length_singleton]
      rw [numbersFrom_succ, ← hinv.sequence, hinv.count]
      exact ⟨rfl, rfl⟩
  rcases hworked.written with ⟨hfile, hsame, hready⟩ | ⟨hnumber, hshort, hone, hpc⟩
  · have hcurrent : current first
        { lock := s.lock, file := r.1, procs := Function.update s.procs p r.2.1 } =
          current first s := by
      unfold current
      rw [total_written_update (k := 0) hsame, Nat.add_zero]
    refine ⟨hinv.lock, hagrees, hrounds, ?_, ?_, ?_, hnums.1, hnums.2⟩
    · rw [hcurrent, hfile]
      exact hinv.number
    · rw [hfile]
      exact hinv.short
    · intro q hq
      rw [hcurrent, hfile, honly q hq]
      simp only [Function.update_self]
      exact hready
  · have hcurrent : current first
        { lock := s.lock, file := r.1, procs := Function.update s.procs p r.2.1 } =
          current first s + 1 := by
      unfold current
      rw [total_written_update (k := 1) hone]
      push_cast
      ring
    refine ⟨hinv.lock, hagrees, hrounds, ?_, hshort, ?_, hnums.1, hnums.2⟩
    · rw [hcurrent]
      exact hnumber
    · intro q hq
      rw [honly q hq]
      simp only [Function.update_self, Ready, hpc]

theorem SeqInv.worked (hlong : InLong first (Fintype.card proc)) (hinv : SeqInv first nums s)
    {p : proc} (hinside : s.lock.phase p = LockPhase.inside)
    (hworks : (s.procs p).pc.works = true) :
    exists r, mainStep s.file (s.procs p) = some r ∧
      Worked s.file (current first s) (s.procs p) r := by
  have hagrees := hinv.agrees p
  rw [hinside] at hagrees
  have hwritten : written (s.procs p) = (s.procs p).i := by
    cases hpc : (s.procs p).pc <;> simp [written, hpc, MainPc.works] at hworks ⊢
  have hlt := current_lt first hinv.agrees hinv.rounds (hwritten.trans_lt hagrees.2)
  have hlow : first ≤ current first s := by
    unfold current
    lia
  exact mainStep_worked hinv.number hinv.short (hlong.low.trans hlow)
    (hlt.trans_lt hlong.high) (hinv.ready p hinside) hworks

theorem SeqInv.stays (hinv : SeqInv first nums s) {p : proc} {c : L.choice}
    {lock : LockState L} {o : Unit}
    (hlock : L.next s.lock (LockAction.step p c) = some (lock, o))
    (hagrees : Agrees (lock.phase p) (s.procs p)) (hcall : lock.phase p ≠ LockPhase.inside)
    (hafter : afterLock (s.procs p) (lock.phase p) = s.procs p) :
    SeqInv first nums
      { lock := lock, file := s.file,
        procs := Function.update s.procs p (afterLock (s.procs p) (lock.phase p)) } := by
  rw [hafter]
  exact hinv.move hlock hagrees (hinv.rounds p) rfl rfl fun hinside => absurd hinside hcall

theorem SeqInv.lockStep (hinv : SeqInv first nums s) {p : proc} {c : L.choice}
    {lock : LockState L} {o : Unit}
    (hlock : L.next s.lock (LockAction.step p c) = some (lock, o)) :
    SeqInv first nums
      { lock := lock, file := s.file,
        procs := Function.update s.procs p (afterLock (s.procs p) (lock.phase p)) } := by
  have hagrees := hinv.agrees p
  rcases next_step_phase hlock with ⟨pc, hphase, hnow | ⟨pc', hnow⟩⟩ |
    ⟨pc, hphase, hnow | ⟨pc', hnow⟩⟩
  · -- `my_lock` has returned
    rw [hphase] at hagrees
    have hafter : afterLock (s.procs p) (lock.phase p) =
        { s.procs p with pc := MainPc.lseekRead } := by
      simp [afterLock, hagrees.1, hnow]
    rw [hafter]
    apply hinv.move hlock
    · show Agrees (lock.phase p) _
      rw [hnow]
      exact ⟨rfl, hagrees.2⟩
    · exact hinv.rounds p
    · simp [written, LockAction.actor, hagrees.1]
    · simp [printed, LockAction.actor, hagrees.1]
    · exact fun _ => trivial
  · rw [hphase] at hagrees
    apply hinv.stays hlock
    · rw [hnow]
      exact hagrees
    · simp [hnow]
    · simp [afterLock, hagrees.1, hnow]
  · -- `my_unlock` has returned, and the round is over
    rw [hphase] at hagrees
    have hafter : afterLock (s.procs p) (lock.phase p) =
        { s.procs p with pc := MainPc.idle, i := (s.procs p).i + 1 } := by
      simp [afterLock, hagrees.1, hnow]
    rw [hafter]
    apply hinv.move hlock
    · show Agrees (lock.phase p) _
      rw [hnow]
      rfl
    · exact hagrees.2
    · simp [written, LockAction.actor, hagrees.1]
    · simp [printed, LockAction.actor, hagrees.1]
    · intro hinside
      have hin : lock.phase p = LockPhase.inside := hinside
      rw [hnow] at hin
      cases hin
  · rw [hphase] at hagrees
    apply hinv.stays hlock
    · rw [hnow]
      exact hagrees
    · simp [hnow]
    · simp [afterLock, hagrees.1, hnow]

inductive SeqSteps (s : SeqState L) : SeqState L -> Option Int -> Prop where
  | calls {p : proc} (outside : s.lock.phase p = LockPhase.outside)
      (round : (s.procs p).i < ROUNDS) :
      SeqSteps s
        { s with lock := move s.lock p (LockPhase.locking (L.lock (s.lock.own p))) } none
  | locks {p : proc} {c : L.choice} {lock : LockState L} {o : Unit}
      (step : L.next s.lock (LockAction.step p c) = some (lock, o)) :
      SeqSteps s
        { lock := lock, file := s.file,
          procs := Function.update s.procs p (afterLock (s.procs p) (lock.phase p)) } none
  | works {p : proc} {r : List UInt8 × Main × Option Int}
      (inside : s.lock.phase p = LockPhase.inside)
      (step : mainStep s.file (s.procs p) = some r) :
      SeqSteps s
        { lock := s.lock, file := r.1, procs := Function.update s.procs p r.2.1 } r.2.2
  | unlocks {p : proc} (inside : s.lock.phase p = LockPhase.inside)
      (pc : (s.procs p).pc = MainPc.unlock) :
      SeqSteps s
        { lock := move s.lock p (LockPhase.unlocking (L.unlock (s.lock.own p))),
          file := s.file,
          procs := Function.update s.procs p { s.procs p with pc := MainPc.unlocking } } none

omit [Fintype proc] in
theorem steps_of_seqStep {a : SeqAction L} {o : Option Int}
    (h : seqStep L s a = some (s', o)) : SeqSteps s s' o := by
  cases a with
  | call p =>
      simp only [seqStep] at h
      cases hphase : s.lock.phase p with
      | locking pc => simp [hphase] at h
      | inside => simp [hphase] at h
      | unlocking pc => simp [hphase] at h
      | outside =>
          simp only [hphase, next_call_outside hphase, Option.map_some] at h
          by_cases hround : (s.procs p).i < ROUNDS
          · rw [if_pos hround] at h
            cases h
            exact SeqSteps.calls hphase hround
          · rw [if_neg hround] at h
            cases h
  | lock p c =>
      simp only [seqStep] at h
      rcases Option.map_eq_some_iff.mp h with ⟨⟨lock, u⟩, hlock, heq⟩
      cases heq
      exact SeqSteps.locks hlock
  | work p =>
      simp only [seqStep] at h
      cases hphase : s.lock.phase p with
      | outside => simp [hphase] at h
      | locking pc => simp [hphase] at h
      | unlocking pc => simp [hphase] at h
      | inside =>
          by_cases hpc : (s.procs p).pc = MainPc.unlock
          · simp only [hphase, hpc, next_call_inside hphase, Option.map_some] at h
            cases h
            exact SeqSteps.unlocks hphase hpc
          · have hstep : (mainStep s.file (s.procs p)).map (fun r =>
                (({ s with file := r.1 } : SeqState L).setProc p r.2.1, r.2.2)) =
                  some (s', o) := by
              cases hcase : (s.procs p).pc <;> simp_all
            rcases Option.map_eq_some_iff.mp hstep with ⟨r, hmain, heq⟩
            cases heq
            exact SeqSteps.works hphase hmain

theorem seq_step (hexclusive : L.Exclusive) (hlong : InLong first (Fintype.card proc))
    (hinv : SeqInv first nums s) {a : SeqAction L} {o : Option Int}
    (h : seqStep L s a = some (s', o)) : SeqInv first (nums ++ o.toList) s' := by
  cases steps_of_seqStep h with
  | calls outside round =>
      rename_i p
      have hidle := hinv.agrees p
      rw [outside] at hidle
      have hmoved := hinv.move (x := s.procs p) (next_call_outside outside)
        (by
          simp only [LockAction.actor, move_self]
          exact ⟨hidle, round⟩)
        (hinv.rounds p) rfl rfl
        (by
          simp only [LockAction.actor, move_self]
          intro hinside
          cases hinside)
      simpa [LockAction.actor] using hmoved
  | locks step => simpa using hinv.lockStep step
  | works inside step =>
      rename_i p r
      have hworks : (s.procs p).pc.works = true := by
        cases hpc : (s.procs p).pc <;> simp [mainStep, hpc, MainPc.works] at step ⊢
      rcases hinv.worked hlong inside hworks with ⟨r', hstep, hworked⟩
      have hr : r' = r := Option.some.inj (hstep.symm.trans step)
      subst hr
      exact hinv.work hexclusive inside hworked
  | unlocks inside pc =>
      rename_i p
      have hagrees := hinv.agrees p
      rw [inside] at hagrees
      have hmoved := hinv.move (x := { s.procs p with pc := MainPc.unlocking })
        (next_call_inside inside)
        (by
          simp only [LockAction.actor, move_self]
          exact ⟨rfl, hagrees.2⟩)
        (hinv.rounds p) (by simp [written, LockAction.actor, pc])
        (by simp [printed, LockAction.actor, pc])
        (by
          simp only [LockAction.actor, move_self]
          intro hinside
          cases hinside)
      simpa [LockAction.actor] using hmoved

/-!
# Runs
-/

omit [Fintype proc] [DecidableEq proc] in
theorem obtained_snoc (tr : List (SeqTransition L)) (e : SeqTransition L) :
    obtained (tr ++ [e]) = obtained tr ++ e.event.toList := by
  unfold obtained
  rw [List.filterMap_append]
  cases hevent : e.event with
  | none => simp [hevent]
  | some n => simp [hevent]

theorem init_seqInv {content : List UInt8} {k : Nat} (hcontent : Numbered content first k)
    (h : SeqInit L content s) : SeqInv first [] s := by
  have hwritten : total written s.procs = 0 :=
    total_eq_zero_iff.mpr fun p => by simp [written, h.idle p, h.start p]
  have hprinted : total printed s.procs = 0 :=
    total_eq_zero_iff.mpr fun p => by simp [printed, h.idle p, h.start p]
  constructor
  · exact ⟨[], s.lock, h.lock, Path.nil⟩
  · intro p
    rw [h.lock.outside p]
    exact h.idle p
  · intro p
    rw [h.start p]
    exact Nat.zero_le ROUNDS
  · unfold current
    rw [h.file, hwritten, hcontent.number]
    simp
  · rw [h.file]
    exact hcontent.short
  · intro p hinside
    rw [h.lock.outside p] at hinside
    cases hinside
  · rfl
  · exact hprinted.symm

theorem seq_run (hexclusive : L.Exclusive) {content : List UInt8}
    (hcontent : Numbered content first (Fintype.card proc)) {tr : List (SeqTransition L)}
    (h : Run (SeqInit L content) (seqStep L) tr s) : SeqInv first (obtained tr) s := by
  refine run_induction (I := fun tr s => SeqInv first (obtained tr) s) ?_ ?_ h
  · intro s hinit
    exact init_seqInv hcontent hinit
  · intro tr s a o s' _ hinv hstep
    rw [obtained_snoc]
    exact seq_step hexclusive hcontent.inLong hinv hstep

def Finished (s : SeqState L) : Prop :=
  forall p, (s.procs p).i = ROUNDS ∧ s.lock.phase p = LockPhase.outside

theorem SeqInv.goes_on (hlong : InLong first (Fintype.card proc)) (hinv : SeqInv first nums s)
    {p : proc} (hinside : s.lock.phase p = LockPhase.inside) :
    (seqStep L s (SeqAction.work p)).isSome = true := by
  have hagrees := hinv.agrees p
  rw [hinside] at hagrees
  by_cases hpc : (s.procs p).pc = MainPc.unlock
  · simp [seqStep, hinside, hpc, next_call_inside hinside]
  · have hworks : (s.procs p).pc.works = true := by
      have hin := hagrees.1
      cases hcase : (s.procs p).pc <;> simp_all [MainPc.inside, MainPc.works]
    rcases hinv.worked hlong hinside hworks with ⟨r, hstep, _⟩
    have hmain : seqStep L s (SeqAction.work p) = (mainStep s.file (s.procs p)).map fun r =>
        (({ s with file := r.1 } : SeqState L).setProc p r.2.1, r.2.2) := by
      simp only [seqStep, hinside]
    rw [hmain, hstep]
    rfl

/-- With a lock that excludes, the processes obtain one number after the other, each
once; when all are through, the file starts with the number that follows. -/
theorem sequence_numbers_exact (hexclusive : L.Exclusive) {content : List UInt8}
    (hcontent : Numbered content first (Fintype.card proc)) {tr : List (SeqTransition L)}
    (h : Run (SeqInit L content) (seqStep L) tr s) :
    obtained tr = numbersFrom first (obtained tr).length ∧
      (obtained tr).length ≤ ROUNDS * Fintype.card proc ∧
      (Finished s -> obtained tr = numbersFrom first (ROUNDS * Fintype.card proc) ∧
        fileNumber s.file = some (first + (ROUNDS * Fintype.card proc : Nat))) ∧
      forall p, s.lock.phase p = LockPhase.inside ->
        (seqStep L s (SeqAction.work p)).isSome = true := by
  have hinv := seq_run hexclusive hcontent h
  refine ⟨hinv.sequence, ?_, ?_, fun p hp => hinv.goes_on hcontent.inLong hp⟩
  · have hle := total_le fun p => printed_le (hinv.agrees p) (hinv.rounds p)
    rw [hinv.count, Nat.mul_comm]
    exact hle
  · intro hfinished
    have hidle : forall p, (s.procs p).pc = MainPc.idle := by
      intro p
      have hagrees := hinv.agrees p
      rw [(hfinished p).2] at hagrees
      exact hagrees
    have hwritten : total written s.procs = Fintype.card proc * ROUNDS :=
      total_const fun p => by simp [written, hidle p, (hfinished p).1]
    have hprinted : total printed s.procs = Fintype.card proc * ROUNDS :=
      total_const fun p => by simp [printed, hidle p, (hfinished p).1]
    have hcount := hinv.count
    rw [hprinted, Nat.mul_comm] at hcount
    have hnumber := hinv.number
    unfold current at hnumber
    rw [hwritten, Nat.mul_comm] at hnumber
    refine ⟨?_, hnumber⟩
    rw [← hcount]
    exact hinv.sequence

end System

/-!
# Two processes with the lock file
-/

def idleMain : Main :=
  { i := 0, pc := MainPc.idle, seqno := 0, n := 0, line := fun _ => 0, offset := 0 }

def SeqState.fresh (content : List UInt8) : SeqState (lockopen (Fin 2)) :=
  { lock := { shared := false, own := fun _ => (), phase := fun _ => LockPhase.outside },
    file := content, procs := fun _ => idleMain }

theorem init_freshSeq (content : List UInt8) :
    SeqInit (lockopen (Fin 2)) content (SeqState.fresh content) :=
  ⟨⟨rfl, fun _ => rfl⟩, rfl, fun _ => rfl, fun _ => rfl⟩

def round (p : Fin 2) : List (SeqAction (lockopen (Fin 2))) :=
  [SeqAction.call p, SeqAction.lock p true, SeqAction.lock p false, SeqAction.lock p false] ++
    List.replicate 10 (SeqAction.work p) ++ [SeqAction.lock p false]

def freshFcntl (content : List UInt8) : SeqState (lockfcntl (Fin 2)) :=
  { lock := { shared := none, own := fun _ => (), phase := fun _ => LockPhase.outside },
    file := content, procs := fun _ => idleMain }

theorem init_freshFcntl (content : List UInt8) :
    SeqInit (lockfcntl (Fin 2)) content (freshFcntl content) :=
  ⟨⟨rfl, fun _ => rfl⟩, rfl, fun _ => rfl, fun _ => rfl⟩

/-- With the record lock process 1 is inside while process 0 waits in `my_lock`; with the lock file
both take turns to the end. -/
theorem sequence_numbers_exact_twoProcesses :
    (exists (tr : List (SeqTransition (lockfcntl (Fin 2)))) (s : SeqState (lockfcntl (Fin 2))),
      obtained tr = [-1] ∧ seqStep (lockfcntl (Fin 2)) s (SeqAction.lock 0 ()) = none ∧
        (seqStep (lockfcntl (Fin 2)) s (SeqAction.work 1)).isSome = true) ∧
      exists (tr : List (SeqTransition (lockopen (Fin 2)))) (s : SeqState (lockopen (Fin 2))),
        Finished s ∧ obtained tr = numbersFrom (-1) 40 ∧ fileNumber s.file = some 39 := by
  have hcontent : Numbered [45, 49, 10] (-1) (Fintype.card (Fin 2)) :=
    ⟨by decide +kernel, by decide, ⟨by decide, by decide⟩⟩
  constructor
  · have hreplay : exists tr s,
        Run (SeqInit (lockfcntl (Fin 2)) [45, 49, 10]) (seqStep (lockfcntl (Fin 2))) tr s ∧
          decide ((obtained tr).length = 1 ∧ s.lock.phase 1 = LockPhase.inside ∧
            (seqStep (lockfcntl (Fin 2)) s (SeqAction.lock 0 ())).isNone) = true :=
      run_of_replay
        ([SeqAction.call 1, SeqAction.lock 1 (), SeqAction.call 0] ++
          List.replicate 6 (SeqAction.work 1))
        (init_freshFcntl [45, 49, 10]) (by decide +kernel)
    rcases hreplay with ⟨tr, s, hrun, htest⟩
    rcases of_decide_eq_true htest with ⟨hlength, hinside, hwaits⟩
    rcases sequence_numbers_exact lockfcntl_exclusive hcontent hrun with
      ⟨hsequence, _, _, hgoes⟩
    rw [hlength] at hsequence
    exact ⟨tr, s, hsequence, Option.isNone_iff_eq_none.mp hwaits, hgoes 1 hinside⟩
  · have hreplay : exists tr s,
        Run (SeqInit (lockopen (Fin 2)) [45, 49, 10]) (seqStep (lockopen (Fin 2))) tr s ∧
          decide (forall p, (s.procs p).i = ROUNDS ∧
            s.lock.phase p = LockPhase.outside) = true :=
      run_of_replay (List.replicate 20 (round 0 ++ round 1)).flatten
        (init_freshSeq [45, 49, 10]) (by decide +kernel)
    rcases hreplay with ⟨tr, s, hrun, htest⟩
    have hfinished : Finished s := by
      intro p
      exact of_decide_eq_true htest p
    rcases (sequence_numbers_exact lockopen_exclusive hcontent hrun).2.2.1 hfinished with
      ⟨hobtained, hnumber⟩
    exact ⟨tr, s, hfinished, hobtained, hnumber⟩

end Lockmain
end InterprocessComm
