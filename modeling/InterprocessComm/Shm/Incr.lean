import InterprocessComm.Lib.Ranking
import InterprocessComm.Posix
import Mathlib.Logic.Function.Basic

/-!
# Counting in memory that processes share

Processes increment an `int` and print what it was, one at a time behind a semaphore.  Where the
`int` lies decides what they print: `fork` copies a variable, and a mapped file is one for all.
-/

namespace InterprocessComm
namespace Shm
namespace Incr

open Verification

structure Program (proc ι : Type) where
  count : proc -> ι
  nloop : proc -> Int

inductive Side where
  | parent
  | child
deriving DecidableEq

/-- Each process has its own variable. -/
def incr1 (nloop : Int) : Program Side Side :=
  { count := id, nloop := fun _ => nloop }

def incr2 (nloop : Int) : Program Side Unit :=
  { count := fun _ => (), nloop := fun _ => nloop }

/-- As `incr2`, with the semaphore beside the `int`. -/
def incr3 (nloop : Int) : Program Side Unit :=
  incr2 nloop

/-- Any number of clients, on the object that `server1` has made. -/
def client1 {proc : Type} (nloop : proc -> Int) : Program proc Unit :=
  { count := fun _ => (), nloop := nloop }

inductive Pc where
  | loop
  | read
  | store (v : Int)
  | print (v : Int)
  | post
  | ended
deriving DecidableEq

def Pc.inside : Pc -> Bool
  | loop => false
  | ended => false
  | _ => true

structure Local where
  i : Nat
  pc : Pc

structure State (proc ι : Type) where
  mutex : Nat
  count : ι -> Int
  procs : proc -> Local

section Step

variable {proc ι : Type} [DecidableEq proc] [DecidableEq ι]

def State.goes (s : State proc ι) (p : proc) (x : Local) : State proc ι :=
  { s with procs := Function.update s.procs p x }

/-- The event is what a process prints. -/
def step (prog : Program proc ι) (s : State proc ι) (p : proc) :
    Option (State proc ι × Option (proc × Int)) :=
  let x := s.procs p
  match x.pc with
  | Pc.loop =>
      if (x.i : Int) < prog.nloop p then
        (semWait s.mutex).map fun n =>
          ({ s.goes p { x with pc := Pc.read } with mutex := n }, none)
      else
        some (s.goes p { x with pc := Pc.ended }, none)
  | Pc.read => some (s.goes p { x with pc := Pc.store (s.count (prog.count p)) }, none)
  | Pc.store v =>
      (increment v).map fun w =>
        ({ s.goes p { x with pc := Pc.print v } with
           count := Function.update s.count (prog.count p) w }, none)
  | Pc.print v => some (s.goes p { x with pc := Pc.post }, some (p, v))
  | Pc.post =>
      some ({ s.goes p { i := x.i + 1, pc := Pc.loop } with mutex := semPost s.mutex }, none)
  | Pc.ended => none

structure Init (s : State proc ι) : Prop where
  mutex : s.mutex = 1
  count : forall c, s.count c = 0
  procs : forall p, s.procs p = ⟨0, Pc.loop⟩

inductive Stepped (prog : Program proc ι) (s : State proc ι) (p : proc) :
    Option (proc × Int) -> State proc ι -> Prop where
  | enter {n : Nat} (hpc : (s.procs p).pc = Pc.loop) (hloop : ((s.procs p).i : Int) < prog.nloop p)
      (hmutex : s.mutex = n + 1) :
      Stepped prog s p none { s.goes p { s.procs p with pc := Pc.read } with mutex := n }
  | finish (hpc : (s.procs p).pc = Pc.loop) (hloop : prog.nloop p ≤ (s.procs p).i) :
      Stepped prog s p none (s.goes p { s.procs p with pc := Pc.ended })
  | read (hpc : (s.procs p).pc = Pc.read) :
      Stepped prog s p none
        (s.goes p { s.procs p with pc := Pc.store (s.count (prog.count p)) })
  | store {v : Int} (hpc : (s.procs p).pc = Pc.store v) :
      Stepped prog s p none
        { s.goes p { s.procs p with pc := Pc.print v } with
          count := Function.update s.count (prog.count p) (v + 1) }
  | print {v : Int} (hpc : (s.procs p).pc = Pc.print v) :
      Stepped prog s p (some (p, v)) (s.goes p { s.procs p with pc := Pc.post })
  | post (hpc : (s.procs p).pc = Pc.post) :
      Stepped prog s p none
        { s.goes p { i := (s.procs p).i + 1, pc := Pc.loop } with mutex := semPost s.mutex }

theorem stepped_of_step {prog : Program proc ι} {s t : State proc ι} {p : proc}
    {o : Option (proc × Int)} (hstep : step prog s p = some (t, o)) : Stepped prog s p o t := by
  simp only [step] at hstep
  split at hstep
  · rename_i hpc
    split at hstep
    · rename_i hloop
      rcases Option.map_eq_some_iff.mp hstep with ⟨n, hwait, hnext⟩
      cases hnext
      exact Stepped.enter hpc hloop (semWait_eq hwait)
    · rename_i hloop
      cases hstep
      exact Stepped.finish hpc (Int.not_lt.mp hloop)
  · rename_i hpc
    cases hstep
    exact Stepped.read hpc
  · rename_i v hpc
    rcases Option.map_eq_some_iff.mp hstep with ⟨w, hincrement, hnext⟩
    cases hnext
    cases increment_eq hincrement
    exact Stepped.store hpc
  · rename_i v hpc
    cases hstep
    exact Stepped.print hpc
  · rename_i hpc
    cases hstep
    exact Stepped.post hpc
  · cases hstep

end Step

/-!
# The invariant
-/

section Invariant

variable {proc ι : Type} [DecidableEq proc] [DecidableEq ι] {prog : Program proc ι}

def numbers (prog : Program proc ι) (out : List (proc × Int)) (c : ι) : List Int :=
  (out.filter fun e => prog.count e.1 = c).map Prod.snd

def prints (out : List (proc × Int)) (p : proc) : Nat :=
  out.countP fun e => e.1 = p

def State.inside (s : State proc ι) (p : proc) : Bool := (s.procs p).pc.inside

def Exclusive (s : State proc ι) : Prop :=
  (s.mutex = 1 ∧ forall p, s.inside p = false) ∨
    (s.mutex = 0 ∧ exists p, s.inside p = true ∧ forall q, q ≠ p -> s.inside q = false)

structure Counted (prog : Program proc ι) (out : List (proc × Int)) (s : State proc ι) : Prop where
  numbers : forall c, numbers prog out c = (List.range (numbers prog out c).length).map Int.ofNat
  count : forall c, (forall p v, (s.procs p).pc = Pc.print v -> prog.count p ≠ c) ->
    s.count c = (Incr.numbers prog out c).length
  store : forall p v, (s.procs p).pc = Pc.store v -> v = s.count (prog.count p)
  print : forall p v, (s.procs p).pc = Pc.print v ->
    v = (Incr.numbers prog out (prog.count p)).length ∧ s.count (prog.count p) = v + 1

def Pc.printed : Pc -> Nat
  | post => 1
  | _ => 0

/-- How far a process has come that is to print `n` numbers and has printed `k`. -/
structure Round (n : Int) (k : Nat) (x : Local) : Prop where
  prints : k = x.i + x.pc.printed
  inside : x.pc.inside = true -> (x.i : Int) < n
  le : x.i ≤ n.toNat
  ended : x.pc = Pc.ended -> x.i = n.toNat

structure Inv (prog : Program proc ι) (out : List (proc × Int)) (s : State proc ι) : Prop where
  exclusive : Exclusive s
  counted : Counted prog out s
  round : forall p, Round (prog.nloop p) (prints out p) (s.procs p)

variable {out : List (proc × Int)} {s t : State proc ι} {p q : proc}

omit [DecidableEq ι] in
theorem goes_self (s : State proc ι) (p : proc) (x : Local) : (s.goes p x).procs p = x :=
  Function.update_self ..

omit [DecidableEq ι] in
theorem goes_of_ne (s : State proc ι) (x : Local) (h : q ≠ p) :
    (s.goes p x).procs q = s.procs q :=
  Function.update_of_ne h ..

omit [DecidableEq proc] [DecidableEq ι] in
theorem Exclusive.alone (h : Exclusive s) (hp : s.inside p = true) :
    s.mutex = 0 ∧ forall q, q ≠ p -> s.inside q = false := by
  rcases h with ⟨_, hnone⟩ | ⟨hmutex, r, _, hothers⟩
  · rw [hnone p] at hp
    cases hp
  · have heq : p = r := by
      by_contra hne
      rw [hothers p hne] at hp
      cases hp
    rw [heq]
    exact ⟨hmutex, hothers⟩

omit [DecidableEq ι] in
theorem Exclusive.goes (h : Exclusive s) {x : Local} {count : ι -> Int}
    (hsame : x.pc.inside = (s.procs p).pc.inside) :
    Exclusive { s.goes p x with count := count } := by
  have hinside : ({ s.goes p x with count := count } : State proc ι).inside = s.inside := by
    funext q
    show ((s.goes p x).procs q).pc.inside = _
    rcases eq_or_ne q p with rfl | hne
    · rw [goes_self]
      exact hsame
    · rw [goes_of_ne s x hne]
      rfl
  unfold Exclusive
  rw [hinside]
  exact h

omit [DecidableEq ι] in
theorem Exclusive.enter (h : Exclusive s) {n : Nat} {x : Local} (hmutex : s.mutex = n + 1)
    (hin : x.pc.inside = true) : Exclusive { s.goes p x with mutex := n } := by
  rcases h with ⟨hone, hnone⟩ | ⟨hzero, _⟩
  · refine Or.inr ⟨by show n = 0; lia, p, ?_, ?_⟩
    · show ((s.goes p x).procs p).pc.inside = true
      rw [goes_self]
      exact hin
    · intro q hne
      show ((s.goes p x).procs q).pc.inside = false
      rw [goes_of_ne s x hne]
      exact hnone q
  · lia

omit [DecidableEq ι] in
theorem Exclusive.leave (h : Exclusive s) {x : Local} (hp : s.inside p = true)
    (hout : x.pc.inside = false) : Exclusive { s.goes p x with mutex := semPost s.mutex } := by
  rcases h.alone hp with ⟨hmutex, hothers⟩
  refine Or.inl ⟨by show s.mutex + 1 = 1; lia, ?_⟩
  intro q
  show ((s.goes p x).procs q).pc.inside = false
  rcases eq_or_ne q p with rfl | hne
  · rw [goes_self]
    exact hout
  · rw [goes_of_ne s x hne]
    exact hothers q hne

theorem Counted.goes (h : Counted prog out s) {x : Local} {n : Nat}
    (hold : forall v, (s.procs p).pc ≠ Pc.print v) (hnew : forall v, x.pc ≠ Pc.print v)
    (hstore : forall v, x.pc = Pc.store v -> v = s.count (prog.count p)) :
    Counted prog out { s.goes p x with mutex := n } := by
  constructor
  · exact h.numbers
  · intro c hnone
    apply h.count c
    intro q v hq
    rcases eq_or_ne q p with rfl | hne
    · exact absurd hq (hold v)
    · apply hnone q v
      show ((s.goes p x).procs q).pc = _
      rwa [goes_of_ne s x hne]
  · intro q v hq
    change ((s.goes p x).procs q).pc = _ at hq
    rcases eq_or_ne q p with rfl | hne
    · rw [goes_self] at hq
      exact hstore v hq
    · rw [goes_of_ne s x hne] at hq
      exact h.store q v hq
  · intro q v hq
    change ((s.goes p x).procs q).pc = _ at hq
    rcases eq_or_ne q p with rfl | hne
    · rw [goes_self] at hq
      exact absurd hq (hnew v)
    · rw [goes_of_ne s x hne] at hq
      exact h.print q v hq

omit [DecidableEq proc] [DecidableEq ι] in
theorem outside (h : s.inside q = false) (v : Int) :
    (s.procs q).pc ≠ Pc.store v ∧ (s.procs q).pc ≠ Pc.print v := by
  constructor
  · intro hpc
    rw [State.inside, hpc] at h
    cases h
  · intro hpc
    rw [State.inside, hpc] at h
    cases h

theorem Counted.stores (h : Counted prog out s) (hexclusive : Exclusive s) {v : Int} {i : Nat}
    (hpc : (s.procs p).pc = Pc.store v) :
    Counted prog out { s.goes p ⟨i, Pc.print v⟩ with
      count := Function.update s.count (prog.count p) (v + 1) } := by
  have hin : s.inside p = true := by
    rw [State.inside, hpc]
    rfl
  have hothers := (hexclusive.alone hin).2
  have hvalue : v = (Incr.numbers prog out (prog.count p)).length := by
    rw [h.store p v hpc]
    apply h.count
    intro q w hq
    rcases eq_or_ne q p with rfl | hne
    · rw [hpc] at hq
      cases hq
    · exact absurd hq (outside (hothers q hne) w).2
  constructor
  · exact h.numbers
  · intro c hnone
    have hne : c ≠ prog.count p := by
      rintro rfl
      refine hnone p v ?_ rfl
      show ((s.goes p ⟨i, Pc.print v⟩).procs p).pc = _
      rw [goes_self]
    show Function.update s.count (prog.count p) (v + 1) c = _
    rw [Function.update_of_ne hne]
    apply h.count c
    intro q w hq
    rcases eq_or_ne q p with rfl | hqp
    · exact hne.symm
    · exact absurd hq (outside (hothers q hqp) w).2
  · intro q w hq
    change ((s.goes p ⟨i, Pc.print v⟩).procs q).pc = _ at hq
    rcases eq_or_ne q p with rfl | hne
    · rw [goes_self] at hq
      cases hq
    · rw [goes_of_ne s _ hne] at hq
      exact absurd hq (outside (hothers q hne) w).1
  · intro q w hq
    change ((s.goes p ⟨i, Pc.print v⟩).procs q).pc = _ at hq
    rcases eq_or_ne q p with rfl | hne
    · rw [goes_self] at hq
      cases hq
      refine ⟨hvalue, ?_⟩
      show Function.update s.count (prog.count q) (v + 1) (prog.count q) = v + 1
      rw [Function.update_self]
    · rw [goes_of_ne s _ hne] at hq
      exact absurd hq (outside (hothers q hne) w).2

omit [DecidableEq proc] in
theorem numbers_snoc (out : List (proc × Int)) (p : proc) (v : Int) (c : ι) :
    Incr.numbers prog (out ++ [(p, v)]) c =
      if prog.count p = c then Incr.numbers prog out c ++ [v] else Incr.numbers prog out c := by
  unfold Incr.numbers
  rw [List.filter_append]
  by_cases hc : prog.count p = c <;> simp [hc]

theorem Counted.prints (h : Counted prog out s) (hexclusive : Exclusive s) {v : Int} {i : Nat}
    (hpc : (s.procs p).pc = Pc.print v) :
    Counted prog (out ++ [(p, v)]) (s.goes p ⟨i, Pc.post⟩) := by
  have hin : s.inside p = true := by
    rw [State.inside, hpc]
    rfl
  have hothers := (hexclusive.alone hin).2
  rcases h.print p v hpc with ⟨hvalue, hcount⟩
  constructor
  · intro c
    rw [numbers_snoc]
    by_cases hc : prog.count p = c
    · rw [if_pos hc]
      rw [hc] at hvalue
      rw [List.length_append, List.length_singleton, List.range_succ, List.map_append,
        ← h.numbers c, hvalue]
      rfl
    · rw [if_neg hc]
      exact h.numbers c
  · intro c hnone
    rw [numbers_snoc]
    by_cases hc : prog.count p = c
    · rw [if_pos hc, ← hc, List.length_append, List.length_singleton]
      rw [hvalue] at hcount
      show s.count (prog.count p) = _
      rw [hcount]
      simp
    · rw [if_neg hc]
      apply h.count c
      intro q w hq
      rcases eq_or_ne q p with rfl | hne
      · exact hc
      · exact absurd hq (outside (hothers q hne) w).2
  · intro q w hq
    rcases eq_or_ne q p with rfl | hne
    · rw [goes_self] at hq
      cases hq
    · rw [goes_of_ne s _ hne] at hq
      exact absurd hq (outside (hothers q hne) w).1
  · intro q w hq
    rcases eq_or_ne q p with rfl | hne
    · rw [goes_self] at hq
      cases hq
    · rw [goes_of_ne s _ hne] at hq
      exact absurd hq (outside (hothers q hne) w).2

/-!
# Steps
-/

omit [DecidableEq ι] in
theorem rounds_goes {out' : List (proc × Int)}
    (h : forall q, Round (prog.nloop q) (prints out q) (s.procs q)) {x : Local}
    (hothers : forall q, q ≠ p -> prints out' q = prints out q)
    (hmine : Round (prog.nloop p) (prints out' p) x) (q : proc) :
    Round (prog.nloop q) (prints out' q) ((s.goes p x).procs q) := by
  rcases eq_or_ne q p with rfl | hne
  · rw [goes_self]
    exact hmine
  · rw [goes_of_ne s x hne, hothers q hne]
    exact h q

theorem prints_snoc (out : List (proc × Int)) (p q : proc) (v : Int) :
    prints (out ++ [(p, v)]) q = prints out q + if p = q then 1 else 0 := by
  rw [prints, List.countP_append, List.countP_singleton]
  simp [prints]

theorem Inv.step {o : Option (proc × Int)} (h : Inv prog out s)
    (hstep : step prog s p = some (t, o)) : Inv prog (out ++ o.toList) t := by
  have hround := h.round p
  cases stepped_of_step hstep with
  | @enter n hpc hloop hmutex =>
      rw [Option.toList_none, List.append_nil]
      refine ⟨h.exclusive.enter hmutex rfl, ?_, ?_⟩
      · exact h.counted.goes (by simp [hpc]) (by simp) (by simp)
      · refine rounds_goes h.round (fun _ _ => rfl) ⟨?_, fun _ => hloop, hround.le, by simp⟩
        rw [hround.prints, hpc]
        rfl
  | finish hpc hloop =>
      rw [Option.toList_none, List.append_nil]
      refine ⟨h.exclusive.goes (by rw [hpc]; rfl), ?_, ?_⟩
      · exact h.counted.goes (by simp [hpc]) (by simp) (by simp)
      · refine rounds_goes h.round (fun _ _ => rfl) ⟨?_, by simp [Pc.inside], hround.le, ?_⟩
        · rw [hround.prints, hpc]
          rfl
        · intro _
          have hle := hround.le
          show (s.procs p).i = _
          lia
  | read hpc =>
      rw [Option.toList_none, List.append_nil]
      refine ⟨h.exclusive.goes (by rw [hpc]; rfl), ?_, ?_⟩
      · refine h.counted.goes (by simp [hpc]) (by simp) ?_
        intro v hv
        cases hv
        rfl
      · refine rounds_goes h.round (fun _ _ => rfl) ⟨?_, ?_, hround.le, by simp⟩
        · rw [hround.prints, hpc]
          rfl
        · intro _
          exact hround.inside (by rw [hpc]; rfl)
  | store hpc =>
      rw [Option.toList_none, List.append_nil]
      refine ⟨h.exclusive.goes (by rw [hpc]; rfl), h.counted.stores h.exclusive hpc, ?_⟩
      refine rounds_goes h.round (fun _ _ => rfl) ⟨?_, ?_, hround.le, by simp⟩
      · rw [hround.prints, hpc]
        rfl
      · intro _
        exact hround.inside (by rw [hpc]; rfl)
  | @print v hpc =>
      refine ⟨h.exclusive.goes (by rw [hpc]; rfl), h.counted.prints h.exclusive hpc, ?_⟩
      refine rounds_goes h.round ?_ ⟨?_, ?_, hround.le, by simp⟩
      · intro q hne
        show prints (out ++ [(p, v)]) q = _
        rw [prints_snoc, if_neg hne.symm, Nat.add_zero]
      · show prints (out ++ [(p, v)]) p = _
        rw [prints_snoc, if_pos rfl, hround.prints, hpc]
        rfl
      · intro _
        exact hround.inside (by rw [hpc]; rfl)
  | post hpc =>
      rw [Option.toList_none, List.append_nil]
      have hin : s.inside p = true := by
        rw [State.inside, hpc]
        rfl
      have hlt := hround.inside (by rw [hpc]; rfl)
      refine ⟨h.exclusive.leave hin rfl, ?_, ?_⟩
      · exact h.counted.goes (by simp [hpc]) (by simp) (by simp)
      · refine rounds_goes h.round (fun _ _ => rfl) ⟨?_, by simp [Pc.inside], ?_, by simp⟩
        · rw [hround.prints, hpc]
          rfl
        · show (s.procs p).i + 1 ≤ _
          lia

/-!
# Runs
-/

variable {tr : List (Transition (State proc ι) proc (Option (proc × Int)))}

def printed (tr : List (Transition (State proc ι) proc (Option (proc × Int)))) :
    List (proc × Int) :=
  tr.flatMap fun e => e.event.toList

theorem inv_run (hrun : Run Init (step prog) tr s) : Inv prog (printed tr) s := by
  refine run_induction (I := fun tr s => Inv prog (printed tr) s) ?_ ?_ hrun
  · intro s hs
    have hpc : forall p, (s.procs p).pc = Pc.loop := fun p => by rw [hs.procs p]
    refine ⟨Or.inl ⟨hs.mutex, fun p => by rw [State.inside, hpc p]; rfl⟩, ?_, ?_⟩
    · constructor
      · intro c
        rfl
      · intro c _
        exact hs.count c
      · intro p v hp
        cases (hpc p).symm.trans hp
      · intro p v hp
        cases (hpc p).symm.trans hp
    · intro p
      rw [hs.procs p]
      exact ⟨rfl, by simp [Pc.inside], Nat.zero_le _, by simp⟩
  · intro tr s p o t _ ih hstep
    have hnext := ih.step hstep
    rwa [printed, List.flatMap_append, List.flatMap_singleton]

theorem Inv.waits (h : Inv prog out s) (hnone : Incr.step prog s p = none) :
    (s.procs p).pc = Pc.ended ∨ (exists q, s.inside q = true ∧ q ≠ p) ∨
      exists v, (s.procs p).pc = Pc.store v ∧ v = s.count (prog.count p) ∧ INT_MAX ≤ v := by
  simp only [Incr.step] at hnone
  cases hpc : (s.procs p).pc with
  | ended => exact Or.inl rfl
  | read => simp [hpc] at hnone
  | print v => simp [hpc] at hnone
  | post => simp [hpc] at hnone
  | store v =>
      simp only [hpc, Option.map_eq_none_iff, increment] at hnone
      refine Or.inr (Or.inr ⟨v, rfl, h.counted.store p v hpc, ?_⟩)
      by_contra hlt
      rw [if_pos (Int.not_le.mp hlt)] at hnone
      cases hnone
  | loop =>
      simp only [hpc] at hnone
      split at hnone
      · rw [Option.map_eq_none_iff, semWait_eq_none] at hnone
        rcases h.exclusive with ⟨hone, _⟩ | ⟨_, q, hq, _⟩
        · lia
        · refine Or.inr (Or.inl ⟨q, hq, ?_⟩)
          rintro rfl
          rw [State.inside, hpc] at hq
          cases hq
      · cases hnone

theorem Inv.ended_of_stuck (h : Inv prog out s) (hstuck : forall p, Incr.step prog s p = none) :
    (forall p, (s.procs p).pc = Pc.ended) ∨ exists c, INT_MAX ≤ s.count c := by
  by_cases hnone : forall p, s.inside p = false
  · left
    intro p
    rcases h.waits (hstuck p) with hended | ⟨q, hq, _⟩ | ⟨v, hpc, _⟩
    · exact hended
    · rw [hnone q] at hq
      cases hq
    · exact absurd hpc (outside (hnone p) v).1
  · right
    rcases not_forall.mp hnone with ⟨p, hp⟩
    rw [Bool.not_eq_false] at hp
    rcases h.waits (hstuck p) with hended | ⟨q, hq, hne⟩ | ⟨v, _, hv, hle⟩
    · rw [State.inside, hended] at hp
      cases hp
    · rw [(h.exclusive.alone hp).2 q hne] at hq
      cases hq
    · rw [hv] at hle
      exact ⟨_, hle⟩

/-- Of each `int` the numbers are printed from 0 on, in order and each once, whichever processes
print them; no process prints more numbers than it was told; and nothing stops before each process
has printed that many, or an `int` has reached the largest value. -/
theorem numbers_in_order (hrun : Run Init (step prog) tr s) :
    (forall c, numbers prog (printed tr) c =
        (List.range (numbers prog (printed tr) c).length).map Int.ofNat) ∧
      (forall p, prints (printed tr) p ≤ (prog.nloop p).toNat) ∧
      ((forall p, step prog s p = none) ->
        (forall p, prints (printed tr) p = (prog.nloop p).toNat) ∨
          exists c, INT_MAX ≤ s.count c) := by
  have h := inv_run hrun
  refine ⟨h.counted.numbers, ?_, ?_⟩
  · intro p
    have hround := h.round p
    have hle := hround.le
    rw [hround.prints]
    cases hpc : (s.procs p).pc with
    | post =>
        have hlt := hround.inside (by rw [hpc]; rfl)
        show (s.procs p).i + 1 ≤ _
        lia
    | _ => exact hle
  · intro hstuck
    rcases h.ended_of_stuck hstuck with hended | hfull
    · left
      intro p
      have hround := h.round p
      rw [hround.prints, hround.ended (hended p), hended p]
      rfl
    · exact Or.inr hfull

def firstState (proc ι : Type) : State proc ι :=
  { mutex := 1, count := fun _ => 0, procs := fun _ => ⟨0, Pc.loop⟩ }

theorem init_firstState (proc ι : Type) : Init (firstState proc ι) :=
  ⟨rfl, fun _ => rfl, fun _ => rfl⟩

def turns : List Side :=
  List.replicate 5 Side.child ++ List.replicate 10 Side.parent ++ List.replicate 6 Side.child ++
    [Side.parent]

/-- With one `int` for both the four numbers go on. -/
theorem numbers_in_order_incr2 :
    exists tr s, Run Init (step (incr2 2)) tr s ∧
      numbers (incr2 2) (printed tr) () = [0, 1, 2, 3] := by
  have hreplay : exists tr s, Run Init (step (incr2 2)) tr s ∧
      decide ((printed tr).length = 4) = true :=
    run_of_replay turns (init_firstState Side Unit) (by decide +kernel)
  rcases hreplay with ⟨tr, s, hrun, htest⟩
  refine ⟨tr, s, hrun, ?_⟩
  rw [(numbers_in_order hrun).1 ()]
  have hall : (numbers (incr2 2) (printed tr) ()).length = 4 := by
    simpa [numbers] using of_decide_eq_true htest
  rw [hall]
  rfl

end Invariant

end Incr
end Shm
end InterprocessComm
