import InterprocessComm.Locksvsem.Operations
import InterprocessComm.SvSem.Syscalls

/-!
# Exclusion by the semaphore

As long as no `my_lock` abandons its purpose, the value of the semaphore and the process
that has passed `my_lock` add up to one: whoever is inside has taken the unit, and
nobody gets as far as `semop` before the creator has put the unit there.
-/

namespace InterprocessComm
namespace Locksvsem

open Verification
open Verification.LockImpl
open SvSem

section Exclusion

variable {fresh : Nat -> Nat} {proc : Type} {s s' : SvLockState fresh proc} {p : proc}

def Holds (s : SvLockState fresh proc) (p : proc) : Prop :=
  s.phase p = LockPhase.inside ∨ s.phase p = LockPhase.unlocking ()

structure IsReady (s : SvLockState fresh proc) : Prop where
  created : s.shared.next = 1
  valued : forall p, s.phase p ≠ LockPhase.locking LockPc.setval

/-- The variables of a process that has come past the label `init`. -/
structure IsInitialised (x : Globals) : Prop where
  semid : x.semid = some 0
  postop : x.postop.sem_op = 1
  waitop : x.waitop.sem_op = -1

structure SvLockInv (s : SvLockState fresh proc) : Prop where
  next_le : s.shared.next ≤ 1
  key : s.shared.key = if s.shared.next = 0 then none else some 0
  creator : forall p, s.phase p = LockPhase.locking LockPc.setval ->
    s.shared.next = 1 ∧ (s.own p).semid = some 0
  one_creator : forall p q, s.phase p = LockPhase.locking LockPc.setval ->
    s.phase q = LockPhase.locking LockPc.setval -> p = q
  initialised : forall p, (s.own p).initflag = true -> IsInitialised (s.own p) ∧ IsReady s
  starting : forall p pc, s.phase p = LockPhase.locking pc ->
    ((s.own p).initflag = true <-> pc = LockPc.semop)
  used : s.shared.next = 1 -> (s.shared.sets 0).otime = true -> IsReady s
  holds : forall p, Holds s p -> (s.own p).initflag = true ∧ (s.shared.sets 0).semval = 0
  one_holds : forall p q, Holds s p -> Holds s q -> p = q
  value : IsReady s -> (s.shared.sets 0).semval ≤ 1

/-- Nobody holds the unit before the set has its value. -/
theorem SvLockInv.ready_of_holds (hinv : SvLockInv s) (h : Holds s p) : IsReady s :=
  (hinv.initialised p (hinv.holds p h).left).right

theorem SvLockInv.unset (hinv : SvLockInv s) (h : ¬ IsReady s) (p : proc) :
    (s.own p).initflag = false := by
  by_contra hset
  exact h (hinv.initialised p (by simpa using hset)).right

theorem not_holds_of_locking {pc : LockPc} (h : s.phase p = LockPhase.locking pc) :
    ¬ Holds s p := by
  simp [Holds, h]

theorem SvLockInv.nobody_holds {pc : LockPc} (hinv : SvLockInv s) (h : ¬ IsReady s)
    (hself : s'.phase p = LockPhase.locking pc)
    (hphase : forall q, q ≠ p -> s'.phase q = s.phase q) (q : proc) : ¬ Holds s' q := by
  intro hq
  by_cases hqp : q = p
  · rw [hqp] at hq
    exact not_holds_of_locking hself hq
  · rw [Holds, hphase q hqp] at hq
    exact h (hinv.ready_of_holds hq)

theorem svLockInv_init (h : (locksvsem fresh proc).Starts s) : SvLockInv s := by
  rcases h with ⟨⟨hkey, hnext, hown⟩, houtside⟩
  have hflag : forall p, (s.own p).initflag = true -> False := by
    intro p hp
    rw [(hown p).left] at hp
    cases hp
  have hholds : forall p, ¬ Holds s p := by
    intro p hp
    simp [Holds, houtside p] at hp
  constructor
  case next_le => lia
  case key => simp [hkey, hnext]
  case creator =>
    intro p hp
    rw [houtside p] at hp
    cases hp
  case one_creator =>
    intro p q hp _
    rw [houtside p] at hp
    cases hp
  case initialised =>
    intro p hp
    exact (hflag p hp).elim
  case starting =>
    intro p pc hp
    rw [houtside p] at hp
    cases hp
  case used =>
    intro hone _
    lia
  case holds =>
    intro p hp
    exact absurd hp (hholds p)
  case one_holds =>
    intro p q hp _
    exact absurd hp (hholds p)
  case value =>
    intro hready
    have hone := hready.created
    lia

structure StepBy (p : proc) (s s' : SvLockState fresh proc) : Prop where
  phase : forall q, q ≠ p -> s'.phase q = s.phase q
  own : forall q, q ≠ p -> s'.own q = s.own q
  before : s.phase p ≠ LockPhase.locking LockPc.setval
  after : s'.phase p ≠ LockPhase.locking LockPc.setval
  next : s'.shared.next = s.shared.next
  key : s'.shared.key = s.shared.key

theorem StepBy.setval_iff (h : StepBy p s s') (q : proc) :
    s'.phase q = LockPhase.locking LockPc.setval <->
      s.phase q = LockPhase.locking LockPc.setval := by
  by_cases hq : q = p
  · rw [hq]
    exact iff_of_false h.after h.before
  · rw [h.phase q hq]

theorem StepBy.isReady_iff (h : StepBy p s s') : IsReady s' <-> IsReady s := by
  constructor
  · rintro ⟨hcreated, hvalued⟩
    exact ⟨h.next ▸ hcreated, fun q hq => hvalued q ((h.setval_iff q).mpr hq)⟩
  · rintro ⟨hcreated, hvalued⟩
    exact ⟨h.next.trans hcreated, fun q hq => hvalued q ((h.setval_iff q).mp hq)⟩

theorem SvLockInv.of_step (hinv : SvLockInv s) (h : StepBy p s s')
    (hinit : (s'.own p).initflag = true -> IsInitialised (s'.own p) ∧ IsReady s)
    (hstarting : forall pc, s'.phase p = LockPhase.locking pc ->
      ((s'.own p).initflag = true <-> pc = LockPc.semop))
    (hused : (s'.shared.sets 0).otime = true -> (s.shared.sets 0).otime = true ∨ IsReady s)
    (hholds : forall q, Holds s' q ->
      (s'.own q).initflag = true ∧ (s'.shared.sets 0).semval = 0)
    (hone : forall q r, Holds s' q -> Holds s' r -> q = r)
    (hvalue : IsReady s -> (s'.shared.sets 0).semval ≤ 1) : SvLockInv s' := by
  constructor
  case next_le => exact h.next ▸ hinv.next_le
  case key => rw [h.key, h.next, hinv.key]
  case creator =>
    intro q hq
    have hprior := (h.setval_iff q).mp hq
    have hqp : q ≠ p := by
      rintro rfl
      exact h.before hprior
    rw [h.next, h.own q hqp]
    exact hinv.creator q hprior
  case one_creator =>
    intro q r hq hr
    exact hinv.one_creator q r ((h.setval_iff q).mp hq) ((h.setval_iff r).mp hr)
  case initialised =>
    intro q hq
    rw [h.isReady_iff]
    by_cases hqp : q = p
    · subst hqp
      exact hinit hq
    · rw [h.own q hqp] at hq ⊢
      exact hinv.initialised q hq
  case starting =>
    intro q pc hq
    by_cases hqp : q = p
    · subst hqp
      exact hstarting pc hq
    · rw [h.phase q hqp] at hq
      rw [h.own q hqp]
      exact hinv.starting q pc hq
  case used =>
    intro hcreated hotime
    rw [h.isReady_iff]
    rcases hused hotime with hprior | hdone
    · exact hinv.used (h.next ▸ hcreated) hprior
    · exact hdone
  case holds => exact hholds
  case one_holds => exact hone
  case value =>
    intro hready
    exact hvalue (h.isReady_iff.mp hready)

/-- Only a step on the kernel lets a process come to hold the unit. -/
theorem SvLockInv.same_kernel (hinv : SvLockInv s) (h : StepBy p s s')
    (hshared : s'.shared = s.shared)
    (hinit : (s'.own p).initflag = true -> IsInitialised (s'.own p) ∧ IsReady s)
    (hstarting : forall pc, s'.phase p = LockPhase.locking pc ->
      ((s'.own p).initflag = true <-> pc = LockPc.semop))
    (hheld : Holds s' p -> Holds s p ∧ s'.own p = s.own p) : SvLockInv s' := by
  have hprior : forall q, Holds s' q -> Holds s q ∧ s'.own q = s.own q := by
    intro q hq
    by_cases hqp : q = p
    · subst hqp
      exact hheld hq
    · refine ⟨?_, h.own q hqp⟩
      rw [Holds, h.phase q hqp] at hq
      exact hq
  refine hinv.of_step h hinit hstarting ?_ ?_ ?_ ?_
  · intro hotime
    rw [hshared] at hotime
    exact Or.inl hotime
  · intro q hq
    rcases hprior q hq with ⟨hold, hsame⟩
    rw [hsame, hshared]
    exact hinv.holds q hold
  · intro q r hq hr
    exact hinv.one_holds q r (hprior q hq).left (hprior r hr).left
  · intro hready
    rw [hshared]
    exact hinv.value hready

/-!
# Steps
-/

section Steps

variable [DecidableEq proc]

theorem SvLockInv.locks (hinv : SvLockInv s) (h : s.phase p = LockPhase.outside) :
    SvLockInv (move s p (LockPhase.locking (myLockStart (s.own p)))) := by
  have hstart : myLockStart (s.own p) ≠ LockPc.setval := by
    unfold myLockStart
    split <;> simp
  have hby : StepBy p s (move s p (LockPhase.locking (myLockStart (s.own p)))) :=
    ⟨fun q hq => move_other hq, fun q _ => rfl, by simp [h], by simpa using hstart, rfl, rfl⟩
  refine hinv.same_kernel hby rfl (hinv.initialised p) ?_ ?_
  · intro pc hpc
    rw [move_self] at hpc
    injection hpc with hpc
    rw [move_own, <- hpc, myLockStart]
    cases (s.own p).initflag <;> simp
  · intro hheld
    exact absurd hheld (not_holds_of_locking move_self)

theorem SvLockInv.unlocks (hinv : SvLockInv s) (h : s.phase p = LockPhase.inside) :
    SvLockInv (move s p (LockPhase.unlocking ())) := by
  have hby : StepBy p s (move s p (LockPhase.unlocking ())) :=
    ⟨fun q hq => move_other hq, fun q _ => rfl, by simp [h], by simp, rfl, rfl⟩
  refine hinv.same_kernel hby rfl (hinv.initialised p) ?_ ?_
  · intro pc hpc
    rw [move_self] at hpc
    cases hpc
  · intro _
    exact ⟨Or.inl h, rfl⟩

theorem stepBy_advance {pc : Type}
    {goes : pc -> LockPhase LockPc Unit} {done : LockPhase LockPc Unit}
    {r : Kernel × Globals × Option pc} (hnext : r.1.next = s.shared.next)
    (hkey : r.1.key = s.shared.key)
    (hbefore : s.phase p ≠ LockPhase.locking LockPc.setval)
    (hafter : r.2.2.elim done goes ≠ LockPhase.locking LockPc.setval) :
    StepBy p s (advance s p goes done r) := by
  constructor
  · exact fun q hq => advance_other hq
  · exact fun q hq => advance_own_other hq
  · exact hbefore
  · rw [advance_self]
    exact hafter
  · exact hnext
  · exact hkey

section Locking

variable {pc pc' : LockPc} {x : Globals} {k : Kernel} {r : SysResult}
variable {fault : Option Errno} {junk : Bool}

theorem SvLockInv.waits (hinv : SvLockInv s) (h : s.phase p = LockPhase.locking pc)
    (hpc : pc ≠ LockPc.setval) (hflag : x.initflag = false) (hpc' : pc' ≠ LockPc.setval)
    (hop : pc' ≠ LockPc.semop) :
    SvLockInv (advance s p LockPhase.locking LockPhase.inside (s.shared, x, some pc')) := by
  refine hinv.same_kernel (stepBy_advance rfl rfl (by simp [h, hpc]) (by simp [hpc'])) rfl
    ?_ ?_ ?_
  · intro hinit
    rw [advance_own_self, hflag] at hinit
    cases hinit
  · intro pc hpc
    rw [advance_self] at hpc
    injection hpc with hpc
    rw [advance_own_self, hflag, <- hpc]
    simp [hop]
  · intro hheld
    exact absurd hheld (not_holds_of_locking advance_self)

theorem SvLockInv.creates (hinv : SvLockInv s)
    (h : s.phase p = LockPhase.locking LockPc.semgetNew) (hkey : s.shared.key = none) :
    SvLockInv (advance s p LockPhase.locking LockPhase.inside
      (s.shared.created fresh, { s.own p with semid := some s.shared.next },
        some LockPc.setval)) := by
  have hnone : s.shared.next = 0 := by
    by_contra hne
    rw [hinv.key, if_neg hne] at hkey
    cases hkey
  have hunready : ¬ IsReady s := by
    intro hready
    have hone := hready.created
    lia
  have hflag := hinv.unset hunready
  have hsetval : forall q, s.phase q ≠ LockPhase.locking LockPc.setval := by
    intro q hq
    have hone := (hinv.creator q hq).left
    lia
  generalize hs' : advance s p LockPhase.locking LockPhase.inside
    (s.shared.created fresh, { s.own p with semid := some s.shared.next },
      some LockPc.setval) = s'
  have hself : s'.phase p = LockPhase.locking LockPc.setval := by simp [<- hs']
  have hphase : forall q, q ≠ p -> s'.phase q = s.phase q := by
    intro q hq
    rw [<- hs', advance_other hq]
  have hnext : s'.shared.next = 1 := by simp [<- hs', Kernel.created, hnone]
  have hflag' : forall q, (s'.own q).initflag = false := by
    intro q
    by_cases hq : q = p
    · subst hq
      simp [<- hs', hflag q]
    · rw [<- hs', advance_own_other hq]
      exact hflag q
  have honly : forall q, s'.phase q = LockPhase.locking LockPc.setval -> q = p := by
    intro q hq
    by_contra hne
    rw [hphase q hne] at hq
    exact hsetval q hq
  have hunready' : ¬ IsReady s' := fun hready => hready.valued p hself
  have hholds := hinv.nobody_holds hunready hself hphase
  constructor
  case next_le => exact Nat.le_of_eq hnext
  case key => simp [<- hs', Kernel.created, hnone]
  case creator =>
    intro q hq
    rw [honly q hq]
    exact ⟨hnext, by simp [<- hs', hnone]⟩
  case one_creator =>
    intro q r hq hr
    rw [honly q hq, honly r hr]
  case initialised =>
    intro q hq
    rw [hflag' q] at hq
    cases hq
  case starting =>
    intro q pc hq
    rw [hflag' q]
    refine iff_of_false (by simp) ?_
    rintro rfl
    by_cases hqp : q = p
    · rw [hqp, hself] at hq
      cases hq
    · rw [hphase q hqp] at hq
      have hset := (hinv.starting q LockPc.semop hq).mpr rfl
      rw [hflag q] at hset
      cases hset
  case used =>
    intro _ hotime
    simp [<- hs', Kernel.created, hnone] at hotime
  case holds =>
    intro q hq
    exact absurd hq (hholds q)
  case one_holds =>
    intro q r hq _
    exact absurd hq (hholds q)
  case value =>
    intro hready
    exact absurd hready hunready'

theorem SvLockInv.sets_value (hinv : SvLockInv s)
    (h : s.phase p = LockPhase.locking LockPc.setval) :
    SvLockInv (advance s p LockPhase.locking LockPhase.inside
      (s.shared.update 0 { s.shared.sets 0 with semval := 1 }, (s.own p).init,
        some LockPc.semop)) := by
  rcases hinv.creator p h with ⟨hcreated, hsemid⟩
  have hunready : ¬ IsReady s := fun hready => hready.valued p h
  have hflag := hinv.unset hunready
  generalize hs' : advance s p LockPhase.locking LockPhase.inside
    (s.shared.update 0 { s.shared.sets 0 with semval := 1 }, (s.own p).init,
      some LockPc.semop) = s'
  have hself : s'.phase p = LockPhase.locking LockPc.semop := by simp [<- hs']
  have hphase : forall q, q ≠ p -> s'.phase q = s.phase q := by
    intro q hq
    rw [<- hs', advance_other hq]
  have hown : forall q, q ≠ p -> s'.own q = s.own q := by
    intro q hq
    rw [<- hs', advance_own_other hq]
  have hown' : s'.own p = (s.own p).init := by simp [<- hs']
  have hnext : s'.shared.next = s.shared.next := by simp [<- hs', Kernel.update]
  have hnobody : forall q, s'.phase q ≠ LockPhase.locking LockPc.setval := by
    intro q hq
    by_cases hqp : q = p
    · rw [hqp, hself] at hq
      cases hq
    · rw [hphase q hqp] at hq
      exact hqp (hinv.one_creator q p hq h)
  have hready : IsReady s' := ⟨hnext.trans hcreated, hnobody⟩
  have hholds := hinv.nobody_holds hunready hself hphase
  constructor
  case next_le => exact hnext ▸ hinv.next_le
  case key =>
    rw [hnext, <- hinv.key, <- hs']
    rfl
  case creator =>
    intro q hq
    exact absurd hq (hnobody q)
  case one_creator =>
    intro q r hq _
    exact absurd hq (hnobody q)
  case initialised =>
    intro q hq
    refine ⟨?_, hready⟩
    by_cases hqp : q = p
    · rw [hqp, hown']
      exact ⟨hsemid, rfl, rfl⟩
    · rw [hown q hqp, hflag q] at hq
      cases hq
  case starting =>
    intro q pc hq
    by_cases hqp : q = p
    · rw [hqp, hself] at hq
      injection hq with hq
      rw [hqp, hown']
      exact iff_of_true rfl hq.symm
    · rw [hphase q hqp] at hq
      rw [hown q hqp]
      exact hinv.starting q pc hq
  case used =>
    intro _ _
    exact hready
  case holds =>
    intro q hq
    exact absurd hq (hholds q)
  case one_holds =>
    intro q r hq _
    exact absurd hq (hholds q)
  case value =>
    intro _
    simp [<- hs', Kernel.update]

theorem SvLockInv.finds_ready (hinv : SvLockInv s) (h : s.phase p = LockPhase.locking pc)
    (hpc : pc ≠ LockPc.setval) (hready : IsReady s) (hsemid : (s.own p).semid = some 0) :
    SvLockInv (advance s p LockPhase.locking LockPhase.inside
      (s.shared, (s.own p).init, some LockPc.semop)) := by
  refine hinv.same_kernel (stepBy_advance rfl rfl (by simp [h, hpc]) (by simp)) rfl ?_ ?_ ?_
  · intro _
    rw [advance_own_self]
    exact ⟨⟨hsemid, rfl, rfl⟩, hready⟩
  · intro pc hpc
    rw [advance_self] at hpc
    injection hpc with hpc
    rw [advance_own_self]
    exact iff_of_true rfl hpc.symm
  · intro hheld
    exact absurd hheld (not_holds_of_locking advance_self)

theorem SvLockInv.enters {y : SemSet} (hinv : SvLockInv s)
    (h : s.phase p = LockPhase.locking LockPc.semop)
    (hval : (y.semval : Int) = (s.shared.sets 0).semval + -1) :
    SvLockInv (advance s p LockPhase.locking LockPhase.inside
      (s.shared.update 0 y, s.own p, none)) := by
  have hflag := (hinv.starting p LockPc.semop h).mpr rfl
  rcases hinv.initialised p hflag with ⟨hinit, hready⟩
  have hle := hinv.value hready
  have hnobody : forall q, ¬ Holds s q := by
    intro q hq
    have hzero := (hinv.holds q hq).right
    lia
  have honly : forall q, Holds (advance s p LockPhase.locking LockPhase.inside
      (s.shared.update 0 y, s.own p, none)) q -> q = p := by
    intro q hq
    by_contra hqp
    rw [Holds, advance_other hqp] at hq
    exact hnobody q hq
  refine hinv.of_step (stepBy_advance rfl rfl (by simp [h]) (by simp)) ?_ ?_ ?_ ?_ ?_ ?_
  · intro _
    rw [advance_own_self]
    exact ⟨hinit, hready⟩
  · intro pc hpc
    rw [advance_self] at hpc
    cases hpc
  · intro _
    exact Or.inr hready
  · intro q hq
    rw [honly q hq, advance_own_self]
    refine ⟨hflag, ?_⟩
    simp only [advance_shared, Kernel.update, Function.update_self]
    lia
  · intro q r hq hr
    rw [honly q hq, honly r hr]
  · intro _
    simp only [advance_shared, Kernel.update, Function.update_self]
    lia

theorem SvLockInv.leaves {y : SemSet} (hinv : SvLockInv s)
    (h : s.phase p = LockPhase.unlocking ())
    (hval : (y.semval : Int) = (s.shared.sets 0).semval + 1) :
    SvLockInv (advance s p LockPhase.unlocking LockPhase.outside
      (s.shared.update 0 y, s.own p, none)) := by
  have hheld : Holds s p := Or.inr h
  rcases hinv.holds p hheld with ⟨hflag, hzero⟩
  rcases hinv.initialised p hflag with ⟨hinit, hready⟩
  have hnobody : forall q, ¬ Holds (advance s p LockPhase.unlocking LockPhase.outside
      (s.shared.update 0 y, s.own p, none)) q := by
    intro q hq
    by_cases hqp : q = p
    · simp [hqp, Holds] at hq
    · rw [Holds, advance_other hqp] at hq
      exact hqp (hinv.one_holds q p hq hheld)
  refine hinv.of_step (stepBy_advance rfl rfl (by simp [h]) (by simp)) ?_ ?_ ?_ ?_ ?_ ?_
  · intro _
    rw [advance_own_self]
    exact ⟨hinit, hready⟩
  · intro pc hpc
    rw [advance_self] at hpc
    cases hpc
  · intro _
    exact Or.inr hready
  · intro q hq
    exact absurd hq (hnobody q)
  · intro q r hq _
    exact absurd hq (hnobody q)
  · intro _
    simp only [advance_shared, Kernel.update, Function.update_self]
    lia

theorem SvLockInv.lockStep (hinv : SvLockInv s) (h : s.phase p = LockPhase.locking pc)
    (hexec : s.shared.exec fresh (myLockRequest (s.own p) pc) fault = some (k, r))
    (hguard : abandons pc r = false) :
    SvLockInv (advance s p LockPhase.locking LockPhase.inside
      (k, myLockNext (s.own p) pc r junk)) := by
  have hflag := hinv.starting p pc h
  cases pc with
  | semgetNew =>
      have hunset : (s.own p).initflag = false := by simpa using hflag
      rcases exec_semgetExcl hexec with ⟨hsame, e, hfailed⟩ | ⟨hid, hcreated⟩
      · subst hsame hfailed
        have he : e = Errno.EEXIST := by simpa [abandons] using hguard
        subst he
        exact hinv.waits h (by simp) hunset (by simp) (by simp)
      · subst hid hcreated
        exact hinv.creates h (key_of_exec_semgetExcl hexec)
  | setval =>
      have hsemid := (hinv.creator p h).right
      rcases exec_setval hexec with ⟨_, e, hfailed⟩ | ⟨n, hid, _, hok, hset⟩
      · rw [hfailed] at hguard
        cases hguard
      · rw [hsemid] at hid
        cases hid
        subst hset
        exact hinv.sets_value h
  | semgetOld =>
      have hunset : (s.own p).initflag = false := by simpa using hflag
      have hsame := exec_quiet rfl hexec
      subst hsame
      cases r with
      | id n => exact hinv.waits h (by simp) hunset (by simp) (by simp)
      | _ => exact hinv.waits h (by simp) hunset (by simp) (by simp)
  | stat i otime =>
      have hunset : (s.own p).initflag = false := by simpa using hflag
      rcases exec_stat hexec with ⟨hsame, hresult⟩
      subst hsame
      rcases hresult with ⟨e, hfailed⟩ | ⟨n, hsemid, hlt, hstatus⟩
      · subst hfailed
        have hotime : otime = false := hguard
        subst hotime
        exact hinv.waits h (by simp) hunset (by simp) (by simp)
      · subst hstatus
        have hle := hinv.next_le
        have hn : n = 0 := by lia
        subst hn
        cases hotime : (s.shared.sets 0).otime with
        | false => exact hinv.waits h (by simp) hunset (by simp) (by simp)
        | true =>
            have hready := hinv.used (by lia) hotime
            exact hinv.finds_ready h (by simp) hready hsemid
  | sleep i otime =>
      have hunset : (s.own p).initflag = false := by simpa using hflag
      have hsame := exec_quiet rfl hexec
      subst hsame
      have htries : i + 1 < MAX_TRIES := by simpa [abandons] using hguard
      simp only [myLockNext, if_pos htries]
      exact hinv.waits h (by simp) hunset (by simp) (by simp)
  | semop =>
      rcases hinv.initialised p (hflag.mpr rfl) with ⟨⟨hsemid, _, hwaitop⟩, _⟩
      rcases exec_semop hexec with ⟨_, e, hfailed⟩ | ⟨n, y, hid, _, _, hset, hval, _⟩
      · rw [hfailed] at hguard
        cases hguard
      · rw [hsemid] at hid
        cases hid
        subst hset
        rw [hwaitop] at hval
        exact hinv.enters h hval

theorem SvLockInv.unlockStep (hinv : SvLockInv s) (h : s.phase p = LockPhase.unlocking ())
    (hexec : s.shared.exec fresh (myUnlockRequest (s.own p)) fault = some (k, r)) :
    SvLockInv (advance s p LockPhase.unlocking LockPhase.outside (k, s.own p, none)) := by
  rcases hinv.initialised p (hinv.holds p (Or.inr h)).left with ⟨⟨hsemid, hpostop, _⟩, hready⟩
  rcases exec_semop hexec with ⟨hsame, _⟩ | ⟨n, y, hid, _, _, hset, hval, _⟩
  · -- the unit is lost
    subst hsame
    refine hinv.same_kernel (stepBy_advance rfl rfl (by simp [h]) (by simp)) rfl ?_ ?_ ?_
    · rw [advance_own_self]
      exact hinv.initialised p
    · intro pc hpc
      rw [advance_self] at hpc
      cases hpc
    · intro hheld
      simp [Holds] at hheld
  · rw [hsemid] at hid
    cases hid
    subst hset
    rw [hpostop] at hval
    exact hinv.leaves h hval

end Locking

theorem SvLockInv.step {a : SvLockAction fresh proc} {o : Unit} (hinv : SvLockInv s)
    (hguard : perseveres ⟨s, a, o, s'⟩ = true)
    (hstep : (locksvsem fresh proc).next s a = some (s', o)) : SvLockInv s' := by
  cases steps_of_next hstep with
  | locks outside => exact hinv.locks outside
  | unlocks inside => exact hinv.unlocks inside
  | locking phase step =>
      rename_i p pc c r
      rcases Option.map_eq_some_iff.mp step with ⟨⟨k, res⟩, hexec, heq⟩
      subst heq
      simp only [perseveres, phase, hexec, Option.all_some, Bool.not_eq_true'] at hguard
      exact hinv.lockStep phase hexec hguard
  | unlocking phase step =>
      rcases Option.map_eq_some_iff.mp step with ⟨⟨k, res⟩, hexec, heq⟩
      subst heq
      exact hinv.unlockStep phase hexec

/-- In a run in which no `my_lock` abandons its purpose at most one process is inside. -/
theorem one_inside_of_perseveres
    {tr : List (Transition (SvLockState fresh proc) (SvLockAction fresh proc) Unit)}
    (h : Run (locksvsem fresh proc).Starts (locksvsem fresh proc).next tr s)
    (hguard : forall e, e ∈ tr -> perseveres e = true) : AtMostOneInside s := by
  have hinv : SvLockInv s :=
    run_guarded_invariant (fun _ hstarts => svLockInv_init hstarts)
      (fun _ _ _ _ _ hinv hguard hstep => hinv.step hguard hstep) h hguard
  intro p q hp hq
  exact hinv.one_holds p q (Or.inl hp) (Or.inl hq)

end Steps

end Exclusion

/-!
# A slow creator
-/

def SvLockState.idle (n : Nat) : SvLockState (fun _ => 0) (Fin n) where
  shared :=
    { key := none, sets := fun _ => { semval := 0, otime := false, removed := true }, next := 0 }
  own := fun _ =>
    { semid := none, initflag := false, postop := { sem_op := 0 }, waitop := { sem_op := 0 } }
  phase := fun _ => LockPhase.outside

theorem starts_idle (n : Nat) : (locksvsem (fun _ => 0) (Fin n)).Starts (SvLockState.idle n) :=
  ⟨⟨rfl, rfl, fun _ => ⟨rfl, rfl, rfl⟩⟩, fun _ => rfl⟩

def steps {n : Nat} (p : Fin n) (m : Nat) : List (SvLockAction (fun _ => 0) (Fin n)) :=
  List.replicate m (LockAction.step p { fault := none, junk := false })

def faultless {n : Nat} : SvLockAction (fun _ => 0) (Fin n) -> Bool
  | LockAction.call _ => true
  | LockAction.step _ c => decide (c.fault = none)

/-- The creator is first, the other process polls until it has been inside. -/
theorem one_inside_of_perseveres_twoProcesses :
    exists tr s, Run (locksvsem (fun _ => 0) (Fin 2)).Starts
        (locksvsem (fun _ => 0) (Fin 2)).next tr s ∧
      s.phase 1 = LockPhase.inside ∧ forall p, s.phase p = LockPhase.inside -> p = 1 := by
  have hreplay : exists tr s, Run (locksvsem (fun _ => 0) (Fin 2)).Starts
      (locksvsem (fun _ => 0) (Fin 2)).next tr s ∧
        decide ((forall e, e ∈ tr -> perseveres e = true) ∧
          s.phase 1 = LockPhase.inside) = true :=
    run_of_replay
      ([LockAction.call 0] ++ steps 0 1 ++ [LockAction.call 1] ++ steps 1 4 ++ steps 0 2 ++
        [LockAction.call 0] ++ steps 1 1 ++ steps 0 1 ++ steps 1 1)
      (starts_idle 2) (by decide +kernel)
  rcases hreplay with ⟨tr, s, hrun, htest⟩
  rcases of_decide_eq_true htest with ⟨hguard, hinside⟩
  have hone := one_inside_of_perseveres hrun hguard
  exact ⟨tr, s, hrun, hinside, fun p hp => hone p 1 hp hinside⟩

/-- The creator is not yet at `semctl` when two others return after ten polls each. -/
theorem two_inside_slowCreator :
    exists tr s, Run (locksvsem (fun _ => 0) (Fin 3)).Starts
        (locksvsem (fun _ => 0) (Fin 3)).next tr s ∧
      (forall e, e ∈ tr -> faultless e.action = true) ∧
      s.phase 0 = LockPhase.locking LockPc.setval ∧ ¬ AtMostOneInside s := by
  have hreplay : exists tr s, Run (locksvsem (fun _ => 0) (Fin 3)).Starts
      (locksvsem (fun _ => 0) (Fin 3)).next tr s ∧
        decide ((forall e, e ∈ tr -> faultless e.action = true) ∧
          s.phase 0 = LockPhase.locking LockPc.setval ∧
          s.phase 1 = LockPhase.inside ∧ s.phase 2 = LockPhase.inside) = true :=
    run_of_replay
      ([LockAction.call 0] ++ steps 0 1 ++ [LockAction.call 1] ++ steps 1 22 ++
        [LockAction.call 2] ++ steps 2 22)
      (starts_idle 3) (by decide +kernel)
  rcases hreplay with ⟨tr, s, hrun, htest⟩
  rcases of_decide_eq_true htest with ⟨hfaultless, hcreator, hone, htwo⟩
  refine ⟨tr, s, hrun, hfaultless, hcreator, ?_⟩
  intro hexclusive
  exact absurd (hexclusive 1 2 hone htwo) (by decide)

end Locksvsem
end InterprocessComm
