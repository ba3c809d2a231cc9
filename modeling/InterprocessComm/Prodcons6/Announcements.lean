import InterprocessComm.Prodcons6.Operations

/-!
# Announcements

Announcements overtake one another, so an announcement stands for no item of its own.  What
holds is a count: the items that are stored are those that the consumer has taken, those that
are ready, and those that a producer has still to announce.
-/

namespace InterprocessComm
namespace Prodcons6

open Verification

/-!
# Where the threads are
-/

namespace ProducerPc

def insidePut : ProducerPc -> Nat
  | testPut => 1
  | store => 1
  | incrementPut => 1
  | incrementVal => 1
  | unlockPut => 1
  | finishUnlock => 1
  | _ => 0

def insideReady : ProducerPc -> Nat
  | testReady => 1
  | signal => 1
  | incrementReady => 1
  | unlockReady => 1
  | _ => 0

/-- The item that is stored and not announced yet. -/
def unannounced : ProducerPc -> Nat
  | incrementVal => 1
  | unlockPut => 1
  | lockReady => 1
  | testReady => 1
  | signal => 1
  | incrementReady => 1
  | _ => 0

def putting : ProducerPc -> Nat
  | incrementVal => 1
  | _ => 0

def uncounted : ProducerPc -> Nat
  | unlockReady => 1
  | count => 1
  | pc => pc.unannounced

def Ok (nitems : Nat) (sh : Shared) : ProducerPc -> Prop
  | store => sh.put.nput < nitems
  | incrementPut => sh.put.nput < nitems ∧ sh.buff sh.put.nput = sh.put.nput
  | finishUnlock => nitems ≤ sh.put.nput
  | returned => nitems ≤ sh.put.nput
  | _ => True

theorem putting_le_insidePut (pc : ProducerPc) : pc.putting ≤ pc.insidePut := by
  cases pc <;> decide

variable {nitems : Nat} {sh sh' : Shared} {pc : ProducerPc}

theorem Ok.congr (hok : pc.Ok nitems sh) (hnput : sh'.put.nput = sh.put.nput)
    (hbuff : sh'.buff = sh.buff) : pc.Ok nitems sh' := by
  unfold Ok at hok ⊢
  simp only [hnput, hbuff]
  exact hok

theorem Ok.outside (hok : pc.Ok nitems sh) (hout : pc.insidePut = 0)
    (hle : sh.put.nput ≤ sh'.put.nput) : pc.Ok nitems sh' := by
  cases pc with
  | store => cases hout
  | incrementPut => cases hout
  | finishUnlock => cases hout
  | returned => exact Nat.le_trans hok hle
  | _ => trivial

end ProducerPc

namespace Consumer

def insideReady (t : Consumer) : Nat :=
  match t.pc with
  | ConsumerPc.testReady => 1
  | ConsumerPc.decrement => 1
  | ConsumerPc.unlock => 1
  | _ => 0

def taken (t : Consumer) : Nat :=
  match t.pc with
  | ConsumerPc.unlock => t.i + 1
  | ConsumerPc.check => t.i + 1
  | ConsumerPc.increment => t.i + 1
  | _ => t.i

def Ok (nitems nready : Nat) (t : Consumer) : Prop :=
  match t.pc with
  | ConsumerPc.test => True
  | ConsumerPc.decrement => t.i < nitems ∧ 0 < nready
  | ConsumerPc.returned => nitems ≤ t.i
  | _ => t.i < nitems

variable {nitems nready nready' : Nat} {t : Consumer}

theorem Ok.mono (hok : t.Ok nitems nready) (hle : nready ≤ nready') : t.Ok nitems nready' := by
  rcases t with ⟨pc, i⟩
  cases pc with
  | decrement => exact ⟨hok.1, Nat.lt_of_lt_of_le hok.2 hle⟩
  | _ => exact hok

theorem passed_le (hok : t.Ok nitems nready) : t.passed ≤ t.taken + nready := by
  rcases t with ⟨pc, i⟩
  cases pc with
  | decrement => exact Nat.add_le_add_left hok.2 i
  | _ => exact Nat.le_add_right _ _

end Consumer

theorem lock_eq {m m' : Bool} (h : lock m = some m') : m = false ∧ m' = true := by
  unfold lock at h
  split at h
  · cases h
  · rename_i hfree
    cases h
    exact ⟨Bool.eq_false_iff.mpr hfree, rfl⟩

theorem lock_eq_none {m : Bool} (h : lock m = none) : m = true := by
  unfold lock at h
  split at h
  · rename_i hlocked
    exact hlocked
  · cases h

theorem Cond.signal_ne_asleep (c : Cond) : c.signal ≠ Cond.asleep := by
  cases c <;> decide

theorem locked_of_inside {m : Bool} {n : Nat} (h : n ≤ m.toNat) (hn : n = 1) : m = true := by
  cases m with
  | false =>
      rw [hn] at h
      exact absurd h (by decide)
  | true => rfl

/-!
# The kinds of steps
-/

structure ProducerBalance (sh : Shared) (t : Producer) (sh' : Shared) (t' : Producer) :
    Prop where
  put : sh'.put.mutex.toNat + t.pc.insidePut = sh.put.mutex.toNat + t'.pc.insidePut
  ready : sh'.nready.mutex.toNat + t.pc.insideReady =
    sh.nready.mutex.toNat + t'.pc.insideReady
  announced : sh'.nready.nready + t'.pc.unannounced + sh.put.nput =
    sh.nready.nready + t.pc.unannounced + sh'.put.nput
  nval : sh'.put.nval + t'.pc.putting + sh.put.nput =
    sh.put.nval + t.pc.putting + sh'.put.nput
  count : t'.arg + t'.pc.uncounted + sh.put.nput = t.arg + t.pc.uncounted + sh'.put.nput

theorem producerStep_balance {nitems : Nat} {sh sh' : Shared} {t t' : Producer}
    (hput : t.pc.insidePut ≤ sh.put.mutex.toNat)
    (hready : t.pc.insideReady ≤ sh.nready.mutex.toNat)
    (h : producerStep nitems sh t = some (sh', t')) : ProducerBalance sh t sh' t' := by
  rcases t with ⟨pc, arg⟩
  cases pc with
  | lockPut =>
      rcases Option.map_eq_some_iff.mp h with ⟨m, hlock, heq⟩
      cases heq
      rcases lock_eq hlock with ⟨hfree, rfl⟩
      exact ⟨by rw [hfree]; rfl, rfl, rfl, rfl, rfl⟩
  | testPut =>
      simp only [producerStep] at h
      split at h <;> cases h <;> constructor <;> rfl
  | store =>
      simp only [producerStep] at h
      split at h
      · cases h
        constructor <;> rfl
      · cases h
  | incrementPut =>
      cases h
      refine ⟨rfl, rfl, ?_, ?_, ?_⟩
      · simp only [ProducerPc.unannounced]
        lia
      · simp only [ProducerPc.putting]
        lia
      · simp only [ProducerPc.uncounted, ProducerPc.unannounced]
        lia
  | incrementVal =>
      cases h
      constructor <;> rfl
  | unlockPut =>
      cases h
      exact ⟨by rw [locked_of_inside hput rfl]; rfl, rfl, rfl, rfl, rfl⟩
  | lockReady =>
      rcases Option.map_eq_some_iff.mp h with ⟨m, hlock, heq⟩
      cases heq
      rcases lock_eq hlock with ⟨hfree, rfl⟩
      exact ⟨rfl, by rw [hfree]; rfl, rfl, rfl, rfl⟩
  | testReady =>
      simp only [producerStep] at h
      split at h <;> cases h <;> constructor <;> rfl
  | unlockReady =>
      cases h
      exact ⟨rfl, by rw [locked_of_inside hready rfl]; rfl, rfl, rfl, rfl⟩
  | finishUnlock =>
      cases h
      exact ⟨by rw [locked_of_inside hput rfl]; rfl, rfl, rfl, rfl, rfl⟩
  | returned => cases h
  | _ =>
      cases h
      constructor <;> rfl

theorem producerStep_put {nitems : Nat} {sh sh' : Shared} {t t' : Producer}
    (h : producerStep nitems sh t = some (sh', t')) (hok : t.pc.Ok nitems sh) :
    (t.pc = ProducerPc.store ∧ t'.pc = ProducerPc.incrementPut ∧
      sh'.buff = Function.update sh.buff sh.put.nput sh.put.nval ∧
      sh'.put.nput = sh.put.nput) ∨
    (t.pc = ProducerPc.incrementPut ∧ t'.pc = ProducerPc.incrementVal ∧
      sh'.buff = sh.buff ∧ sh'.put.nput = sh.put.nput + 1) ∨
    (sh'.buff = sh.buff ∧ sh'.put.nput = sh.put.nput ∧ t'.pc.Ok nitems sh') := by
  rcases t with ⟨pc, arg⟩
  cases pc with
  | lockPut =>
      rcases Option.map_eq_some_iff.mp h with ⟨m, _, heq⟩
      cases heq
      exact Or.inr (Or.inr ⟨rfl, rfl, trivial⟩)
  | testPut =>
      simp only [producerStep] at h
      split at h
      · rename_i hge
        cases h
        exact Or.inr (Or.inr ⟨rfl, rfl, hge⟩)
      · rename_i hlt
        cases h
        exact Or.inr (Or.inr ⟨rfl, rfl, Nat.lt_of_not_ge hlt⟩)
  | store =>
      simp only [producerStep] at h
      split at h
      · cases h
        exact Or.inl ⟨rfl, rfl, rfl, rfl⟩
      · cases h
  | incrementPut =>
      cases h
      exact Or.inr (Or.inl ⟨rfl, rfl, rfl, rfl⟩)
  | lockReady =>
      rcases Option.map_eq_some_iff.mp h with ⟨m, _, heq⟩
      cases heq
      exact Or.inr (Or.inr ⟨rfl, rfl, trivial⟩)
  | testReady =>
      simp only [producerStep] at h
      split at h <;> cases h <;> exact Or.inr (Or.inr ⟨rfl, rfl, trivial⟩)
  | finishUnlock =>
      cases h
      exact Or.inr (Or.inr ⟨rfl, rfl, hok⟩)
  | returned => cases h
  | _ =>
      cases h
      exact Or.inr (Or.inr ⟨rfl, rfl, trivial⟩)

/-- A consumer that sleeps has nothing ready. -/
def NReady.Quiet (r : NReady) : Prop :=
  r.cond = Cond.asleep -> r.nready = 0

/-- Inside its second critical section a producer signals, announces, or changes neither the
condition nor `nready`; before it announces it has made sure that the consumer does not sleep. -/
theorem producerStep_ready {nitems : Nat} {sh sh' : Shared} {t t' : Producer}
    (h : producerStep nitems sh t = some (sh', t')) (hquiet : sh.nready.Quiet) :
    (t.pc = ProducerPc.signal ∧ sh'.nready.cond = sh.nready.cond.signal ∧
      sh'.nready.nready = sh.nready.nready) ∨
    (t.pc = ProducerPc.incrementReady ∧ t'.pc = ProducerPc.unlockReady ∧
      sh'.nready.cond = sh.nready.cond ∧ sh'.nready.nready = sh.nready.nready + 1) ∨
    (sh'.nready.cond = sh.nready.cond ∧ sh'.nready.nready = sh.nready.nready ∧
      (t'.pc = ProducerPc.incrementReady -> sh.nready.cond ≠ Cond.asleep)) := by
  rcases t with ⟨pc, arg⟩
  cases pc with
  | lockPut =>
      rcases Option.map_eq_some_iff.mp h with ⟨m, _, heq⟩
      cases heq
      exact Or.inr (Or.inr ⟨rfl, rfl, ProducerPc.noConfusion⟩)
  | testPut =>
      simp only [producerStep] at h
      split at h <;> cases h <;> exact Or.inr (Or.inr ⟨rfl, rfl, ProducerPc.noConfusion⟩)
  | store =>
      simp only [producerStep] at h
      split at h
      · cases h
        exact Or.inr (Or.inr ⟨rfl, rfl, ProducerPc.noConfusion⟩)
      · cases h
  | lockReady =>
      rcases Option.map_eq_some_iff.mp h with ⟨m, _, heq⟩
      cases heq
      exact Or.inr (Or.inr ⟨rfl, rfl, ProducerPc.noConfusion⟩)
  | testReady =>
      simp only [producerStep] at h
      split at h
      · cases h
        exact Or.inr (Or.inr ⟨rfl, rfl, ProducerPc.noConfusion⟩)
      · rename_i hready
        cases h
        exact Or.inr (Or.inr ⟨rfl, rfl, fun _ hasleep => hready (hquiet hasleep)⟩)
  | signal =>
      cases h
      exact Or.inl ⟨rfl, rfl, rfl⟩
  | incrementReady =>
      cases h
      exact Or.inr (Or.inl ⟨rfl, rfl, rfl, rfl⟩)
  | returned => cases h
  | _ =>
      cases h
      exact Or.inr (Or.inr ⟨rfl, rfl, ProducerPc.noConfusion⟩)

structure ConsumerBalance (sh : Shared) (t : Consumer) (sh' : Shared) (t' : Consumer) :
    Prop where
  ready : sh'.nready.mutex.toNat + t.insideReady = sh.nready.mutex.toNat + t'.insideReady
  announced : sh'.nready.nready + t'.taken = sh.nready.nready + t.taken
  put : sh'.put = sh.put
  buff : sh'.buff = sh.buff

theorem consumerStep_balance {nitems : Nat} {sh sh' : Shared} {t t' : Consumer}
    {e : CheckEvent} (hok : t.Ok nitems sh.nready.nready)
    (hready : t.insideReady ≤ sh.nready.mutex.toNat)
    (h : consumerStep nitems sh t = some (sh', t', e)) : ConsumerBalance sh t sh' t' := by
  rcases t with ⟨pc, i⟩
  cases pc with
  | test =>
      simp only [consumerStep] at h
      split at h <;> cases h <;> constructor <;> rfl
  | lock =>
      rcases Option.map_eq_some_iff.mp h with ⟨m, hlock, heq⟩
      cases heq
      rcases lock_eq hlock with ⟨hfree, rfl⟩
      exact ⟨by rw [hfree]; rfl, rfl, rfl, rfl⟩
  | testReady =>
      simp only [consumerStep] at h
      split at h
      · cases h
        exact ⟨by rw [locked_of_inside hready rfl]; rfl, rfl, rfl, rfl⟩
      · cases h
        constructor <;> rfl
  | wait =>
      simp only [consumerStep] at h
      split at h
      · rcases Option.map_eq_some_iff.mp h with ⟨m, hlock, heq⟩
        cases heq
        rcases lock_eq hlock with ⟨hfree, rfl⟩
        exact ⟨by rw [hfree]; rfl, rfl, rfl, rfl⟩
      · cases h
  | decrement =>
      cases h
      refine ⟨rfl, ?_, rfl, rfl⟩
      have hpos : 0 < sh.nready.nready := hok.2
      simp only [Consumer.taken]
      lia
  | unlock =>
      cases h
      exact ⟨by rw [locked_of_inside hready rfl]; rfl, rfl, rfl, rfl⟩
  | returned => cases h
  | _ =>
      cases h
      constructor <;> rfl

/-- The condition variable knows whether the consumer waits. -/
def Waiting (sh : Shared) (t : Consumer) : Prop :=
  t.pc = ConsumerPc.wait <-> sh.nready.cond ≠ Cond.idle

theorem consumerStep_cases {nitems : Nat} {sh sh' : Shared} {t t' : Consumer}
    {e : CheckEvent} (hok : t.Ok nitems sh.nready.nready) (hwaiting : Waiting sh t)
    (h : consumerStep nitems sh t = some (sh', t', e)) :
    t'.Ok nitems sh'.nready.nready ∧ Waiting sh' t' ∧
      (sh'.nready.cond = Cond.asleep -> t.insideReady = 1 ∧ sh'.nready.nready = 0) ∧
      ((t.i < t.passed -> sh.buff t.i = t.i) -> e = CheckEvent.silent) := by
  rcases t with ⟨pc, i⟩
  have hidle : pc ≠ ConsumerPc.wait -> sh.nready.cond = Cond.idle := fun hne =>
    by_contra fun hcond => hne (hwaiting.mpr hcond)
  cases pc with
  | test =>
      have hcond := hidle (by decide)
      simp only [consumerStep] at h
      split at h
      · rename_i hlt
        cases h
        exact ⟨hlt, by simp [Waiting, hcond], by simp [hcond], fun _ => rfl⟩
      · rename_i hge
        cases h
        exact ⟨Nat.le_of_not_lt hge, by simp [Waiting, hcond], by simp [hcond], fun _ => rfl⟩
  | lock =>
      have hcond := hidle (by decide)
      rcases Option.map_eq_some_iff.mp h with ⟨m, _, heq⟩
      cases heq
      exact ⟨hok, by simp [Waiting, hcond], by simp [hcond], fun _ => rfl⟩
  | testReady =>
      have hcond := hidle (by decide)
      simp only [consumerStep] at h
      split at h
      · rename_i hzero
        cases h
        exact ⟨hok, by simp [Waiting], fun _ => ⟨rfl, hzero⟩, fun _ => rfl⟩
      · rename_i hready
        cases h
        exact ⟨⟨hok, Nat.pos_of_ne_zero hready⟩, by simp [Waiting, hcond], by simp [hcond],
          fun _ => rfl⟩
  | wait =>
      simp only [consumerStep] at h
      split at h
      · rcases Option.map_eq_some_iff.mp h with ⟨m, _, heq⟩
        cases heq
        exact ⟨hok, by simp [Waiting], Cond.noConfusion, fun _ => rfl⟩
      · cases h
  | decrement =>
      have hcond := hidle (by decide)
      cases h
      exact ⟨hok.1, by simp [Waiting, hcond], by simp [hcond], fun _ => rfl⟩
  | unlock =>
      have hcond := hidle (by decide)
      cases h
      exact ⟨hok, by simp [Waiting, hcond], by simp [hcond], fun _ => rfl⟩
  | check =>
      have hcond := hidle (by decide)
      cases h
      refine ⟨hok, by simp [Waiting, hcond], by simp [hcond], ?_⟩
      intro hfound
      exact if_neg (not_not.mpr (hfound (Nat.lt_succ_self i)))
  | increment =>
      have hcond := hidle (by decide)
      cases h
      exact ⟨trivial, by simp [Waiting, hcond], by simp [hcond], fun _ => rfl⟩
  | returned => cases h

end Prodcons6
end InterprocessComm
