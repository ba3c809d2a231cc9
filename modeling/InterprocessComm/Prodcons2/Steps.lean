import InterprocessComm.Prodcons2.Operations

/-!
# What the threads do in a step
-/

namespace InterprocessComm
namespace Prodcons2

open Verification

/-!
# Producers
-/

section Producers

variable {nitems : Int} {sh sh' : Shared} {t t' : Producer}

inductive ProducerStepped (nitems : Int) (sh : Shared) (t : Producer) :
    Shared -> Producer -> Prop where
  | lock (hpc : t.pc = ProducerPc.lock) (hfree : sh.mutex = false) :
      ProducerStepped nitems sh t { sh with mutex := true } { t with pc := ProducerPc.test }
  | full (hpc : t.pc = ProducerPc.test) (hfull : nitems ≤ sh.nput) :
      ProducerStepped nitems sh t sh { t with pc := ProducerPc.finishUnlock }
  | room (hpc : t.pc = ProducerPc.test) (hroom : (sh.nput : Int) < nitems) :
      ProducerStepped nitems sh t sh { t with pc := ProducerPc.store }
  | store (hpc : t.pc = ProducerPc.store) :
      ProducerStepped nitems sh t
        { sh with buff := Function.update sh.buff sh.nput sh.nval }
        { t with pc := ProducerPc.incrementPut }
  | incrementPut (hpc : t.pc = ProducerPc.incrementPut) :
      ProducerStepped nitems sh t { sh with nput := sh.nput + 1 }
        { t with pc := ProducerPc.incrementVal }
  | incrementVal (hpc : t.pc = ProducerPc.incrementVal) :
      ProducerStepped nitems sh t { sh with nval := sh.nval + 1 }
        { t with pc := ProducerPc.unlock }
  | unlock (hpc : t.pc = ProducerPc.unlock) :
      ProducerStepped nitems sh t { sh with mutex := false } { t with pc := ProducerPc.count }
  | count (hpc : t.pc = ProducerPc.count) :
      ProducerStepped nitems sh t sh { pc := ProducerPc.lock, arg := t.arg + 1 }
  | finish (hpc : t.pc = ProducerPc.finishUnlock) :
      ProducerStepped nitems sh t { sh with mutex := false }
        { t with pc := ProducerPc.returned }

theorem producerStepped (hstep : producerStep nitems sh t = some (sh', t')) :
    ProducerStepped nitems sh t sh' t' := by
  unfold producerStep at hstep
  split at hstep
  · cases hstep
  · rename_i hpc
    split at hstep
    · cases hstep
    · rename_i hfree
      cases hstep
      exact ProducerStepped.lock hpc (Bool.not_eq_true _ ▸ hfree)
  · rename_i hpc
    split at hstep
    · rename_i hfull
      cases hstep
      exact ProducerStepped.full hpc hfull
    · rename_i hroom
      cases hstep
      exact ProducerStepped.room hpc (Int.not_le.mp hroom)
  · rename_i hpc
    split at hstep
    · cases hstep
      exact ProducerStepped.store hpc
    · cases hstep
  · rename_i hpc
    cases hstep
    exact ProducerStepped.incrementPut hpc
  · rename_i hpc
    cases hstep
    exact ProducerStepped.incrementVal hpc
  · rename_i hpc
    cases hstep
    exact ProducerStepped.unlock hpc
  · rename_i hpc
    cases hstep
    exact ProducerStepped.count hpc
  · rename_i hpc
    cases hstep
    exact ProducerStepped.finish hpc
  · cases hstep

namespace ProducerPc

def inside : ProducerPc -> Nat
  | test => 1
  | store => 1
  | incrementPut => 1
  | incrementVal => 1
  | unlock => 1
  | finishUnlock => 1
  | _ => 0

/-- `nput` is one ahead of `nval`. -/
def putting : ProducerPc -> Nat
  | incrementVal => 1
  | _ => 0

/-- An item that is in the array and not in the count of its producer. -/
def uncounted : ProducerPc -> Nat
  | incrementVal => 1
  | unlock => 1
  | count => 1
  | _ => 0

theorem putting_le_inside (pc : ProducerPc) : pc.putting ≤ pc.inside := by
  cases pc <;> decide

def Ok (nitems : Int) (sh : Shared) : ProducerPc -> Prop
  | store => (sh.nput : Int) < nitems
  | incrementPut => (sh.nput : Int) < nitems ∧ sh.buff sh.nput = sh.nput
  | finishUnlock => nitems ≤ sh.nput
  | returned => nitems ≤ sh.nput
  | _ => True

theorem Ok.outside {pc : ProducerPc} (hok : pc.Ok nitems sh) (hout : pc.inside = 0)
    (hle : sh.nput ≤ sh'.nput) : pc.Ok nitems sh' := by
  cases pc with
  | store => cases hout
  | incrementPut => cases hout
  | finishUnlock => cases hout
  | returned =>
      have hfull : nitems ≤ sh.nput := hok
      show nitems ≤ sh'.nput
      lia
  | _ => trivial

end ProducerPc

structure ProducerBalance (sh : Shared) (t : Producer) (sh' : Shared) (t' : Producer) :
    Prop where
  mutex : t'.pc.inside + sh.mutex.toNat = t.pc.inside + sh'.mutex.toNat
  nval : sh'.nval + t'.pc.putting + sh.nput = sh.nval + t.pc.putting + sh'.nput
  count : t'.arg + t'.pc.uncounted + sh.nput = t.arg + t.pc.uncounted + sh'.nput

theorem locked_of_inside {m : Bool} (hinside : 1 ≤ m.toNat) : m = true := by
  cases m with
  | false => cases hinside
  | true => rfl

theorem ProducerStepped.balance (h : ProducerStepped nitems sh t sh' t')
    (hinside : t.pc.inside ≤ sh.mutex.toNat) : ProducerBalance sh t sh' t' := by
  rcases t with ⟨pc, arg⟩
  cases h with
  | lock hpc hfree =>
      cases hpc
      refine ⟨?_, rfl, rfl⟩
      rw [hfree]
      rfl
  | full hpc _ =>
      cases hpc
      exact ⟨rfl, rfl, rfl⟩
  | room hpc _ =>
      cases hpc
      exact ⟨rfl, rfl, rfl⟩
  | store hpc =>
      cases hpc
      exact ⟨rfl, rfl, rfl⟩
  | incrementPut hpc =>
      cases hpc
      refine ⟨rfl, ?_, ?_⟩
      · show sh.nval + 1 + sh.nput = sh.nval + 0 + (sh.nput + 1)
        lia
      · show arg + 1 + sh.nput = arg + 0 + (sh.nput + 1)
        lia
  | incrementVal hpc =>
      cases hpc
      exact ⟨rfl, rfl, rfl⟩
  | unlock hpc =>
      cases hpc
      refine ⟨?_, rfl, rfl⟩
      rw [locked_of_inside hinside]
      rfl
  | count hpc =>
      cases hpc
      exact ⟨rfl, rfl, rfl⟩
  | finish hpc =>
      cases hpc
      refine ⟨?_, rfl, rfl⟩
      rw [locked_of_inside hinside]
      rfl

theorem ProducerStepped.created (h : ProducerStepped nitems sh t sh' t') :
    t.pc ≠ ProducerPc.uncreated ∧ t.pc ≠ ProducerPc.returned ∧
      t'.pc ≠ ProducerPc.uncreated := by
  cases h <;> simp_all

end Producers

/-!
# The consumer
-/

section Consumers

variable {prog : Program} {nitems : Int} {sh sh' : Shared} {t t' : Consumer} {o : Option Line}

inductive ConsumerStepped (prog : Program) (nitems : Int) (sh : Shared) (t : Consumer) :
    Shared -> Consumer -> Option Line -> Prop where
  | call (hpc : t.pc = ConsumerPc.test) (hmore : (t.i : Int) < nitems)
      (hwait : prog.consume_wait = true) :
      ConsumerStepped prog nitems sh t sh { t with pc := ConsumerPc.lock } none
  | direct (hpc : t.pc = ConsumerPc.test) (hmore : (t.i : Int) < nitems)
      (hwait : prog.consume_wait = false) :
      ConsumerStepped prog nitems sh t sh { t with pc := ConsumerPc.check } none
  | finish (hpc : t.pc = ConsumerPc.test) (hdone : nitems ≤ t.i) :
      ConsumerStepped prog nitems sh t sh { t with pc := ConsumerPc.returned } none
  | lock (hpc : t.pc = ConsumerPc.lock) (hfree : sh.mutex = false) :
      ConsumerStepped prog nitems sh t { sh with mutex := true }
        { t with pc := ConsumerPc.testPut } none
  | ready (hpc : t.pc = ConsumerPc.testPut) (hready : t.i < sh.nput) :
      ConsumerStepped prog nitems sh t sh { t with pc := ConsumerPc.unlockReady } none
  | retry (hpc : t.pc = ConsumerPc.testPut) (hmissing : sh.nput ≤ t.i) :
      ConsumerStepped prog nitems sh t sh { t with pc := ConsumerPc.unlockRetry } none
  | unlockReady (hpc : t.pc = ConsumerPc.unlockReady) :
      ConsumerStepped prog nitems sh t { sh with mutex := false }
        { t with pc := ConsumerPc.check } none
  | unlockRetry (hpc : t.pc = ConsumerPc.unlockRetry) :
      ConsumerStepped prog nitems sh t { sh with mutex := false }
        { t with pc := ConsumerPc.lock } none
  | check (hpc : t.pc = ConsumerPc.check) :
      ConsumerStepped prog nitems sh t sh { t with pc := ConsumerPc.increment }
        (if sh.buff t.i ≠ t.i then some (Line.differs t.i (sh.buff t.i)) else none)
  | increment (hpc : t.pc = ConsumerPc.increment) :
      ConsumerStepped prog nitems sh t sh { pc := ConsumerPc.test, i := t.i + 1 } none

theorem consumerStepped (hstep : consumerStep prog nitems sh t = some (sh', t', o)) :
    ConsumerStepped prog nitems sh t sh' t' o := by
  unfold consumerStep at hstep
  split at hstep
  · cases hstep
  · rename_i hpc
    split at hstep
    · rename_i hmore
      split at hstep
      · rename_i hwait
        cases hstep
        exact ConsumerStepped.call hpc hmore hwait
      · rename_i hwait
        cases hstep
        exact ConsumerStepped.direct hpc hmore (Bool.not_eq_true _ ▸ hwait)
    · rename_i hdone
      cases hstep
      exact ConsumerStepped.finish hpc (Int.not_lt.mp hdone)
  · rename_i hpc
    split at hstep
    · cases hstep
    · rename_i hfree
      cases hstep
      exact ConsumerStepped.lock hpc (Bool.not_eq_true _ ▸ hfree)
  · rename_i hpc
    split at hstep
    · rename_i hready
      cases hstep
      exact ConsumerStepped.ready hpc hready
    · rename_i hmissing
      cases hstep
      exact ConsumerStepped.retry hpc (Nat.not_lt.mp hmissing)
  · rename_i hpc
    cases hstep
    exact ConsumerStepped.unlockReady hpc
  · rename_i hpc
    cases hstep
    exact ConsumerStepped.unlockRetry hpc
  · rename_i hpc
    cases hstep
    exact ConsumerStepped.check hpc
  · rename_i hpc
    cases hstep
    exact ConsumerStepped.increment hpc
  · cases hstep

namespace Consumer

def inside (t : Consumer) : Nat :=
  match t.pc with
  | ConsumerPc.testPut => 1
  | ConsumerPc.unlockReady => 1
  | ConsumerPc.unlockRetry => 1
  | _ => 0

def checked (t : Consumer) : Nat :=
  match t.pc with
  | ConsumerPc.increment => t.i + 1
  | _ => t.i

def Ok (prog : Program) (nitems : Int) (nput : Nat) (t : Consumer) : Prop :=
  match t.pc with
  | ConsumerPc.uncreated => t.i = 0
  | ConsumerPc.test => t.i ≤ nitems.toNat
  | ConsumerPc.lock => (t.i : Int) < nitems ∧ prog.consume_wait = true
  | ConsumerPc.testPut => (t.i : Int) < nitems ∧ prog.consume_wait = true
  | ConsumerPc.unlockReady => (t.i : Int) < nitems ∧ t.i < nput
  | ConsumerPc.unlockRetry => (t.i : Int) < nitems ∧ prog.consume_wait = true
  | ConsumerPc.check => (t.i : Int) < nitems ∧ (prog.consume_wait = true -> t.i < nput)
  | ConsumerPc.increment => (t.i : Int) < nitems ∧ (prog.consume_wait = true -> t.i < nput)
  | ConsumerPc.returned => t.i = nitems.toNat

variable {nput nput' : Nat}

theorem Ok.mono (hok : t.Ok prog nitems nput) (hle : nput ≤ nput') : t.Ok prog nitems nput' := by
  rcases t with ⟨pc, i⟩
  cases pc with
  | unlockReady => exact ⟨hok.1, Nat.lt_of_lt_of_le hok.2 hle⟩
  | check => exact ⟨hok.1, fun hwait => Nat.lt_of_lt_of_le (hok.2 hwait) hle⟩
  | increment => exact ⟨hok.1, fun hwait => Nat.lt_of_lt_of_le (hok.2 hwait) hle⟩
  | _ => exact hok

end Consumer

theorem ConsumerStepped.inside (h : ConsumerStepped prog nitems sh t sh' t' o)
    (hinside : t.inside ≤ sh.mutex.toNat) :
    t'.inside + sh.mutex.toNat = t.inside + sh'.mutex.toNat := by
  rcases t with ⟨pc, i⟩
  cases h with
  | lock hpc hfree =>
      cases hpc
      rw [hfree]
      rfl
  | unlockReady hpc =>
      cases hpc
      rw [locked_of_inside hinside]
      rfl
  | unlockRetry hpc =>
      cases hpc
      rw [locked_of_inside hinside]
      rfl
  | call hpc _ _ =>
      cases hpc
      rfl
  | direct hpc _ _ =>
      cases hpc
      rfl
  | finish hpc _ =>
      cases hpc
      rfl
  | ready hpc _ =>
      cases hpc
      rfl
  | retry hpc _ =>
      cases hpc
      rfl
  | check hpc =>
      cases hpc
      rfl
  | increment hpc =>
      cases hpc
      rfl

theorem ConsumerStepped.same (h : ConsumerStepped prog nitems sh t sh' t' o) :
    sh'.buff = sh.buff ∧ sh'.nput = sh.nput ∧ sh'.nval = sh.nval := by
  cases h <;> exact ⟨rfl, rfl, rfl⟩

theorem ConsumerStepped.ok (h : ConsumerStepped prog nitems sh t sh' t' o)
    (hok : t.Ok prog nitems sh.nput) : t'.Ok prog nitems sh.nput := by
  rcases t with ⟨pc, i⟩
  cases h with
  | call hpc hmore hwait => exact ⟨hmore, hwait⟩
  | direct hpc hmore hwait =>
      refine ⟨hmore, ?_⟩
      intro htrue
      rw [hwait] at htrue
      cases htrue
  | finish hpc hdone =>
      cases hpc
      have hle : i ≤ nitems.toNat := hok
      show i = nitems.toNat
      simp only at hdone
      lia
  | lock hpc _ =>
      cases hpc
      exact hok
  | ready hpc hready =>
      cases hpc
      exact ⟨hok.1, hready⟩
  | retry hpc _ =>
      cases hpc
      exact hok
  | unlockReady hpc =>
      cases hpc
      exact ⟨hok.1, fun _ => hok.2⟩
  | unlockRetry hpc =>
      cases hpc
      exact hok
  | check hpc =>
      cases hpc
      exact hok
  | increment hpc =>
      cases hpc
      have hlt := hok.1
      show i + 1 ≤ nitems.toNat
      simp only at hlt
      lia

theorem ConsumerStepped.created (h : ConsumerStepped prog nitems sh t sh' t' o) :
    t.pc ≠ ConsumerPc.uncreated ∧ t.pc ≠ ConsumerPc.returned ∧
      t'.pc ≠ ConsumerPc.uncreated := by
  cases h <;> simp_all

end Consumers

/-!
# The main thread
-/

section Mains

variable {n : Nat} {prog : Program} {s s' : State n} {o : Option Line}

inductive MainStepped (prog : Program) (s : State n) : State n -> Option Line -> Prop where
  | create (hpc : s.main.pc = MainPc.create) (hmore : s.main.i < n) :
      MainStepped prog s
        { s with
          producers := Function.update s.producers ⟨s.main.i, hmore⟩ ⟨ProducerPc.lock, 0⟩,
          main := { s.main with i := s.main.i + 1 } } none
  | created (hpc : s.main.pc = MainPc.create) (hall : n ≤ s.main.i) :
      MainStepped prog s
        { s with main := ⟨if prog.early then MainPc.start else MainPc.join, 0⟩ } none
  | start (hpc : s.main.pc = MainPc.start) :
      MainStepped prog s
        { s with
          consumer := ⟨ConsumerPc.test, 0⟩,
          main := ⟨if prog.early then MainPc.join else MainPc.wait, 0⟩ } none
  | join (hpc : s.main.pc = MainPc.join) (hmore : s.main.i < n)
      (hreturned : (s.producers ⟨s.main.i, hmore⟩).pc = ProducerPc.returned) :
      MainStepped prog s { s with main := { s.main with pc := MainPc.print } } none
  | joined (hpc : s.main.pc = MainPc.join) (hall : n ≤ s.main.i) :
      MainStepped prog s
        { s with main := ⟨if prog.early then MainPc.wait else MainPc.start, 0⟩ } none
  | print (hpc : s.main.pc = MainPc.print) (hmore : s.main.i < n) :
      MainStepped prog s { s with main := ⟨MainPc.join, s.main.i + 1⟩ }
        (some (Line.count s.main.i (s.producers ⟨s.main.i, hmore⟩).arg))
  | wait (hpc : s.main.pc = MainPc.wait) (hreturned : s.consumer.pc = ConsumerPc.returned) :
      MainStepped prog s { s with main := { s.main with pc := MainPc.exited } } none

theorem mainStepped (hstep : mainStep prog s = some (s', o)) : MainStepped prog s s' o := by
  unfold mainStep at hstep
  split at hstep
  · rename_i hpc
    split at hstep
    · rename_i hmore
      cases hstep
      exact MainStepped.create hpc hmore
    · rename_i hall
      cases hstep
      exact MainStepped.created hpc (Nat.not_lt.mp hall)
  · rename_i hpc
    cases hstep
    exact MainStepped.start hpc
  · rename_i hpc
    split at hstep
    · rename_i hmore
      split at hstep
      · rename_i hreturned
        cases hstep
        exact MainStepped.join hpc hmore hreturned
      · cases hstep
    · rename_i hall
      cases hstep
      exact MainStepped.joined hpc (Nat.not_lt.mp hall)
  · rename_i hpc
    split at hstep
    · rename_i hmore
      cases hstep
      exact MainStepped.print hpc hmore
    · cases hstep
  · rename_i hpc
    split at hstep
    · rename_i hreturned
      cases hstep
      exact MainStepped.wait hpc hreturned
    · cases hstep
  · cases hstep

namespace Main

def joined (prog : Program) (n : Nat) (m : Main) : Nat :=
  match m.pc with
  | MainPc.create => 0
  | MainPc.start => if prog.early then 0 else n
  | MainPc.join => m.i
  | MainPc.print => m.i + 1
  | MainPc.wait => n
  | MainPc.exited => n

def printed (prog : Program) (n : Nat) (m : Main) : Nat :=
  match m.pc with
  | MainPc.print => m.i
  | _ => m.joined prog n

def before (prog : Program) (m : Main) : Bool :=
  match m.pc with
  | MainPc.create => true
  | MainPc.start => true
  | MainPc.join => !prog.early
  | MainPc.print => !prog.early
  | MainPc.wait => false
  | MainPc.exited => false

theorem printed_le_joined (m : Main) : m.printed prog n ≤ m.joined prog n := by
  rcases m with ⟨pc, i⟩
  cases pc with
  | print => exact Nat.le_succ i
  | _ => exact Nat.le_refl _

end Main

end Mains

end Prodcons2
end InterprocessComm
