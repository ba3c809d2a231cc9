import InterprocessComm.Lib.Crew
import InterprocessComm.Lib.Simulation
import InterprocessComm.Prodcons4.Items

/-!
# The program prodcons4

`main` creates the threads and waits for them.  It keeps their counters and ids in arrays of
`MAXNTHREADS` places, whose length it does not compare with the numbers it is given.
-/

namespace InterprocessComm
namespace Prodcons4

open Verification

def MAXNTHREADS : Nat := 100

inductive MainPc where
  | createProducers
  | createConsumers
  | joinProducers
  | joinConsumers
  | returned
deriving DecidableEq

/-- `main` has the variable `i`; a crew is an array of counters, `prodcount` or `conscount`,
with the array of thread ids beside it. What an undefined state does is not known. -/
structure ProgramState where
  shared : Shared
  main : MainPc
  i : Nat
  producers : Crew MAXNTHREADS ProducerPc
  consumers : Crew MAXNTHREADS ConsumerPc
  defined : Bool

inductive ProgramAction (nproducers nconsumers : Nat) where
  | main
  | produce (p : Fin nproducers)
  | consume (c : Fin nconsumers)

abbrev ProgramTransition (nproducers nconsumers : Nat) : Type :=
  Transition ProgramState (ProgramAction nproducers nconsumers) ItemEvent

namespace ProgramState

/-- The counter is set to 0 and `pthread_create` stores the id; a store behind the arrays is
undefined. -/
def createProducer (s : ProgramState) : ProgramState :=
  match s.producers.create s.i ProducerPc.waitEmpty with
  | some crew => { s with producers := crew, i := s.i + 1 }
  | none => { s with defined := false }

def createConsumer (s : ProgramState) : ProgramState :=
  match s.consumers.create s.i ConsumerPc.waitStored with
  | some crew => { s with consumers := crew, i := s.i + 1 }
  | none => { s with defined := false }

/-- A step of `main`; `pthread_join` waits until the thread has returned. -/
def mainStep (nproducers nconsumers : Nat) (s : ProgramState) : Option ProgramState :=
  match s.main with
  | MainPc.createProducers =>
      if s.i < nproducers then
        some s.createProducer
      else
        some { s with main := MainPc.createConsumers, i := 0 }
  | MainPc.createConsumers =>
      if s.i < nconsumers then
        some s.createConsumer
      else
        some { s with main := MainPc.joinProducers, i := 0 }
  | MainPc.joinProducers =>
      if s.i < nproducers then
        if s.producers.threadAt s.i = some ProducerPc.returned then
          some { s with i := s.i + 1 }
        else
          none
      else
        some { s with main := MainPc.joinConsumers, i := 0 }
  | MainPc.joinConsumers =>
      if s.i < nconsumers then
        if s.consumers.threadAt s.i = some ConsumerPc.returned then
          some { s with i := s.i + 1 }
        else
          none
      else
        some { s with main := MainPc.returned }
  | MainPc.returned => none

/-- A thread that has been created makes a step; its argument points to its counter. -/
def produce (nitems : Nat) (s : ProgramState) (p : Nat) : Option (ProgramState × ItemEvent) :=
  match s.producers.threadAt p with
  | none => none
  | some pc =>
      (producerStep nitems s.shared ⟨pc, s.producers.countAt p⟩).map fun r =>
        ({ s with shared := r.1, producers := s.producers.put p r.2.1.pc r.2.1.arg }, r.2.2)

def consume (nitems : Nat) (s : ProgramState) (c : Nat) : Option (ProgramState × ItemEvent) :=
  match s.consumers.threadAt c with
  | none => none
  | some pc =>
      (consumerStep nitems s.shared ⟨pc, s.consumers.countAt c⟩).map fun r =>
        ({ s with shared := r.1, consumers := s.consumers.put c r.2.1.pc r.2.1.arg }, r.2.2)

end ProgramState

section Program

variable (nitems nproducers nconsumers : Nat)

def programStep (s : ProgramState) (a : ProgramAction nproducers nconsumers) :
    Option (ProgramState × ItemEvent) :=
  if s.defined then
    match a with
    | ProgramAction.main =>
        (s.mainStep nproducers nconsumers).map fun s' => (s', ItemEvent.silent)
    | ProgramAction.produce p => s.produce nitems p
    | ProgramAction.consume c => s.consume nitems c
  else
    none

/-- The semaphores are initialised; the arrays hold anything. -/
def ProgramInit (s : ProgramState) : Prop :=
  exists prodcount conscount,
    s = { shared := (bufferStart : BufferState Unit Unit).shared,
          main := MainPc.createProducers, i := 0,
          producers := { count := prodcount, tid := fun _ => none },
          consumers := { count := conscount, tid := fun _ => none },
          defined := true }

/-- All threads and `main` have returned, the items have been fetched, and the counters sum up
to their number. -/
structure Finished (fetched : List Nat) (s : ProgramState) : Prop where
  main : s.main = MainPc.returned
  producers : forall p, p < nproducers -> s.producers.threadAt p = some ProducerPc.returned
  consumers : forall c, c < nconsumers -> s.consumers.threadAt c = some ConsumerPc.returned
  prodcount : ∑ p ∈ Finset.range nproducers, s.producers.countAt p = nitems
  conscount : ∑ c ∈ Finset.range nconsumers, s.consumers.countAt c = nitems
  fetched : fetched = List.range nitems

/-- The gets are in order and no slot is overwritten too early, the buffer has room for what is
in it, and when nothing can go on everything is done. -/
structure Delivers (tr : List (ProgramTransition nproducers nconsumers)) (s : ProgramState) :
    Prop where
  inOrder : AtEach observeItem [] ItemLaw tr
  room : s.shared.nget ≤ s.shared.nput ∧ s.shared.nput ≤ s.shared.nget + NBUFF
  finished : (forall a, programStep nitems nproducers nconsumers s a = none) ->
    Finished nitems nproducers nconsumers (observed observeItem [] tr) s

end Program

/-!
# The threads of the program
-/

section Threads

variable {nitems nproducers nconsumers : Nat}

def threads (nproducers nconsumers : Nat) (s : ProgramState) :
    BufferState (Fin nproducers) (Fin nconsumers) :=
  { shared := s.shared,
    producers := fun p => s.producers.member Thread.mk ProducerPc.waitEmpty p.val,
    consumers := fun c => s.consumers.member Thread.mk ConsumerPc.waitStored c.val }

def threadStep (e : ProgramTransition nproducers nconsumers) :
    Option (BufferAction (Fin nproducers) (Fin nconsumers) × ItemEvent) :=
  match e.action with
  | ProgramAction.main => none
  | ProgramAction.produce p => some (BufferAction.produce p, e.event)
  | ProgramAction.consume c => some (BufferAction.consume c, e.event)

def MainPc.created (nproducers nconsumers i : Nat) : MainPc -> Nat × Nat
  | createProducers => (i, 0)
  | createConsumers => (nproducers, i)
  | _ => (nproducers, nconsumers)

structure ProgramInv (nproducers nconsumers : Nat) (s : ProgramState) : Prop where
  defined : s.defined = true
  producers : s.producers.Created (s.main.created nproducers nconsumers s.i).1
  consumers : s.consumers.Created (s.main.created nproducers nconsumers s.i).2
  bounds : (s.main.created nproducers nconsumers s.i).1 ≤ nproducers ∧
    (s.main.created nproducers nconsumers s.i).2 ≤ nconsumers

variable {s s' : ProgramState}

theorem programInv_init (h : ProgramInit s) : ProgramInv nproducers nconsumers s := by
  rcases h with ⟨prodcount, conscount, rfl⟩
  have hnone : forall {loc : Type} (count : Fin MAXNTHREADS -> Nat),
      ({ count := count, tid := fun _ => none } : Crew MAXNTHREADS loc).Created 0 := by
    intro loc count i _
    simp [Crew.threadAt]
  exact ⟨rfl, hnone prodcount, hnone conscount, Nat.zero_le _, Nat.zero_le _⟩

theorem mainStep_keeps (hp : nproducers ≤ MAXNTHREADS) (hc : nconsumers ≤ MAXNTHREADS)
    (hinv : ProgramInv nproducers nconsumers s)
    (h : s.mainStep nproducers nconsumers = some s') :
    ProgramInv nproducers nconsumers s' ∧
      threads nproducers nconsumers s' = threads nproducers nconsumers s := by
  rcases s with ⟨sh, main, i, producers, consumers, defined⟩
  rcases hinv with ⟨hdefined, hproducers, hconsumers, hbounds⟩
  cases main with
  | createProducers =>
      simp only [ProgramState.mainStep] at h
      split at h
      · rename_i hi
        have hplace : i < MAXNTHREADS := Nat.lt_of_lt_of_le hi hp
        have hcreate : producers.create i ProducerPc.waitEmpty = _ := Crew.create_of_lt hplace
        simp only [ProgramState.createProducer, hcreate, Option.some.injEq] at h
        subst h
        refine ⟨⟨hdefined, hproducers.create hcreate, hconsumers, hi, hbounds.2⟩, ?_⟩
        simp only [threads, Crew.member_create ((hproducers i hplace).mpr (Nat.le_refl i)) hcreate]
      · rename_i hi
        cases h
        have heq : i = nproducers := Nat.le_antisymm hbounds.1 (Nat.le_of_not_lt hi)
        subst heq
        exact ⟨⟨hdefined, hproducers, hconsumers, Nat.le_refl i, Nat.zero_le _⟩, rfl⟩
  | createConsumers =>
      simp only [ProgramState.mainStep] at h
      split at h
      · rename_i hi
        have hplace : i < MAXNTHREADS := Nat.lt_of_lt_of_le hi hc
        have hcreate : consumers.create i ConsumerPc.waitStored = _ := Crew.create_of_lt hplace
        simp only [ProgramState.createConsumer, hcreate, Option.some.injEq] at h
        subst h
        refine ⟨⟨hdefined, hproducers, hconsumers.create hcreate, hbounds.1, hi⟩, ?_⟩
        simp only [threads, Crew.member_create ((hconsumers i hplace).mpr (Nat.le_refl i)) hcreate]
      · rename_i hi
        cases h
        have heq : i = nconsumers := Nat.le_antisymm hbounds.2 (Nat.le_of_not_lt hi)
        subst heq
        exact ⟨⟨hdefined, hproducers, hconsumers, hbounds⟩, rfl⟩
  | joinProducers =>
      simp only [ProgramState.mainStep] at h
      split at h
      · split at h
        · cases h
          exact ⟨⟨hdefined, hproducers, hconsumers, hbounds⟩, rfl⟩
        · cases h
      · cases h
        exact ⟨⟨hdefined, hproducers, hconsumers, hbounds⟩, rfl⟩
  | joinConsumers =>
      simp only [ProgramState.mainStep] at h
      split at h
      · split at h
        · cases h
          exact ⟨⟨hdefined, hproducers, hconsumers, hbounds⟩, rfl⟩
        · cases h
      · cases h
        exact ⟨⟨hdefined, hproducers, hconsumers, hbounds⟩, rfl⟩
  | returned => cases h

theorem produce_moves {p : Fin nproducers} {o : ItemEvent}
    (hinv : ProgramInv nproducers nconsumers s) (h : s.produce nitems p = some (s', o)) :
    ProgramInv nproducers nconsumers s' ∧
      bufferStep nitems (threads nproducers nconsumers s) (BufferAction.produce p) =
        some (threads nproducers nconsumers s', o) := by
  unfold ProgramState.produce at h
  split at h
  · cases h
  · rename_i pc hthread
    rcases Option.map_eq_some_iff.mp h with ⟨⟨sh', t', e⟩, hstep, heq⟩
    cases heq
    refine ⟨⟨hinv.defined, hinv.producers.put hthread _ _, hinv.consumers, hinv.bounds⟩, ?_⟩
    have hmember : (threads nproducers nconsumers s).producers p =
        ⟨pc, s.producers.countAt p⟩ := Crew.member_eq hthread
    simp only [bufferStep, hmember]
    show Option.map _ (producerStep nitems s.shared _) = _
    rw [hstep]
    simp only [Option.map_some, threads, Crew.member_put (Crew.lt_of_threadAt hthread)]
    have hupdate := Function.update_comp_eq_of_injective
      (s.producers.member Thread.mk ProducerPc.waitEmpty) Fin.val_injective p t'
    simp only [Function.comp_def] at hupdate
    rw [hupdate]

theorem consume_moves {c : Fin nconsumers} {o : ItemEvent}
    (hinv : ProgramInv nproducers nconsumers s) (h : s.consume nitems c = some (s', o)) :
    ProgramInv nproducers nconsumers s' ∧
      bufferStep nitems (threads nproducers nconsumers s) (BufferAction.consume c) =
        some (threads nproducers nconsumers s', o) := by
  unfold ProgramState.consume at h
  split at h
  · cases h
  · rename_i pc hthread
    rcases Option.map_eq_some_iff.mp h with ⟨⟨sh', t', e⟩, hstep, heq⟩
    cases heq
    refine ⟨⟨hinv.defined, hinv.producers, hinv.consumers.put hthread _ _, hinv.bounds⟩, ?_⟩
    have hmember : (threads nproducers nconsumers s).consumers c =
        ⟨pc, s.consumers.countAt c⟩ := Crew.member_eq hthread
    simp only [bufferStep, hmember]
    show Option.map _ (consumerStep nitems s.shared _) = _
    rw [hstep]
    simp only [Option.map_some, threads, Crew.member_put (Crew.lt_of_threadAt hthread)]
    have hupdate := Function.update_comp_eq_of_injective
      (s.consumers.member Thread.mk ConsumerPc.waitStored) Fin.val_injective c t'
    simp only [Function.comp_def] at hupdate
    rw [hupdate]

theorem programStep_cases {a : ProgramAction nproducers nconsumers} {o : ItemEvent}
    (h : programStep nitems nproducers nconsumers s a = some (s', o)) :
    (a = ProgramAction.main ∧ o = ItemEvent.silent ∧
        s.mainStep nproducers nconsumers = some s') ∨
      (exists p, a = ProgramAction.produce p ∧ s.produce nitems p = some (s', o)) ∨
      exists c, a = ProgramAction.consume c ∧ s.consume nitems c = some (s', o) := by
  unfold programStep at h
  split at h
  · cases a with
    | main =>
        rcases Option.map_eq_some_iff.mp h with ⟨t, hmain, heq⟩
        cases heq
        exact Or.inl ⟨rfl, rfl, hmain⟩
    | produce p => exact Or.inr (Or.inl ⟨p, rfl, h⟩)
    | consume c => exact Or.inr (Or.inr ⟨c, rfl, h⟩)
  · cases h

/-- The program simulates its threads, where the arrays have a place for each. -/
theorem threads_simulated (hp : nproducers ≤ MAXNTHREADS) (hc : nconsumers ≤ MAXNTHREADS) :
    Simulation ProgramInit (programStep nitems nproducers nconsumers) BufferInit
      (bufferStep nitems) (threads nproducers nconsumers) threadStep
      (ProgramInv nproducers nconsumers) := by
  constructor
  · intro s hs
    refine ⟨programInv_init hs, ?_⟩
    rcases hs with ⟨prodcount, conscount, rfl⟩
    simp [BufferInit, threads, bufferStart, Crew.member, Crew.threadAt]
  · intro s a o t hinv hstep
    rcases programStep_cases hstep with ⟨_, _, hmain⟩ | ⟨p, _, hproduce⟩ | ⟨c, _, hconsume⟩
    · exact (mainStep_keeps hp hc hinv hmain).1
    · exact (produce_moves hinv hproduce).1
    · exact (consume_moves hinv hconsume).1
  · intro s a o t hinv hstep hlabel
    rcases programStep_cases hstep with ⟨_, _, hmain⟩ | ⟨p, rfl, _⟩ | ⟨c, rfl, _⟩
    · exact (mainStep_keeps hp hc hinv hmain).2
    · cases hlabel
    · cases hlabel
  · intro s a o t a' o' hinv hstep hlabel
    rcases programStep_cases hstep with ⟨rfl, _, _⟩ | ⟨p, rfl, hproduce⟩ | ⟨c, rfl, hconsume⟩
    · cases hlabel
    · cases hlabel
      exact (produce_moves hinv hproduce).2
    · cases hlabel
      exact (consume_moves hinv hconsume).2

end Threads

end Prodcons4
end InterprocessComm
