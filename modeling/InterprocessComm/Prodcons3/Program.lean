import InterprocessComm.Lib.Crew
import InterprocessComm.Lib.Simulation
import InterprocessComm.Prodcons3.Items

/-!
# The program prodcons3

`main` creates the producers and the consumer and waits for them.  The counters and ids of the
producers are in arrays of `MAXNTHREADS` places, whose length it does not compare with the number
it is given.
-/

namespace InterprocessComm
namespace Prodcons3

open Verification

def MAXNTHREADS : Nat := 100

inductive MainPc where
  | createProducers
  | createConsumer
  | joinProducers
  | joinConsumer
  | returned
deriving DecidableEq

/-- `main` has the variable `i`; the crew is the array `count` with the array `tid_produce`
beside it. What an undefined state does is not known. -/
structure ProgramState where
  shared : Shared
  main : MainPc
  i : Nat
  producers : Crew MAXNTHREADS ProducerPc
  consumer : Option Consumer
  defined : Bool

inductive ProgramAction (nproduces : Nat) where
  | main
  | produce (p : Fin nproduces)
  | consume

abbrev ProgramTransition (nproduces : Nat) : Type :=
  Transition ProgramState (ProgramAction nproduces) ItemEvent

namespace ProgramState

/-- The counter is set to 0 and `pthread_create` stores the id; a store behind the arrays is
undefined. -/
def createProducer (s : ProgramState) : ProgramState :=
  match s.producers.create s.i ProducerPc.waitEmpty with
  | some crew => { s with producers := crew, i := s.i + 1 }
  | none => { s with defined := false }

def consumerReturned (s : ProgramState) : Bool :=
  match s.consumer with
  | some t => t.pc = ConsumerPc.returned
  | none => false

def mainStep (nproduces : Nat) (s : ProgramState) : Option ProgramState :=
  match s.main with
  | MainPc.createProducers =>
      if s.i < nproduces then
        some s.createProducer
      else
        some { s with main := MainPc.createConsumer }
  | MainPc.createConsumer =>
      some { s with main := MainPc.joinProducers, i := 0,
                    consumer := some { pc := ConsumerPc.test, i := 0 } }
  | MainPc.joinProducers =>
      if s.i < nproduces then
        if s.producers.threadAt s.i = some ProducerPc.returned then
          some { s with i := s.i + 1 }
        else
          none
      else
        some { s with main := MainPc.joinConsumer }
  | MainPc.joinConsumer =>
      if s.consumerReturned then
        some { s with main := MainPc.returned }
      else
        none
  | MainPc.returned => none

/-- A producer that has been created makes a step; its argument points to its counter. -/
def produce (nitems : Nat) (s : ProgramState) (p : Nat) : Option ProgramState :=
  match s.producers.threadAt p with
  | none => none
  | some pc =>
      (producerStep nitems s.shared ⟨pc, s.producers.countAt p⟩).map fun r =>
        { s with shared := r.1, producers := s.producers.put p r.2.pc r.2.arg }

def consume (nitems : Nat) (s : ProgramState) : Option (ProgramState × ItemEvent) :=
  match s.consumer with
  | none => none
  | some t =>
      (consumerStep nitems s.shared t).map fun r =>
        ({ s with shared := r.1, consumer := some r.2.1 }, r.2.2)

end ProgramState

section Program

variable (nitems nproduces : Nat)

def programStep (s : ProgramState) (a : ProgramAction nproduces) :
    Option (ProgramState × ItemEvent) :=
  if s.defined then
    match a with
    | ProgramAction.main => (s.mainStep nproduces).map fun s' => (s', ItemEvent.silent)
    | ProgramAction.produce p => (s.produce nitems p).map fun s' => (s', ItemEvent.silent)
    | ProgramAction.consume => s.consume nitems
  else
    none

/-- The semaphores are initialised; the arrays hold anything. -/
def ProgramInit (s : ProgramState) : Prop :=
  exists count,
    s = { shared := (bufferStart : BufferState Unit).shared,
          main := MainPc.createProducers, i := 0,
          producers := { count := count, tid := fun _ => none },
          consumer := none, defined := true }

/-- All threads and `main` have returned, the items have been stored and read, and the counters
sum up to their number. -/
structure Finished (consumed : List Nat) (s : ProgramState) : Prop where
  main : s.main = MainPc.returned
  producers : forall p, p < nproduces -> s.producers.threadAt p = some ProducerPc.returned
  consumer : s.consumerReturned = true
  nput : s.shared.nput = nitems
  count : ∑ p ∈ Finset.range nproduces, s.producers.countAt p = nitems
  consumed : consumed = List.range nitems

/-- The reads are in order, the producers are no more than the buffer ahead of them, and when
nothing can go on everything is done. -/
structure Delivers (tr : List (ProgramTransition nproduces)) (s : ProgramState) : Prop where
  inOrder : AtEach observeItem [] ItemLaw tr
  room : s.shared.nput ≤ (observed observeItem [] tr).length + NBUFF
  finished : (forall a, programStep nitems nproduces s a = none) ->
    Finished nitems nproduces (observed observeItem [] tr) s

end Program

/-!
# The threads of the program
-/

section Threads

variable {nitems nproduces : Nat}

def threads (nproduces : Nat) (s : ProgramState) : BufferState (Fin nproduces) :=
  { shared := s.shared,
    producers := fun p => s.producers.member Producer.mk ProducerPc.waitEmpty p.val,
    consumer := s.consumer.getD { pc := ConsumerPc.test, i := 0 } }

def threadStep (e : ProgramTransition nproduces) :
    Option (BufferAction (Fin nproduces) × ItemEvent) :=
  match e.action with
  | ProgramAction.main => none
  | ProgramAction.produce p => some (BufferAction.produce p, e.event)
  | ProgramAction.consume => some (BufferAction.consume, e.event)

def MainPc.created (nproduces i : Nat) : MainPc -> Nat
  | createProducers => i
  | _ => nproduces

def MainPc.consuming : MainPc -> Bool
  | createProducers => false
  | createConsumer => false
  | _ => true

structure ProgramInv (nproduces : Nat) (s : ProgramState) : Prop where
  defined : s.defined = true
  producers : s.producers.Created (s.main.created nproduces s.i)
  bound : s.main.created nproduces s.i ≤ nproduces
  consumer : s.consumer.isSome = s.main.consuming

variable {s s' : ProgramState}

theorem programInv_init (h : ProgramInit s) : ProgramInv nproduces s := by
  rcases h with ⟨count, rfl⟩
  refine ⟨rfl, ?_, Nat.zero_le _, rfl⟩
  intro i _
  simp [Crew.threadAt, MainPc.created]

theorem mainStep_keeps (hp : nproduces ≤ MAXNTHREADS) (hinv : ProgramInv nproduces s)
    (h : s.mainStep nproduces = some s') :
    ProgramInv nproduces s' ∧ threads nproduces s' = threads nproduces s := by
  rcases s with ⟨sh, main, i, producers, consumer, defined⟩
  rcases hinv with ⟨hdefined, hproducers, hbound, hconsumer⟩
  cases main with
  | createProducers =>
      simp only [ProgramState.mainStep] at h
      split at h
      · rename_i hi
        have hplace : i < MAXNTHREADS := Nat.lt_of_lt_of_le hi hp
        have hcreate : producers.create i ProducerPc.waitEmpty = _ := Crew.create_of_lt hplace
        simp only [ProgramState.createProducer, hcreate, Option.some.injEq] at h
        subst h
        refine ⟨⟨hdefined, hproducers.create hcreate, hi, hconsumer⟩, ?_⟩
        simp only [threads, Crew.member_create ((hproducers i hplace).mpr (Nat.le_refl i)) hcreate]
      · rename_i hi
        cases h
        have heq : i = nproduces := Nat.le_antisymm hbound (Nat.le_of_not_lt hi)
        subst heq
        exact ⟨⟨hdefined, hproducers, Nat.le_refl i, hconsumer⟩, rfl⟩
  | createConsumer =>
      cases h
      refine ⟨⟨hdefined, hproducers, hbound, rfl⟩, ?_⟩
      cases consumer with
      | none => rfl
      | some t => cases hconsumer
  | joinProducers =>
      simp only [ProgramState.mainStep] at h
      split at h
      · split at h
        · cases h
          exact ⟨⟨hdefined, hproducers, hbound, hconsumer⟩, rfl⟩
        · cases h
      · cases h
        exact ⟨⟨hdefined, hproducers, hbound, hconsumer⟩, rfl⟩
  | joinConsumer =>
      simp only [ProgramState.mainStep] at h
      split at h
      · cases h
        exact ⟨⟨hdefined, hproducers, hbound, hconsumer⟩, rfl⟩
      · cases h
  | returned => cases h

theorem produce_moves {p : Fin nproduces} (hinv : ProgramInv nproduces s)
    (h : s.produce nitems p = some s') :
    ProgramInv nproduces s' ∧
      bufferStep nitems (threads nproduces s) (BufferAction.produce p) =
        some (threads nproduces s', ItemEvent.silent) := by
  unfold ProgramState.produce at h
  split at h
  · cases h
  · rename_i pc hthread
    rcases Option.map_eq_some_iff.mp h with ⟨⟨sh', t'⟩, hstep, heq⟩
    cases heq
    refine ⟨⟨hinv.defined, hinv.producers.put hthread _ _, hinv.bound, hinv.consumer⟩, ?_⟩
    have hmember : (threads nproduces s).producers p = ⟨pc, s.producers.countAt p⟩ :=
      Crew.member_eq hthread
    simp only [bufferStep, hmember]
    show Option.map _ (producerStep nitems s.shared _) = _
    rw [hstep]
    simp only [Option.map_some, threads, Crew.member_put (Crew.lt_of_threadAt hthread)]
    have hupdate := Function.update_comp_eq_of_injective
      (s.producers.member Producer.mk ProducerPc.waitEmpty) Fin.val_injective p t'
    simp only [Function.comp_def] at hupdate
    rw [hupdate]

theorem consume_moves {o : ItemEvent} (hinv : ProgramInv nproduces s)
    (h : s.consume nitems = some (s', o)) :
    ProgramInv nproduces s' ∧
      bufferStep nitems (threads nproduces s) BufferAction.consume =
        some (threads nproduces s', o) := by
  unfold ProgramState.consume at h
  split at h
  · cases h
  · rename_i t hthread
    rcases Option.map_eq_some_iff.mp h with ⟨⟨sh', t', e⟩, hstep, heq⟩
    cases heq
    have hconsuming := hinv.consumer
    rw [hthread] at hconsuming
    refine ⟨⟨hinv.defined, hinv.producers, hinv.bound, hconsuming⟩, ?_⟩
    have hmember : (threads nproduces s).consumer = t := by simp [threads, hthread]
    simp only [bufferStep, hmember]
    show Option.map _ (consumerStep nitems s.shared _) = _
    rw [hstep]
    rfl

theorem programStep_cases {a : ProgramAction nproduces} {o : ItemEvent}
    (h : programStep nitems nproduces s a = some (s', o)) :
    (a = ProgramAction.main ∧ o = ItemEvent.silent ∧ s.mainStep nproduces = some s') ∨
      (exists p, a = ProgramAction.produce p ∧ o = ItemEvent.silent ∧
        s.produce nitems p = some s') ∨
      (a = ProgramAction.consume ∧ s.consume nitems = some (s', o)) := by
  unfold programStep at h
  split at h
  · cases a with
    | main =>
        rcases Option.map_eq_some_iff.mp h with ⟨t, hmain, heq⟩
        cases heq
        exact Or.inl ⟨rfl, rfl, hmain⟩
    | produce p =>
        rcases Option.map_eq_some_iff.mp h with ⟨t, hproduce, heq⟩
        cases heq
        exact Or.inr (Or.inl ⟨p, rfl, rfl, hproduce⟩)
    | consume => exact Or.inr (Or.inr ⟨rfl, h⟩)
  · cases h

/-- The program simulates its threads, where the arrays have a place for each producer. -/
theorem threads_simulated (hp : nproduces ≤ MAXNTHREADS) :
    Simulation ProgramInit (programStep nitems nproduces) BufferInit (bufferStep nitems)
      (threads nproduces) threadStep (ProgramInv nproduces) := by
  constructor
  · intro s hs
    refine ⟨programInv_init hs, ?_⟩
    rcases hs with ⟨count, rfl⟩
    simp [BufferInit, threads, bufferStart, Crew.member, Crew.threadAt]
  · intro s a o t hinv hstep
    rcases programStep_cases hstep with ⟨_, _, hmain⟩ | ⟨p, _, _, hproduce⟩ | ⟨_, hconsume⟩
    · exact (mainStep_keeps hp hinv hmain).1
    · exact (produce_moves hinv hproduce).1
    · exact (consume_moves hinv hconsume).1
  · intro s a o t hinv hstep hlabel
    rcases programStep_cases hstep with ⟨_, _, hmain⟩ | ⟨p, rfl, _⟩ | ⟨rfl, _⟩
    · exact (mainStep_keeps hp hinv hmain).2
    · cases hlabel
    · cases hlabel
  · intro s a o t a' o' hinv hstep hlabel
    rcases programStep_cases hstep with ⟨rfl, _, _⟩ | ⟨p, rfl, rfl, hproduce⟩ | ⟨rfl, hconsume⟩
    · cases hlabel
    · cases hlabel
      exact (produce_moves hinv hproduce).2
    · cases hlabel
      exact (consume_moves hinv hconsume).2

end Threads

end Prodcons3
end InterprocessComm
