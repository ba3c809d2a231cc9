import InterprocessComm.Prodcons3.Program

/-!
# What prodcons3 delivers

Whether every run of the program brings all items through depends on the arrays of `main`
alone.
-/

namespace InterprocessComm
namespace Prodcons3

open Verification

section Delivery

variable {nitems nproduces : Nat} {s : ProgramState}

/-!
# The end of the program
-/

theorem created_of_stuck (hinv : ProgramInv nproduces s)
    (hstuck : forall a, programStep nitems nproduces s a = none) :
    s.main.created nproduces s.i = nproduces ∧ s.main.consuming = true := by
  have hmain := hstuck ProgramAction.main
  simp only [programStep, hinv.defined, if_true, Option.map_eq_none_iff] at hmain
  rcases s with ⟨sh, main, i, producers, consumer, defined⟩
  cases main with
  | createProducers =>
      simp only [ProgramState.mainStep] at hmain
      split at hmain <;> cases hmain
  | createConsumer => cases hmain
  | joinProducers => exact ⟨rfl, rfl⟩
  | joinConsumer => exact ⟨rfl, rfl⟩
  | returned => exact ⟨rfl, rfl⟩

theorem producer_there (hp : nproduces ≤ MAXNTHREADS) (hinv : ProgramInv nproduces s)
    (hstuck : forall a, programStep nitems nproduces s a = none) (p : Fin nproduces) :
    exists pc, s.producers.threadAt p = some pc ∧
      (threads nproduces s).producers p = ⟨pc, s.producers.countAt p⟩ := by
  have hproducers := hinv.producers
  rw [(created_of_stuck hinv hstuck).1] at hproducers
  rcases hproducers.exists_thread hp p.isLt with ⟨pc, hthread⟩
  exact ⟨pc, hthread, Crew.member_eq hthread⟩

theorem consumer_there (hinv : ProgramInv nproduces s)
    (hstuck : forall a, programStep nitems nproduces s a = none) :
    s.consumer = some (threads nproduces s).consumer := by
  have hsome := hinv.consumer
  rw [(created_of_stuck hinv hstuck).2] at hsome
  rcases Option.isSome_iff_exists.mp hsome with ⟨t, ht⟩
  simp [threads, ht]

theorem threads_stuck (hp : nproduces ≤ MAXNTHREADS) (hinv : ProgramInv nproduces s)
    (hstuck : forall a, programStep nitems nproduces s a = none) :
    Stuck nitems (threads nproduces s) := by
  intro a
  cases a with
  | produce p =>
      rcases producer_there hp hinv hstuck p with ⟨pc, hthread, hmember⟩
      have hnone := hstuck (ProgramAction.produce p)
      simp only [programStep, hinv.defined, if_true, ProgramState.produce, hthread,
        Option.map_eq_none_iff] at hnone
      simp only [bufferStep, hmember, Option.map_eq_none_iff]
      exact hnone
  | consume =>
      have hthread := consumer_there hinv hstuck
      have hnone := hstuck ProgramAction.consume
      simp only [programStep, hinv.defined, if_true, ProgramState.consume, hthread,
        Option.map_eq_none_iff] at hnone
      simp only [bufferStep, Option.map_eq_none_iff]
      exact hnone

theorem main_returned (hinv : ProgramInv nproduces s)
    (hstuck : forall a, programStep nitems nproduces s a = none)
    (hproducers : forall p, p < nproduces ->
      s.producers.threadAt p = some ProducerPc.returned)
    (hconsumer : s.consumerReturned = true) : s.main = MainPc.returned := by
  have hmain := hstuck ProgramAction.main
  simp only [programStep, hinv.defined, if_true, Option.map_eq_none_iff] at hmain
  rcases s with ⟨sh, main, i, producers, consumer, defined⟩
  cases main with
  | createProducers =>
      simp only [ProgramState.mainStep] at hmain
      split at hmain <;> cases hmain
  | createConsumer => cases hmain
  | joinProducers =>
      simp only [ProgramState.mainStep] at hmain
      split at hmain
      · rename_i hi
        rw [if_pos (hproducers i hi)] at hmain
        cases hmain
      · cases hmain
  | joinConsumer =>
      simp only [ProgramState.mainStep] at hmain
      rw [if_pos hconsumer] at hmain
      cases hmain
  | returned => rfl

theorem finished_of_allDone (hp : nproduces ≤ MAXNTHREADS) (hinv : ProgramInv nproduces s)
    {consumed : List Nat} (hstuck : forall a, programStep nitems nproduces s a = none)
    (hdone : AllDone nitems consumed (threads nproduces s)) :
    Finished nitems nproduces consumed s := by
  have hprod : forall p : Fin nproduces, s.producers.threadAt p = some ProducerPc.returned ∧
      ((threads nproduces s).producers p).arg = s.producers.countAt p := by
    intro p
    rcases producer_there hp hinv hstuck p with ⟨pc, hthread, hmember⟩
    have hreturned := hdone.producers p
    rw [hmember] at hreturned ⊢
    change pc = ProducerPc.returned at hreturned
    rw [hthread, hreturned]
    exact ⟨rfl, rfl⟩
  have hall := fun p hlt => (hprod ⟨p, hlt⟩).1
  have hcons : s.consumerReturned = true := by
    simp only [ProgramState.consumerReturned, consumer_there hinv hstuck, hdone.consumer,
      decide_true]
  refine ⟨main_returned hinv hstuck hall hcons, hall, hcons, hdone.nput, ?_, hdone.consumed⟩
  rw [Finset.sum_range, <- hdone.count]
  exact Finset.sum_congr rfl fun p _ => (hprod p).2.symm

theorem delivers_of_places [NeZero nproduces] (hp : nproduces ≤ MAXNTHREADS)
    {tr : List (ProgramTransition nproduces)}
    (hrun : Run ProgramInit (programStep nitems nproduces) tr s) :
    Delivers nitems nproduces tr s := by
  rcases (threads_simulated hp).run hrun with ⟨hinv, hthreads⟩
  rcases reads_in_order hthreads with ⟨hlaw, hroom, hdone⟩
  have hcoarse : forall (e : ProgramTransition nproduces) l,
      e.Valid (programStep nitems nproduces) -> threadStep e = some l -> l.2 = e.event := by
    rintro ⟨s, a, o, t⟩ l _ hlabel
    cases a <;> cases hlabel <;> rfl
  have hsilent : forall (e : ProgramTransition nproduces) (g : List Nat),
      e.Valid (programStep nitems nproduces) -> threadStep e = none ->
      observeItem g e.event = g ∧ ItemLaw g e.event := by
    rintro ⟨s, a, o, t⟩ g hvalid hlabel
    rcases programStep_cases hvalid with ⟨_, rfl, _⟩ | ⟨p, rfl, _⟩ | ⟨rfl, _⟩
    · exact ⟨rfl, trivial⟩
    · cases hlabel
    · cases hlabel
  rcases Simulation.atEach hrun hcoarse hsilent [] hlaw with ⟨hsame, horder⟩
  refine ⟨horder, ?_, fun hstuck => ?_⟩
  · rw [hsame]
    exact hroom
  · rw [hsame]
    exact finished_of_allDone hp hinv hstuck (hdone (threads_stuck hp hinv hstuck))

/-!
# Behind the arrays
-/

theorem creates_producers (nitems : Nat) {k : Nat} (hk : k ≤ nproduces)
    (hplaces : k ≤ MAXNTHREADS) :
    exists tr s, Run ProgramInit (programStep nitems nproduces) tr s ∧
      s.main = MainPc.createProducers ∧ s.i = k ∧ s.defined = true := by
  induction k with
  | zero => exact ⟨[], _, ⟨_, ⟨fun _ => 0, rfl⟩, Path.nil⟩, rfl, rfl, rfl⟩
  | succ k ih =>
      rcases ih (Nat.le_of_succ_le hk) (Nat.le_of_succ_le hplaces) with
        ⟨tr, s, ⟨s0, hinit, hpath⟩, hmain, hi, hdefined⟩
      have hstep : programStep nitems nproduces s ProgramAction.main =
          some ({ s with producers := s.producers.put s.i ProducerPc.waitEmpty 0,
                         i := s.i + 1 }, ItemEvent.silent) := by
        have hcreate : s.producers.create s.i ProducerPc.waitEmpty = _ :=
          Crew.create_of_lt (by lia)
        have hlt : s.i < nproduces := by lia
        simp only [programStep, hdefined, if_true, ProgramState.mainStep, hmain, hlt,
          ProgramState.createProducer, hcreate, Option.map_some]
      exact ⟨_, _, ⟨s0, hinit, Path.snoc hpath hstep⟩, hmain, congrArg Nat.succ hi, hdefined⟩

/-- The producer that has no place is created all the same. -/
theorem stores_behind (nitems : Nat) (hp : MAXNTHREADS < nproduces) :
    exists tr s, Run ProgramInit (programStep nitems nproduces) tr s ∧
      s.main ≠ MainPc.returned ∧ s.defined = false := by
  rcases creates_producers nitems (Nat.le_of_lt hp) (Nat.le_refl MAXNTHREADS) with
    ⟨tr, s, ⟨s0, hinit, hpath⟩, hmain, hi, hdefined⟩
  have hstep : programStep nitems nproduces s ProgramAction.main =
      some ({ s with defined := false }, ItemEvent.silent) := by
    have hcreate : s.producers.create s.i ProducerPc.waitEmpty = none :=
      Crew.create_behind (Nat.le_of_eq hi.symm)
    have hlt : s.i < nproduces := by lia
    simp only [programStep, hdefined, if_true, ProgramState.mainStep, hmain, hlt,
      ProgramState.createProducer, hcreate, Option.map_some]
  refine ⟨_, _, ⟨s0, hinit, Path.snoc hpath hstep⟩, ?_, rfl⟩
  intro hreturned
  rw [hmain] at hreturned
  cases hreturned

/-- Whatever an undefined state does, it is not what the program is for. -/
theorem not_delivers_of_undefined {tr : List (ProgramTransition nproduces)}
    (hmain : s.main ≠ MainPc.returned) (hundefined : s.defined = false) :
    ¬ Delivers nitems nproduces tr s := by
  intro hdelivers
  refine hmain (hdelivers.finished ?_).main
  intro a
  simp [programStep, hundefined]

end Delivery

/-- Every run of prodcons3 delivers all items exactly if the arrays have a place for each
producer. -/
theorem prodcons3_delivers_iff (nitems nproduces : Nat) (hp : 1 ≤ nproduces) :
    (forall (tr : List (ProgramTransition nproduces)) s,
      Run ProgramInit (programStep nitems nproduces) tr s -> Delivers nitems nproduces tr s) <->
      nproduces ≤ MAXNTHREADS := by
  constructor
  · intro hall
    by_contra hplaces
    rcases stores_behind nitems (Nat.lt_of_not_le hplaces) with
      ⟨tr, s, hrun, hmain, hundefined⟩
    exact not_delivers_of_undefined hmain hundefined (hall tr s hrun)
  · intro hplaces tr s hrun
    have : NeZero nproduces := ⟨Nat.pos_iff_ne_zero.mp hp⟩
    exact delivers_of_places hplaces hrun

/-- A producer and the consumer bring two items through, and `main` returns. -/
theorem prodcons3_delivers_iff_twoItems :
    exists (tr : List (ProgramTransition 1)) (s : ProgramState),
      Run ProgramInit (programStep 2 1) tr s ∧ Finished 2 1 (observed observeItem [] tr) s := by
  have hinit : ProgramInit
      { shared := (bufferStart : BufferState Unit).shared,
        main := MainPc.createProducers, i := 0,
        producers := { count := fun _ => 7, tid := fun _ => none },
        consumer := none, defined := true } := ⟨_, rfl⟩
  have hreplay : exists (tr : List (ProgramTransition 1)) (s : ProgramState),
      Run ProgramInit (programStep 2 1) tr s ∧
        ((programStep 2 1 s ProgramAction.main).isNone &&
          (programStep 2 1 s (ProgramAction.produce 0)).isNone &&
          (programStep 2 1 s ProgramAction.consume).isNone) = true :=
    run_of_replay (List.replicate 3 ProgramAction.main ++
      List.replicate 23 (ProgramAction.produce 0) ++
      List.replicate 15 ProgramAction.consume ++ List.replicate 3 ProgramAction.main)
      hinit (by decide +kernel)
  rcases hreplay with ⟨tr, s, hrun, htest⟩
  simp only [Bool.and_eq_true, Option.isNone_iff_eq_none] at htest
  rcases htest with ⟨⟨hmain, hproduce⟩, hconsume⟩
  refine ⟨tr, s, hrun, Delivers.finished ?_ ?_⟩
  · exact (prodcons3_delivers_iff 2 1 (Nat.le_refl 1)).mpr (by decide) tr s hrun
  · intro a
    cases a with
    | main => exact hmain
    | produce p =>
        rw [Subsingleton.elim p 0]
        exact hproduce
    | consume => exact hconsume

/-- With a hundred and one producers `main` stores a counter behind its array. -/
theorem prodcons3_stores_behind_101Producers :
    exists (tr : List (ProgramTransition 101)) (s : ProgramState),
      Run ProgramInit (programStep 2 101) tr s ∧ ¬ Delivers 2 101 tr s := by
  rcases stores_behind 2 (Nat.lt_succ_self MAXNTHREADS) with ⟨tr, s, hrun, hmain, hundefined⟩
  exact ⟨tr, s, hrun, not_delivers_of_undefined hmain hundefined⟩

end Prodcons3
end InterprocessComm
