import InterprocessComm.Prodcons4.Program

/-!
# What prodcons4 delivers

Whether every run of the program brings all items through depends on the arrays of `main`
alone.
-/

namespace InterprocessComm
namespace Prodcons4

open Verification

section Delivery

variable {nitems nproducers nconsumers : Nat} {s : ProgramState}

/-!
# The end of the program
-/

theorem created_of_stuck (hinv : ProgramInv nproducers nconsumers s)
    (hstuck : forall a, programStep nitems nproducers nconsumers s a = none) :
    s.main.created nproducers nconsumers s.i = (nproducers, nconsumers) := by
  have hmain := hstuck ProgramAction.main
  simp only [programStep, hinv.defined, if_true, Option.map_eq_none_iff] at hmain
  rcases s with ⟨sh, main, i, producers, consumers, defined⟩
  cases main with
  | createProducers =>
      simp only [ProgramState.mainStep] at hmain
      split at hmain <;> cases hmain
  | createConsumers =>
      simp only [ProgramState.mainStep] at hmain
      split at hmain <;> cases hmain
  | joinProducers => rfl
  | joinConsumers => rfl
  | returned => rfl

theorem producer_there (hp : nproducers ≤ MAXNTHREADS)
    (hinv : ProgramInv nproducers nconsumers s)
    (hstuck : forall a, programStep nitems nproducers nconsumers s a = none)
    (p : Fin nproducers) :
    exists pc, s.producers.threadAt p = some pc ∧
      (threads nproducers nconsumers s).producers p = ⟨pc, s.producers.countAt p⟩ := by
  have hproducers := hinv.producers
  rw [created_of_stuck hinv hstuck] at hproducers
  rcases hproducers.exists_thread hp p.isLt with ⟨pc, hthread⟩
  exact ⟨pc, hthread, Crew.member_eq hthread⟩

theorem consumer_there (hc : nconsumers ≤ MAXNTHREADS)
    (hinv : ProgramInv nproducers nconsumers s)
    (hstuck : forall a, programStep nitems nproducers nconsumers s a = none)
    (c : Fin nconsumers) :
    exists pc, s.consumers.threadAt c = some pc ∧
      (threads nproducers nconsumers s).consumers c = ⟨pc, s.consumers.countAt c⟩ := by
  have hconsumers := hinv.consumers
  rw [created_of_stuck hinv hstuck] at hconsumers
  rcases hconsumers.exists_thread hc c.isLt with ⟨pc, hthread⟩
  exact ⟨pc, hthread, Crew.member_eq hthread⟩

theorem threads_stuck (hp : nproducers ≤ MAXNTHREADS) (hc : nconsumers ≤ MAXNTHREADS)
    (hinv : ProgramInv nproducers nconsumers s)
    (hstuck : forall a, programStep nitems nproducers nconsumers s a = none) :
    Stuck nitems (threads nproducers nconsumers s) := by
  intro a
  cases a with
  | produce p =>
      rcases producer_there hp hinv hstuck p with ⟨pc, hthread, hmember⟩
      have hnone := hstuck (ProgramAction.produce p)
      simp only [programStep, hinv.defined, if_true, ProgramState.produce, hthread,
        Option.map_eq_none_iff] at hnone
      simp only [bufferStep, hmember, Option.map_eq_none_iff]
      exact hnone
  | consume c =>
      rcases consumer_there hc hinv hstuck c with ⟨pc, hthread, hmember⟩
      have hnone := hstuck (ProgramAction.consume c)
      simp only [programStep, hinv.defined, if_true, ProgramState.consume, hthread,
        Option.map_eq_none_iff] at hnone
      simp only [bufferStep, hmember, Option.map_eq_none_iff]
      exact hnone

theorem main_returned (hinv : ProgramInv nproducers nconsumers s)
    (hstuck : forall a, programStep nitems nproducers nconsumers s a = none)
    (hproducers : forall p, p < nproducers ->
      s.producers.threadAt p = some ProducerPc.returned)
    (hconsumers : forall c, c < nconsumers ->
      s.consumers.threadAt c = some ConsumerPc.returned) :
    s.main = MainPc.returned := by
  have hmain := hstuck ProgramAction.main
  simp only [programStep, hinv.defined, if_true, Option.map_eq_none_iff] at hmain
  rcases s with ⟨sh, main, i, producers, consumers, defined⟩
  cases main with
  | createProducers =>
      simp only [ProgramState.mainStep] at hmain
      split at hmain <;> cases hmain
  | createConsumers =>
      simp only [ProgramState.mainStep] at hmain
      split at hmain <;> cases hmain
  | joinProducers =>
      simp only [ProgramState.mainStep] at hmain
      split at hmain
      · rename_i hi
        rw [if_pos (hproducers i hi)] at hmain
        cases hmain
      · cases hmain
  | joinConsumers =>
      simp only [ProgramState.mainStep] at hmain
      split at hmain
      · rename_i hi
        rw [if_pos (hconsumers i hi)] at hmain
        cases hmain
      · cases hmain
  | returned => rfl

theorem finished_of_allDone (hp : nproducers ≤ MAXNTHREADS) (hc : nconsumers ≤ MAXNTHREADS)
    (hinv : ProgramInv nproducers nconsumers s) {fetched : List Nat}
    (hstuck : forall a, programStep nitems nproducers nconsumers s a = none)
    (hdone : AllDone nitems fetched (threads nproducers nconsumers s)) :
    Finished nitems nproducers nconsumers fetched s := by
  have hprod : forall p : Fin nproducers, s.producers.threadAt p = some ProducerPc.returned ∧
      ((threads nproducers nconsumers s).producers p).arg = s.producers.countAt p := by
    intro p
    rcases producer_there hp hinv hstuck p with ⟨pc, hthread, hmember⟩
    have hreturned := hdone.producers p
    rw [hmember] at hreturned ⊢
    change pc = ProducerPc.returned at hreturned
    rw [hthread, hreturned]
    exact ⟨rfl, rfl⟩
  have hcons : forall c : Fin nconsumers, s.consumers.threadAt c = some ConsumerPc.returned ∧
      ((threads nproducers nconsumers s).consumers c).arg = s.consumers.countAt c := by
    intro c
    rcases consumer_there hc hinv hstuck c with ⟨pc, hthread, hmember⟩
    have hreturned := hdone.consumers c
    rw [hmember] at hreturned ⊢
    change pc = ConsumerPc.returned at hreturned
    rw [hthread, hreturned]
    exact ⟨rfl, rfl⟩
  have hall := fun p hlt => (hprod ⟨p, hlt⟩).1
  have hall' := fun c hlt => (hcons ⟨c, hlt⟩).1
  refine ⟨main_returned hinv hstuck hall hall', hall, hall', ?_, ?_, hdone.fetched⟩
  · rw [Finset.sum_range, <- hdone.prodcount]
    exact Finset.sum_congr rfl fun p _ => (hprod p).2.symm
  · rw [Finset.sum_range, <- hdone.conscount]
    exact Finset.sum_congr rfl fun c _ => (hcons c).2.symm

theorem delivers_of_places [NeZero nproducers] [NeZero nconsumers]
    (hp : nproducers ≤ MAXNTHREADS) (hc : nconsumers ≤ MAXNTHREADS)
    {tr : List (ProgramTransition nproducers nconsumers)}
    (hrun : Run ProgramInit (programStep nitems nproducers nconsumers) tr s) :
    Delivers nitems nproducers nconsumers tr s := by
  rcases (threads_simulated hp hc).run hrun with ⟨hinv, hthreads⟩
  rcases items_in_order hthreads with ⟨hlaw, hroom, hdone⟩
  have hcoarse : forall (e : ProgramTransition nproducers nconsumers) l,
      e.Valid (programStep nitems nproducers nconsumers) -> threadStep e = some l ->
      l.2 = e.event := by
    rintro ⟨s, a, o, t⟩ l _ hlabel
    cases a <;> cases hlabel <;> rfl
  have hsilent : forall (e : ProgramTransition nproducers nconsumers) (g : List Nat),
      e.Valid (programStep nitems nproducers nconsumers) -> threadStep e = none ->
      observeItem g e.event = g ∧ ItemLaw g e.event := by
    rintro ⟨s, a, o, t⟩ g hvalid hlabel
    rcases programStep_cases hvalid with ⟨_, rfl, _⟩ | ⟨p, rfl, _⟩ | ⟨c, rfl, _⟩
    · exact ⟨rfl, trivial⟩
    · cases hlabel
    · cases hlabel
  rcases Simulation.atEach hrun hcoarse hsilent [] hlaw with ⟨hsame, horder⟩
  refine ⟨horder, hroom, fun hstuck => ?_⟩
  rw [hsame]
  exact finished_of_allDone hp hc hinv hstuck (hdone (threads_stuck hp hc hinv hstuck))

/-!
# Behind the arrays
-/

theorem creates_producers (nitems nconsumers : Nat) {k : Nat} (hk : k ≤ nproducers)
    (hplaces : k ≤ MAXNTHREADS) :
    exists tr s, Run ProgramInit (programStep nitems nproducers nconsumers) tr s ∧
      s.main = MainPc.createProducers ∧ s.i = k ∧ s.defined = true := by
  induction k with
  | zero =>
      exact ⟨[], _, ⟨_, ⟨fun _ => 0, fun _ => 0, rfl⟩, Path.nil⟩, rfl, rfl, rfl⟩
  | succ k ih =>
      rcases ih (Nat.le_of_succ_le hk) (Nat.le_of_succ_le hplaces) with
        ⟨tr, s, ⟨s0, hinit, hpath⟩, hmain, hi, hdefined⟩
      have hstep : programStep nitems nproducers nconsumers s ProgramAction.main =
          some ({ s with producers := s.producers.put s.i ProducerPc.waitEmpty 0,
                         i := s.i + 1 }, ItemEvent.silent) := by
        have hcreate : s.producers.create s.i ProducerPc.waitEmpty = _ :=
          Crew.create_of_lt (by lia)
        have hlt : s.i < nproducers := by lia
        simp only [programStep, hdefined, if_true, ProgramState.mainStep, hmain, hlt,
          ProgramState.createProducer, hcreate, Option.map_some]
      exact ⟨_, _, ⟨s0, hinit, Path.snoc hpath hstep⟩, hmain, congrArg Nat.succ hi, hdefined⟩

theorem creates_consumers (nitems : Nat) (hp : nproducers ≤ MAXNTHREADS) {k : Nat}
    (hk : k ≤ nconsumers) (hplaces : k ≤ MAXNTHREADS) :
    exists tr s, Run ProgramInit (programStep nitems nproducers nconsumers) tr s ∧
      s.main = MainPc.createConsumers ∧ s.i = k ∧ s.defined = true := by
  induction k with
  | zero =>
      rcases creates_producers nitems nconsumers (Nat.le_refl nproducers) hp with
        ⟨tr, s, ⟨s0, hinit, hpath⟩, hmain, hi, hdefined⟩
      have hstep : programStep nitems nproducers nconsumers s ProgramAction.main =
          some ({ s with main := MainPc.createConsumers, i := 0 }, ItemEvent.silent) := by
        have hge : ¬ s.i < nproducers := by lia
        simp only [programStep, hdefined, if_true, ProgramState.mainStep, hmain, hge, if_false,
          Option.map_some]
      exact ⟨_, _, ⟨s0, hinit, Path.snoc hpath hstep⟩, rfl, rfl, hdefined⟩
  | succ k ih =>
      rcases ih (Nat.le_of_succ_le hk) (Nat.le_of_succ_le hplaces) with
        ⟨tr, s, ⟨s0, hinit, hpath⟩, hmain, hi, hdefined⟩
      have hstep : programStep nitems nproducers nconsumers s ProgramAction.main =
          some ({ s with consumers := s.consumers.put s.i ConsumerPc.waitStored 0,
                         i := s.i + 1 }, ItemEvent.silent) := by
        have hcreate : s.consumers.create s.i ConsumerPc.waitStored = _ :=
          Crew.create_of_lt (by lia)
        have hlt : s.i < nconsumers := by lia
        simp only [programStep, hdefined, if_true, ProgramState.mainStep, hmain, hlt,
          ProgramState.createConsumer, hcreate, Option.map_some]
      exact ⟨_, _, ⟨s0, hinit, Path.snoc hpath hstep⟩, hmain, congrArg Nat.succ hi, hdefined⟩

/-- The thread that has no place is created all the same. -/
theorem stores_behind (nitems : Nat)
    (h : MAXNTHREADS < nproducers ∨ nproducers ≤ MAXNTHREADS ∧ MAXNTHREADS < nconsumers) :
    exists tr s, Run ProgramInit (programStep nitems nproducers nconsumers) tr s ∧
      s.main ≠ MainPc.returned ∧ s.defined = false := by
  rcases h with hp | ⟨hp, hc⟩
  · rcases creates_producers nitems nconsumers (Nat.le_of_lt hp) (Nat.le_refl MAXNTHREADS) with
      ⟨tr, s, ⟨s0, hinit, hpath⟩, hmain, hi, hdefined⟩
    have hstep : programStep nitems nproducers nconsumers s ProgramAction.main =
        some ({ s with defined := false }, ItemEvent.silent) := by
      have hcreate : s.producers.create s.i ProducerPc.waitEmpty = none :=
        Crew.create_behind (Nat.le_of_eq hi.symm)
      have hlt : s.i < nproducers := by lia
      simp only [programStep, hdefined, if_true, ProgramState.mainStep, hmain, hlt,
        ProgramState.createProducer, hcreate, Option.map_some]
    refine ⟨_, _, ⟨s0, hinit, Path.snoc hpath hstep⟩, ?_, rfl⟩
    intro hreturned
    rw [hmain] at hreturned
    cases hreturned
  · rcases creates_consumers nitems hp (Nat.le_of_lt hc) (Nat.le_refl MAXNTHREADS) with
      ⟨tr, s, ⟨s0, hinit, hpath⟩, hmain, hi, hdefined⟩
    have hstep : programStep nitems nproducers nconsumers s ProgramAction.main =
        some ({ s with defined := false }, ItemEvent.silent) := by
      have hcreate : s.consumers.create s.i ConsumerPc.waitStored = none :=
        Crew.create_behind (Nat.le_of_eq hi.symm)
      have hlt : s.i < nconsumers := by lia
      simp only [programStep, hdefined, if_true, ProgramState.mainStep, hmain, hlt,
        ProgramState.createConsumer, hcreate, Option.map_some]
    refine ⟨_, _, ⟨s0, hinit, Path.snoc hpath hstep⟩, ?_, rfl⟩
    intro hreturned
    rw [hmain] at hreturned
    cases hreturned

/-- Whatever an undefined state does, it is not what the program is for. -/
theorem not_delivers_of_undefined {tr : List (ProgramTransition nproducers nconsumers)}
    (hmain : s.main ≠ MainPc.returned) (hundefined : s.defined = false) :
    ¬ Delivers nitems nproducers nconsumers tr s := by
  intro hdelivers
  refine hmain (hdelivers.finished ?_).main
  intro a
  simp [programStep, hundefined]

end Delivery

/-- Every run of prodcons4 delivers all items exactly if the arrays have a place for each
thread. -/
theorem prodcons4_delivers_iff (nitems nproducers nconsumers : Nat) (hp : 1 ≤ nproducers)
    (hc : 1 ≤ nconsumers) :
    (forall (tr : List (ProgramTransition nproducers nconsumers)) s,
      Run ProgramInit (programStep nitems nproducers nconsumers) tr s ->
        Delivers nitems nproducers nconsumers tr s) <->
      nproducers ≤ MAXNTHREADS ∧ nconsumers ≤ MAXNTHREADS := by
  constructor
  · intro hall
    by_contra hplaces
    have hbehind : MAXNTHREADS < nproducers ∨
        nproducers ≤ MAXNTHREADS ∧ MAXNTHREADS < nconsumers := by lia
    rcases stores_behind nitems hbehind with ⟨tr, s, hrun, hmain, hundefined⟩
    exact not_delivers_of_undefined hmain hundefined (hall tr s hrun)
  · rintro ⟨hplaces, hplaces'⟩ tr s hrun
    have : NeZero nproducers := ⟨Nat.pos_iff_ne_zero.mp hp⟩
    have : NeZero nconsumers := ⟨Nat.pos_iff_ne_zero.mp hc⟩
    exact delivers_of_places hplaces hplaces' hrun

/-- One producer and one consumer bring two items through, and `main` returns. -/
theorem prodcons4_delivers_iff_twoItems :
    exists (tr : List (ProgramTransition 1 1)) (s : ProgramState),
      Run ProgramInit (programStep 2 1 1) tr s ∧
        Finished 2 1 1 (observed observeItem [] tr) s := by
  have hinit : ProgramInit
      { shared := (bufferStart : BufferState Unit Unit).shared,
        main := MainPc.createProducers, i := 0,
        producers := { count := fun _ => 7, tid := fun _ => none },
        consumers := { count := fun _ => 7, tid := fun _ => none },
        defined := true } := ⟨_, _, rfl⟩
  have hreplay : exists (tr : List (ProgramTransition 1 1)) (s : ProgramState),
      Run ProgramInit (programStep 2 1 1) tr s ∧
        ((programStep 2 1 1 s ProgramAction.main).isNone &&
          (programStep 2 1 1 s (ProgramAction.produce 0)).isNone &&
          (programStep 2 1 1 s (ProgramAction.consume 0)).isNone) = true :=
    run_of_replay (List.replicate 4 ProgramAction.main ++
      List.replicate 24 (ProgramAction.produce 0) ++
      List.replicate 25 (ProgramAction.consume 0) ++ List.replicate 4 ProgramAction.main)
      hinit (by decide +kernel)
  rcases hreplay with ⟨tr, s, hrun, htest⟩
  simp only [Bool.and_eq_true, Option.isNone_iff_eq_none] at htest
  rcases htest with ⟨⟨hmain, hproduce⟩, hconsume⟩
  refine ⟨tr, s, hrun, Delivers.finished ?_ ?_⟩
  · exact (prodcons4_delivers_iff 2 1 1 (Nat.le_refl 1) (Nat.le_refl 1)).mpr
      ⟨by decide, by decide⟩ tr s hrun
  · intro a
    cases a with
    | main => exact hmain
    | produce p =>
        rw [Subsingleton.elim p 0]
        exact hproduce
    | consume c =>
        rw [Subsingleton.elim c 0]
        exact hconsume

/-- With a hundred and one producers `main` stores a counter behind its array. -/
theorem prodcons4_stores_behind_101Producers :
    exists (tr : List (ProgramTransition 101 1)) (s : ProgramState),
      Run ProgramInit (programStep 2 101 1) tr s ∧ ¬ Delivers 2 101 1 tr s := by
  rcases stores_behind 2 (Or.inl (Nat.lt_succ_self MAXNTHREADS)) with
    ⟨tr, s, hrun, hmain, hundefined⟩
  exact ⟨tr, s, hrun, not_delivers_of_undefined hmain hundefined⟩

end Prodcons4
end InterprocessComm
