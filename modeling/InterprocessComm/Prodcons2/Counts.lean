import InterprocessComm.Lib.Ranking
import InterprocessComm.Prodcons2.Checks

/-!
# The counts

What the main thread keeps, and what the two programs have printed when they end.
-/

namespace InterprocessComm
namespace Prodcons2

open Verification

/-!
# Steps of the main thread
-/

section Mains

variable {n : Nat} {prog : Program} {nitems : Int} {out : List Line} {s t : State n}
  {o : Option Line}

theorem Inv.moves (h : Inv prog nitems out s) {m : Main}
    (hstaged : Staged prog { s with main := m })
    (hprinted : Printed prog (out ++ o.toList) { s with main := m }) :
    Inv prog nitems (out ++ o.toList) { s with main := m } :=
  ⟨⟨h.counted.mutex, h.counted.nval, h.counted.count⟩,
    ⟨h.stored.producers, h.stored.buff, h.stored.nput_le, h.stored.empty⟩, h.consumer, hstaged,
    hprinted⟩

theorem Staged.goes (h : Staged prog s) {m : Main}
    (hcreated : forall p, (s.producers p).pc ≠ ProducerPc.uncreated)
    (hm : m.pc ≠ MainPc.create) (hbefore : m.before prog = s.main.before prog)
    (hjoined : forall p : Fin n, p.val < m.joined prog n -> p.val < s.main.joined prog n ∨
      (s.producers p).pc = ProducerPc.returned)
    (hle : m.joined prog n ≤ n) (hprint : m.pc = MainPc.print -> m.i < n)
    (hexited : m.pc = MainPc.exited -> s.consumer.pc = ConsumerPc.returned) :
    Staged prog { s with main := m } := by
  refine ⟨?_, h.fresh, ?_, ?_, hle, hprint, hexited⟩
  · intro p
    exact iff_of_false (hcreated p) fun hmain => hm hmain.1
  · show s.consumer.pc = ConsumerPc.uncreated <-> m.before prog = true
    rw [hbefore]
    exact h.started
  · intro p hlt
    rcases hjoined p hlt with hold | hreturned
    · exact h.joined p hold
    · exact hreturned

theorem Staged.all_created (h : Staged prog s) (hpc : s.main.pc ≠ MainPc.create) (p : Fin n) :
    (s.producers p).pc ≠ ProducerPc.uncreated :=
  fun huncreated => hpc ((h.created p).mp huncreated).1

theorem Staged.create (h : Staged prog s) (hpc : s.main.pc = MainPc.create)
    (hmore : s.main.i < n) :
    Staged prog { s with
      producers := Function.update s.producers ⟨s.main.i, hmore⟩ ⟨ProducerPc.lock, 0⟩
      main := { s.main with i := s.main.i + 1 } } := by
  have hjoined : Main.joined prog n { s.main with i := s.main.i + 1 } = 0 := by
    simp only [Main.joined, hpc]
  have hbefore : Main.before prog { s.main with i := s.main.i + 1 } = s.main.before prog := by
    simp only [Main.before, hpc]
  constructor
  · intro p
    show (Function.update s.producers ⟨s.main.i, hmore⟩ ⟨ProducerPc.lock, 0⟩ p).pc = _ <->
      s.main.pc = MainPc.create ∧ s.main.i + 1 ≤ p.val
    rcases eq_or_ne p ⟨s.main.i, hmore⟩ with rfl | hne
    · rw [Function.update_self]
      simp
    · have hval : p.val ≠ s.main.i := fun heq => hne (Fin.ext heq)
      rw [Function.update_of_ne hne, h.created p]
      constructor
      · rintro ⟨_, hle⟩
        exact ⟨hpc, by lia⟩
      · rintro ⟨_, hle⟩
        exact ⟨hpc, by lia⟩
  · intro p huncreated
    rcases eq_or_ne p ⟨s.main.i, hmore⟩ with rfl | hne
    · simp only [Function.update_self]
    · simp only [Function.update_of_ne hne] at huncreated ⊢
      exact h.fresh p huncreated
  · show s.consumer.pc = ConsumerPc.uncreated <-> _ = true
    rw [hbefore]
    exact h.started
  · intro p hlt
    rw [hjoined] at hlt
    exact absurd hlt (Nat.not_lt_zero _)
  · rw [hjoined]
    exact Nat.zero_le n
  · intro hprint
    cases hpc.symm.trans hprint
  · intro hexited
    cases hpc.symm.trans hexited

theorem Inv.create (h : Inv prog nitems out s) (hpc : s.main.pc = MainPc.create)
    (hmore : s.main.i < n) :
    Inv prog nitems out { s with
      producers := Function.update s.producers ⟨s.main.i, hmore⟩ ⟨ProducerPc.lock, 0⟩
      main := { s.main with i := s.main.i + 1 } } := by
  have huncreated : (s.producers ⟨s.main.i, hmore⟩).pc = ProducerPc.uncreated :=
    (h.staged.created _).mpr ⟨hpc, Nat.le_refl _⟩
  have hsame : forall w : Producer -> Nat,
      w ⟨ProducerPc.lock, 0⟩ = w ⟨ProducerPc.uncreated, 0⟩ ->
      total w (Function.update s.producers ⟨s.main.i, hmore⟩ ⟨ProducerPc.lock, 0⟩) =
        total w s.producers := by
    intro w hw
    have hmove := total_update w s.producers ⟨s.main.i, hmore⟩ ⟨ProducerPc.lock, 0⟩
    have hbefore : s.producers ⟨s.main.i, hmore⟩ = ⟨ProducerPc.uncreated, 0⟩ := by
      rw [← huncreated, ← h.staged.fresh _ huncreated]
    rw [hbefore, hw] at hmove
    lia
  have hprinted : Main.printed prog n { s.main with i := s.main.i + 1 } =
      s.main.printed prog n := by
    simp only [Main.printed, Main.joined, hpc]
  refine ⟨?_, ?_, h.consumer, h.staged.create hpc hmore, ?_⟩
  · constructor
    · show total _ _ + s.consumer.inside = _
      rw [hsame _ rfl]
      exact h.counted.mutex
    · show s.shared.nval + total _ _ = _
      rw [hsame _ rfl]
      exact h.counted.nval
    · show total _ _ = _
      rw [hsame _ rfl]
      exact h.counted.count
  · refine ⟨?_, h.stored.buff, h.stored.nput_le, h.stored.empty⟩
    apply (Function.forall_update_iff s.producers fun _ t => t.pc.Ok nitems s.shared).mpr
    exact ⟨trivial, fun q _ => h.stored.producers q⟩
  · refine ⟨h.printed.differs, ?_, ?_⟩
    · rw [hprinted]
      exact h.printed.length
    · intro p hlt
      rw [hprinted] at hlt
      simp only [Main.printed, Main.joined, hpc] at hlt
      exact absurd hlt (Nat.not_lt_zero _)

theorem Printed.goes (h : Printed prog out s) {m : Main}
    (hprinted : m.printed prog n = s.main.printed prog n) :
    Printed prog (out ++ none.toList) { s with main := m } := by
  rw [Option.toList_none, List.append_nil]
  refine ⟨h.differs, ?_, ?_⟩
  · rw [hprinted]
    exact h.length
  · intro p hlt
    rw [hprinted] at hlt
    exact h.count p hlt

theorem Printed.print (h : Printed prog out s) (hpc : s.main.pc = MainPc.print)
    (hmore : s.main.i < n) :
    Printed prog (out ++ [Line.count s.main.i (s.producers ⟨s.main.i, hmore⟩).arg])
      { s with main := ⟨MainPc.join, s.main.i + 1⟩ } := by
  have hn : n ≠ 0 := Nat.ne_of_gt (Nat.zero_lt_of_lt hmore)
  have hlength : out.length = s.main.i := by
    rw [h.length hn]
    simp only [Main.printed, hpc]
  refine ⟨fun hzero => absurd hzero hn, ?_, ?_⟩
  · intro _
    rw [List.length_append, hlength]
    rfl
  · intro p hlt
    have hle : p.val ≤ s.main.i := Nat.lt_succ_iff.mp hlt
    rcases Nat.lt_or_eq_of_le hle with hless | heq
    · rw [List.getElem?_append_left (by rw [hlength]; exact hless)]
      refine h.count p ?_
      simp only [Main.printed, hpc]
      exact hless
    · have hp : p = ⟨s.main.i, hmore⟩ := Fin.ext heq
      rw [hp, List.getElem?_append_right (by simp [hlength])]
      simp [hlength]

theorem Inv.start (h : Inv prog nitems out s) (hpc : s.main.pc = MainPc.start) :
    Inv prog nitems (out ++ none.toList) { s with
      consumer := ⟨ConsumerPc.test, 0⟩
      main := ⟨if prog.early then MainPc.join else MainPc.wait, 0⟩ } := by
  have huncreated : s.consumer.pc = ConsumerPc.uncreated := by
    rw [h.staged.started]
    simp only [Main.before, hpc]
  have hzero : s.consumer.i = 0 := by
    have hok := h.consumer
    unfold Consumer.Ok at hok
    rw [huncreated] at hok
    exact hok
  have hcreated := h.staged.all_created (by rw [hpc]; exact MainPc.noConfusion)
  have hjoined : Main.joined prog n ⟨if prog.early then MainPc.join else MainPc.wait, 0⟩ =
      s.main.joined prog n := by
    simp only [Main.joined, hpc]
    cases prog.early <;> rfl
  have hprinted : Main.printed prog n ⟨if prog.early then MainPc.join else MainPc.wait, 0⟩ =
      s.main.printed prog n := by
    simp only [Main.printed, Main.joined, hpc]
    cases prog.early <;> rfl
  rw [Option.toList_none, List.append_nil]
  constructor
  · constructor
    · show producersAt ProducerPc.inside s + 0 = _
      have hmutex := h.counted.mutex
      simp only [Consumer.inside, huncreated] at hmutex
      exact hmutex
    · exact h.counted.nval
    · exact h.counted.count
  · exact ⟨h.stored.producers, h.stored.buff, h.stored.nput_le, h.stored.empty⟩
  · exact Nat.zero_le _
  · refine ⟨?_, h.staged.fresh, ?_, ?_, ?_, ?_, ?_⟩
    · intro p
      refine iff_of_false (hcreated p) ?_
      cases prog.early <;> rintro ⟨hcreate, _⟩ <;> cases hcreate
    · refine iff_of_false ConsumerPc.noConfusion ?_
      simp only [Main.before]
      cases hearly : prog.early <;> simp
    · rw [hjoined]
      exact h.staged.joined
    · rw [hjoined]
      exact h.staged.joined_le
    · cases prog.early <;> exact MainPc.noConfusion
    · cases prog.early <;> exact MainPc.noConfusion
  · refine ⟨?_, ?_, ?_⟩
    · intro hn
      rw [h.printed.differs hn]
      simp only [Consumer.checked, huncreated, hzero]
    · rw [hprinted]
      exact h.printed.length
    · rw [hprinted]
      exact h.printed.count

theorem Inv.main (h : Inv prog nitems out s) (hstep : MainStepped prog s t o) :
    Inv prog nitems (out ++ o.toList) t := by
  cases hstep with
  | create hpc hmore =>
      rw [Option.toList_none, List.append_nil]
      exact h.create hpc hmore
  | created hpc hall =>
      have hcreated : forall p, (s.producers p).pc ≠ ProducerPc.uncreated := by
        intro p huncreated
        have hle := ((h.staged.created p).mp huncreated).2
        exact absurd p.isLt (Nat.not_lt.mpr (Nat.le_trans hall hle))
      refine h.moves (h.staged.goes hcreated ?_ ?_ ?_ ?_ ?_ ?_) (h.printed.goes ?_)
      · cases prog.early <;> exact MainPc.noConfusion
      · simp only [Main.before, hpc]
        cases hearly : prog.early <;> simp
      · intro p hlt
        simp only [Main.joined] at hlt
        cases hearly : prog.early <;> simp [hearly] at hlt
      · simp only [Main.joined]
        cases hearly : prog.early <;> simp
      · cases prog.early <;> exact MainPc.noConfusion
      · cases prog.early <;> exact MainPc.noConfusion
      · simp only [Main.printed, Main.joined, hpc]
        cases hearly : prog.early <;> simp
  | start hpc => exact h.start hpc
  | join hpc hmore hreturned =>
      have hcreated := h.staged.all_created (by rw [hpc]; exact MainPc.noConfusion)
      refine h.moves (h.staged.goes hcreated MainPc.noConfusion ?_ ?_ hmore (fun _ => hmore)
        MainPc.noConfusion) (h.printed.goes ?_)
      · simp only [Main.before, hpc]
      · intro p hlt
        simp only [Main.joined, hpc] at hlt ⊢
        rcases Nat.lt_succ_iff_lt_or_eq.mp hlt with hless | heq
        · exact Or.inl hless
        · right
          rw [show p = ⟨s.main.i, hmore⟩ from Fin.ext heq]
          exact hreturned
      · simp only [Main.printed, Main.joined, hpc]
  | joined hpc hall =>
      have hcreated := h.staged.all_created (by rw [hpc]; exact MainPc.noConfusion)
      have hlast : s.main.i = n := by
        have hle := h.staged.joined_le
        simp only [Main.joined, hpc] at hle
        exact Nat.le_antisymm hle hall
      refine h.moves (h.staged.goes hcreated ?_ ?_ ?_ ?_ ?_ ?_) (h.printed.goes ?_)
      · cases prog.early <;> exact MainPc.noConfusion
      · simp only [Main.before, hpc]
        cases hearly : prog.early <;> simp
      · intro p _
        left
        simp only [Main.joined, hpc, hlast]
        exact p.isLt
      · simp only [Main.joined]
        cases hearly : prog.early <;> simp
      · cases prog.early <;> exact MainPc.noConfusion
      · cases prog.early <;> exact MainPc.noConfusion
      · simp only [Main.printed, Main.joined, hpc, hlast]
        cases hearly : prog.early <;> simp
  | print hpc hmore =>
      have hcreated := h.staged.all_created (by rw [hpc]; exact MainPc.noConfusion)
      refine h.moves (h.staged.goes hcreated MainPc.noConfusion ?_ ?_ hmore MainPc.noConfusion
        MainPc.noConfusion) ?_
      · simp only [Main.before, hpc]
      · intro p hlt
        left
        simp only [Main.joined, hpc] at hlt ⊢
        exact hlt
      · exact h.printed.print hpc hmore
  | wait hpc hreturned =>
      have hcreated := h.staged.all_created (by rw [hpc]; exact MainPc.noConfusion)
      refine h.moves (h.staged.goes hcreated MainPc.noConfusion ?_ ?_ (Nat.le_refl n)
        MainPc.noConfusion (fun _ => hreturned)) (h.printed.goes ?_)
      · simp only [Main.before, hpc]
      · intro p hlt
        left
        simp only [Main.joined, hpc] at hlt ⊢
        exact hlt
      · simp only [Main.printed, Main.joined, hpc]

end Mains

/-!
# Progress
-/

section Progress

variable {n : Nat} {prog : Program} {nitems : Int} {out : List Line} {s : State n}

/-- A producer waits for the mutex only; there is room for what it stores. -/
theorem producer_acts {sh : Shared} {t : Producer} (hroom : nitems ≤ MAXNITEMS)
    (hok : t.pc.Ok nitems sh) (hcreated : t.pc ≠ ProducerPc.uncreated)
    (hrunning : t.pc ≠ ProducerPc.returned)
    (hlock : t.pc = ProducerPc.lock -> sh.mutex = false) : producerStep nitems sh t ≠ none := by
  rcases t with ⟨pc, arg⟩
  cases pc with
  | uncreated => exact absurd rfl hcreated
  | lock => simp [producerStep, hlock rfl]
  | test =>
      simp only [producerStep]
      split <;> exact Option.some_ne_none _
  | store =>
      have hlt : (sh.nput : Int) < nitems := hok
      have hplace : sh.nput < MAXNITEMS := by lia
      simp [producerStep, hplace]
  | returned => exact absurd rfl hrunning
  | _ => exact Option.some_ne_none _

theorem consumer_acts {sh : Shared} {t : Consumer} (hcreated : t.pc ≠ ConsumerPc.uncreated)
    (hrunning : t.pc ≠ ConsumerPc.returned)
    (hlock : t.pc = ConsumerPc.lock -> sh.mutex = false) :
    consumerStep prog nitems sh t ≠ none := by
  rcases t with ⟨pc, i⟩
  cases pc with
  | uncreated => exact absurd rfl hcreated
  | test =>
      simp only [consumerStep]
      split
      · split <;> exact Option.some_ne_none _
      · exact Option.some_ne_none _
  | lock => simp [consumerStep, hlock rfl]
  | testPut =>
      simp only [consumerStep]
      split <;> exact Option.some_ne_none _
  | returned => exact absurd rfl hrunning
  | _ => exact Option.some_ne_none _

theorem no_producerStep (hstuck : Stuck (step prog nitems) s) (p : Fin n) :
    producerStep nitems s.shared (s.producers p) = none :=
  Option.map_eq_none_iff.mp (hstuck (Action.produce p))

theorem no_consumerStep (hstuck : Stuck (step prog nitems) s) :
    consumerStep prog nitems s.shared s.consumer = none :=
  Option.map_eq_none_iff.mp (hstuck Action.consume)

theorem Inv.unlocked (h : Inv prog nitems out s) (hroom : nitems ≤ MAXNITEMS)
    (hstuck : Stuck (Prodcons2.step prog nitems) s) : s.shared.mutex = false := by
  by_contra hlocked
  have hmutex := h.counted.mutex
  rw [Bool.not_eq_false] at hlocked
  rw [hlocked] at hmutex
  have hconsumer : s.consumer.inside = 0 := by
    by_contra hinside
    unfold Consumer.inside at hinside
    refine consumer_acts ?_ ?_ ?_ (no_consumerStep hstuck)
    · intro hpc
      simp [hpc] at hinside
    · intro hpc
      simp [hpc] at hinside
    · intro hpc
      simp [hpc] at hinside
  have hproducers : producersAt ProducerPc.inside s = 0 := by
    refine total_eq_zero_iff.mpr ?_
    intro p
    by_contra hinside
    refine producer_acts hroom (h.stored.producers p) ?_ ?_ ?_ (no_producerStep hstuck p)
    · intro hpc
      simp [hpc, ProducerPc.inside] at hinside
    · intro hpc
      simp [hpc, ProducerPc.inside] at hinside
    · intro hpc
      simp [hpc, ProducerPc.inside] at hinside
  rw [hconsumer, hproducers] at hmutex
  cases hmutex

theorem Inv.exited_of_stuck (h : Inv prog nitems out s) (hroom : nitems ≤ MAXNITEMS)
    (hstuck : Stuck (Prodcons2.step prog nitems) s) : s.main.pc = MainPc.exited := by
  have hfree := h.unlocked hroom hstuck
  have hnone : mainStep prog s = none := hstuck Action.main
  unfold mainStep at hnone
  cases hpc : s.main.pc with
  | create =>
      simp only [hpc] at hnone
      split at hnone <;> cases hnone
  | start =>
      simp only [hpc] at hnone
      cases hnone
  | join =>
      exfalso
      simp only [hpc] at hnone
      split at hnone
      · rename_i hmore
        split at hnone
        · cases hnone
        · rename_i hrunning
          exact producer_acts hroom (h.stored.producers _)
            (h.staged.all_created (by rw [hpc]; exact MainPc.noConfusion) _) hrunning
            (fun _ => hfree) (no_producerStep hstuck ⟨s.main.i, hmore⟩)
      · cases hnone
  | print =>
      simp only [hpc, dif_pos (h.staged.print hpc)] at hnone
      cases hnone
  | wait =>
      exfalso
      simp only [hpc] at hnone
      split at hnone
      · cases hnone
      · rename_i hrunning
        refine consumer_acts ?_ hrunning (fun _ => hfree) (no_consumerStep hstuck)
        rw [Ne, h.staged.started]
        simp only [Main.before, hpc]
        exact Bool.noConfusion
  | exited => rfl

end Progress

/-!
# Runs
-/

section Runs

variable {n : Nat} {prog : Program} {nitems : Int} {out : List Line} {s : State n}
  {tr : List (Transition (State n) (Action n) (Option Line))}

theorem inv_run (hprog : prog.early = true -> prog.consume_wait = true)
    (hrun : Run Init (step prog nitems) tr s) : Inv prog nitems (lines tr) s := by
  refine run_induction (I := fun tr s => Inv prog nitems (lines tr) s) (fun _ => init_inv) ?_ hrun
  intro tr s a o t _ h hstep
  have hlines : lines (tr ++ [⟨s, a, o, t⟩]) = lines tr ++ o.toList := by
    cases o <;> simp [lines]
  rw [hlines]
  cases a with
  | main => exact h.main (mainStepped hstep)
  | produce p =>
      rcases Option.map_eq_some_iff.mp hstep with ⟨r, hnext, heq⟩
      cases heq
      rw [Option.toList_none, List.append_nil]
      exact h.produce (producerStepped hnext)
  | consume =>
      rcases Option.map_eq_some_iff.mp hstep with ⟨r, hnext, heq⟩
      cases heq
      exact h.consume hprog (consumerStepped hnext)

def counts (s : State n) : List Line :=
  List.ofFn fun p => Line.count p (s.producers p).arg

theorem Inv.counts_prefix (h : Inv prog nitems out s) (hn : n ≠ 0) : out <+: counts s := by
  have hlength : out.length ≤ n := by
    rw [h.printed.length hn]
    exact Nat.le_trans (Main.printed_le_joined _) h.staged.joined_le
  refine List.prefix_iff_getElem?.mpr ?_
  intro i hi
  have hlt : i < n := Nat.lt_of_lt_of_le hi hlength
  have hprinted := h.printed.count ⟨i, hlt⟩ (by rw [← h.printed.length hn]; exact hi)
  rw [← List.getElem?_eq_getElem hi, hprinted, counts, List.getElem?_ofFn, dif_pos hlt]

theorem differLines_prefix {k m : Nat} (h : k ≤ m) : differLines k <+: differLines m := by
  induction h with
  | refl => exact List.prefix_rfl
  | step _ ih =>
      rw [differLines_succ]
      exact ih.trans (List.prefix_append _ _)

theorem Consumer.checked_le {t : Consumer} {nput : Nat} (hok : t.Ok prog nitems nput) :
    t.checked ≤ nitems.toNat := by
  rcases t with ⟨pc, i⟩
  cases pc with
  | uncreated =>
      have hzero : i = 0 := hok
      show i ≤ _
      lia
  | test => exact hok
  | returned => exact Nat.le_of_eq hok
  | _ =>
      have hlt := hok.1
      simp only [Consumer.checked]
      simp only at hlt
      lia

theorem Inv.total_counts (h : Inv prog nitems out s) (hexit : s.main.pc = MainPc.exited)
    (hn : n ≠ 0) : total (fun t => t.arg) s.producers = nitems.toNat := by
  have hreturned : forall p, (s.producers p).pc = ProducerPc.returned := by
    intro p
    apply h.staged.joined p
    simp only [Main.joined, hexit]
    exact p.isLt
  have hcounted : total (fun t => t.arg) s.producers =
      total (fun t => t.arg + t.pc.uncounted) s.producers := by
    refine Finset.sum_congr rfl fun p _ => ?_
    simp only [hreturned p, ProducerPc.uncounted, Nat.add_zero]
  have hfull := h.stored.producers ⟨0, Nat.pos_of_ne_zero hn⟩
  rw [hreturned] at hfull
  have hle : nitems ≤ s.shared.nput := hfull
  rw [hcounted, h.counted.count]
  have hroom := h.stored.nput_le
  lia

theorem Inv.counts_printed (h : Inv prog nitems out s) (hexit : s.main.pc = MainPc.exited)
    (hn : n ≠ 0) : out = counts s := by
  refine (h.counts_prefix hn).eq_of_length ?_
  rw [h.printed.length hn, counts, List.length_ofFn]
  simp only [Main.printed, Main.joined, hexit]

theorem Inv.differs_printed (h : Inv prog nitems out s) (hexit : s.main.pc = MainPc.exited)
    (hn : n = 0) : out = differLines nitems.toNat := by
  have hok := h.consumer
  unfold Consumer.Ok at hok
  rw [h.staged.exited hexit] at hok
  rw [h.printed.differs hn, ← hok]
  simp only [Consumer.checked, h.staged.exited hexit]

end Runs

/-- Both programs print the counts of the producers in their order, and nothing else: the consumer
finds every item in its place.  The counts sum to the number of the items.  Without a producer the
consumer of prodcons2 reports all items but the first.  No thread waits for ever. -/
theorem items_counted {prog : Program} (hprog : prog = prodcons2 ∨ prog = prodcons3) {a : Args}
    {tr : List (Transition (State a.nthreads.toNat) (Action a.nthreads.toNat) (Option Line))}
    {s : State a.nthreads.toNat} (hrun : Run Init (step prog a.nitems) tr s) :
    (a.nthreads.toNat ≠ 0 -> lines tr <+: counts s ∧
        (s.main.pc = MainPc.exited ->
          lines tr = counts s ∧ total (fun t => t.arg) s.producers = a.nitems.toNat)) ∧
      (a.nthreads.toNat = 0 -> lines tr <+: differLines a.nitems.toNat ∧
        (s.main.pc = MainPc.exited -> lines tr = differLines a.nitems.toNat)) ∧
      (Stuck (step prog a.nitems) s -> s.main.pc = MainPc.exited) := by
  have hwaits : prog.early = true -> prog.consume_wait = true := by
    rcases hprog with rfl | rfl
    · exact Bool.noConfusion
    · exact fun _ => rfl
  have h := inv_run hwaits hrun
  refine ⟨?_, ?_, h.exited_of_stuck (Int.min_le_right _ _)⟩
  · intro hn
    exact ⟨h.counts_prefix hn, fun hexit => ⟨h.counts_printed hexit hn, h.total_counts hexit hn⟩⟩
  · intro hn
    refine ⟨?_, fun hexit => h.differs_printed hexit hn⟩
    rw [h.printed.differs hn]
    exact differLines_prefix (Consumer.checked_le h.consumer)

def twoItems : Args :=
  { items := 2, threads := 2 }

/-- The consumer asks for the first item before it is there; each producer stores one. -/
theorem items_counted_twoItems :
    exists (tr : List (Transition (State 2) (Action 2) (Option Line))) (s : State 2),
      Run Init (step prodcons3 twoItems.nitems) tr s ∧ s.main.pc = MainPc.exited ∧
        lines tr = [Line.count 0 1, Line.count 1 1] ∧
        total (fun t : Producer => t.arg) s.producers = 2 := by
  have hreplay : exists (tr : List (Transition (State 2) (Action 2) (Option Line))) (s : State 2),
      Run Init (step prodcons3 twoItems.nitems) tr s ∧
        decide (s.main.pc = MainPc.exited ∧ counts s = [Line.count 0 1, Line.count 1 1]) = true :=
    run_of_replay
      (List.replicate 4 Action.main ++ List.replicate 4 Action.consume ++
        List.replicate 7 (Action.produce 0) ++ List.replicate 10 (Action.produce 1) ++
        List.replicate 3 (Action.produce 0) ++ List.replicate 12 Action.consume ++
        List.replicate 6 Action.main)
      rfl (by decide +kernel)
  rcases hreplay with ⟨tr, s, hrun, htest⟩
  rcases of_decide_eq_true htest with ⟨hexit, hcounts⟩
  have hall := (items_counted (Or.inr rfl) (a := twoItems) hrun).1 (by decide)
  rcases hall.2 hexit with ⟨hlines, htotal⟩
  exact ⟨tr, s, hrun, hexit, hlines.trans hcounts, htotal⟩

end Prodcons2
end InterprocessComm
