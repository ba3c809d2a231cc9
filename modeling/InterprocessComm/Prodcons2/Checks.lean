import InterprocessComm.Prodcons2.Steps

/-!
# What the programs print

The counts of the producers come in order and sum to the number of the items, and the consumer
finds every item in its place, unless there is no producer at all.
-/

namespace InterprocessComm
namespace Prodcons2

open Verification

/-!
# The invariant
-/

section Invariant

variable {n : Nat}

def producersAt (w : ProducerPc -> Nat) (s : State n) : Nat :=
  total (fun t => w t.pc) s.producers

structure Counted (s : State n) : Prop where
  mutex : producersAt ProducerPc.inside s + s.consumer.inside = s.shared.mutex.toNat
  nval : s.shared.nval + producersAt ProducerPc.putting s = s.shared.nput
  count : total (fun t => t.arg + t.pc.uncounted) s.producers = s.shared.nput

structure Stored (nitems : Int) (s : State n) : Prop where
  producers : forall p, (s.producers p).pc.Ok nitems s.shared
  buff : forall j, j < s.shared.nput -> s.shared.buff j = j
  nput_le : s.shared.nput ≤ nitems.toNat
  empty : n = 0 -> forall j, s.shared.buff j = 0

/-- Which threads have been created and joined when `main` is where it is. -/
structure Staged (prog : Program) (s : State n) : Prop where
  created : forall p, (s.producers p).pc = ProducerPc.uncreated <->
    s.main.pc = MainPc.create ∧ s.main.i ≤ p.val
  fresh : forall p, (s.producers p).pc = ProducerPc.uncreated -> (s.producers p).arg = 0
  started : s.consumer.pc = ConsumerPc.uncreated <-> s.main.before prog = true
  joined : forall p, p.val < s.main.joined prog n -> (s.producers p).pc = ProducerPc.returned
  joined_le : s.main.joined prog n ≤ n
  print : s.main.pc = MainPc.print -> s.main.i < n
  exited : s.main.pc = MainPc.exited -> s.consumer.pc = ConsumerPc.returned

/-- What the consumer reports of an array in which nothing is stored. -/
def differLines (k : Nat) : List Line :=
  (List.range k).tail.map fun i => Line.differs i 0

/-- The counts of the producers that `main` has printed, or the reports of the consumer where
there is no producer. -/
structure Printed (prog : Program) (out : List Line) (s : State n) : Prop where
  differs : n = 0 -> out = differLines s.consumer.checked
  length : n ≠ 0 -> out.length = s.main.printed prog n
  count : forall p : Fin n, p.val < s.main.printed prog n ->
    out[p.val]? = some (Line.count p (s.producers p).arg)

structure Inv (prog : Program) (nitems : Int) (out : List Line) (s : State n) : Prop where
  counted : Counted s
  stored : Stored nitems s
  consumer : s.consumer.Ok prog nitems s.shared.nput
  staged : Staged prog s
  printed : Printed prog out s

variable {prog : Program} {nitems : Int} {out : List Line} {s t : State n}

theorem init_inv (hinit : Init s) : Inv prog nitems [] s := by
  cases hinit
  have hproducers : forall w : ProducerPc -> Nat, w ProducerPc.uncreated = 0 ->
      producersAt w (start : State n) = 0 :=
    fun w hw => total_eq_zero_iff.mpr fun _ => hw
  constructor
  · constructor
    · rw [hproducers _ rfl]
      rfl
    · rw [hproducers _ rfl]
      rfl
    · exact total_eq_zero_iff.mpr fun _ => rfl
  · constructor
    · intro p
      trivial
    · intro j hlt
      exact absurd hlt (Nat.not_lt_zero j)
    · exact Nat.zero_le _
    · intro _ j
      rfl
  · rfl
  · constructor
    · intro p
      exact ⟨fun _ => ⟨rfl, Nat.zero_le _⟩, fun _ => rfl⟩
    · intro p _
      rfl
    · exact ⟨fun _ => rfl, fun _ => rfl⟩
    · intro p hlt
      exact absurd hlt (Nat.not_lt_zero _)
    · exact Nat.zero_le n
    · intro hpc
      cases hpc
    · intro hpc
      cases hpc
  · constructor
    · intro _
      rfl
    · intro _
      rfl
    · intro p hlt
      exact absurd hlt (Nat.not_lt_zero _)

theorem Counted.inside_le (h : Counted s) (p : Fin n) :
    (s.producers p).pc.inside ≤ s.shared.mutex.toNat := by
  have hmutex := h.mutex
  have hle : (s.producers p).pc.inside ≤ producersAt ProducerPc.inside s :=
    weight_le_total (fun t : Producer => t.pc.inside) s.producers p
  lia

theorem Counted.alone (h : Counted s) {p q : Fin n} (hp : (s.producers p).pc.inside = 1)
    (hne : q ≠ p) : (s.producers q).pc.inside = 0 := by
  have hmutex := h.mutex
  have hone := Bool.toNat_le s.shared.mutex
  have hle := add_le_total (fun t : Producer => t.pc.inside) s.producers hne
  unfold producersAt at hmutex
  lia

theorem Counted.nval_eq (h : Counted s) {p : Fin n} (hp : (s.producers p).pc.inside = 1)
    (hput : (s.producers p).pc.putting = 0) : s.shared.nval = s.shared.nput := by
  have hzero : producersAt ProducerPc.putting s = 0 := by
    refine total_eq_zero_of_others hput ?_
    intro q hne
    have hout := h.alone hp hne
    have hle := ProducerPc.putting_le_inside (s.producers q).pc
    lia
  have hval := h.nval
  lia

/-!
# Steps of a producer
-/

section Produce

variable {p : Fin n} {sh' : Shared} {t' : Producer}

abbrev afterProducer (s : State n) (p : Fin n) (sh' : Shared) (t' : Producer) : State n :=
  { s with shared := sh', producers := Function.update s.producers p t' }

theorem Counted.produce (h : Counted s)
    (hb : ProducerBalance s.shared (s.producers p) sh' t') :
    Counted (afterProducer s p sh' t') := by
  rcases h with ⟨hmutex, hnval, hcount⟩
  rcases hb with ⟨bmutex, bnval, bcount⟩
  have hmove : forall w : ProducerPc -> Nat,
      producersAt w (afterProducer s p sh' t') + w (s.producers p).pc =
        producersAt w s + w t'.pc :=
    fun w => total_update (fun t : Producer => w t.pc) s.producers p t'
  constructor
  · have hinside := hmove ProducerPc.inside
    simp only
    lia
  · have hputting := hmove ProducerPc.putting
    simp only
    lia
  · have hsum := total_update (fun t : Producer => t.arg + t.pc.uncounted) s.producers p t'
    simp only
    lia

theorem Stored.producers_after (h : Stored nitems s) (hok : t'.pc.Ok nitems sh')
    (hothers : forall q, q ≠ p -> (s.producers q).pc.Ok nitems s.shared ->
      (s.producers q).pc.Ok nitems sh') :
    forall q, ((afterProducer s p sh' t').producers q).pc.Ok nitems sh' := by
  apply (Function.forall_update_iff s.producers fun _ t => t.pc.Ok nitems sh').mpr
  exact ⟨hok, fun q hne => hothers q hne (h.producers q)⟩

theorem Stored.keeps (h : Stored nitems s) (hok : t'.pc.Ok nitems sh')
    (hothers : forall q, q ≠ p -> (s.producers q).pc.Ok nitems s.shared ->
      (s.producers q).pc.Ok nitems sh')
    (hbuff : sh'.buff = s.shared.buff) (hnput : sh'.nput = s.shared.nput) :
    Stored nitems (afterProducer s p sh' t') := by
  constructor
  · exact h.producers_after hok hothers
  · simp only [hbuff, hnput]
    exact h.buff
  · simp only [hnput]
    exact h.nput_le
  · simp only [hbuff]
    exact h.empty

theorem Stored.produce (hc : Counted s) (h : Stored nitems s)
    (hstep : ProducerStepped nitems s.shared (s.producers p) sh' t') :
    Stored nitems (afterProducer s p sh' t') := by
  have hmine := h.producers p
  have hpos : n ≠ 0 := by
    rintro rfl
    exact p.elim0
  cases hstep with
  | lock hpc _ => exact h.keeps trivial (fun q _ hq => hq) rfl rfl
  | full hpc hfull => exact h.keeps hfull (fun q _ hq => hq) rfl rfl
  | room hpc hroom => exact h.keeps hroom (fun q _ hq => hq) rfl rfl
  | store hpc =>
      have hinside : (s.producers p).pc.inside = 1 := by
        rw [hpc]
        rfl
      have hval := hc.nval_eq hinside (by rw [hpc]; rfl)
      rw [hpc] at hmine
      constructor
      · refine h.producers_after ?_ ?_
        · refine ⟨hmine, ?_⟩
          show Function.update s.shared.buff s.shared.nput s.shared.nval s.shared.nput = _
          rw [Function.update_self, hval]
        · intro q hne hok
          exact hok.outside (hc.alone hinside hne) (Nat.le_refl _)
      · intro j hlt
        show Function.update s.shared.buff s.shared.nput s.shared.nval j = j
        rw [Function.update_of_ne (Nat.ne_of_lt hlt)]
        exact h.buff j hlt
      · exact h.nput_le
      · intro hn
        exact absurd hn hpos
  | incrementPut hpc =>
      have hinside : (s.producers p).pc.inside = 1 := by
        rw [hpc]
        rfl
      rw [hpc] at hmine
      rcases hmine with ⟨hmore, hstored⟩
      constructor
      · refine h.producers_after trivial ?_
        intro q hne hok
        exact hok.outside (hc.alone hinside hne) (Nat.le_succ _)
      · intro j hlt
        rcases Nat.lt_succ_iff_lt_or_eq.mp hlt with hless | rfl
        · exact h.buff j hless
        · exact hstored
      · show s.shared.nput + 1 ≤ nitems.toNat
        lia
      · intro hn
        exact absurd hn hpos
  | incrementVal hpc => exact h.keeps trivial (fun q _ hq => hq) rfl rfl
  | unlock hpc => exact h.keeps trivial (fun q _ hq => hq) rfl rfl
  | count hpc => exact h.keeps trivial (fun q _ hq => hq) rfl rfl
  | finish hpc =>
      rw [hpc] at hmine
      exact h.keeps hmine (fun q _ hq => hq) rfl rfl

theorem Staged.produce (h : Staged prog s)
    (hstep : ProducerStepped nitems s.shared (s.producers p) sh' t') :
    Staged prog (afterProducer s p sh' t') := by
  rcases hstep.created with ⟨hcreated, hrunning, hcreated'⟩
  constructor
  · intro q
    rcases eq_or_ne q p with rfl | hne
    · simp only [Function.update_self]
      constructor
      · intro hpc
        exact absurd hpc hcreated'
      · intro hmain
        exact absurd ((h.created q).mpr hmain) hcreated
    · simp only [Function.update_of_ne hne]
      exact h.created q
  · intro q hpc
    rcases eq_or_ne q p with rfl | hne
    · simp only [Function.update_self] at hpc
      exact absurd hpc hcreated'
    · simp only [Function.update_of_ne hne] at hpc ⊢
      exact h.fresh q hpc
  · exact h.started
  · intro q hlt
    rcases eq_or_ne q p with rfl | hne
    · exact absurd (h.joined q hlt) hrunning
    · simp only [Function.update_of_ne hne]
      exact h.joined q hlt
  · exact h.joined_le
  · exact h.print
  · exact h.exited

theorem Printed.produce (hstaged : Staged prog s) (h : Printed prog out s)
    (hrunning : (s.producers p).pc ≠ ProducerPc.returned) :
    Printed prog out (afterProducer s p sh' t') := by
  constructor
  · exact h.differs
  · exact h.length
  · intro q hlt
    have hne : q ≠ p := by
      rintro rfl
      exact hrunning (hstaged.joined q (Nat.lt_of_lt_of_le hlt (Main.printed_le_joined _)))
    simp only [Function.update_of_ne hne]
    exact h.count q hlt

theorem ProducerStepped.nput_le {t : Producer} {sh : Shared}
    (h : ProducerStepped nitems sh t sh' t') : sh.nput ≤ sh'.nput := by
  cases h with
  | incrementPut _ => exact Nat.le_succ _
  | _ => exact Nat.le_refl _

theorem Inv.produce (h : Inv prog nitems out s)
    (hstep : ProducerStepped nitems s.shared (s.producers p) sh' t') :
    Inv prog nitems out (afterProducer s p sh' t') := by
  constructor
  · exact h.counted.produce (hstep.balance (h.counted.inside_le p))
  · exact h.stored.produce h.counted hstep
  · exact h.consumer.mono hstep.nput_le
  · exact h.staged.produce hstep
  · exact h.printed.produce h.staged hstep.created.2.1

end Produce

/-!
# Steps of the consumer
-/

section Consume

variable {sh' : Shared} {t' : Consumer} {o : Option Line}

/-- All producers have returned when a consumer that does not wait is started. -/
theorem Staged.returned (hprog : prog.early = true -> prog.consume_wait = true)
    (h : Staged prog s) (hcreated : s.consumer.pc ≠ ConsumerPc.uncreated)
    (hwait : prog.consume_wait = false) (p : Fin n) :
    (s.producers p).pc = ProducerPc.returned := by
  have hlate : prog.early = false := by
    by_contra hearly
    rw [hprog (Bool.not_eq_false _ ▸ hearly)] at hwait
    cases hwait
  apply h.joined p
  have hafter : s.main.before prog ≠ true := fun hbefore => hcreated (h.started.mpr hbefore)
  have hlt := p.isLt
  generalize s.main = m at hafter ⊢
  rcases m with ⟨pc, i⟩
  cases pc with
  | create => exact absurd rfl hafter
  | start => exact absurd rfl hafter
  | join =>
      refine absurd ?_ hafter
      show (!prog.early) = true
      rw [hlate]
      rfl
  | print =>
      refine absurd ?_ hafter
      show (!prog.early) = true
      rw [hlate]
      rfl
  | wait => exact hlt
  | exited => exact hlt

theorem Inv.item (hprog : prog.early = true -> prog.consume_wait = true)
    (h : Inv prog nitems out s) (hpc : s.consumer.pc = ConsumerPc.check) (hn : n ≠ 0) :
    s.shared.buff s.consumer.i = s.consumer.i := by
  apply h.stored.buff
  have hok := h.consumer
  unfold Consumer.Ok at hok
  rw [hpc] at hok
  rcases hok with ⟨hmore, hready⟩
  by_cases hwait : prog.consume_wait = true
  · exact hready hwait
  · have hcreated : s.consumer.pc ≠ ConsumerPc.uncreated := by
      rw [hpc]
      exact ConsumerPc.noConfusion
    have hreturned := h.staged.returned hprog hcreated (Bool.not_eq_true _ ▸ hwait)
      ⟨0, Nat.pos_of_ne_zero hn⟩
    have hfull := h.stored.producers ⟨0, Nat.pos_of_ne_zero hn⟩
    rw [hreturned] at hfull
    have hle : nitems ≤ s.shared.nput := hfull
    lia

theorem differLines_succ (k : Nat) :
    differLines (k + 1) = differLines k ++ if k ≠ 0 then [Line.differs k 0] else [] := by
  cases k with
  | zero => rfl
  | succ k =>
      unfold differLines
      rw [List.range_succ, List.tail_append_of_ne_nil (by simp), List.map_append]
      rfl

theorem differLines_checked (h : Inv prog nitems out s)
    (hstep : ConsumerStepped prog nitems s.shared s.consumer sh' t' o) (hn : n = 0) :
    differLines t'.checked = differLines s.consumer.checked ++ o.toList := by
  have hempty := h.stored.empty hn
  generalize s.consumer = t at hstep
  rcases t with ⟨pc, i⟩
  cases hstep with
  | check hpc =>
      cases hpc
      show differLines (i + 1) = differLines i ++ _
      rw [differLines_succ, hempty i]
      by_cases hi : i = 0
      · rw [if_neg (not_not_intro hi), if_neg (by simp [hi])]
        rfl
      · rw [if_pos hi, if_pos (Ne.symm hi)]
        rfl
  | call hpc _ _ =>
      cases hpc
      exact (List.append_nil _).symm
  | direct hpc _ _ =>
      cases hpc
      exact (List.append_nil _).symm
  | finish hpc _ =>
      cases hpc
      exact (List.append_nil _).symm
  | lock hpc _ =>
      cases hpc
      exact (List.append_nil _).symm
  | ready hpc _ =>
      cases hpc
      exact (List.append_nil _).symm
  | retry hpc _ =>
      cases hpc
      exact (List.append_nil _).symm
  | unlockReady hpc =>
      cases hpc
      exact (List.append_nil _).symm
  | unlockRetry hpc =>
      cases hpc
      exact (List.append_nil _).symm
  | increment hpc =>
      cases hpc
      exact (List.append_nil _).symm

theorem Inv.silent (hprog : prog.early = true -> prog.consume_wait = true)
    (h : Inv prog nitems out s)
    (hstep : ConsumerStepped prog nitems s.shared s.consumer sh' t' o) (hn : n ≠ 0) :
    o = none := by
  cases hstep with
  | check hpc => rw [if_neg (not_not_intro (h.item hprog hpc hn))]
  | _ => rfl

theorem Inv.consume (hprog : prog.early = true -> prog.consume_wait = true)
    (h : Inv prog nitems out s)
    (hstep : ConsumerStepped prog nitems s.shared s.consumer sh' t' o) :
    Inv prog nitems (out ++ o.toList) { s with shared := sh', consumer := t' } := by
  rcases hstep.same with ⟨hbuff, hnput, hnval⟩
  rcases hstep.created with ⟨hcreated, hrunning, hcreated'⟩
  constructor
  · have hmutex := h.counted.mutex
    have hinside := hstep.inside (by lia)
    constructor
    · show producersAt ProducerPc.inside s + t'.inside = sh'.mutex.toNat
      lia
    · simp only [hnval, hnput]
      exact h.counted.nval
    · simp only [hnput]
      exact h.counted.count
  · constructor
    · intro p
      have hok := h.stored.producers p
      unfold ProducerPc.Ok at hok ⊢
      simp only [hbuff, hnput]
      exact hok
    · simp only [hbuff, hnput]
      exact h.stored.buff
    · simp only [hnput]
      exact h.stored.nput_le
    · simp only [hbuff]
      exact h.stored.empty
  · simp only [hnput]
    exact hstep.ok h.consumer
  · constructor
    · exact h.staged.created
    · exact h.staged.fresh
    · constructor
      · intro hpc
        exact absurd hpc hcreated'
      · intro hbefore
        exact absurd (h.staged.started.mpr hbefore) hcreated
    · exact h.staged.joined
    · exact h.staged.joined_le
    · exact h.staged.print
    · intro hpc
      exact absurd (h.staged.exited hpc) hrunning
  · constructor
    · intro hn
      show _ = differLines t'.checked
      rw [differLines_checked h hstep hn, h.printed.differs hn]
    · intro hn
      rw [h.silent hprog hstep hn, Option.toList_none, List.append_nil]
      exact h.printed.length hn
    · intro p hlt
      have hn : n ≠ 0 := by
        rintro rfl
        exact p.elim0
      rw [h.silent hprog hstep hn, Option.toList_none, List.append_nil]
      exact h.printed.count p hlt

end Consume

end Invariant

end Prodcons2
end InterprocessComm
