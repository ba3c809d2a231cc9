import Mathlib.Algebra.BigOperators.Group.Finset.Basic
import Mathlib.Algebra.BigOperators.Group.Finset.Piecewise
import Mathlib.Algebra.BigOperators.Fin
import Mathlib.Algebra.Order.BigOperators.Group.Finset

/-!
# Counting over threads

A family of threads is a function from thread names to local states.  The sum
of a weight over all threads changes in one summand when one thread moves; the
invariants of counters and of semaphore tokens rest on this rule alone.
-/

namespace Verification

variable {tid loc : Type _} [Fintype tid]

def total (w : loc -> Nat) (f : tid -> loc) : Nat :=
  ∑ t, w (f t)

def countThreads (p : loc -> Bool) (f : tid -> loc) : Nat :=
  total (fun x => if p x then 1 else 0) f

theorem total_congr {w : loc -> Nat} {f g : tid -> loc}
    (h : forall t, w (f t) = w (g t)) : total w f = total w g :=
  Finset.sum_congr rfl fun t _ => h t

theorem total_eq_zero_iff {w : loc -> Nat} {f : tid -> loc} :
    total w f = 0 <-> forall t, w (f t) = 0 := by
  simp [total]

theorem total_eq_zero_of_others {w : loc -> Nat} {f : tid -> loc} {t : tid} (ht : w (f t) = 0)
    (h : forall u, u ≠ t -> w (f u) = 0) : total w f = 0 := by
  apply total_eq_zero_iff.mpr
  intro u
  rcases eq_or_ne u t with rfl | hne
  · exact ht
  · exact h u hne

theorem weight_le_total (w : loc -> Nat) (f : tid -> loc) (t : tid) :
    w (f t) ≤ total w f :=
  Finset.single_le_sum (f := fun u => w (f u))
    (fun _ _ => Nat.zero_le _) (Finset.mem_univ t)

theorem add_le_total (w : loc -> Nat) (f : tid -> loc) {t u : tid} (h : t ≠ u) :
    w (f t) + w (f u) ≤ total w f := by
  classical
  have hpair : ∑ v ∈ {t, u}, w (f v) = w (f t) + w (f u) := Finset.sum_pair h
  rw [<- hpair]
  exact Finset.sum_le_sum_of_subset (Finset.subset_univ _)

theorem total_le {w : loc -> Nat} {f : tid -> loc} {b : Nat} (h : forall t, w (f t) ≤ b) :
    total w f ≤ Fintype.card tid * b := by
  have hsum : total w f ≤ ∑ _t : tid, b := Finset.sum_le_sum fun t _ => h t
  simpa using hsum

theorem total_lt {w : loc -> Nat} {f : tid -> loc} {b : Nat} (h : forall t, w (f t) ≤ b)
    {t : tid} (hlt : w (f t) < b) : total w f < Fintype.card tid * b := by
  have hsum : total w f < ∑ _t : tid, b :=
    Finset.sum_lt_sum (fun u _ => h u) ⟨t, Finset.mem_univ t, hlt⟩
  simpa using hsum

theorem total_const {w : loc -> Nat} {f : tid -> loc} {b : Nat} (h : forall t, w (f t) = b) :
    total w f = Fintype.card tid * b := by
  unfold total
  simp [h]

theorem countThreads_congr {p : loc -> Bool} {f g : tid -> loc}
    (h : forall t, p (f t) = p (g t)) : countThreads p f = countThreads p g :=
  total_congr fun t => by rw [h t]

theorem countThreads_eq_zero_iff {p : loc -> Bool} {f : tid -> loc} :
    countThreads p f = 0 <-> forall t, p (f t) = false := by
  simp [countThreads, total_eq_zero_iff]

theorem countThreads_pos {p : loc -> Bool} {f : tid -> loc} {t : tid}
    (h : p (f t) = true) : 0 < countThreads p f := by
  have hle := weight_le_total (fun x => if p x then 1 else 0) f t
  simp only [h, if_true] at hle
  exact hle

section Update

variable [DecidableEq tid]

theorem total_update (w : loc -> Nat) (f : tid -> loc) (t : tid) (x : loc) :
    total w (Function.update f t x) + w (f t) = total w f + w x := by
  have hself : ∑ u ∈ Finset.univ.erase t, w (Function.update f t x u) =
      ∑ u ∈ Finset.univ.erase t, w (f u) := by
    apply Finset.sum_congr rfl
    intro u hu
    rw [Function.update_of_ne (Finset.ne_of_mem_erase hu)]
  have hnew := Finset.add_sum_erase Finset.univ
    (fun u => w (Function.update f t x u)) (Finset.mem_univ t)
  have hold := Finset.add_sum_erase Finset.univ
    (fun u => w (f u)) (Finset.mem_univ t)
  simp only [Function.update_self] at hnew
  unfold total
  lia

theorem total_weigh_update (w : tid -> loc -> Nat) (f : tid -> loc) (t : tid) (x : loc) :
    total id (fun u => w u (Function.update f t x u)) + w t (f t) =
      total id (fun u => w u (f u)) + w t x := by
  have hmove : (fun u => w u (Function.update f t x u)) =
      Function.update (fun u => w u (f u)) t (w t x) := by
    funext u
    exact Function.apply_update w f t x u
  rw [hmove]
  exact total_update id (fun u => w u (f u)) t (w t x)

theorem total_lt_of_one {f g : tid -> Nat} {t : tid} (ht : g t < f t)
    (h : forall u, u ≠ t -> g u = f u) : total id g < total id f := by
  have hmove : Function.update f t (g t) = g := by
    funext u
    rcases eq_or_ne u t with rfl | hne
    · exact Function.update_self ..
    · rw [Function.update_of_ne hne, h u hne]
  have hupdate := total_update id f t (g t)
  rw [hmove] at hupdate
  simp only [id_eq] at hupdate
  lia

theorem exists_of_total_eq_one {f : tid -> Nat} (h : total id f = 1) :
    exists t, f t = 1 ∧ forall u, u ≠ t -> f u = 0 := by
  have hsome : exists t, f t ≠ 0 := by
    by_contra hnone
    have hzero : total id f = 0 := total_eq_zero_iff.mpr fun t => by
      by_contra ht
      exact hnone ⟨t, ht⟩
    lia
  rcases hsome with ⟨t, ht⟩
  have hle := weight_le_total id f t
  have hupdate := total_update id f t 0
  simp only [id_eq] at hle hupdate
  have hrest : total id (Function.update f t 0) = 0 := by lia
  refine ⟨t, by lia, ?_⟩
  intro u hut
  have hu := total_eq_zero_iff.mp hrest u
  rwa [Function.update_of_ne hut] at hu

theorem countThreads_update (p : loc -> Bool) (f : tid -> loc) (t : tid) (x : loc) :
    countThreads p (Function.update f t x) + (if p (f t) then 1 else 0) =
      countThreads p f + (if p x then 1 else 0) :=
  total_update (fun x => if p x then 1 else 0) f t x

end Update

end Verification
