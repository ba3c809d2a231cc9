import Mathlib.Logic.Function.Basic

/-!
# Rings

Numbered items in a ring of slots: item `j` is in slot `j % n`.  What is stored for the next
item touches none of the items that are still there, as long as there are fewer than `n`.
-/

namespace Verification

variable {α : Type _} {n lo hi : Nat} {slots : Nat -> α} {item : Nat -> α}

/-- The items from `lo` up to `hi` are in their slots. -/
def InRing (n : Nat) (slots item : Nat -> α) (lo hi : Nat) : Prop :=
  forall j, lo ≤ j -> j < hi -> slots (j % n) = item j

theorem slot_ne {j k : Nat} (hlt : j < k) (hnear : k < j + n) : j % n ≠ k % n := by
  intro heq
  have hdvd : n ∣ k - j := Nat.dvd_of_mod_eq_zero (Nat.sub_mod_eq_zero_of_mod_eq heq.symm)
  have hle := Nat.le_of_dvd (Nat.sub_pos_of_lt hlt) hdvd
  lia

theorem InRing.store (h : InRing n slots item lo hi) (hroom : hi < lo + n) (x : α) :
    InRing n (Function.update slots (hi % n) x) item lo hi := by
  intro j hlow hhigh
  rw [Function.update_of_ne (slot_ne hhigh (by lia))]
  exact h j hlow hhigh

theorem InRing.extend (h : InRing n slots item lo hi) (hnew : slots (hi % n) = item hi) :
    InRing n slots item lo (hi + 1) := by
  intro j hlow hhigh
  rcases Nat.lt_succ_iff_lt_or_eq.mp hhigh with hlt | rfl
  · exact h j hlow hlt
  · exact hnew

theorem InRing.drop (h : InRing n slots item lo hi) : InRing n slots item (lo + 1) hi :=
  fun j hlow hhigh => h j (Nat.le_of_succ_le hlow) hhigh

theorem InRing.first (h : InRing n slots item lo hi) (hlt : lo < hi) :
    slots (lo % n) = item lo :=
  h lo (Nat.le_refl lo) hlt

end Verification
