import Mathlib.Data.List.Basic

/-!
# Ledgers

What a program holds of one kind of resource, read off the order in which it takes
and gives back.  Giving back what is not held is remembered: an empty ledger on
which nothing is astray says that everything taken was given back exactly once.
-/

namespace Verification

structure Ledger (α : Type _) where
  held : List α
  astray : Bool
deriving DecidableEq

namespace Ledger

variable {α : Type _}

def holding (o : Option α) : Ledger α :=
  { held := o.toList, astray := false }

def take (g : Ledger α) (x : α) : Ledger α :=
  { g with held := x :: g.held }

def giveBack [DecidableEq α] (g : Ledger α) (x : α) : Ledger α :=
  if x ∈ g.held then
    { g with held := g.held.erase x }
  else
    { g with astray := true }

@[simp] theorem take_holding_none (x : α) : (holding none).take x = holding (some x) := rfl

section GiveBack

variable [DecidableEq α]

@[simp] theorem giveBack_cons (x : α) (rest : List α) (astray : Bool) :
    ({ held := x :: rest, astray } : Ledger α).giveBack x = { held := rest, astray } := by
  simp [giveBack]

@[simp] theorem giveBack_holding_some (x : α) :
    (holding (some x)).giveBack x = holding none :=
  giveBack_cons x [] false

theorem giveBack_last {rest : List α} {x : α} {astray : Bool} (h : rest.length ≤ 1) :
    ({ held := rest ++ [x], astray } : Ledger α).giveBack x = { held := rest, astray } := by
  have hmem : x ∈ rest ++ [x] := by simp
  simp only [giveBack, if_pos hmem]
  cases rest with
  | nil => simp
  | cons y more =>
      have hnone : more = [] := List.eq_nil_of_length_eq_zero (by simpa using h)
      rw [hnone]
      by_cases hyx : y = x
      · simp [hyx]
      · simp [hyx]

theorem giveBack_perm {g : Ledger α} {x : α} {rest : List α} (h : g.held.Perm (x :: rest)) :
    (g.giveBack x).astray = g.astray ∧ (g.giveBack x).held.Perm rest := by
  have hmem : x ∈ g.held := h.mem_iff.mpr List.mem_cons_self
  have herase := h.erase x
  rw [List.erase_cons_head] at herase
  unfold giveBack
  rw [if_pos hmem]
  exact ⟨rfl, herase⟩

theorem giveBack_astray {g : Ledger α} (h : g.held = []) (x : α) :
    (g.giveBack x).astray = true := by
  simp [giveBack, h]

end GiveBack

end Ledger

end Verification
