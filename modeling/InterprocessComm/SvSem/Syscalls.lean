import InterprocessComm.SvSem.Operations

/-!
# What the system calls do

What a system call returns and what it does to the sets, one lemma for each.
-/

namespace InterprocessComm
namespace SvSem

section Kernel

variable {fresh : Nat -> Nat} {k k' : Kernel} {fault : Option Errno} {r : SysResult}

/-- A kernel with the same values; sets may have been removed. -/
structure SameSets (k k' : Kernel) : Prop where
  next : k'.next = k.next
  semval : forall id, (k'.sets id).semval = (k.sets id).semval
  otime : forall id, (k'.sets id).otime = (k.sets id).otime

theorem SameSets.refl (k : Kernel) : SameSets k k :=
  ⟨rfl, fun _ => rfl, fun _ => rfl⟩

theorem onSet_cases {id : Option Nat} {f : Nat -> Option (Kernel × SysResult)}
    (h : k.onSet id f = some (k', r)) :
    (k' = k ∧ exists e, r = SysResult.failed e) ∨
      exists n, id = some n ∧ n < k.next ∧ f n = some (k', r) := by
  unfold Kernel.onSet at h
  cases id with
  | none =>
      cases h
      exact Or.inl ⟨rfl, _, rfl⟩
  | some n =>
      simp only at h
      split at h
      · rename_i hset
        exact Or.inr ⟨n, rfl, hset.left, h⟩
      · cases h
        exact Or.inl ⟨rfl, _, rfl⟩

theorem exec_run {c : Syscall} (h : k.exec fresh c fault = some (k', r)) :
    (k' = k ∧ exists e, r = SysResult.failed e) ∨ k.run fresh c = some (k', r) := by
  cases fault with
  | some e =>
      cases h
      exact Or.inl ⟨rfl, e, rfl⟩
  | none => exact Or.inr h

def Kernel.created (fresh : Nat -> Nat) (k : Kernel) : Kernel :=
  { key := some k.next,
    sets := Function.update k.sets k.next
      { semval := fresh k.next, otime := false, removed := false },
    next := k.next + 1 }

theorem exec_semgetExcl (h : k.exec fresh Syscall.semgetExcl fault = some (k', r)) :
    (k' = k ∧ exists e, r = SysResult.failed e) ∨
      (r = SysResult.id k.next ∧ k' = k.created fresh) := by
  rcases exec_run h with hfailed | hrun
  · exact Or.inl hfailed
  · simp only [Kernel.run] at hrun
    split at hrun
    · cases hrun
      exact Or.inl ⟨rfl, _, rfl⟩
    · cases hrun
      exact Or.inr ⟨rfl, rfl⟩

theorem key_of_exec_semgetExcl {n : Nat}
    (h : k.exec fresh Syscall.semgetExcl fault = some (k', SysResult.id n)) : k.key = none := by
  rcases exec_run h with ⟨_, e, hfailed⟩ | hrun
  · cases hfailed
  · simp only [Kernel.run] at hrun
    split at hrun
    · cases hrun
    · assumption

theorem exec_setval {id : Option Nat} {v : Nat}
    (h : k.exec fresh (Syscall.setval id v) fault = some (k', r)) :
    (k' = k ∧ exists e, r = SysResult.failed e) ∨
      exists n, id = some n ∧ n < k.next ∧ r = SysResult.ok ∧
        k' = k.update n { k.sets n with semval := v } := by
  rcases exec_run h with hfailed | hrun
  · exact Or.inl hfailed
  · rcases onSet_cases hrun with hfailed | ⟨n, hid, hlt, hset⟩
    · exact Or.inl hfailed
    · cases hset
      exact Or.inr ⟨n, hid, hlt, rfl, rfl⟩

theorem exec_semop {id : Option Nat} {op : Int} {nowait : Bool}
    (h : k.exec fresh (Syscall.semop id op nowait) fault = some (k', r)) :
    (k' = k ∧ exists e, r = SysResult.failed e) ∨
      exists n x, id = some n ∧ n < k.next ∧ r = SysResult.ok ∧ k' = k.update n x ∧
        (x.semval : Int) = (k.sets n).semval + op ∧ x.otime = true := by
  rcases exec_run h with hfailed | hrun
  · exact Or.inl hfailed
  · rcases onSet_cases hrun with hfailed | ⟨n, hid, hlt, hset⟩
    · exact Or.inl hfailed
    · simp only [Kernel.semop] at hset
      split at hset
      · rename_i hpos
        split at hset
        · cases hset
          exact Or.inl ⟨rfl, _, rfl⟩
        · cases hset
          exact Or.inr ⟨n, _, hid, hlt, rfl, rfl, Int.toNat_of_nonneg (by lia), rfl⟩
      · split at hset
        · rename_i hzero
          split at hset
          · rename_i hval
            cases hset
            exact Or.inr ⟨n, _, hid, hlt, rfl, rfl, Int.toNat_of_nonneg (by lia), rfl⟩
          · split at hset
            · cases hset
              exact Or.inl ⟨rfl, _, rfl⟩
            · cases hset
        · split at hset
          · rename_i hroom
            cases hset
            exact Or.inr ⟨n, _, hid, hlt, rfl, rfl, Int.toNat_of_nonneg hroom, rfl⟩
          · split at hset
            · cases hset
              exact Or.inl ⟨rfl, _, rfl⟩
            · cases hset

theorem exec_stat {id : Option Nat}
    (h : k.exec fresh (Syscall.stat id) fault = some (k', r)) :
    k' = k ∧ ((exists e, r = SysResult.failed e) ∨
      exists n, id = some n ∧ n < k.next ∧ r = SysResult.status (k.sets n).otime) := by
  rcases exec_run h with ⟨hsame, hfailed⟩ | hrun
  · exact ⟨hsame, Or.inl hfailed⟩
  · rcases onSet_cases hrun with ⟨hsame, hfailed⟩ | ⟨n, hid, hlt, hset⟩
    · exact ⟨hsame, Or.inl hfailed⟩
    · cases hset
      exact ⟨rfl, Or.inr ⟨n, hid, hlt, rfl⟩⟩

theorem exec_stat_failed {id : Nat} {e : Errno} (hlt : id < k.next)
    (hthere : (k.sets id).removed = false)
    (h : k.exec fresh (Syscall.stat (some id)) fault = some (k', SysResult.failed e)) :
    fault.isSome = true := by
  cases fault with
  | some e => rfl
  | none =>
      have honSet : k.onSet (some id)
          (fun n => some (k, SysResult.status (k.sets n).otime)) =
            some (k', SysResult.failed e) := h
      unfold Kernel.onSet at honSet
      simp only at honSet
      rw [if_pos ⟨hlt, hthere⟩] at honSet
      cases honSet

theorem exec_semget_id {creat : Bool} {n : Nat}
    (h : k.exec fresh (Syscall.semget creat) fault = some (k', SysResult.id n)) :
    k.key = some n := by
  rcases exec_run h with ⟨_, e, hfailed⟩ | hrun
  · cases hfailed
  · simp only [Kernel.run] at hrun
    split at hrun
    · rename_i m hkey
      cases hrun
      exact hkey
    · cases hrun

theorem exec_rmid {id : Option Nat} (h : k.exec fresh (Syscall.rmid id) fault = some (k', r)) :
    SameSets k k' := by
  rcases exec_run h with ⟨hsame, _⟩ | hrun
  · rw [hsame]
    exact SameSets.refl k
  · rcases onSet_cases hrun with ⟨hsame, _⟩ | ⟨n, _, _, hset⟩
    · rw [hsame]
      exact SameSets.refl k
    · cases hset
      constructor
      · rfl
      · intro id
        by_cases hid : id = n
        · subst hid
          simp [Kernel.update]
        · simp [Kernel.update, hid]
      · intro id
        by_cases hid : id = n
        · subst hid
          simp [Kernel.update]
        · simp [Kernel.update, hid]

def Syscall.isQuiet : Syscall -> Bool
  | semgetExcl => false
  | setval _ _ => false
  | semop _ _ _ => false
  | rmid _ => false
  | _ => true

theorem exec_quiet {c : Syscall} (hc : c.isQuiet = true)
    (h : k.exec fresh c fault = some (k', r)) : k' = k := by
  rcases exec_run h with ⟨hsame, _⟩ | hrun
  · exact hsame
  · cases c with
    | semgetExcl => cases hc
    | setval id v => cases hc
    | semop id op nowait => cases hc
    | rmid id => cases hc
    | semget creat =>
        simp only [Kernel.run] at hrun
        split at hrun <;> cases hrun <;> rfl
    | getval id =>
        rcases onSet_cases hrun with ⟨hsame, _⟩ | ⟨n, _, _, hset⟩
        · exact hsame
        · cases hset
          rfl
    | stat id =>
        rcases onSet_cases hrun with ⟨hsame, _⟩ | ⟨n, _, _, hset⟩
        · exact hsame
        · cases hset
          rfl
    | _ =>
        cases hrun
        rfl

def Syscall.target : Syscall -> Option Nat
  | setval id _ => id
  | semop id _ _ => id
  | rmid id => id
  | _ => none

theorem exec_next {c : Syscall} (h : k.exec fresh c fault = some (k', r)) : k.next ≤ k'.next := by
  cases c with
  | semgetExcl =>
      rcases exec_semgetExcl h with ⟨hsame, _⟩ | ⟨_, hcreated⟩
      · exact Nat.le_of_eq (congrArg Kernel.next hsame.symm)
      · rw [hcreated]
        exact Nat.le_succ _
  | setval id v =>
      rcases exec_setval h with ⟨hsame, _⟩ | ⟨n, _, _, _, hset⟩
      · exact Nat.le_of_eq (congrArg Kernel.next hsame.symm)
      · rw [hset]
        exact Nat.le_refl _
  | semop id op nowait =>
      rcases exec_semop h with ⟨hsame, _⟩ | ⟨n, x, _, _, _, hset, _⟩
      · exact Nat.le_of_eq (congrArg Kernel.next hsame.symm)
      · rw [hset]
        exact Nat.le_refl _
  | rmid id => exact Nat.le_of_eq (exec_rmid h).next.symm
  | _ => exact Nat.le_of_eq (congrArg Kernel.next (exec_quiet rfl h).symm)

theorem exec_key {c : Syscall} (h : k.exec fresh c fault = some (k', r)) :
    k'.key = k.key ∨ k'.key = none ∨ k'.key = some k.next ∧ k'.next = k.next + 1 := by
  cases c with
  | semgetExcl =>
      rcases exec_semgetExcl h with ⟨hsame, _⟩ | ⟨_, hcreated⟩
      · left
        rw [hsame]
      · right
        right
        rw [hcreated]
        exact ⟨rfl, rfl⟩
  | setval id v =>
      left
      rcases exec_setval h with ⟨hsame, _⟩ | ⟨n, _, _, _, hset⟩
      · rw [hsame]
      · rw [hset]
        rfl
  | semop id op nowait =>
      left
      rcases exec_semop h with ⟨hsame, _⟩ | ⟨n, x, _, _, _, hset, _⟩
      · rw [hsame]
      · rw [hset]
        rfl
  | rmid id =>
      rcases exec_run h with ⟨hsame, _⟩ | hrun
      · left
        rw [hsame]
      · rcases onSet_cases hrun with ⟨hsame, _⟩ | ⟨n, _, _, hset⟩
        · left
          rw [hsame]
        · cases hset
          by_cases hkey : k.key = some n
          · exact Or.inr (Or.inl (if_pos hkey))
          · exact Or.inl (if_neg hkey)
  | _ =>
      left
      rw [exec_quiet rfl h]

theorem semop_other {n x : Nat} {op : Int} {nowait : Bool}
    (h : k.semop n op nowait = some (k', r)) (hx : x ≠ n) : k'.sets x = k.sets x := by
  have hupdate : forall y : SemSet, (k.update n y).sets x = k.sets x := by
    intro y
    exact Function.update_of_ne hx _ _
  unfold Kernel.semop at h
  simp only at h
  split at h
  · split at h
    · cases h
      rfl
    · cases h
      exact hupdate _
  · split at h
    · split at h
      · cases h
        exact hupdate _
      · split at h
        · cases h
          rfl
        · cases h
    · split at h
      · cases h
        exact hupdate _
      · split at h
        · cases h
          rfl
        · cases h

/-- A set that was there is changed only by a call on it, and only while it exists. -/
theorem exec_set {c : Syscall} (h : k.exec fresh c fault = some (k', r)) {id : Nat}
    (hlt : id < k.next) :
    k'.sets id = k.sets id ∨ c.target = some id ∧ (k.sets id).removed = false := by
  have honSet : forall {i : Option Nat} {f : Nat -> Option (Kernel × SysResult)},
      k.onSet i f = some (k', r) ->
      (forall n x, f n = some (k', r) -> x ≠ n -> k'.sets x = k.sets x) ->
      k'.sets id = k.sets id ∨ i = some id ∧ (k.sets id).removed = false := by
    intro i f honSet hother
    unfold Kernel.onSet at honSet
    cases i with
    | none =>
        cases honSet
        exact Or.inl rfl
    | some n =>
        simp only at honSet
        split at honSet
        · rename_i hset
          by_cases hid : id = n
          · subst hid
            exact Or.inr ⟨rfl, hset.right⟩
          · exact Or.inl (hother n id honSet hid)
        · cases honSet
          exact Or.inl rfl
  rcases exec_run h with ⟨hsame, _⟩ | hrun
  · left
    rw [hsame]
  · cases c with
    | semgetExcl =>
        rcases exec_semgetExcl h with ⟨hsame, _⟩ | ⟨_, hcreated⟩
        · left
          rw [hsame]
        · left
          rw [hcreated]
          exact Function.update_of_ne (Nat.ne_of_lt hlt) _ _
    | setval i v =>
        refine honSet hrun ?_
        intro n x hset hx
        cases hset
        exact Function.update_of_ne hx _ _
    | semop i op nowait =>
        refine honSet hrun ?_
        intro n x hset hx
        exact semop_other hset hx
    | rmid i =>
        refine honSet hrun ?_
        intro n x hset hx
        cases hset
        exact Function.update_of_ne hx _ _
    | _ =>
        left
        rw [exec_quiet rfl h]

end Kernel

end SvSem
end InterprocessComm
