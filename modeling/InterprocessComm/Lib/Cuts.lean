import Mathlib.Data.List.Basic

/-!
# Lists cut behind their end marks

A list is cut behind each of its elements that pass a test.  Every piece but the last ends
with such an element, and there is none before the end of a piece.
-/

namespace Verification

variable {α : Type _}

/-- The pieces of a list that is cut behind the elements that pass the test. -/
def cuts (p : α -> Bool) : List α -> List (List α)
  | [] => []
  | x :: rest =>
      if p x then
        [x] :: cuts p rest
      else
        match cuts p rest with
        | [] => [[x]]
        | piece :: pieces => (x :: piece) :: pieces

section Cuts

variable {p : α -> Bool} {body rest xs piece : List α} {x : α}

theorem body_cases (p : α -> Bool) (xs : List α) :
    exists body, (forall y, y ∈ body -> p y = false) ∧
      (xs = body ∨ exists x rest, p x = true ∧ xs = body ++ x :: rest) := by
  induction xs with
  | nil => exact ⟨[], by simp, Or.inl rfl⟩
  | cons y xs ih =>
      cases hy : p y with
      | true => exact ⟨[], by simp, Or.inr ⟨y, xs, hy, rfl⟩⟩
      | false =>
          rcases ih with ⟨body, hbody, htail⟩
          refine ⟨y :: body, ?_, ?_⟩
          · intro z hz
            rcases List.mem_cons.mp hz with rfl | hz
            · exact hy
            · exact hbody z hz
          · rcases htail with rfl | ⟨x, rest, hx, rfl⟩
            · exact Or.inl rfl
            · exact Or.inr ⟨x, rest, hx, rfl⟩

theorem cuts_body (hbody : forall y, y ∈ body -> p y = false) (hne : body ≠ []) :
    cuts p body = [body] := by
  induction body with
  | nil => exact absurd rfl hne
  | cons y body ih =>
      have hy : ¬ p y = true := by simp [hbody y]
      unfold cuts
      rw [if_neg hy]
      cases body with
      | nil => rfl
      | cons z body =>
          rw [ih (fun w hw => hbody w (List.mem_cons_of_mem y hw)) (by simp)]

theorem cuts_append (hbody : forall y, y ∈ body -> p y = false) (hx : p x = true)
    (rest : List α) : cuts p (body ++ x :: rest) = (body ++ [x]) :: cuts p rest := by
  induction body with
  | nil => simp [cuts, hx]
  | cons y body ih =>
      have hy : ¬ p y = true := by simp [hbody y]
      rw [List.cons_append, cuts, if_neg hy, ih fun w hw => hbody w (List.mem_cons_of_mem y hw)]
      rfl

/-- The rule for facts about the pieces: there are none, there is one that no mark ends, or the
first one ends with a mark. -/
theorem cuts_induction {P : List α -> Prop} (hnil : P [])
    (hbody : forall body, body ≠ [] -> (forall y, y ∈ body -> p y = false) -> P body)
    (happend : forall body x rest, (forall y, y ∈ body -> p y = false) -> p x = true ->
      P rest -> P (body ++ x :: rest)) (xs : List α) : P xs := by
  have hlength : forall n (xs : List α), xs.length ≤ n -> P xs := by
    intro n
    induction n with
    | zero =>
        intro xs hxs
        rw [List.length_eq_zero_iff.mp (Nat.le_zero.mp hxs)]
        exact hnil
    | succ n ih =>
        intro xs hxs
        rcases body_cases p xs with ⟨body, hnone, rfl | ⟨x, rest, hx, rfl⟩⟩
        · rcases eq_or_ne xs [] with rfl | hne
          · exact hnil
          · exact hbody xs hne hnone
        · rw [List.length_append, List.length_cons] at hxs
          exact happend body x rest hnone hx (ih rest (by lia))
  exact hlength xs.length xs (Nat.le_refl _)

theorem cuts_flatten (xs : List α) : (cuts p xs).flatten = xs := by
  induction xs using cuts_induction (p := p) with
  | hnil => rfl
  | hbody body hne hnone => simp [cuts_body hnone hne]
  | happend body x rest hnone hx ih => simp [cuts_append hnone hx, ih]

theorem not_mem_dropLast_cut (h : piece ∈ cuts p xs) {y : α} (hy : y ∈ piece.dropLast) :
    p y = false := by
  induction xs using cuts_induction (p := p) with
  | hnil => cases h
  | hbody body hne hnone =>
      rw [cuts_body hnone hne] at h
      rw [List.mem_singleton.mp h] at hy
      exact hnone y ((List.dropLast_sublist body).subset hy)
  | happend body x rest hnone hx ih =>
      rw [cuts_append hnone hx] at h
      rcases List.mem_cons.mp h with rfl | h
      · rw [List.dropLast_concat] at hy
        exact hnone y hy
      · exact ih h

theorem cut_ends {front back : List (List α)} (h : cuts p xs = front ++ piece :: back) :
    back = [] ∨ exists x, piece.getLast? = some x ∧ p x = true := by
  induction xs using cuts_induction (p := p) generalizing front with
  | hnil => cases front <;> cases h
  | hbody body hne hnone =>
      rw [cuts_body hnone hne] at h
      cases front with
      | nil =>
          cases h
          exact Or.inl rfl
      | cons first front =>
          have hlength := congrArg List.length h
          simp at hlength
  | happend body x rest hnone hx ih =>
      rw [cuts_append hnone hx] at h
      cases front with
      | nil =>
          cases h
          exact Or.inr ⟨x, by simp, hx⟩
      | cons first front =>
          injection h with _ hrest
          exact ih hrest

end Cuts

end Verification
