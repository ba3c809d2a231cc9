import Mathlib.Data.List.Basic
import Mathlib.Data.List.Nodup

/-!
# Null-terminated chains

A singly linked list lives in a function that sends every cell to the cell its
link names.  The chain predicate lists the cells met from a first address up to
the null address.  Cells that hold only a link, such as a list head inside a
header, are treated like all others.
-/

namespace Verification

variable {addr : Type _}

def Chain (next : addr -> addr) (null : addr) : addr -> List addr -> Prop
  | a, [] => a = null
  | a, x :: xs => x ≠ null ∧ a = x ∧ Chain next null (next x) xs

def follow [DecidableEq addr] (next : addr -> addr) (null : addr) : Nat -> addr -> List addr
  | 0, _ => []
  | fuel + 1, a => if a = null then [] else a :: follow next null fuel (next a)

section Basic

variable {next next' : addr -> addr} {null a : addr} {xs ys : List addr}

theorem chain_nil_iff (h : Chain next null a xs) : a = null <-> xs = [] := by
  cases xs with
  | nil => exact ⟨fun _ => rfl, fun _ => h⟩
  | cons x rest =>
      rcases h with ⟨hne, rfl, _⟩
      constructor
      · intro hnull
        exact absurd hnull hne
      · intro hcons
        cases hcons

theorem chain_congr (h : Chain next null a xs)
    (hsame : forall x, x ∈ xs -> next' x = next x) : Chain next' null a xs := by
  induction xs generalizing a with
  | nil => exact h
  | cons x rest ih =>
      rcases h with ⟨hne, hax, hrest⟩
      refine ⟨hne, hax, ?_⟩
      rw [hsame x (List.mem_cons_self)]
      exact ih hrest fun y hy => hsame y (List.mem_cons_of_mem x hy)

theorem follow_eq_of_chain [DecidableEq addr] {fuel : Nat}
    (h : Chain next null a xs) (hlen : xs.length ≤ fuel) :
    follow next null fuel a = xs := by
  induction xs generalizing a fuel with
  | nil =>
      have hnull : a = null := h
      cases fuel with
      | zero => rfl
      | succ fuel => simp [follow, hnull]
  | cons x rest ih =>
      rcases h with ⟨hne, rfl, hrest⟩
      cases fuel with
      | zero => simp at hlen
      | succ fuel =>
          simp only [follow, if_neg hne]
          rw [ih hrest (Nat.le_of_succ_le_succ hlen)]

end Basic

/-!
# Insertion behind a cell

The new cell `n` takes over the link of the cell `p`, and `p` is made to name
`n`.  Here `q` is the cell the chain starts from and `p` the last cell of the
part in front of the insertion.
-/

theorem chain_insert {next next' : addr -> addr} {null n p q : addr}
    {xs ys : List addr}
    (h : Chain next null (next q) (xs ++ ys))
    (hp : (q :: xs).getLast? = some p)
    (hnodup : (q :: (xs ++ ys)).Nodup)
    (hnull : n ≠ null)
    (hn : next' n = next p) (hlink : next' p = n)
    (hsame : forall c, c ∈ q :: (xs ++ ys) -> c ≠ p -> next' c = next c) :
    Chain next' null (next' q) (xs ++ n :: ys) := by
  induction xs generalizing q with
  | nil =>
      have hqp : q = p := by simpa using hp
      subst hqp
      refine ⟨hnull, hlink, ?_⟩
      rw [hn]
      refine chain_congr h fun y hy => hsame y (List.mem_cons_of_mem q hy) ?_
      intro hyq
      subst hyq
      exact (List.nodup_cons.mp hnodup).left hy
  | cons x rest ih =>
      rcases h with ⟨hne, hqx, hrest⟩
      have hlast : (x :: rest).getLast? = some p := by
        simpa [List.getLast?_cons_cons] using hp
      have hpmem : p ∈ x :: rest := List.mem_of_getLast? hlast
      have hqp : q ≠ p := by
        intro heq
        subst heq
        exact (List.nodup_cons.mp hnodup).left (List.mem_append_left ys hpmem)
      refine ⟨hne, ?_, ?_⟩
      · rw [hsame q List.mem_cons_self hqp, hqx]
      · exact ih hrest hlast (List.nodup_cons.mp hnodup).right
          fun c hc hcp => hsame c (List.mem_cons_of_mem q hc) hcp

end Verification
