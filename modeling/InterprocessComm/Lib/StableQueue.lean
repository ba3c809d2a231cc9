import Mathlib.Data.List.Sort

/-!
# Stable priority queues

A queue is a list of messages from the highest to the lowest key.  A message is
inserted behind all messages whose key is not lower, and the first message is
removed.  The history of a queue numbers the messages in the order in which
they were put in, so that what a run of puts and takes loses, repeats, alters
or overtakes can be said of the numbers.
-/

namespace Verification

variable {msg κ : Type _} [LinearOrder κ]

/-!
# Insertion
-/

def stableInsert (key : msg -> κ) (m : msg) (q : List msg) : List msg :=
  q.orderedInsert (fun a b => key b < key a) m

def SortedBy (key : msg -> κ) (q : List msg) : Prop :=
  q.Pairwise fun a b => key b ≤ key a

theorem stableInsert_cons_of_lt {key : msg -> κ} {m a : msg} (rest : List msg)
    (h : key a < key m) : stableInsert key m (a :: rest) = m :: a :: rest :=
  List.orderedInsert_cons_of_le _ rest h

theorem stableInsert_cons_of_le {key : msg -> κ} {m a : msg} (rest : List msg)
    (h : key m ≤ key a) :
    stableInsert key m (a :: rest) = a :: stableInsert key m rest :=
  List.orderedInsert_of_not_le (r := fun a b => key b < key a) rest (not_lt.mpr h)

theorem stableInsert_perm (key : msg -> κ) (m : msg) (q : List msg) :
    (stableInsert key m q).Perm (m :: q) :=
  List.perm_orderedInsert _ _ _

/-- Insertion at a place behind the keys that are not lower and in front of a
lower one is stable insertion. -/
theorem stableInsert_eq_of_split {key : msg -> κ} {m : msg} {front back : List msg}
    (hfront : forall a, a ∈ front -> key m ≤ key a)
    (hback : forall b, b ∈ back.head? -> key b < key m) :
    stableInsert key m (front ++ back) = front ++ m :: back := by
  induction front with
  | nil =>
      cases back with
      | nil => rfl
      | cons b rest =>
          exact stableInsert_cons_of_lt rest (hback b rfl)
  | cons a rest ih =>
      rw [List.cons_append, stableInsert_cons_of_le _ (hfront a List.mem_cons_self)]
      exact congrArg (List.cons a) (ih fun x hx => hfront x (List.mem_cons_of_mem a hx))

theorem stableInsert_split {key : msg -> κ} {m : msg} {q : List msg}
    (hsorted : SortedBy key q) :
    exists front back,
      q = front ++ back ∧ stableInsert key m q = front ++ m :: back ∧
        (forall a, a ∈ front -> key m ≤ key a) ∧
        (forall b, b ∈ back -> key b < key m) := by
  induction q with
  | nil => exact ⟨[], [], rfl, rfl, by simp, by simp⟩
  | cons a rest ih =>
      rcases List.pairwise_cons.mp hsorted with ⟨hhead, htail⟩
      by_cases hlow : key a < key m
      · refine ⟨[], a :: rest, rfl, ?_, by simp, ?_⟩
        · exact stableInsert_cons_of_lt rest hlow
        · intro b hb
          rcases List.mem_cons.mp hb with rfl | hmem
          · exact hlow
          · exact lt_of_le_of_lt (hhead b hmem) hlow
      · rcases ih htail with ⟨front, back, hsplit, hinsert, hfront, hback⟩
        refine ⟨a :: front, back, by rw [hsplit]; rfl, ?_, ?_, hback⟩
        · rw [stableInsert_cons_of_le rest (not_lt.mp hlow), hinsert]
          rfl
        · intro b hb
          rcases List.mem_cons.mp hb with rfl | hmem
          · exact not_lt.mp hlow
          · exact hfront b hmem

theorem stableInsert_sorted {key : msg -> κ} {m : msg} {q : List msg}
    (hsorted : SortedBy key q) : SortedBy key (stableInsert key m q) := by
  rcases stableInsert_split (m := m) hsorted with
    ⟨front, back, hsplit, hinsert, hfront, hback⟩
  rw [hinsert]
  unfold SortedBy at hsorted ⊢
  rw [hsplit] at hsorted
  rcases List.pairwise_append.mp hsorted with ⟨hfrontSorted, hbackSorted, hcross⟩
  apply List.pairwise_append.mpr
  refine ⟨hfrontSorted, List.pairwise_cons.mpr ⟨?_, hbackSorted⟩, ?_⟩
  · intro b hb
    exact le_of_lt (hback b hb)
  · intro a ha b hb
    rcases List.mem_cons.mp hb with rfl | hmem
    · exact hfront a ha
    · exact hcross a ha b hmem

/-!
# Histories

Every message carries the number of messages put in before it.
-/

structure History (msg : Type _) where
  sent : List msg
  pending : List (msg × Nat)
  taken : List (msg × Nat)

namespace History

def empty : History msg :=
  { sent := [], pending := [], taken := [] }

def put (key : msg -> κ) (m : msg) (h : History msg) : History msg :=
  { sent := h.sent ++ [m],
    pending := stableInsert (fun x : msg × Nat => key x.1) (m, h.sent.length) h.pending,
    taken := h.taken }

def take (h : History msg) : History msg :=
  { sent := h.sent,
    pending := h.pending.tail,
    taken := h.taken ++ h.pending.head?.toList }

def Precedes (key : msg -> κ) (a b : msg × Nat) : Prop :=
  key b.1 < key a.1 ∨ key b.1 = key a.1 ∧ a.2 < b.2

/-- The messages that were put in are, each once, those that were taken out and
those that are pending, and these stand in order of key and age. -/
structure Ok (key : msg -> κ) (h : History msg) : Prop where
  complete : (h.pending ++ h.taken).Perm h.sent.zipIdx
  ordered : h.pending.Pairwise (Precedes key)

theorem ok_empty (key : msg -> κ) : Ok key (empty : History msg) where
  complete := List.Perm.nil
  ordered := List.Pairwise.nil

theorem Ok.sorted {key : msg -> κ} {h : History msg} (hok : Ok key h) :
    SortedBy (fun x : msg × Nat => key x.1) h.pending :=
  hok.ordered.imp fun hab => by
    rcases hab with hlt | ⟨heq, _⟩
    · exact le_of_lt hlt
    · exact le_of_eq heq

theorem Ok.number_lt {key : msg -> κ} {h : History msg} (hok : Ok key h)
    {x : msg × Nat} (hx : x ∈ h.pending) : x.2 < h.sent.length := by
  have hmem : x ∈ h.sent.zipIdx :=
    hok.complete.mem_iff.mp (List.mem_append_left h.taken hx)
  simpa using List.snd_lt_of_mem_zipIdx hmem

theorem ok_put {key : msg -> κ} {h : History msg} (hok : Ok key h) (m : msg) :
    Ok key (h.put key m) := by
  constructor
  · have hperm : (stableInsert (fun x : msg × Nat => key x.1) (m, h.sent.length)
        h.pending).Perm ((m, h.sent.length) :: h.pending) :=
      List.perm_orderedInsert _ _ _
    have hcons : ((m, h.sent.length) :: (h.pending ++ h.taken)).Perm
        ((m, h.sent.length) :: h.sent.zipIdx) := hok.complete.cons _
    have hlast : ((m, h.sent.length) :: h.sent.zipIdx).Perm
        (h.sent.zipIdx ++ [(m, h.sent.length)]) :=
      (List.perm_append_singleton _ _).symm
    show ((stableInsert (fun x : msg × Nat => key x.1) (m, h.sent.length)
        h.pending) ++ h.taken).Perm (h.sent ++ [m]).zipIdx
    rw [List.zipIdx_append]
    simpa using (hperm.append_right h.taken).trans (hcons.trans hlast)
  · rcases stableInsert_split (m := (m, h.sent.length)) hok.sorted with
      ⟨front, back, hsplit, hinsert, hfront, hback⟩
    show (stableInsert (fun x : msg × Nat => key x.1) (m, h.sent.length)
      h.pending).Pairwise (Precedes key)
    rw [hinsert]
    have hordered := hok.ordered
    rw [hsplit] at hordered
    rcases List.pairwise_append.mp hordered with ⟨hfrontOrd, hbackOrd, hcross⟩
    apply List.pairwise_append.mpr
    refine ⟨hfrontOrd, List.pairwise_cons.mpr ⟨?_, hbackOrd⟩, ?_⟩
    · intro b hb
      exact Or.inl (hback b hb)
    · intro a ha b hb
      rcases List.mem_cons.mp hb with rfl | hmem
      · have hnumber : a.2 < h.sent.length :=
          hok.number_lt (by rw [hsplit]; exact List.mem_append_left back ha)
        rcases lt_or_eq_of_le (hfront a ha) with hlt | heq
        · exact Or.inl hlt
        · exact Or.inr ⟨heq, hnumber⟩
      · exact hcross a ha b hmem

theorem ok_take {key : msg -> κ} {h : History msg} (hok : Ok key h) : Ok key h.take := by
  cases hpending : h.pending with
  | nil =>
      have hsame : h.take = h := by
        cases h
        simp only at hpending
        subst hpending
        simp [take]
      rw [hsame]
      exact hok
  | cons x rest =>
      constructor
      · have hcomplete := hok.complete
        rw [hpending] at hcomplete
        show (h.pending.tail ++ (h.taken ++ h.pending.head?.toList)).Perm h.sent.zipIdx
        rw [hpending]
        refine List.Perm.trans ?_ hcomplete
        show (rest ++ (h.taken ++ [x])).Perm (x :: (rest ++ h.taken))
        rw [← List.append_assoc]
        exact List.perm_append_singleton x (rest ++ h.taken)
      · have hordered := hok.ordered
        rw [hpending] at hordered
        show h.pending.tail.Pairwise (Precedes key)
        rw [hpending]
        exact (List.pairwise_cons.mp hordered).right

theorem put_pending_map (key : msg -> κ) (m : msg) (h : History msg) :
    (h.put key m).pending.map Prod.fst = stableInsert key m (h.pending.map Prod.fst) :=
  List.map_orderedInsert _ _ Prod.fst h.pending (m, h.sent.length)
    (fun _ _ => Iff.rfl) (fun _ _ => Iff.rfl)

theorem take_pending_map (h : History msg) :
    h.take.pending.map Prod.fst = (h.pending.map Prod.fst).tail := by
  show h.pending.tail.map Prod.fst = _
  exact List.map_tail

theorem Ok.head_precedes {key : msg -> κ} {h : History msg} (hok : Ok key h)
    {x : msg × Nat} {rest : List (msg × Nat)} (hpending : h.pending = x :: rest)
    {y : msg × Nat} (hy : y ∈ rest) : Precedes key x y := by
  have hordered := hok.ordered
  rw [hpending] at hordered
  exact (List.pairwise_cons.mp hordered).left y hy

end History

end Verification
