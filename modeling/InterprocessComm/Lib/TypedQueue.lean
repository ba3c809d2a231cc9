import Mathlib.Data.List.Basic

/-!
# Queues of typed messages

Messages of several types share one queue; a receiver takes the oldest message of the
type it asks for.  Each type is a queue of its own.
-/

namespace Verification

variable {msg κ : Type _} [DecidableEq κ]

def ofType (type : msg -> κ) (t : κ) (q : List msg) : List msg :=
  q.filter fun m => type m = t

def takeType (type : msg -> κ) (t : κ) : List msg -> Option (msg × List msg)
  | [] => none
  | m :: q => if type m = t then some (m, q) else (takeType type t q).map fun r => (r.1, m :: r.2)

section Take

variable {type : msg -> κ} {t u : κ} {m : msg} {q q' : List msg}

theorem ofType_append (q₁ q₂ : List msg) :
    ofType type t (q₁ ++ q₂) = ofType type t q₁ ++ ofType type t q₂ :=
  List.filter_append ..

theorem ofType_single (m : msg) :
    ofType type t [m] = if type m = t then [m] else [] := by
  by_cases h : type m = t <;> simp [ofType, h]

theorem ofType_snoc_self (q : List msg) (h : type m = t) :
    ofType type t (q ++ [m]) = ofType type t q ++ [m] := by
  rw [ofType_append, ofType_single, if_pos h]

theorem ofType_snoc_other (q : List msg) (h : type m ≠ t) :
    ofType type t (q ++ [m]) = ofType type t q := by
  rw [ofType_append, ofType_single, if_neg h, List.append_nil]

theorem ofType_eq_nil (h : forall m, m ∈ q -> type m ≠ t) : ofType type t q = [] :=
  List.filter_eq_nil_iff.mpr fun m hm => by simpa using h m hm

theorem takeType_all (h : forall m, m ∈ q -> type m = t) :
    takeType type t q = match q with
      | [] => none
      | m :: rest => some (m, rest) := by
  cases q with
  | nil => rfl
  | cons m rest => rw [takeType, if_pos (h m (by simp))]

theorem takeType_split (h : takeType type t q = some (m, q')) :
    exists front back, q = front ++ m :: back ∧ q' = front ++ back ∧ type m = t ∧
      forall x, x ∈ front -> type x ≠ t := by
  induction q generalizing q' with
  | nil => cases h
  | cons first rest ih =>
      rw [takeType] at h
      split at h
      · rename_i hfirst
        cases h
        exact ⟨[], rest, rfl, rfl, hfirst, fun x hx => by cases hx⟩
      · rename_i hfirst
        rcases Option.map_eq_some_iff.mp h with ⟨⟨m₁, q₁⟩, hrest, hdone⟩
        cases hdone
        rcases ih hrest with ⟨front, back, rfl, rfl, hm, hfront⟩
        refine ⟨first :: front, back, rfl, rfl, hm, ?_⟩
        intro x hx
        rcases List.mem_cons.mp hx with rfl | hx
        · exact hfirst
        · exact hfront x hx

theorem takeType_self (h : takeType type t q = some (m, q')) :
    type m = t ∧ ofType type t q = m :: ofType type t q' := by
  rcases takeType_split h with ⟨front, back, rfl, rfl, hm, hfront⟩
  have hnone : ofType type t front = [] := ofType_eq_nil hfront
  refine ⟨hm, ?_⟩
  rw [ofType_append, ofType_append, hnone]
  simp [ofType, hm]

theorem takeType_other (h : takeType type t q = some (m, q')) (hu : u ≠ t) :
    ofType type u q' = ofType type u q := by
  rcases takeType_split h with ⟨front, back, rfl, rfl, hm, _⟩
  have hne : type m ≠ u := fun heq => hu (heq.symm.trans hm)
  rw [ofType_append, ofType_append]
  simp [ofType, hne]

theorem takeType_eq_none_iff : takeType type t q = none <-> ofType type t q = [] := by
  induction q with
  | nil => exact ⟨fun _ => rfl, fun _ => rfl⟩
  | cons first rest ih =>
      rw [takeType, ofType]
      by_cases hfirst : type first = t
      · simp [hfirst]
      · rw [if_neg hfirst, List.filter_cons_of_neg (by simpa using hfirst),
          Option.map_eq_none_iff]
        exact ih

theorem takeType_snoc (hq : ofType type t q = []) (hm : type m = t) :
    takeType type t (q ++ [m]) = some (m, q) := by
  induction q with
  | nil => simp [takeType, hm]
  | cons first rest ih =>
      have hfirst : type first ≠ t := by
        intro h
        simp [ofType, h] at hq
      have hrest : ofType type t rest = [] := by
        rw [ofType, List.filter_cons_of_neg (by simpa using hfirst)] at hq
        exact hq
      rw [List.cons_append, takeType, if_neg hfirst, ih hrest]
      rfl

theorem takeType_sublist (h : takeType type t q = some (m, q')) : q'.Sublist q := by
  rcases takeType_split h with ⟨front, back, rfl, rfl, _, _⟩
  exact (List.Sublist.refl front).append (List.sublist_cons_self m back)

theorem mem_of_takeType (h : takeType type t q = some (m, q')) (x : msg) (hx : x ∈ q') : x ∈ q :=
  (takeType_sublist h).subset hx

end Take

theorem perm_flatMap_ofType (type : msg -> κ) {ts : List κ} (hts : ts.Nodup) {q : List msg}
    (hq : forall m, m ∈ q -> type m ∈ ts) : q.Perm (ts.flatMap fun t => ofType type t q) := by
  induction ts generalizing q with
  | nil =>
      rcases List.eq_nil_or_concat q with rfl | ⟨front, m, rfl⟩
      · exact List.Perm.refl []
      · cases hq m (by simp)
  | cons t ts ih =>
      rcases List.nodup_cons.mp hts with ⟨ht, hts⟩
      have hsplit := List.filter_append_perm (fun m => decide (type m = t)) q
      have hrest := ih hts (q := q.filter fun m => !decide (type m = t)) (by
        intro m hm
        rcases List.mem_filter.mp hm with ⟨hm, hother⟩
        exact (List.mem_cons.mp (hq m hm)).resolve_left (by simpa using hother))
      -- what is not of type `t` has all the messages of the other types
      have hsame : forall u, u ∈ ts ->
          ofType type u (q.filter fun m => !decide (type m = t)) = ofType type u q := by
        intro u hu
        unfold ofType
        rw [List.filter_filter]
        apply List.filter_congr
        intro m _
        by_cases hm : type m = u
        · have hne : u ≠ t := fun heq => ht (heq ▸ hu)
          simp [hm, hne]
        · simp [hm]
      rw [List.flatMap_congr hsame] at hrest
      exact hsplit.symm.trans (List.Perm.append_left _ hrest)

end Verification
