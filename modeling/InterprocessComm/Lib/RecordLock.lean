import Mathlib.Data.List.Basic

/-!
# Record locks

Processes lock ranges of bytes for reading or for writing.  A process replaces its own locks, and
is refused where another process has a lock that conflicts.
-/

namespace Verification

inductive LockType where
  | read
  | write
deriving DecidableEq

def LockType.conflicts : LockType -> LockType -> Bool
  | read, read => false
  | _, _ => true

/-!
# Ranges
-/

structure ByteRange where
  lo : Nat
  hi : Option Nat
deriving DecidableEq

namespace ByteRange

def Contains (r : ByteRange) (b : Nat) : Prop :=
  r.lo ≤ b ∧ forall h, r.hi = some h -> b < h

def inter (r s : ByteRange) : ByteRange :=
  { lo := max r.lo s.lo
    hi := match r.hi, s.hi with
      | none, h => h
      | h, none => h
      | some h, some k => some (min h k) }

def nonempty (r : ByteRange) : Bool :=
  match r.hi with
  | none => true
  | some h => r.lo < h

def sides (s : ByteRange) : List ByteRange :=
  ⟨0, some s.lo⟩ :: (s.hi.map fun h => ⟨h, none⟩).toList

def cut (r s : ByteRange) : List ByteRange :=
  (s.sides.map r.inter).filter nonempty

def whole : ByteRange := ⟨0, none⟩

variable {r s : ByteRange} {b : Nat}

theorem contains_whole (b : Nat) : whole.Contains b :=
  ⟨Nat.zero_le b, fun _ h => by cases h⟩

theorem contains_inter : (r.inter s).Contains b <-> r.Contains b ∧ s.Contains b := by
  rcases r with ⟨lo, hi⟩
  rcases s with ⟨lo', hi'⟩
  cases hi with
  | none =>
      simp only [Contains, inter]
      constructor
      · rintro ⟨hlow, hhigh⟩
        exact ⟨⟨by lia, fun _ h => by cases h⟩, by lia, hhigh⟩
      · rintro ⟨⟨hlow, _⟩, hlow', hhigh⟩
        exact ⟨by lia, hhigh⟩
  | some h =>
      cases hi' with
      | none =>
          simp only [Contains, inter]
          constructor
          · rintro ⟨hlow, hhigh⟩
            exact ⟨⟨by lia, hhigh⟩, by lia, fun _ h => by cases h⟩
          · rintro ⟨⟨hlow, hhigh⟩, hlow', _⟩
            exact ⟨by lia, hhigh⟩
      | some h' =>
          simp only [Contains, inter, Option.some.injEq, forall_eq']
          lia

theorem nonempty_iff : r.nonempty = true <-> exists b, r.Contains b := by
  rcases r with ⟨lo, hi⟩
  cases hi with
  | none => exact ⟨fun _ => ⟨lo, Nat.le_refl lo, fun _ h => by cases h⟩, fun _ => rfl⟩
  | some h =>
      simp only [nonempty, Contains, decide_eq_true_eq, Option.some.injEq, forall_eq']
      constructor
      · intro hlt
        exact ⟨lo, Nat.le_refl lo, hlt⟩
      · rintro ⟨b, hlow, hhigh⟩
        lia

theorem contains_sides : (exists x, x ∈ s.sides ∧ x.Contains b) <-> ¬ s.Contains b := by
  rcases s with ⟨lo, hi⟩
  cases hi with
  | none => simp [sides, Contains]
  | some h =>
      simp [sides, Contains]
      lia

theorem contains_cut :
    (exists x, x ∈ r.cut s ∧ x.Contains b) <-> r.Contains b ∧ ¬ s.Contains b := by
  rw [← contains_sides (s := s)]
  constructor
  · rintro ⟨x, hx, hb⟩
    rcases List.mem_map.mp (List.mem_filter.mp hx).1 with ⟨side, hside, rfl⟩
    rcases contains_inter.mp hb with ⟨hr, hs⟩
    exact ⟨hr, side, hside, hs⟩
  · rintro ⟨hr, side, hside, hs⟩
    have hb := contains_inter.mpr ⟨hr, hs⟩
    refine ⟨r.inter side, List.mem_filter.mpr ⟨List.mem_map_of_mem hside, ?_⟩, hb⟩
    exact nonempty_iff.mpr ⟨b, hb⟩

end ByteRange

/-!
# Locks
-/

structure RecordLock (proc : Type _) where
  owner : proc
  type : LockType
  range : ByteRange

section Locks

variable {proc : Type _}

def Held (locks : List (RecordLock proc)) (p : proc) (t : LockType) (b : Nat) : Prop :=
  exists l, l ∈ locks ∧ l.owner = p ∧ l.type = t ∧ l.range.Contains b

/-- All locks of a process are gone when it ends or closes the file. -/
def releaseAll [DecidableEq proc] (locks : List (RecordLock proc)) (p : proc) :
    List (RecordLock proc) :=
  locks.filter fun l => l.owner ≠ p

def release [DecidableEq proc] (locks : List (RecordLock proc)) (p : proc) (r : ByteRange) :
    List (RecordLock proc) :=
  locks.flatMap fun l =>
    if l.owner = p then (l.range.cut r).map fun x => { l with range := x } else [l]

def acquire [DecidableEq proc] (locks : List (RecordLock proc)) (p : proc) (t : LockType)
    (r : ByteRange) : List (RecordLock proc) :=
  ⟨p, t, r⟩ :: release locks p r

/-- Another process has a lock that conflicts. -/
def refused [DecidableEq proc] (locks : List (RecordLock proc)) (p : proc) (t : LockType)
    (r : ByteRange) : Bool :=
  locks.any fun l => l.owner ≠ p ∧ t.conflicts l.type ∧ (l.range.inter r).nonempty

/-- On each byte there is one writer or there are readers, and no process has both locks. -/
def Exclusive (locks : List (RecordLock proc)) : Prop :=
  forall b p q t u, Held locks p t b -> Held locks q u b ->
    (p = q ∧ t = u) ∨ (t = LockType.read ∧ u = LockType.read)

theorem exclusive_nil : Exclusive ([] : List (RecordLock proc)) := by
  rintro b p q t u ⟨l, hl, _⟩
  cases hl

variable [DecidableEq proc] {locks : List (RecordLock proc)} {p q : proc} {t u : LockType}
  {r : ByteRange} {b : Nat}

theorem held_releaseAll : Held (releaseAll locks p) q t b <-> Held locks q t b ∧ q ≠ p := by
  constructor
  · rintro ⟨l, hl, howner, htype, hb⟩
    rcases List.mem_filter.mp hl with ⟨hmem, hne⟩
    rw [howner] at hne
    exact ⟨⟨l, hmem, howner, htype, hb⟩, of_decide_eq_true hne⟩
  · rintro ⟨⟨l, hmem, howner, htype, hb⟩, hne⟩
    refine ⟨l, List.mem_filter.mpr ⟨hmem, ?_⟩, howner, htype, hb⟩
    rw [howner]
    exact decide_eq_true hne

theorem held_release :
    Held (release locks p r) q t b <-> Held locks q t b ∧ ¬ (q = p ∧ r.Contains b) := by
  constructor
  · rintro ⟨l, hl, howner, htype, hb⟩
    rcases List.mem_flatMap.mp hl with ⟨old, hold, hmem⟩
    split at hmem
    · rename_i hmine
      rcases List.mem_map.mp hmem with ⟨x, hx, rfl⟩
      rcases ByteRange.contains_cut.mp ⟨x, hx, hb⟩ with ⟨hin, hout⟩
      exact ⟨⟨old, hold, howner, htype, hin⟩, fun h => hout h.2⟩
    · rename_i hother
      cases List.mem_singleton.mp hmem
      exact ⟨⟨l, hold, howner, htype, hb⟩, fun h => hother (howner.trans h.1)⟩
  · rintro ⟨⟨l, hl, howner, htype, hb⟩, hkept⟩
    by_cases hmine : l.owner = p
    · have hout : ¬ r.Contains b := fun h => hkept ⟨howner.symm.trans hmine, h⟩
      rcases ByteRange.contains_cut.mpr ⟨hb, hout⟩ with ⟨x, hx, hbx⟩
      refine ⟨{ l with range := x }, List.mem_flatMap.mpr ⟨l, hl, ?_⟩, howner, htype, hbx⟩
      rw [if_pos hmine]
      exact List.mem_map_of_mem hx
    · refine ⟨l, List.mem_flatMap.mpr ⟨l, hl, ?_⟩, howner, htype, hb⟩
      rw [if_neg hmine]
      exact List.mem_singleton_self l

theorem held_acquire :
    Held (acquire locks p u r) q t b <->
      (q = p ∧ t = u ∧ r.Contains b) ∨ (Held locks q t b ∧ ¬ (q = p ∧ r.Contains b)) := by
  rw [← held_release]
  constructor
  · rintro ⟨l, hl, howner, htype, hb⟩
    rcases List.mem_cons.mp hl with rfl | hold
    · exact Or.inl ⟨howner.symm, htype.symm, hb⟩
    · exact Or.inr ⟨l, hold, howner, htype, hb⟩
  · rintro (⟨rfl, rfl, hb⟩ | ⟨l, hl, howner, htype, hb⟩)
    · exact ⟨_, List.mem_cons_self, rfl, rfl, hb⟩
    · exact ⟨l, List.mem_cons_of_mem _ hl, howner, htype, hb⟩

theorem held_acquire_of_ne (hne : q ≠ p) : Held (acquire locks p u r) q = Held locks q := by
  funext t b
  apply propext
  rw [held_acquire]
  simp [hne]

theorem held_release_of_ne (hne : q ≠ p) : Held (release locks p r) q = Held locks q := by
  funext t b
  apply propext
  rw [held_release]
  simp [hne]

theorem held_releaseAll_of_ne (hne : q ≠ p) : Held (releaseAll locks p) q = Held locks q := by
  funext t b
  apply propext
  rw [held_releaseAll]
  simp [hne]

theorem held_acquire_whole : Held (acquire locks p u ByteRange.whole) p t b <-> t = u := by
  rw [held_acquire]
  simp [ByteRange.contains_whole]

theorem not_held_release_whole : ¬ Held (release locks p ByteRange.whole) p t b :=
  fun h => (held_release.mp h).2 ⟨rfl, ByteRange.contains_whole b⟩

theorem not_held_releaseAll : ¬ Held (releaseAll locks p) p t b :=
  fun h => (held_releaseAll.mp h).2 rfl

theorem refused_iff : refused locks p t r = true <->
    exists q u b, q ≠ p ∧ t.conflicts u = true ∧ Held locks q u b ∧ r.Contains b := by
  unfold refused
  rw [List.any_eq_true]
  constructor
  · rintro ⟨l, hl, htest⟩
    rcases of_decide_eq_true htest with ⟨hne, hconflict, hmeet⟩
    rcases ByteRange.nonempty_iff.mp hmeet with ⟨b, hb⟩
    rcases ByteRange.contains_inter.mp hb with ⟨hin, hr⟩
    exact ⟨l.owner, l.type, b, hne, hconflict, ⟨l, hl, rfl, rfl, hin⟩, hr⟩
  · rintro ⟨q, u, b, hne, hconflict, ⟨l, hl, rfl, rfl, hin⟩, hr⟩
    refine ⟨l, hl, decide_eq_true ⟨hne, hconflict, ?_⟩⟩
    exact ByteRange.nonempty_iff.mpr ⟨b, ByteRange.contains_inter.mpr ⟨hin, hr⟩⟩

omit [DecidableEq proc] in
theorem Exclusive.sub {locks' : List (RecordLock proc)} (h : Exclusive locks)
    (hsub : forall q t b, Held locks' q t b -> Held locks q t b) : Exclusive locks' :=
  fun b p q t u hp hq => h b p q t u (hsub p t b hp) (hsub q u b hq)

theorem Exclusive.release (h : Exclusive locks) (p : proc) (r : ByteRange) :
    Exclusive (release locks p r) :=
  h.sub fun _ _ _ hq => (held_release.mp hq).1

theorem Exclusive.releaseAll (h : Exclusive locks) (p : proc) : Exclusive (releaseAll locks p) :=
  h.sub fun _ _ _ hq => (held_releaseAll.mp hq).1

theorem LockType.read_of_not_conflicts {t u : LockType} (h : t.conflicts u ≠ true) :
    t = LockType.read ∧ u = LockType.read := by
  cases t <;> cases u <;> simp_all [LockType.conflicts]

theorem Exclusive.acquire (h : Exclusive locks) (hfree : refused locks p t r = false) :
    Exclusive (acquire locks p t r) := by
  have hother : forall q u b, Held locks q u b -> r.Contains b -> q ≠ p ->
      t = LockType.read ∧ u = LockType.read := by
    intro q u b hq hb hne
    apply LockType.read_of_not_conflicts
    intro hconflict
    rw [refused_iff.mpr ⟨q, u, b, hne, hconflict, hq, hb⟩] at hfree
    cases hfree
  intro b q q' u u' hq hq'
  rcases held_acquire.mp hq with ⟨rfl, rfl, hb⟩ | ⟨hold, hkept⟩
  · rcases held_acquire.mp hq' with ⟨rfl, rfl, _⟩ | ⟨hold', hkept'⟩
    · exact Or.inl ⟨rfl, rfl⟩
    · exact Or.inr (hother q' u' b hold' hb fun heq => hkept' ⟨heq, hb⟩)
  · rcases held_acquire.mp hq' with ⟨rfl, rfl, hb⟩ | ⟨hold', _⟩
    · exact Or.inr (hother q u b hold hb fun heq => hkept ⟨heq, hb⟩).symm
    · exact h b q q' u u' hold hold'

end Locks

end Verification
