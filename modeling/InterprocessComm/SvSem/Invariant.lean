import InterprocessComm.SvSem.Syscalls
import InterprocessComm.SvSem.System

/-!
# What is known of the sets

A set is created, set to zero and incremented by one call; from then on its value is what
the posts and the waits make of it.  A call knows of its set how far it has come, and
nobody else changes that.
-/

namespace InterprocessComm
namespace SvSem

section Invariant

variable {proc : Type}

structure SetOk (h : SvHistory proc) (k : Kernel) (id : Nat) : Prop where
  initialised : id < k.next -> (k.sets id).otime = true -> (h.initial id).isSome = true
  zeroed : (h.initial id).isSome = true -> h.zeroed id = true
  value : forall v, h.initial id = some v ->
    ((k.sets id).semval : Int) = v + h.posts id - h.waits id
  unused : h.initial id = none -> h.posts id = 0 ∧ h.waits id = 0
  atZero : h.initial id = none -> h.zeroed id = true -> (k.sets id).semval = 0
  unborn : k.next ≤ id -> h.creator id = none ∧ h.zeroed id = false ∧ h.initial id = none

structure Creating (h : SvHistory proc) (k : Kernel) (p : proc) (id : Nat) : Prop where
  lt : id < k.next
  creator : h.creator id = some p
  initial : h.initial id = none

/-- A set on which a `semop` has succeeded. -/
structure Trusted (k : Kernel) (id : Nat) : Prop where
  lt : id < k.next
  otime : (k.sets id).otime = true

def SvOpenLoc.Stage (h : SvHistory proc) (k : Kernel) (p : proc) (l : SvOpenLoc) : Prop :=
  match l.pc with
  | SvOpenPc.setval => exists id, l.semid = some id ∧ Creating h k p id
  | SvOpenPc.initop => exists id, l.semid = some id ∧ Creating h k p id ∧ h.zeroed id = true
  | SvOpenPc.malloc => exists id, l.semid = some id ∧ Trusted k id
  | _ => True

structure SvInv (h : SvHistory proc) (s : SvState proc) : Prop where
  sets : forall id, SetOk h s.kernel id
  value : forall p l, s.calls p = some l -> h.value p = some l.args.value
  stage : forall p l, s.calls p = some l -> l.Stage h s.kernel p
  sems : forall sem, sem ∈ s.sems -> exists id, sem.sem_semid = some id ∧ Trusted s.kernel id

/-- No set is lost, and `sem_otime` is not cleared. -/
structure Grows (k k' : Kernel) : Prop where
  next : k.next ≤ k'.next
  otime : forall id, id < k.next -> (k.sets id).otime = true -> (k'.sets id).otime = true

/-- What happens to the history leaves the sets that process `q` is initialising. -/
def Leaves (h h' : SvHistory proc) (k : Kernel) (q : proc) : Prop :=
  forall id, id < k.next -> h.creator id = some q ->
    h'.creator id = some q ∧ (h.initial id = none -> h'.initial id = none) ∧
      (h.zeroed id = true -> h'.zeroed id = true)

variable {h h' : SvHistory proc} {k k' : Kernel} {p q : proc} {l : SvOpenLoc} {id : Nat}

theorem Trusted.frame (ht : Trusted k id) (hgrows : Grows k k') : Trusted k' id :=
  ⟨Nat.lt_of_lt_of_le ht.lt hgrows.next, hgrows.otime id ht.lt ht.otime⟩

theorem Creating.frame (hc : Creating h k q id) (hgrows : Grows k k')
    (hleaves : Leaves h h' k q) : Creating h' k' q id := by
  rcases hleaves id hc.lt hc.creator with ⟨hcreator, hinitial, _⟩
  exact ⟨Nat.lt_of_lt_of_le hc.lt hgrows.next, hcreator, hinitial hc.initial⟩

theorem SvOpenLoc.Stage.frame (hs : l.Stage h k q) (hgrows : Grows k k')
    (hleaves : Leaves h h' k q) : l.Stage h' k' q := by
  unfold SvOpenLoc.Stage at *
  cases hpc : l.pc with
  | setval =>
      rw [hpc] at hs
      rcases hs with ⟨id, hid, hcreating⟩
      exact ⟨id, hid, hcreating.frame hgrows hleaves⟩
  | initop =>
      rw [hpc] at hs
      rcases hs with ⟨id, hid, hcreating, hzeroed⟩
      exact ⟨id, hid, hcreating.frame hgrows hleaves,
        (hleaves id hcreating.lt hcreating.creator).right.right hzeroed⟩
  | malloc =>
      rw [hpc] at hs
      rcases hs with ⟨id, hid, htrusted⟩
      exact ⟨id, hid, htrusted.frame hgrows⟩
  | _ => trivial

theorem SameSets.grows (hsame : SameSets k k') : Grows k k' :=
  ⟨Nat.le_of_eq hsame.next.symm, fun id _ ht => by rw [hsame.otime]; exact ht⟩

theorem leaves_refl (h : SvHistory proc) (k : Kernel) (q : proc) : Leaves h h k q :=
  fun _ _ hc => ⟨hc, fun hi => hi, fun hz => hz⟩

theorem SetOk.same (hok : SetOk h k id) (hsame : SameSets k k') : SetOk h k' id := by
  constructor
  · rw [hsame.next, hsame.otime]
    exact hok.initialised
  · exact hok.zeroed
  · rw [hsame.semval]
    exact hok.value
  · exact hok.unused
  · rw [hsame.semval]
    exact hok.atZero
  · rw [hsame.next]
    exact hok.unborn

theorem SvInv.step {s : SvState proc} {calls' : proc -> Option SvOpenLoc} {sems' : List SemT}
    (hinv : SvInv h s) (hsets : forall id, SetOk h' k' id) (hgrows : Grows s.kernel k')
    (hcalls : forall q l, calls' q = some l ->
      (s.calls q = some l ∧ Leaves h h' s.kernel q ∧ h'.value q = h.value q) ∨
        (h'.value q = some l.args.value ∧ l.Stage h' k' q))
    (hsems : forall sem, sem ∈ sems' ->
      (exists old, old ∈ s.sems ∧ sem.sem_semid = old.sem_semid) ∨
        exists id, sem.sem_semid = some id ∧ Trusted k' id) :
    SvInv h' { kernel := k', calls := calls', sems := sems' } := by
  constructor
  · exact hsets
  · intro q l hl
    rcases hcalls q l hl with ⟨hold, _, hvalue⟩ | ⟨hvalue, _⟩
    · rw [hvalue]
      exact hinv.value q l hold
    · exact hvalue
  · intro q l hl
    rcases hcalls q l hl with ⟨hold, hleaves, _⟩ | ⟨_, hstage⟩
    · exact (hinv.stage q l hold).frame hgrows hleaves
    · exact hstage
  · intro sem hsem
    rcases hsems sem hsem with ⟨old, hold, hid⟩ | htrusted
    · rcases hinv.sems old hold with ⟨id, hsome, htrusted⟩
      exact ⟨id, hid.trans hsome, htrusted.frame hgrows⟩
    · exact htrusted

/-!
## Changes of a set
-/

theorem grows_update {x : SemSet} {n : Nat} (hx : (k.sets n).otime = true -> x.otime = true) :
    Grows k (k.update n x) := by
  constructor
  · exact Nat.le_refl _
  · intro id _ hotime
    show (Function.update k.sets n x id).otime = true
    by_cases hid : id = n
    · subst hid
      rw [Function.update_self]
      exact hx hotime
    · rw [Function.update_of_ne hid]
      exact hotime

variable [DecidableEq proc] {n : Nat}

section Created

variable {fresh : Nat -> Nat}

theorem created_new : (k.created fresh).sets k.next =
    { semval := fresh k.next, otime := false, removed := false } :=
  Function.update_self _ _ _

theorem created_set (hid : id ≠ k.next) : (k.created fresh).sets id = k.sets id :=
  Function.update_of_ne hid _ _

omit [DecidableEq proc] in
theorem created_grows : Grows k (k.created fresh) := by
  constructor
  · exact Nat.le_succ _
  · intro id hlt hotime
    rw [created_set (Nat.ne_of_lt hlt)]
    exact hotime

theorem created_sets (hok : forall id, SetOk h k id) (id : Nat) :
    SetOk (h.observe (SvEvent.created p k.next)) (k.created fresh) id := by
  have hnext : (k.created fresh).next = k.next + 1 := rfl
  by_cases hid : id = k.next
  · subst hid
    rcases (hok k.next).unborn (Nat.le_refl _) with ⟨_, hzeroed, hinitial⟩
    constructor
    · intro _ hotime
      rw [created_new] at hotime
      cases hotime
    · exact (hok k.next).zeroed
    · intro v hv
      exact absurd (hinitial.symm.trans hv) (by simp)
    · exact (hok k.next).unused
    · intro _ hzero
      exact absurd (hzeroed.symm.trans hzero) (by simp)
    · intro hle
      lia
  · constructor
    · intro hlt
      rw [created_set hid]
      exact (hok id).initialised (by lia)
    · exact (hok id).zeroed
    · rw [created_set hid]
      exact (hok id).value
    · exact (hok id).unused
    · rw [created_set hid]
      exact (hok id).atZero
    · intro hle
      rcases (hok id).unborn (by lia) with ⟨hcreator, hrest⟩
      refine ⟨?_, hrest⟩
      show Function.update h.creator k.next (some p) id = none
      rw [Function.update_of_ne hid]
      exact hcreator

theorem created_creating (hok : forall id, SetOk h k id) :
    Creating (h.observe (SvEvent.created p k.next)) (k.created fresh) p k.next := by
  constructor
  · exact Nat.lt_succ_self _
  · exact Function.update_self _ _ _
  · exact ((hok k.next).unborn (Nat.le_refl _)).right.right

theorem created_leaves (q : proc) : Leaves h (h.observe (SvEvent.created p k.next)) k q := by
  intro id hlt hcreator
  refine ⟨?_, fun hi => hi, fun hz => hz⟩
  show Function.update h.creator k.next (some p) id = some q
  rw [Function.update_of_ne (Nat.ne_of_lt hlt)]
  exact hcreator

end Created

omit [DecidableEq proc] in
theorem update_sets {x : SemSet} (hok : forall id, SetOk h k id)
    (hother : forall id, id ≠ n -> h'.creator id = h.creator id ∧ h'.zeroed id = h.zeroed id ∧
      h'.initial id = h.initial id ∧ h'.posts id = h.posts id ∧ h'.waits id = h.waits id)
    (hself : forall k', k'.sets n = x -> k'.next = k.next -> SetOk h' k' n) (id : Nat) :
    SetOk h' (k.update n x) id := by
  by_cases hid : id = n
  · subst hid
    exact hself _ (Function.update_self _ _ _) rfl
  · have hset : (k.update n x).sets id = k.sets id := Function.update_of_ne hid _ _
    have hnext : (k.update n x).next = k.next := rfl
    rcases hother id hid with ⟨hcreator, hzeroed, hinitial, hposts, hwaits⟩
    rcases hok id with ⟨ok₁, ok₂, ok₃, ok₄, ok₅, ok₆⟩
    constructor
    · rw [hset, hnext, hinitial]
      exact ok₁
    · rw [hinitial, hzeroed]
      exact ok₂
    · rw [hset, hinitial, hposts, hwaits]
      exact ok₃
    · rw [hinitial, hposts, hwaits]
      exact ok₄
    · rw [hset, hinitial, hzeroed]
      exact ok₅
    · rw [hnext, hcreator, hzeroed, hinitial]
      exact ok₆

section Zeroed

theorem observe_zeroed (hcreator : h.creator n = some p) :
    h.observe (SvEvent.zeroed p n) = { h with zeroed := Function.update h.zeroed n true } :=
  if_pos hcreator

theorem zeroed_sets (hok : forall id, SetOk h k id) (hc : Creating h k p n) (id : Nat) :
    SetOk (h.observe (SvEvent.zeroed p n)) (k.update n { k.sets n with semval := 0 }) id := by
  rw [observe_zeroed hc.creator]
  refine update_sets hok ?_ ?_ id
  · intro id hid
    exact ⟨rfl, Function.update_of_ne hid _ _, rfl, rfl, rfl⟩
  · intro k' hset hnext
    have hnone := hc.initial
    constructor
    · rw [hset, hnext]
      exact (hok n).initialised
    · intro _
      exact Function.update_self _ _ _
    · intro v hv
      exact absurd (hnone.symm.trans hv) (by simp)
    · exact (hok n).unused
    · intro _ _
      rw [hset]
    · intro hle
      exact absurd hc.lt (by lia)

theorem zeroed_leaves (hc : Creating h k p n) (q : proc) :
    Leaves h (h.observe (SvEvent.zeroed p n)) k q := by
  rw [observe_zeroed hc.creator]
  intro id _ hcreator
  refine ⟨hcreator, fun hi => hi, ?_⟩
  intro hzeroed
  show Function.update h.zeroed n true id = true
  by_cases hid : id = n
  · subst hid
    exact Function.update_self _ _ _
  · rw [Function.update_of_ne hid]
    exact hzeroed

end Zeroed

section Incremented

theorem observe_incremented (hcreator : h.creator n = some p) (hzeroed : h.zeroed n = true) :
    h.observe (SvEvent.incremented p n) =
      { h with initial := Function.update h.initial n (h.value p) } :=
  if_pos ⟨hcreator, hzeroed⟩

theorem incremented_sets {x : SemSet} {v : Nat} (hok : forall id, SetOk h k id)
    (hc : Creating h k p n) (hzeroed : h.zeroed n = true) (hv : h.value p = some v)
    (hx : (x.semval : Int) = (k.sets n).semval + v) (id : Nat) :
    SetOk (h.observe (SvEvent.incremented p n)) (k.update n x) id := by
  rw [observe_incremented hc.creator hzeroed, hv]
  refine update_sets hok ?_ ?_ id
  · intro id hid
    exact ⟨rfl, rfl, Function.update_of_ne hid _ _, rfl, rfl⟩
  · intro k' hset hnext
    have hzero := (hok n).atZero hc.initial hzeroed
    rcases (hok n).unused hc.initial with ⟨hposts, hwaits⟩
    have hself : Function.update h.initial n (some v) n = some v := Function.update_self _ _ _
    constructor
    · intro _ _
      exact congrArg Option.isSome hself
    · intro _
      exact hzeroed
    · intro w hw
      cases hself.symm.trans hw
      rw [hset]
      simp only
      lia
    · intro hnone
      exact absurd (hself.symm.trans hnone) (by simp)
    · intro hnone
      exact absurd (hself.symm.trans hnone) (by simp)
    · intro hle
      exact absurd hc.lt (by lia)

theorem incremented_leaves (hc : Creating h k p n) (hzeroed : h.zeroed n = true) (hq : q ≠ p) :
    Leaves h (h.observe (SvEvent.incremented p n)) k q := by
  rw [observe_incremented hc.creator hzeroed]
  intro id _ hcreator
  refine ⟨hcreator, ?_, fun hz => hz⟩
  intro hinitial
  show Function.update h.initial n (h.value p) id = none
  rw [Function.update_of_ne]
  · exact hinitial
  · intro hid
    subst hid
    exact hq (Option.some.inj (hcreator.symm.trans hc.creator))

end Incremented

omit [DecidableEq proc] in
theorem used_sets (h' : SvHistory proc) {x : SemSet} {op : Int} (hok : forall id, SetOk h k id)
    (ht : Trusted k n)
    (hx : (x.semval : Int) = (k.sets n).semval + op)
    (hother : forall id, id ≠ n -> h'.posts id = h.posts id ∧ h'.waits id = h.waits id)
    (hcreator : h'.creator = h.creator) (hzeroed : h'.zeroed = h.zeroed)
    (hinitial : h'.initial = h.initial)
    (hop : (h'.posts n : Int) - h'.waits n = h.posts n - h.waits n + op) (id : Nat) :
    SetOk h' (k.update n x) id := by
  refine update_sets hok ?_ ?_ id
  · intro id hid
    rw [hcreator, hzeroed, hinitial]
    exact ⟨rfl, rfl, rfl, hother id hid⟩
  · intro k' hset hnext
    have hsome := (hok n).initialised ht.lt ht.otime
    constructor
    · intro _ _
      rw [hinitial]
      exact hsome
    · rw [hinitial, hzeroed]
      exact (hok n).zeroed
    · intro v hv
      rw [hinitial] at hv
      have hvalue := (hok n).value v hv
      rw [hset]
      lia
    · intro hnone
      rw [hinitial] at hnone
      rw [hnone] at hsome
      cases hsome
    · intro hnone
      rw [hinitial] at hnone
      rw [hnone] at hsome
      cases hsome
    · intro hle
      exact absurd ht.lt (by lia)

end Invariant

end SvSem
end InterprocessComm
