import InterprocessComm.Lib.Ledger
import InterprocessComm.Svmsg.Limits
import Mathlib.Data.List.Range

/-!
# The queues of limits

Where `limits` writes the identifiers of its queues, and whether it removes each queue that it has
created.
-/

namespace InterprocessComm
namespace Svmsg
namespace Limits

open Verification

/-!
# The account
-/

/-- The queues that exist, the results of all calls, and the number of calls just before that were
successful calls of `msgget`. -/
structure Account where
  queues : Ledger Int
  results : List CallResult
  streak : Nat

namespace Account

def empty : Account := { queues := Ledger.holding none, results := [], streak := 0 }

/-- `msgctl` of a negative number removes nothing. -/
def record (g : Account) (o : Call × CallResult) : Account where
  queues :=
    match o with
    | (Call.msgget, CallResult.value n) => g.queues.take n
    | (Call.rmid id, _) => if 0 ≤ id then g.queues.giveBack id else g.queues
    | _ => g.queues
  results := g.results ++ [o.2]
  streak :=
    match o with
    | (Call.msgget, CallResult.value _) => g.streak + 1
    | _ => 0

/-- Every queue has been removed once, and nothing else. -/
def Settled (g : Account) : Prop := g.queues = Ledger.holding none

instance (g : Account) : Decidable g.Settled :=
  inferInstanceAs (Decidable (_ = _))

end Account

def accountOf (tr : List LimitsTransition) : Account :=
  observed Account.record Account.empty tr

/-- The step assigns to an element of `qid`, if it assigns to `qid`. -/
def WritesInBounds (e : LimitsTransition) : Prop :=
  forall l, e.source = Control.goes l -> l.pc = Pc.openId -> l.i < MAX_NIDS

/-- The first queue is created, and `msgsnd` fails for each size. -/
def NoSizeFits (results : List CallResult) : Prop :=
  (results[0]?.any fun r => !r.isFailed) = true ∧
    forall k, k < MAX_DATA / 128 -> results[k + 1]?.any CallResult.isFailed = true

instance (results : List CallResult) : Decidable (NoSizeFits results) :=
  inferInstanceAs (Decidable (_ ∧ _))

/-- Not all of `MAX_NIDS` calls of `msgget` in a row succeed before another one. -/
def RoomLeft (g : Account) (o : Call × CallResult) : Prop :=
  o.1 = Call.msgget -> g.streak < MAX_NIDS

instance (g : Account) (o : Call × CallResult) : Decidable (RoomLeft g o) :=
  inferInstanceAs (Decidable (_ -> _))

/-!
# What the results say
-/

def SizeFits (results : List CallResult) : Prop :=
  exists k, k < MAX_DATA / 128 ∧ results[k + 1]? = some (CallResult.value 0)

/-- `msgget` has returned `msqid`, and `msgsnd` has failed for the sizes above `i`. -/
structure Probing (results : List CallResult) (msqid : Int) (i : Nat) : Prop where
  count : 128 * results.length + i = MAX_DATA + 128
  first : results[0]?.map CallResult.ret = some msqid
  failed : forall k, k + 1 < results.length -> results[k + 1]?.any CallResult.isFailed = true

section Results

variable {results : List CallResult} {r : CallResult} {msqid : Int} {i : Nat}

theorem SizeFits.snoc (h : SizeFits results) : SizeFits (results ++ [r]) := by
  rcases h with ⟨k, hk, hvalue⟩
  rcases List.getElem?_eq_some_iff.mp hvalue with ⟨hlt, _⟩
  exact ⟨k, hk, by rw [List.getElem?_append_left hlt, hvalue]⟩

theorem SizeFits.not_none (h : SizeFits results) : ¬ NoSizeFits results := by
  rintro ⟨_, hfailed⟩
  rcases h with ⟨k, hk, hvalue⟩
  have hno := hfailed k hk
  rw [hvalue] at hno
  cases hno

theorem CallResult.ret_nonneg : 0 ≤ r.ret <-> r.isFailed = false := by
  cases r with
  | failed e => simp [ret, isFailed]
  | value n => simp [ret, isFailed]

namespace Probing

theorem start (r : CallResult) : Probing [r] r.ret MAX_DATA := by
  refine ⟨?_, rfl, ?_⟩
  · rw [List.length_singleton]
    lia
  · intro k hk
    rw [List.length_singleton] at hk
    lia

theorem snoc (h : Probing results msqid i) (hi : 0 < i) (e : Errno) :
    Probing (results ++ [CallResult.failed e]) msqid (i - 128) := by
  rcases h with ⟨hcount, hfirst, hfailed⟩
  have hpos : 0 < results.length := by
    cases results with
    | nil => cases hfirst
    | cons r rest => exact Nat.zero_lt_succ _
  refine ⟨?_, ?_, ?_⟩
  · rw [List.length_append, List.length_singleton]
    unfold MAX_DATA at *
    lia
  · rw [List.getElem?_append_left hpos]
    exact hfirst
  · intro k hk
    rw [List.length_append, List.length_singleton] at hk
    rcases Nat.lt_succ_iff_lt_or_eq.mp hk with hlt | heq
    · rw [List.getElem?_append_left hlt]
      exact hfailed k hlt
    · rw [heq, List.getElem?_concat_length]
      rfl

theorem fits (h : Probing results msqid i) (hi : 0 < i) :
    SizeFits (results ++ [CallResult.value 0]) := by
  rcases h with ⟨hcount, hfirst, _⟩
  cases results with
  | nil => cases hfirst
  | cons r rest =>
      refine ⟨rest.length, ?_, ?_⟩
      · rw [List.length_cons] at hcount
        unfold MAX_DATA at *
        lia
      · have hlast := List.getElem?_concat_length (l := r :: rest) (a := CallResult.value 0)
        exact hlast

theorem not_none (h : Probing results msqid i) (hi : 0 < i) : ¬ NoSizeFits results := by
  rintro ⟨_, hfailed⟩
  have hlast := hfailed (MAX_DATA / 128 - 1) (by decide)
  have hcount := h.count
  have hend : results[MAX_DATA / 128 - 1 + 1]? = none := by
    apply List.getElem?_eq_none
    unfold MAX_DATA at *
    lia
  rw [hend] at hlast
  cases hlast

theorem none_iff (h : Probing results msqid 0) : NoSizeFits results <-> 0 ≤ msqid := by
  rcases h with ⟨hcount, hfirst, hfailed⟩
  have hall : forall k, k < MAX_DATA / 128 ->
      results[k + 1]?.any CallResult.isFailed = true := by
    intro k hk
    apply hfailed
    unfold MAX_DATA at *
    lia
  unfold NoSizeFits
  cases results with
  | nil => cases hfirst
  | cons r rest =>
      have hret : r.ret = msqid := Option.some.inj hfirst
      rw [<- hret, CallResult.ret_nonneg]
      simp only [List.getElem?_cons_zero, Option.any_some, Bool.not_eq_true']
      exact and_iff_left hall

end Probing

end Results

/-!
# What the variables hold
-/

def created (id : Int) : List Int := if 0 ≤ id then [id] else []

theorem created_of_nonneg {id : Int} (h : 0 ≤ id) : created id = [id] := if_pos h

theorem created_of_neg {id : Int} (h : ¬ 0 ≤ id) : created id = [] := if_neg h

structure Holds (queues : Ledger Int) (ids : List Int) : Prop where
  astray : queues.astray = false
  held : queues.held.Perm ids

section Holds

variable {g : Account} {ids rest : List Int}

theorem Holds.msgget (h : Holds g.queues ids) (r : CallResult) :
    Holds (g.record (Call.msgget, r)).queues (created r.ret ++ ids) := by
  rcases h with ⟨hastray, hheld⟩
  cases r with
  | failed e => exact ⟨hastray, hheld⟩
  | value n =>
      have hn : created (CallResult.value n).ret = [(n : Int)] :=
        created_of_nonneg (Int.natCast_nonneg n)
      rw [hn]
      exact ⟨hastray, hheld.cons _⟩

theorem Holds.rmid {id : Int} (h : Holds g.queues (created id ++ rest)) (r : CallResult) :
    Holds (g.record (Call.rmid id, r)).queues rest := by
  rcases h with ⟨hastray, hheld⟩
  simp only [Account.record]
  by_cases hid : 0 ≤ id
  · rw [created_of_nonneg hid] at hheld
    rcases Ledger.giveBack_perm hheld with ⟨hsame, hrest⟩
    rw [if_pos hid]
    exact ⟨hsame.trans hastray, hrest⟩
  · rw [created_of_neg hid] at hheld
    rw [if_neg hid]
    exact ⟨hastray, hheld⟩

theorem Holds.msgget_first (h : Holds g.queues []) (r : CallResult) :
    Holds (g.record (Call.msgget, r)).queues (created r.ret) := by
  have hcreated := h.msgget r
  rwa [List.append_nil] at hcreated

theorem Holds.rmid_last {id : Int} (h : Holds g.queues (created id)) (r : CallResult) :
    Holds (g.record (Call.rmid id, r)).queues [] := by
  rw [<- List.append_nil (created id)] at h
  exact h.rmid r

theorem Holds.settled (h : Holds g.queues []) : g.Settled := by
  rcases h with ⟨hastray, hheld⟩
  have hnil := List.perm_nil.mp hheld
  unfold Account.Settled
  rcases hqueues : g.queues with ⟨held, astray⟩
  rw [hqueues] at hastray hnil
  cases hastray
  cases hnil
  rfl

theorem Holds.not_settled {id : Int} (h : Holds g.queues (created id)) (hid : 0 ≤ id) :
    ¬ g.Settled := by
  intro hsettled
  have hheld := h.held
  rw [hsettled, created_of_nonneg hid] at hheld
  cases hheld.length_eq

end Holds

namespace Locals

def between (l : Locals) (a b : Nat) : List Int :=
  (List.range' a (b - a)).flatMap fun k => created (l.qid k)

theorem between_of_le (l : Locals) {a b : Nat} (h : b ≤ a) : l.between a b = [] := by
  unfold between
  rw [Nat.sub_eq_zero_of_le h]
  rfl

theorem between_first (l : Locals) {a b : Nat} (h : a < b) :
    l.between a b = created (l.qid a) ++ l.between (a + 1) b := by
  have hlength : b - a = (b - (a + 1)) + 1 := by lia
  unfold between
  rw [hlength, List.range'_succ]
  rfl

theorem between_setQid (l : Locals) (id : Int) :
    (l.setQid id).between 0 (l.i + 1) = l.between 0 l.i ++ created id := by
  have hold : forall k, k ∈ List.range' 0 l.i -> created ((l.setQid id).qid k) =
      created (l.qid k) := by
    intro k hk
    have hlt := (List.mem_range'_1.mp hk).2
    unfold setQid
    simp only
    rw [Function.update_of_ne (by lia)]
  unfold between
  simp only [Nat.sub_zero]
  rw [List.range'_concat, List.flatMap_append, List.flatMap_congr hold]
  simp [setQid]

theorem between_failed (l : Locals) (id : Int) :
    (l.setQid id).between 0 l.i = l.between 0 l.i := by
  unfold between
  apply List.flatMap_congr
  intro k hk
  have hlt := (List.mem_range'_1.mp hk).2
  unfold setQid
  simp only
  rw [Function.update_of_ne (by lia)]

def held (l : Locals) : List Int :=
  match l.pc with
  | Pc.create => []
  | Pc.probe => created l.msqid
  | Pc.remove => created l.msqid
  | Pc.createSized => []
  | Pc.fill => created l.msqid
  | Pc.removeSized => created l.msqid
  | Pc.openId => l.between 0 l.i
  | Pc.removeId => l.between l.j l.i

def Tells (l : Locals) (results : List CallResult) : Prop :=
  match l.pc with
  | Pc.create => results = []
  | Pc.probe => 0 < l.i ∧ Probing results l.msqid l.i
  | _ => SizeFits results

def Indices (l : Locals) (streak : Nat) : Prop :=
  match l.pc with
  | Pc.create => streak = 0
  | Pc.createSized => streak = 0
  | Pc.openId => streak = l.i
  | Pc.removeId => l.j < l.i
  | _ => True

end Locals

/-!
# The invariant
-/

/-- The variables hold the queues that exist; when `main` has returned none is left, unless no
size fitted. -/
def Inv (g : Account) : LimitsControl -> Prop
  | Control.goes l => Holds g.queues l.held ∧ l.Tells g.results ∧ l.Indices g.streak
  | Control.returns _ => g.Settled <-> ¬ NoSizeFits g.results

section Loops

variable {g : Account} {l : Locals}

theorem inv_ends (hheld : Holds g.queues []) (hfits : SizeFits g.results) : Inv g l.ends :=
  iff_of_true hheld.settled hfits.not_none

theorem inv_removeLoop (hheld : Holds g.queues (l.between l.j l.i))
    (hfits : SizeFits g.results) : Inv g l.removeLoop := by
  unfold Locals.removeLoop
  split
  · rename_i hlt
    exact ⟨hheld, hfits, hlt⟩
  · rename_i hend
    rw [l.between_of_le (Nat.le_of_not_lt hend)] at hheld
    exact inv_ends hheld hfits

theorem inv_opened (hheld : Holds g.queues (l.between 0 l.i)) (hfits : SizeFits g.results) :
    Inv g l.opened :=
  inv_removeLoop hheld hfits

theorem inv_openLoop (hheld : Holds g.queues (l.between 0 l.i)) (hfits : SizeFits g.results)
    (hstreak : g.streak = l.i) : Inv g l.openLoop := by
  unfold Locals.openLoop
  split
  · exact ⟨hheld, hfits, hstreak⟩
  · exact inv_opened hheld hfits

theorem inv_sizeLoop (hheld : Holds g.queues []) (hfits : SizeFits g.results)
    (hstreak : g.streak = 0) : Inv g l.sizeLoop := by
  unfold Locals.sizeLoop
  split
  · exact ⟨hheld, hfits, hstreak⟩
  · exact inv_openLoop hheld hfits hstreak

theorem inv_fillLoop (hheld : Holds g.queues (created l.msqid)) (hfits : SizeFits g.results) :
    Inv g l.fillLoop := by
  unfold Locals.fillLoop
  split
  · exact ⟨hheld, hfits, trivial⟩
  · exact ⟨hheld, hfits, trivial⟩

theorem inv_probeLoop (hheld : Holds g.queues (created l.msqid))
    (hprobing : Probing g.results l.msqid l.i) : Inv g l.probeLoop := by
  unfold Locals.probeLoop
  split
  · rename_i hi
    exact ⟨hheld, ⟨hi, hprobing⟩, trivial⟩
  · have hi : l.i = 0 := by lia
    unfold Locals.probed
    rw [if_pos hi]
    rw [hi] at hprobing
    show g.Settled <-> ¬ NoSizeFits g.results
    rw [hprobing.none_iff]
    by_cases hid : 0 ≤ l.msqid
    · exact iff_of_false (hheld.not_settled hid) (not_not_intro hid)
    · rw [created_of_neg hid] at hheld
      exact iff_of_true hheld.settled hid

end Loops

theorem next_inv {g : Account} {l : Locals} {r : CallResult} {t : LimitsControl}
    (h : Inv g (Control.goes l)) (hnext : l.next r = some t) :
    Inv (g.record (l.request, r)) t := by
  rcases h with ⟨hheld, htells, hindices⟩
  unfold Locals.held at hheld
  unfold Locals.Tells at htells
  unfold Locals.Indices at hindices
  unfold Locals.next at hnext
  unfold Locals.request
  cases hpc : l.pc with
  | create =>
      simp only [hpc] at hheld htells hnext ⊢
      cases hnext
      refine inv_probeLoop (hheld.msgget_first r) ?_
      show Probing (g.results ++ [r]) r.ret MAX_DATA
      rw [htells]
      exact Probing.start r
  | probe =>
      simp only [hpc] at hheld htells hnext ⊢
      rcases htells with ⟨hi, hprobing⟩
      cases r with
      | failed e =>
          simp only [Option.some.injEq] at hnext
          rw [<- hnext]
          have hsmaller := hprobing.snoc hi e
          generalize l.i - 128 = size at hsmaller ⊢
          exact inv_probeLoop hheld hsmaller
      | value n =>
          cases n with
          | zero =>
              cases hnext
              unfold Locals.probed
              split
              · rename_i hzero
                exact absurd hzero (Nat.ne_of_gt hi)
              · exact ⟨hheld, hprobing.fits hi, trivial⟩
          | succ n => cases hnext
  | remove =>
      simp only [hpc] at hheld htells hnext ⊢
      cases hnext
      exact inv_sizeLoop (hheld.rmid_last r) htells.snoc rfl
  | createSized =>
      simp only [hpc] at hheld htells hnext ⊢
      cases hnext
      exact inv_fillLoop (hheld.msgget_first r) htells.snoc
  | fill =>
      simp only [hpc] at hheld htells hnext ⊢
      cases r with
      | failed e =>
          cases hnext
          exact ⟨hheld, htells.snoc, trivial⟩
      | value n =>
          cases n with
          | zero =>
              cases hnext
              exact inv_fillLoop hheld htells.snoc
          | succ n => cases hnext
  | removeSized =>
      simp only [hpc] at hheld htells hnext ⊢
      cases hnext
      exact inv_sizeLoop (hheld.rmid_last r) htells.snoc rfl
  | openId =>
      simp only [hpc] at hheld htells hindices hnext ⊢
      cases r with
      | failed e =>
          cases hnext
          refine inv_opened ?_ htells.snoc
          rw [<- l.between_failed (-1)] at hheld
          exact hheld
      | value n =>
          cases hnext
          refine inv_openLoop ?_ htells.snoc (congrArg (fun k => k + 1) hindices)
          rcases hheld.msgget (CallResult.value n) with ⟨hastray, hperm⟩
          refine ⟨hastray, hperm.trans ?_⟩
          have hmore := l.between_setQid (CallResult.value n).ret
          exact hmore ▸ List.perm_append_comm
  | removeId =>
      simp only [hpc] at hheld htells hindices hnext ⊢
      cases hnext
      rw [l.between_first hindices] at hheld
      exact inv_removeLoop (hheld.rmid r) htells.snoc

/-!
# Runs
-/

theorem init_inv {s : LimitsControl} (h : Starts s) : Inv Account.empty s := by
  rcases h with ⟨l, hpc, _, _, rfl⟩
  refine ⟨?_, ?_, ?_⟩
  · unfold Locals.held
    rw [hpc]
    exact ⟨rfl, List.Perm.refl []⟩
  · unfold Locals.Tells
    rw [hpc]
    rfl
  · unfold Locals.Indices
    rw [hpc]
    rfl

/-- The index of an identifier is the number of those opened just before. -/
theorem roomLeft_iff {g : Account} {l : Locals} {r : CallResult} (h : Inv g (Control.goes l)) :
    RoomLeft g (l.request, r) <-> (l.pc = Pc.openId -> l.i < MAX_NIDS) := by
  have hindices := h.2.2
  unfold RoomLeft Locals.request
  unfold Locals.Indices at hindices
  have hzero : 0 < MAX_NIDS := by decide
  cases hpc : l.pc with
  | openId =>
      rw [hpc] at hindices
      rw [hindices]
      exact ⟨fun hroom _ => hroom rfl, fun hroom _ => hroom rfl⟩
  | create =>
      rw [hpc] at hindices
      rw [hindices]
      exact iff_of_true (fun _ => hzero) nofun
  | createSized =>
      rw [hpc] at hindices
      rw [hindices]
      exact iff_of_true (fun _ => hzero) nofun
  | _ => exact iff_of_true nofun nofun

theorem step_inv {g : Account} {s t : LimitsControl} {r : CallResult} {o : Call × CallResult}
    (h : Inv g s) (hstep : limits.step s r = some (t, o)) :
    Inv (g.record o) t ∧ (RoomLeft g o <-> WritesInBounds ⟨s, r, o, t⟩) := by
  rcases CallProgram.step_goes hstep with ⟨l, rfl, hnext, rfl⟩
  refine ⟨next_inv h hnext, (roomLeft_iff h).trans ?_⟩
  constructor
  · intro hroom l' hl'
    cases hl'
    exact hroom
  · intro hwrites
    exact hwrites l rfl

theorem not_none_of_goes {g : Account} {l : Locals} (h : Inv g (Control.goes l)) :
    ¬ NoSizeFits g.results := by
  have htells := h.2.1
  unfold Locals.Tells at htells
  cases hpc : l.pc with
  | create =>
      simp only [hpc] at htells
      rw [htells]
      decide
  | probe =>
      simp only [hpc] at htells
      exact htells.2.not_none htells.1
  | _ =>
      simp only [hpc] at htells
      exact htells.not_none

/-- `limits` writes into `qid` only, and has removed every queue when it returns, exactly if the
first queue takes a message of some size, when there is one, and the system does not have
`MAX_NIDS` queues for it. -/
theorem queues_removed_iff {tr : List LimitsTransition} {s : LimitsControl}
    (hrun : Run Starts limits.step tr s) :
    ((forall e, e ∈ tr -> WritesInBounds e) ∧
        forall x, s = Control.returns x -> (accountOf tr).Settled) <->
      ¬ NoSizeFits (accountOf tr).results ∧ AtEach Account.record Account.empty RoomLeft tr := by
  rcases run_observed_steps (I := Inv) (G := fun _ _ => True)
    (P := fun g e => RoomLeft g e.event <-> WritesInBounds e) (fun s hs => init_inv hs)
    (fun g s a o t hs _ hstep => step_inv hs hstep) hrun
    (fun _ _ _ _ => trivial) with ⟨hinv, hlaw⟩
  have hroom : AtEach Account.record Account.empty RoomLeft tr <->
      forall e, e ∈ tr -> WritesInBounds e :=
    atEachStep_iff_forall (P := fun g e => RoomLeft g e.event) hlaw
  rw [hroom, and_comm]
  refine and_congr_left fun _ => ?_
  cases s with
  | goes l => exact iff_of_true nofun (not_none_of_goes hinv)
  | returns x =>
      have hend : (accountOf tr).Settled <-> ¬ NoSizeFits (accountOf tr).results := hinv
      rw [<- hend]
      exact ⟨fun hall => hall x rfl, fun hsettled _ _ => hsettled⟩

def startLocals : Locals :=
  { pc := Pc.create, i := 0, j := 0, msqid := 0, max_mesg := 0, qid := fun _ => 0, printed := [] }

theorem starts_startLocals : Starts (Control.goes startLocals) := ⟨_, rfl, rfl, rfl, rfl⟩

/-- The first queue takes a message of the greatest size, and those that are to be filled take
none. -/
def greatestFits : List CallResult :=
  [CallResult.value 0, CallResult.value 0, CallResult.value 0] ++
    (List.replicate 14
      [CallResult.value 1, CallResult.failed Errno.EAGAIN, CallResult.value 0]).flatten

/-- One identifier is opened. -/
theorem queues_removed_iff_oneIdentifier :
    exists (tr : List LimitsTransition) (x : Int × List Line),
      Run Starts limits.step tr (Control.returns x) ∧
        (forall e, e ∈ tr -> WritesInBounds e) ∧ (accountOf tr).Settled := by
  have hreplay : exists tr x, Run Starts limits.step tr (Control.returns x) ∧ true = true ∧
      decide (¬ NoSizeFits (accountOf tr).results ∧
        AtEach Account.record Account.empty RoomLeft tr) = true :=
    CallProgram.call_of_replay
      (greatestFits ++
        [CallResult.value 0, CallResult.failed (Errno.other 28), CallResult.value 0])
      starts_startLocals (by decide +kernel)
  rcases hreplay with ⟨tr, x, hrun, _, htest⟩
  rcases (queues_removed_iff hrun).mpr (of_decide_eq_true htest) with ⟨hwrites, hsettled⟩
  exact ⟨tr, x, hrun, hwrites, hsettled x rfl⟩

theorem open_path {l : Locals} (hpc : l.pc = Pc.openId) (n : Nat) (hle : l.i + n ≤ MAX_NIDS) :
    exists (tr : List LimitsTransition) (l' : Locals),
      Path limits.step (Control.goes l) tr (Control.goes l') ∧ l'.pc = Pc.openId ∧
        l'.i = l.i + n := by
  induction n with
  | zero => exact ⟨[], l, Path.nil, hpc, rfl⟩
  | succ n ih =>
      rcases ih (by lia) with ⟨tr, l', hpath, hpc', hi⟩
      have hmore : l'.i + 1 ≤ MAX_NIDS := by lia
      have hstep : limits.step (Control.goes l') (CallResult.value l'.i) =
          some (Control.goes { l'.setQid l'.i with pc := Pc.openId, i := l'.i + 1 },
            (Call.msgget, CallResult.value l'.i)) := by
        simp [CallProgram.step, limits, Locals.next, Locals.request, hpc', Locals.openLoop, hmore]
      exact ⟨_, _, Path.snoc hpath hstep, rfl, congrArg (fun k => k + 1) hi⟩

/-- The next call is the first that opens an identifier. -/
def opensNext : LimitsControl -> Bool
  | Control.goes l => l.pc = Pc.openId ∧ l.i = 0
  | Control.returns _ => false

/-- Where no size fits, the first queue stays; where `MAX_NIDS` identifiers have been opened, the
next one is written behind `qid`. -/
theorem queue_left_and_qid_overrun :
    (exists (tr : List LimitsTransition) (x : Int × List Line),
      Run Starts limits.step tr (Control.returns x) ∧ ¬ (accountOf tr).Settled) ∧
      exists (tr : List LimitsTransition) (s : LimitsControl),
        Run Starts limits.step tr s ∧ ¬ forall e, e ∈ tr -> WritesInBounds e := by
  constructor
  · have hreplay : exists tr x, Run Starts limits.step tr (Control.returns x) ∧ true = true ∧
        decide (¬ (accountOf tr).Settled) = true :=
      CallProgram.call_of_replay
        (CallResult.value 0 :: List.replicate 512 (CallResult.failed Errno.EINVAL))
        starts_startLocals (by decide +kernel)
    rcases hreplay with ⟨tr, x, hrun, _, htest⟩
    exact ⟨tr, x, hrun, of_decide_eq_true htest⟩
  · have hreplay : exists tr s, Run Starts limits.step tr s ∧ opensNext s = true :=
      run_of_replay greatestFits starts_startLocals (by decide +kernel)
    rcases hreplay with ⟨tr, s, ⟨s0, hinit, hpath⟩, hopens⟩
    cases s with
    | returns x => cases hopens
    | goes l =>
        rcases of_decide_eq_true hopens with ⟨hpc, hi⟩
        rcases open_path hpc MAX_NIDS (by lia) with ⟨tr', l', hpath', hpc', hi'⟩
        have hfull : l'.i = MAX_NIDS := by lia
        have hstep : limits.step (Control.goes l') (CallResult.failed (Errno.other 28)) =
            some (((l'.setQid (-1)).print (Line.identifiers l'.i)).opened,
              (Call.msgget, CallResult.failed (Errno.other 28))) := by
          simp [CallProgram.step, limits, Locals.next, Locals.request, hpc']
        refine ⟨_, _, ⟨s0, hinit, Path.snoc (path_append hpath hpath') hstep⟩, ?_⟩
        intro hall
        have hlt := hall _ (List.mem_append_right _ List.mem_cons_self) l' rfl hpc'
        lia

end Limits
end Svmsg
end InterprocessComm
