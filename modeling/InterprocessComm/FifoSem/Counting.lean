import InterprocessComm.FifoSem.Operations

/-!
# The counting law of the FIFO

The number of bytes should be the number of initial bytes plus the posts minus the waits
that returned 0.  Both calls return 0 when their system call fails and -1 when it has
moved a byte, so the first call that gets that far breaks the law.
-/

namespace InterprocessComm
namespace FifoSem

open Verification

section Law

variable {proc : Type} {value : Nat}

/-- The bytes in the FIFO are the initial ones written so far, plus the posts, minus the
waits. -/
def CountsBytes (value : Nat) (s : FifoState proc) : Prop :=
  (s.bytes : Int) = (value : Int) - s.left + s.posts - s.waits

def FailsClean (e : FifoTransition proc) : Prop :=
  forall call, (exists io, e.event = some { call := call, result := -1, io := io }) ->
    e.target.bytes = e.source.bytes

def LawAlong (value : Nat) (tr : List (FifoTransition proc)) : Prop :=
  forall e, e ∈ tr -> CountsBytes value e.source ∧ CountsBytes value e.target ∧ FailsClean e

def NoIo (e : FifoTransition proc) : Prop :=
  forall o, e.event = some o -> o.io = none

theorem init_countsBytes {s : FifoState proc} (h : FifoInit value s) : CountsBytes value s := by
  unfold CountsBytes
  rw [h.bytes, h.left, h.posts, h.waits]
  lia

/-!
## Steps
-/

variable [DecidableEq proc] {capacity : Nat} {creator : proc} {s s' : FifoState proc}
variable {a : FifoAction proc} {o : Option FifoEvent}

/-- A byte that is moved is reported as a failure, and a failure as a success. -/
structure Inverted (s s' : FifoState proc) (o : FifoEvent) : Prop where
  moved : o.result = -1 -> s'.bytes ≠ s.bytes ∧ s'.posts = s.posts ∧ s'.waits = s.waits
  failed : o.result = 0 ->
    s'.bytes = s.bytes ∧ (s'.posts : Int) - s'.waits ≠ (s.posts : Int) - s.waits
  result : o.result = -1 ∨ o.result = 0
  left : s'.left = s.left

omit [DecidableEq proc] in
theorem postEnd_inverted {sem : SemT} (hmagic : sem.sem_magic = SEM_MAGIC) (fault : Bool) :
    Inverted s (postEnd s sem (fifoWrite capacity s.bytes fault)).1
      (postEnd s sem (fifoWrite capacity s.bytes fault)).2 := by
  unfold postEnd semPost fifoWrite
  by_cases hroom : fault = false ∧ s.bytes < capacity
  · simp only [if_pos hroom, hmagic, ne_eq, not_true_eq_false, if_false]
    constructor
    · intro _
      simp
    · intro h
      cases h
    · exact Or.inl rfl
    · rfl
  · simp only [if_neg hroom, hmagic, ne_eq, not_true_eq_false, if_false]
    constructor
    · intro h
      cases h
    · intro _
      simp only [if_true, true_and]
      lia
    · exact Or.inr rfl
    · rfl

omit [DecidableEq proc] in
theorem waitEnd_inverted {sem : SemT} (hmagic : sem.sem_magic = SEM_MAGIC) {fault : Bool}
    {io : Nat × Int} (hread : fifoRead s.bytes fault = some io) :
    Inverted s (waitEnd s sem io).1 (waitEnd s sem io).2 := by
  unfold fifoRead at hread
  unfold waitEnd semWait
  cases fault with
  | true =>
      cases hread
      simp only [hmagic, ne_eq, not_true_eq_false, if_false, if_true]
      constructor
      · intro h
        cases h
      · intro _
        simp only [true_and]
        lia
      · exact Or.inr rfl
      · rfl
  | false =>
      simp only [Bool.false_eq_true, if_false] at hread
      split at hread
      · rename_i hpos
        cases hread
        simp only [hmagic, ne_eq, not_true_eq_false, if_false]
        constructor
        · intro _
          simp only
          lia
        · intro h
          cases h
        · exact Or.inl rfl
        · rfl
      · cases hread

/-- A step that is not the return of such a call keeps the law, and adds no byte but an
initial one. -/
structure Quiet (value : Nat) (s s' : FifoState proc) : Prop where
  keeps : CountsBytes value s -> CountsBytes value s'
  posts : s'.posts = s.posts
  waits : s'.waits = s.waits

theorem fifoStep_cases (value : Nat) (h : fifoStep capacity creator s a = some (s', o)) :
    (Quiet value s s' ∧ (o = none ∨ exists call, o = some ⟨call, -1, none⟩ ∧ s' = s)) ∨
      exists e, o = some e ∧ e.io ≠ none ∧ Inverted s s' e := by
  cases a with
  | fill =>
      simp only [fifoStep] at h
      split at h
      · rename_i hleft
        cases h
        refine Or.inl ⟨⟨?_, rfl, rfl⟩, Or.inl rfl⟩
        intro hcount
        unfold CountsBytes at *
        simp only
        lia
      · cases h
  | opened p =>
      simp only [fifoStep] at h
      split at h
      · cases h
        exact Or.inl ⟨⟨fun hcount => hcount, rfl, rfl⟩, Or.inl rfl⟩
      · cases h
  | post p fault =>
      cases hsem : s.sems p with
      | none => simp [fifoStep, hsem] at h
      | some sem =>
          simp only [fifoStep, hsem] at h
          by_cases hmagic : sem.sem_magic ≠ SEM_MAGIC
          · rw [if_pos hmagic] at h
            cases h
            refine Or.inl ⟨⟨fun hcount => hcount, rfl, rfl⟩, Or.inr ⟨SemCall.post, ?_, rfl⟩⟩
            rw [semPost, if_pos hmagic]
          · rw [if_neg hmagic] at h
            cases h
            refine Or.inr ⟨_, rfl, ?_, postEnd_inverted (not_not.mp hmagic) fault⟩
            intro hnone
            cases hnone
  | wait p fault =>
      cases hsem : s.sems p with
      | none => simp [fifoStep, hsem] at h
      | some sem =>
          simp only [fifoStep, hsem] at h
          by_cases hmagic : sem.sem_magic ≠ SEM_MAGIC
          · rw [if_pos hmagic] at h
            cases h
            refine Or.inl ⟨⟨fun hcount => hcount, rfl, rfl⟩, Or.inr ⟨SemCall.wait, ?_, rfl⟩⟩
            rw [semWait, if_pos hmagic]
          · rw [if_neg hmagic] at h
            rcases Option.map_eq_some_iff.mp h with ⟨io, hread, heq⟩
            cases heq
            refine Or.inr ⟨_, rfl, ?_, waitEnd_inverted (not_not.mp hmagic) hread⟩
            intro hnone
            cases hnone

omit [DecidableEq proc] in
theorem Inverted.breaks {e : FifoEvent} (h : Inverted s s' e) (hbefore : CountsBytes value s)
    (hafter : CountsBytes value s') (hclean : e.result = -1 -> s'.bytes = s.bytes) : False := by
  unfold CountsBytes at *
  have hleft := h.left
  rcases h.result with hmoved | hfailed
  · exact (h.moved hmoved).left (hclean hmoved)
  · rcases h.failed hfailed with ⟨hbytes, hcounts⟩
    lia

/-!
## Runs
-/

theorem law_of_noIo {tr : List (FifoTransition proc)}
    (h : Run (FifoInit value) (fifoStep capacity creator) tr s)
    (hnone : forall e, e ∈ tr -> NoIo e) : LawAlong value tr := by
  rcases h with ⟨s0, hinit, hpath⟩
  apply (path_guarded (I := CountsBytes value) (G := NoIo)
    (P := fun e => CountsBytes value e.source ∧ CountsBytes value e.target ∧ FailsClean e)
    _ hpath (init_countsBytes hinit) hnone).right
  intro s a o s' hcount hquiet hstep
  rcases fifoStep_cases value hstep with ⟨hkeeps, hevent⟩ | ⟨e, he, hio, _⟩
  · have hafter := hkeeps.keeps hcount
    refine ⟨hafter, hcount, hafter, ?_⟩
    rintro call ⟨io, hcall⟩
    rcases hevent with hnone | ⟨d, _, hsame⟩
    · rw [hnone] at hcall
      cases hcall
    · rw [hsame]
  · exact absurd (hquiet e he) hio

/-- The law holds along exactly the runs in which no post has had its `write` return and
no wait its `read`. -/
theorem fifoSem_counting_law_iff {tr : List (FifoTransition proc)}
    (h : Run (FifoInit value) (fifoStep capacity creator) tr s) :
    LawAlong value tr <-> forall e, e ∈ tr -> NoIo e := by
  constructor
  · intro hlaw e he o ho
    rcases run_transition h he with ⟨_, hstep⟩
    rcases hlaw e he with ⟨hbefore, hafter, hclean⟩
    rcases fifoStep_cases value hstep with ⟨_, hnone | ⟨d, hd, _⟩⟩ | ⟨o', ho', _, hinv⟩
    · rw [hnone] at ho
      cases ho
    · rw [hd] at ho
      cases ho
      rfl
    · exfalso
      apply hinv.breaks hbefore hafter
      intro hresult
      apply hclean o'.call
      refine ⟨o'.io, ?_⟩
      rw [ho', <- hresult]
  · exact law_of_noIo h

end Law

def freshFifo (proc : Type) (value : Nat) : FifoState proc :=
  { bytes := 0, left := value, sems := fun _ => none, posts := 0, waits := 0 }

theorem init_freshFifo {proc : Type} (value : Nat) : FifoInit value (freshFifo proc value) :=
  ⟨rfl, rfl, fun _ => rfl, rfl, rfl⟩

/-- A creator writes two initial bytes, and a second process opens the FIFO. -/
theorem fifoSem_counting_law_iff_twoProcesses :
    exists (tr : List (FifoTransition (Fin 2))) (s : FifoState (Fin 2)),
      s.bytes = 2 ∧ s.left = 0 ∧ LawAlong 2 tr := by
  have hreplay : exists (tr : List (FifoTransition (Fin 2))) (s : FifoState (Fin 2)),
      Run (FifoInit 2) (fifoStep 65536 0) tr s ∧
        decide (s.bytes = 2 ∧ s.left = 0 ∧ forall e, e ∈ tr -> e.event = none) = true :=
    run_of_replay
      [FifoAction.fill, FifoAction.opened 1, FifoAction.fill, FifoAction.opened 0]
      (init_freshFifo 2) (by decide +kernel)
  rcases hreplay with ⟨tr, s, hrun, htest⟩
  rcases of_decide_eq_true htest with ⟨hbytes, hleft, hnone⟩
  refine ⟨tr, s, hbytes, hleft, (fifoSem_counting_law_iff hrun).mpr ?_⟩
  intro e he o ho
  rw [hnone e he] at ho
  cases ho

/-- A post on an empty FIFO adds a byte and returns -1. -/
theorem failed_post_adds_byte_oneProcess :
    exists (tr : List (FifoTransition (Fin 1))) (s : FifoState (Fin 1)),
      Run (FifoInit 0) (fifoStep 65536 0) tr s ∧ s.bytes = 1 ∧ s.posts = 0 ∧
        ¬ LawAlong 0 tr := by
  have hreplay : exists (tr : List (FifoTransition (Fin 1))) (s : FifoState (Fin 1)),
      Run (FifoInit 0) (fifoStep 65536 0) tr s ∧
        decide (s.bytes = 1 ∧ s.posts = 0 ∧ exists e, e ∈ tr ∧
          e.event = some ⟨SemCall.post, -1, some 1⟩ ∧ e.target.bytes ≠ e.source.bytes) = true :=
    run_of_replay [FifoAction.opened 0, FifoAction.post 0 false]
      (init_freshFifo 0) (by decide +kernel)
  rcases hreplay with ⟨tr, s, hrun, htest⟩
  rcases of_decide_eq_true htest with ⟨hbytes, hposts, e, he, hevent, hmoved⟩
  refine ⟨tr, s, hrun, hbytes, hposts, ?_⟩
  intro hlaw
  exact hmoved ((hlaw e he).right.right SemCall.post ⟨some 1, hevent⟩)

end FifoSem
end InterprocessComm
