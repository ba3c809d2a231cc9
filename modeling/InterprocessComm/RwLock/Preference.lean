import InterprocessComm.RwLock.Wakeups

/-!
# Writer preference

From the step at which a writer goes to wait until a writer has the lock or the last
waiting writer has given up, no reader gets the lock.
-/

namespace InterprocessComm
namespace RwLock

open Verification

section Preference

variable {tid : Type}

def StartsWaiting (e : RwTransition tid) : Prop :=
  e.event = some { call := RwCall.wrlock, outcome := RwOutcome.waits }

def WriterAcquires (e : RwTransition tid) : Prop :=
  e.event = some { call := RwCall.wrlock, outcome := RwOutcome.returns RwResult.zero } ∨
    e.event = some { call := RwCall.trywrlock, outcome := RwOutcome.returns RwResult.zero }

def ReaderAcquires (e : RwTransition tid) : Prop :=
  e.event = some { call := RwCall.rdlock, outcome := RwOutcome.returns RwResult.zero } ∨
    e.event = some { call := RwCall.tryrdlock, outcome := RwOutcome.returns RwResult.zero }

def writerFails (e : RwTransition tid) : Bool :=
  match e.event with
  | some { call := RwCall.wrlock, outcome := RwOutcome.returns (RwResult.error _) } => true
  | _ => false

variable [Fintype tid]

def LastWriterGivesUp (e : RwTransition tid) : Prop :=
  writerFails e = true ∧ waiting e.target RwCond.condwriters = 0

/-- A step at which the waiting of writers goes on. -/
def WritersGoOn (e : RwTransition tid) : Prop :=
  ¬ WriterAcquires e ∧ ¬ LastWriterGivesUp e

instance (e : RwTransition tid) : Decidable (StartsWaiting e) :=
  inferInstanceAs (Decidable (_ = _))

instance (e : RwTransition tid) : Decidable (WriterAcquires e) :=
  inferInstanceAs (Decidable (_ ∨ _))

instance (e : RwTransition tid) : Decidable (LastWriterGivesUp e) :=
  inferInstanceAs (Decidable (_ ∧ _))

instance (e : RwTransition tid) : Decidable (WritersGoOn e) :=
  inferInstanceAs (Decidable (_ ∧ _))

/-- A step that gives no reader the lock and leaves no more of them. -/
def NoNewReader (e : RwTransition tid) : Prop :=
  ¬ ReaderAcquires e ∧ readHolds e.target ≤ readHolds e.source

variable [DecidableEq tid] {s s' : RwState tid}

theorem writer_waiting {t : tid} {wake : Option tid} {o : Option RwEvent} {rw : PthreadRwlock}
    (hfin : RwFinished s t RwCall.wrlock (RwStretch.wait rw) wake s' o) :
    0 < waiting s' RwCond.condwriters := by
  have hcount := hfin.waiting RwCond.condwriters
  have hafter : (rwPhaseAfter RwCall.wrlock (RwStretch.wait rw).outcome).blockedOn
      RwCond.condwriters = true := rfl
  rw [hafter] at hcount
  have hbefore : (if (s.phase t).blockedOn RwCond.condwriters = true then 1 else 0) ≤
      waiting s RwCond.condwriters := by
    split
    · rename_i hblocked
      exact countThreads_pos hblocked
    · exact Nat.zero_le _
  simp only [if_true] at hcount
  lia

theorem starts_waiting {a : RwAction tid} {o : Option RwEvent}
    (h : rwStep s a = some (s', o)) (hstart : StartsWaiting ⟨s, a, o, s'⟩) :
    0 < waiting s' RwCond.condwriters := by
  have hevent : o = some { call := RwCall.wrlock, outcome := RwOutcome.waits } := hstart
  rcases rw_step_cases h with hidle | ⟨t, c, d, r, wake, hran, hfin⟩
  · rcases hidle.event with hnone | ⟨c, e, hsome⟩
    · rw [hnone] at hevent
      cases hevent
    · rw [hsome] at hevent
      cases hevent
  · rw [hfin.event] at hevent
    injection hevent with heffect
    injection heffect with hcall houtcome
    subst hcall
    have heffects := hran.effects
    generalize hwr : RwCall.wrlock = c at heffects
    cases heffects with
    | writerWaits busy => exact writer_waiting hfin
    | fails c e => cases houtcome
    | readerWaits busy => cases hwr
    | readerAcquires reader free => cases houtcome
    | writerAcquires writer free => cases houtcome
    | readerReleases held => cases houtcome
    | writerReleases held => cases houtcome
    | notHeld free => cases houtcome

theorem unlock_readHolds (s : RwState tid) (t : tid) :
    total id (readsAfter s t RwCall.unlock (RwOutcome.returns RwResult.zero)) ≤ readHolds s := by
  by_cases hnone : s.writes t = 0
  · have hupdate := total_update id s.reads t (s.reads t - 1)
    simp only [id_eq] at hupdate
    rw [((holds_of_unlock s t).left hnone).left]
    unfold readHolds
    lia
  · rw [((holds_of_unlock s t).right hnone).left]
    exact le_refl (readHolds s)

theorem noNewReader_of_finished {a : RwAction tid} {t : tid} {c : RwCall} {r : RwStretch}
    {wake : Option tid} {o : Option RwEvent} (hfin : RwFinished s t c r wake s' o)
    (hreads : total id (readsAfter s t c r.outcome) ≤ readHolds s)
    (hcall : (c = RwCall.rdlock ∨ c = RwCall.tryrdlock) ->
      r.outcome ≠ RwOutcome.returns RwResult.zero) : NoNewReader ⟨s, a, o, s'⟩ := by
  constructor
  · rintro (hevent | hevent)
    · have heffect : o = _ := hevent
      rw [hfin.event] at heffect
      injection heffect with heffect
      injection heffect with hc houtcome
      exact hcall (Or.inl hc) houtcome
    · have heffect : o = _ := hevent
      rw [hfin.event] at heffect
      injection heffect with heffect
      injection heffect with hc houtcome
      exact hcall (Or.inr hc) houtcome
  · show total id s'.reads ≤ readHolds s
    rw [hfin.reads]
    exact hreads

/-- While a writer waits, a stretch that gives no writer the lock gives it to no reader,
and only a writer that comes back with an error leaves the waiting writers. -/
theorem ran_goes_on {a : RwAction tid} {t : tid} {c : RwCall} {d : Option RwCond}
    {r : RwStretch} {wake : Option tid} {o : Option RwEvent} (hinv : RwInv s)
    (hwriters : 0 < waiting s RwCond.condwriters) (hran : RwRan s a t c d r)
    (hfin : RwFinished s t c r wake s' o) (hacquires : ¬ WriterAcquires ⟨s, a, o, s'⟩) :
    NoNewReader ⟨s, a, o, s'⟩ ∧
      (0 < waiting s' RwCond.condwriters ∨
        exists x, c = RwCall.wrlock ∧ r.outcome = RwOutcome.returns (RwResult.error x)) := by
  have hbefore := hinv.counted RwCond.condwriters
  have hafter := waiting_step hran hfin hinv.counted RwCond.condwriters
  have hstays : d ≠ some RwCond.condwriters -> r.rw.rw_nwaitwriters =
      (s.rw.leave d).rw_nwaitwriters -> 0 < waiting s' RwCond.condwriters := by
    intro hd hsame
    have hcount : s'.rw.nwait RwCond.condwriters = s.rw.nwait RwCond.condwriters := by
      rw [hfin.rw]
      show r.rw.rw_nwaitwriters = s.rw.rw_nwaitwriters
      rw [hsame, leave_nwaitwriters hd]
    lia
  have hquiet : r.outcome ≠ RwOutcome.returns RwResult.zero -> NoNewReader ⟨s, a, o, s'⟩ := by
    intro hout
    refine noNewReader_of_finished hfin ?_ fun _ => hout
    rw [(holds_of_ne_zero s t c hout).left]
    exact le_refl _
  have heffects := hran.effects
  cases heffects with
  | fails c e =>
      refine ⟨hquiet (by intro heq; cases heq), ?_⟩
      by_cases hc : c = RwCall.wrlock
      · exact Or.inr ⟨e, hc, rfl⟩
      · exact Or.inl (hstays (hran.not_condwriters hc) rfl)
  | readerWaits busy =>
      have hnoReader := hquiet (by intro heq; cases heq)
      exact ⟨hnoReader, Or.inl (hstays (hran.not_condwriters (by intro heq; cases heq)) rfl)⟩
  | writerWaits busy =>
      have hnoReader := hquiet (by intro heq; cases heq)
      exact ⟨hnoReader, Or.inl (writer_waiting hfin)⟩
  | readerAcquires reader free =>
      have hd := hran.not_condwriters (by
        intro heq
        rcases reader with hc | hc
        · rw [hc] at heq
          cases heq
        · rw [hc] at heq
          cases heq)
      rw [leave_nwaitwriters hd] at free
      have hpositive : 0 < s.rw.rw_nwaitwriters := by
        show 0 < s.rw.nwait RwCond.condwriters
        lia
      lia
  | writerAcquires writer free =>
      exfalso
      apply hacquires
      have hevent := hfin.event
      rcases writer with rfl | rfl
      · exact Or.inl hevent
      · exact Or.inr hevent
  | readerReleases held =>
      have hd := hran.not_condwriters (by intro heq; cases heq)
      refine ⟨noNewReader_of_finished hfin (unlock_readHolds s t) ?_, Or.inl (hstays hd rfl)⟩
      rintro (hc | hc)
      · cases hc
      · cases hc
  | writerReleases held =>
      have hd := hran.not_condwriters (by intro heq; cases heq)
      refine ⟨noNewReader_of_finished hfin (unlock_readHolds s t) ?_, Or.inl (hstays hd rfl)⟩
      rintro (hc | hc)
      · cases hc
      · cases hc
  | notHeld free =>
      have hnoReader := hquiet (by intro heq; cases heq)
      exact ⟨hnoReader, Or.inl (hstays (hran.not_condwriters (by intro heq; cases heq)) rfl)⟩

theorem goes_on {a : RwAction tid} {o : Option RwEvent} (hinv : RwInv s)
    (hwriters : 0 < waiting s RwCond.condwriters) (hgoes : WritersGoOn ⟨s, a, o, s'⟩)
    (h : rwStep s a = some (s', o)) :
    0 < waiting s' RwCond.condwriters ∧ NoNewReader ⟨s, a, o, s'⟩ := by
  rcases rw_step_cases h with hidle | ⟨t, c, d, r, wake, hran, hfin⟩
  · rw [idle_waiting hidle]
    refine ⟨hwriters, ?_, ?_⟩
    · rintro (hevent | hevent)
      · have heffect : o = _ := hevent
        rcases hidle.event with hnone | ⟨c, e, hsome⟩
        · rw [hnone] at heffect
          cases heffect
        · rw [hsome] at heffect
          cases heffect
      · have heffect : o = _ := hevent
        rcases hidle.event with hnone | ⟨c, e, hsome⟩
        · rw [hnone] at heffect
          cases heffect
        · rw [hsome] at heffect
          cases heffect
    · show total id s'.reads ≤ total id s.reads
      rw [hidle.reads]
  · rcases ran_goes_on hinv hwriters hran hfin hgoes.left with ⟨hnoReader, hwait | ⟨x, hc, hout⟩⟩
    · exact ⟨hwait, hnoReader⟩
    · refine ⟨?_, hnoReader⟩
      by_contra hnone
      apply hgoes.right
      refine ⟨?_, by lia⟩
      unfold writerFails
      rw [hfin.event, hc, hout]

/-- No reader gets the lock between the step at which a writer goes to wait and the next
step at which a writer acquires the lock or the last waiting writer gives up. -/
theorem writer_preference {tr₁ tr₂ : List (RwTransition tid)} {e₀ : RwTransition tid}
    (h : Run RwInit rwStep (tr₁ ++ e₀ :: tr₂) s) (hstart : StartsWaiting e₀)
    (hgoes : forall e, e ∈ tr₂ -> WritersGoOn e) :
    (forall e, e ∈ tr₂ -> NoNewReader e) ∧ readHolds s ≤ readHolds e₀.target := by
  rcases run_split h with ⟨hrun, hvalid, hpath⟩
  have hinv := reachable_inv ⟨tr₁, hrun⟩
  have hstep : forall (s : RwState tid) a o t,
      RwInv s ∧ 0 < waiting s RwCond.condwriters ∧ readHolds s ≤ readHolds e₀.target ->
      WritersGoOn ⟨s, a, o, t⟩ -> rwStep s a = some (t, o) ->
      (RwInv t ∧ 0 < waiting t RwCond.condwriters ∧ readHolds t ≤ readHolds e₀.target) ∧
        NoNewReader ⟨s, a, o, t⟩ := by
    rintro s a o t ⟨hs, hwriters, hreads⟩ hgo hnext
    rcases goes_on hs hwriters hgo hnext with ⟨hstill, hnoReader⟩
    exact ⟨⟨step_inv hs hnext, hstill, le_trans hnoReader.right hreads⟩, hnoReader⟩
  have hopen : RwInv e₀.target ∧ 0 < waiting e₀.target RwCond.condwriters ∧
      readHolds e₀.target ≤ readHolds e₀.target :=
    ⟨step_inv hinv hvalid, starts_waiting hvalid hstart, le_refl _⟩
  rcases path_guarded hstep hpath hopen hgoes with ⟨⟨_, _, hreads⟩, hall⟩
  exact ⟨hall, hreads⟩

end Preference

def secondWaits (tr : List (RwTransition (Fin 3))) : Bool :=
  match tr with
  | _ :: e₀ :: rest =>
      decide (StartsWaiting e₀ ∧ (forall e, e ∈ rest -> WritersGoOn e) ∧ rest.length = 3)
  | _ => false

/-- A writer waits for a reader; another reader comes, is turned away, and waits. -/
theorem writer_preference_threeThreads :
    exists (e₀ : RwTransition (Fin 3)) (rest : List (RwTransition (Fin 3)))
        (s : RwState (Fin 3)), rest.length = 3 ∧ (forall e, e ∈ rest -> NoNewReader e) ∧
      readHolds s ≤ readHolds e₀.target := by
  have hreplay : exists tr, exists s : RwState (Fin 3), Run RwInit rwStep tr s ∧
      secondWaits tr = true :=
    run_of_replay
      [RwAction.call 0 RwCall.rdlock none, RwAction.call 1 RwCall.wrlock none,
        RwAction.call 2 RwCall.tryrdlock none, RwAction.call 2 RwCall.rdlock none,
        RwAction.spurious 2]
      init_freshLock (by decide +kernel)
  rcases hreplay with ⟨tr, s, hrun, htest⟩
  cases tr with
  | nil => cases htest
  | cons e₁ tail =>
      cases tail with
      | nil => cases htest
      | cons e₀ rest =>
          rcases of_decide_eq_true htest with ⟨hstart, hgoes, hlength⟩
          have hsplit : Run RwInit rwStep ([e₁] ++ e₀ :: rest) s := hrun
          rcases writer_preference hsplit hstart hgoes with ⟨hall, hreads⟩
          exact ⟨e₀, rest, s, hlength, hall, hreads⟩

end RwLock
end InterprocessComm
