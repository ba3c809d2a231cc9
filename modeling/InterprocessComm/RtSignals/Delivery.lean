import InterprocessComm.RtSignals.Operations

/-!
# What the child receives

The signals that are queued when the child unblocks them are all received before it goes on, the
lowest number first and each number in the order of the calls.  A signal that comes before they are
blocked may kill the child, and one that comes after the unblocking may be left at its end.
-/

namespace InterprocessComm
namespace RtSignals

open Verification

/-- What has happened in a run: the signals with the order in which they were queued, how many of
them there were when the child unblocked them, and what the child has printed. -/
structure Log where
  queue : History Signal
  early : Option Nat
  printed : List Signal

namespace Log

def empty : Log := { queue := History.empty, early := none, printed := [] }

def observe (g : Log) : Event -> Log
  | Event.queued x => { g with queue := g.queue.put prio x }
  | Event.delivered _ => { g with queue := g.queue.take }
  | Event.received x => { g with printed := g.printed ++ [x] }
  | Event.unblocked => { g with early := some g.queue.sent.length }
  | _ => g

end Log

/-- The signals in the order in which they are delivered if none is before all are queued. -/
def sorted (xs : List Signal) : List Signal :=
  xs.foldl (fun q x => stableInsert prio x q) []

theorem sorted_snoc (xs : List Signal) (x : Signal) :
    sorted (xs ++ [x]) = stableInsert prio x (sorted xs) := by
  simp [sorted]

example : sorted sends =
    [⟨62, 0⟩, ⟨62, 1⟩, ⟨62, 2⟩, ⟨63, 0⟩, ⟨63, 1⟩, ⟨63, 2⟩, ⟨64, 0⟩, ⟨64, 1⟩, ⟨64, 2⟩] := by
  decide

def Installed (s : State) : Prop :=
  forall x, x ∈ sends -> x.signo ∈ s.handlers

structure Fresh (g : Log) : Prop where
  early : g.early = none
  taken : g.queue.taken = []

inductive Placed (g : Log) (s : State) : Prop where
  | start (hpc : s.pc = Pc.block) (hhandlers : s.handlers = []) (hfresh : Fresh g)
  | installs {k : Nat} (hpc : s.pc = Pc.signal_rt k) (hblocked : s.blocked = true)
      (hinstalled : forall x, x ∈ sends -> SIGRTMAX < x.signo + k -> x.signo ∈ s.handlers)
      (hfresh : Fresh g)
  | masked (hpc : s.pc = Pc.sleep ∨ s.pc = Pc.unblock) (hblocked : s.blocked = true)
      (hinstalled : Installed s) (hfresh : Fresh g)
  | drains {n : Nat} (hpc : s.pc = Pc.unblocked) (hopen : s.blocked = false)
      (hinstalled : Installed s) (hearly : g.early = some n)
  | later {n : Nat} (hpc : s.pc = Pc.sleepAgain ∨ s.pc = Pc.exit ∨ s.pc = Pc.exited)
      (hopen : s.blocked = false) (hinstalled : Installed s) (hearly : g.early = some n)
      (hleft : forall y, y ∈ g.queue.pending -> n ≤ y.2)
  | killed (hpc : s.pc = Pc.killed) (hfresh : Fresh g) (hsent : g.queue.sent ≠ [])

structure Inv (g : Log) (s : State) : Prop where
  ok : g.queue.Ok prio
  pending : g.queue.pending.map Prod.fst = s.pending
  taken : g.queue.taken.map Prod.fst = g.printed ++ s.handler.toList
  toSend : forall x, x ∈ s.toSend -> x ∈ sends
  sent : forall x, x ∈ g.queue.sent -> x ∈ sends
  early : forall n, g.early = some n -> n ≤ g.queue.sent.length
  sorted : (forall n, g.early = some n -> n = g.queue.sent.length) ->
    g.queue.taken.map Prod.fst ++ s.pending = RtSignals.sorted g.queue.sent
  placed : Placed g s

variable {g : Log} {s t : State}

theorem Inv.pending_sends (h : Inv g s) {x : Signal} (hx : x ∈ s.pending) : x ∈ sends := by
  rw [← h.pending] at hx
  rcases List.mem_map.mp hx with ⟨y, hy, rfl⟩
  have hmem := h.ok.complete.mem_iff.mp (List.mem_append_left g.queue.taken hy)
  exact h.sent _ (List.fst_mem_of_mem_zipIdx hmem)

theorem Inv.sent_ne_nil (h : Inv g s) (hpending : s.pending ≠ []) : g.queue.sent ≠ [] := by
  intro hnone
  have hcomplete := h.ok.complete
  rw [hnone] at hcomplete
  have hempty := (List.append_eq_nil_iff.mp hcomplete.eq_nil).1
  rw [← h.pending, hempty] at hpending
  exact hpending rfl

/-- The child is not in front of its handlers once signals can be delivered to it. -/
theorem Inv.deliverable (h : Inv g s) (hblocked : s.blocked = false)
    (halive : s.pc.ended = false) :
    s.pc = Pc.block ∧ s.handlers = [] ∧ Fresh g ∨ Installed s := by
  cases h.placed with
  | start hpc hhandlers hfresh => exact Or.inl ⟨hpc, hhandlers, hfresh⟩
  | installs _ hmask _ _ => cases hmask.symm.trans hblocked
  | masked _ hmask _ _ => cases hmask.symm.trans hblocked
  | drains _ _ hinstalled _ => exact Or.inr hinstalled
  | later _ _ hinstalled _ _ => exact Or.inr hinstalled
  | killed hpc _ _ =>
      rw [hpc] at halive
      cases halive

theorem Inv.refuse (h : Inv g s) {x : Signal} {rest : List Signal}
    (hsend : s.toSend = x :: rest) : Inv g { s with toSend := rest } := by
  constructor
  · exact h.ok
  · exact h.pending
  · exact h.taken
  · intro y hy
    exact h.toSend y (by rw [hsend]; exact List.mem_cons_of_mem x hy)
  · exact h.sent
  · exact h.early
  · exact h.sorted
  · cases h.placed with
    | start hpc hhandlers hfresh => exact Placed.start hpc hhandlers hfresh
    | installs hpc hblocked hinstalled hfresh =>
        exact Placed.installs hpc hblocked hinstalled hfresh
    | masked hpc hblocked hinstalled hfresh => exact Placed.masked hpc hblocked hinstalled hfresh
    | drains hpc hopen hinstalled hearly => exact Placed.drains hpc hopen hinstalled hearly
    | later hpc hopen hinstalled hearly hleft =>
        exact Placed.later hpc hopen hinstalled hearly hleft
    | killed hpc hfresh hsent => exact Placed.killed hpc hfresh hsent

theorem Inv.queue (h : Inv g s) {x : Signal} {rest : List Signal} (hsend : s.toSend = x :: rest)
    (halive : s.pc.ended = false) :
    Inv (g.observe (Event.queued x))
      { s with toSend := rest, pending := stableInsert prio x s.pending } := by
  have hx : x ∈ sends := h.toSend x (by rw [hsend]; exact List.mem_cons_self)
  constructor
  · exact History.ok_put h.ok x
  · rw [← h.pending]
    exact History.put_pending_map prio x g.queue
  · exact h.taken
  · intro y hy
    exact h.toSend y (by rw [hsend]; exact List.mem_cons_of_mem x hy)
  · intro y hy
    rcases List.mem_append.mp hy with hold | hnew
    · exact h.sent y hold
    · cases List.mem_singleton.mp hnew
      exact hx
  · intro n hn
    have hle := h.early n hn
    show n ≤ (g.queue.sent ++ [x]).length
    simp
    lia
  · intro hlast
    have hearly : g.early = none := by
      cases hn : g.early with
      | none => rfl
      | some n =>
          have hle := h.early n hn
          have hlen : n = (g.queue.sent ++ [x]).length := hlast n hn
          simp at hlen
          lia
    have hfresh : g.queue.taken = [] := by
      cases h.placed with
      | start _ _ hfresh => exact hfresh.taken
      | installs _ _ _ hfresh => exact hfresh.taken
      | masked _ _ _ hfresh => exact hfresh.taken
      | drains _ _ _ hsome => cases hsome.symm.trans hearly
      | later _ _ _ hsome _ => cases hsome.symm.trans hearly
      | killed _ hfresh _ => exact hfresh.taken
    have hold := h.sorted fun n hn => by cases hn.symm.trans hearly
    rw [hfresh] at hold
    show g.queue.taken.map Prod.fst ++ stableInsert prio x s.pending =
      RtSignals.sorted (g.queue.sent ++ [x])
    rw [sorted_snoc, ← hold, hfresh]
    rfl
  · cases h.placed with
    | start hpc hhandlers hfresh => exact Placed.start hpc hhandlers ⟨hfresh.early, hfresh.taken⟩
    | installs hpc hblocked hinstalled hfresh =>
        exact Placed.installs hpc hblocked hinstalled ⟨hfresh.early, hfresh.taken⟩
    | masked hpc hblocked hinstalled hfresh =>
        exact Placed.masked hpc hblocked hinstalled ⟨hfresh.early, hfresh.taken⟩
    | drains hpc hopen hinstalled hearly => exact Placed.drains hpc hopen hinstalled hearly
    | @later n hpc hopen hinstalled hearly hleft =>
        refine Placed.later (n := n) hpc hopen hinstalled hearly ?_
        intro y hy
        rcases List.mem_cons.mp ((stableInsert_perm _ _ _).mem_iff.mp hy) with rfl | hold
        · exact h.early n hearly
        · exact hleft y hold
    | killed hpc _ _ =>
        rw [hpc] at halive
        cases halive

theorem Inv.pending_cons (h : Inv g s) {x : Signal} {rest : List Signal}
    (hpending : s.pending = x :: rest) :
    exists k left, g.queue.pending = (x, k) :: left ∧ left.map Prod.fst = rest := by
  have hmap := h.pending
  rw [hpending] at hmap
  rcases List.map_eq_cons_iff.mp hmap with ⟨⟨y, k⟩, left, hqueue, rfl, hleft⟩
  exact ⟨k, left, hqueue, hleft⟩

theorem Inv.deliver (h : Inv g s) {x : Signal} {rest : List Signal}
    (hhandler : s.handler = none) (hblocked : s.blocked = false) (halive : s.pc.ended = false)
    (hpending : s.pending = x :: rest) (hinstalled : x.signo ∈ s.handlers) :
    Inv (g.observe (Event.delivered x)) { s with pending := rest, handler := some x } := by
  rcases h.pending_cons hpending with ⟨k, left, hqueue, hleft⟩
  have htaken : g.queue.take.taken = g.queue.taken ++ [(x, k)] := by
    rw [History.take, hqueue]
    rfl
  have hrest : g.queue.take.pending = left := by
    rw [History.take, hqueue]
    rfl
  have hold := h.taken
  rw [hhandler, Option.toList_none, List.append_nil] at hold
  constructor
  · exact History.ok_take h.ok
  · show g.queue.take.pending.map Prod.fst = rest
    rw [hrest, hleft]
  · show g.queue.take.taken.map Prod.fst = g.printed ++ [x]
    rw [htaken, List.map_append, hold]
    rfl
  · exact h.toSend
  · exact h.sent
  · exact h.early
  · intro hlast
    have hsame := h.sorted hlast
    rw [hpending] at hsame
    show g.queue.take.taken.map Prod.fst ++ rest = _
    rw [htaken, List.map_append, List.append_assoc]
    exact hsame
  · show Placed (g.observe (Event.delivered x)) { s with pending := rest, handler := some x }
    cases h.placed with
    | start _ hhandlers _ =>
        rw [hhandlers] at hinstalled
        cases hinstalled
    | installs _ hmask _ _ => cases hmask.symm.trans hblocked
    | masked _ hmask _ _ => cases hmask.symm.trans hblocked
    | drains hpc hopen hall hearly => exact Placed.drains hpc hopen hall hearly
    | @later n hpc hopen hall hearly hlater =>
        refine Placed.later (n := n) hpc hopen hall hearly ?_
        intro y hy
        refine hlater y ?_
        change y ∈ g.queue.take.pending at hy
        rw [hrest] at hy
        rw [hqueue]
        exact List.mem_cons_of_mem _ hy
    | killed hpc _ _ =>
        rw [hpc] at halive
        cases halive

theorem Inv.receive (h : Inv g s) {x : Signal} (hhandler : s.handler = some x) :
    Inv (g.observe (Event.received x)) { s with handler := none } := by
  constructor
  · exact h.ok
  · exact h.pending
  · have hold := h.taken
    rw [hhandler] at hold
    show g.queue.taken.map Prod.fst = (g.printed ++ [x]) ++ []
    rw [List.append_nil]
    exact hold
  · exact h.toSend
  · exact h.sent
  · exact h.early
  · exact h.sorted
  · cases h.placed with
    | start hpc hhandlers hfresh => exact Placed.start hpc hhandlers ⟨hfresh.early, hfresh.taken⟩
    | installs hpc hblocked hinstalled hfresh =>
        exact Placed.installs hpc hblocked hinstalled ⟨hfresh.early, hfresh.taken⟩
    | masked hpc hblocked hinstalled hfresh =>
        exact Placed.masked hpc hblocked hinstalled ⟨hfresh.early, hfresh.taken⟩
    | drains hpc hopen hinstalled hearly => exact Placed.drains hpc hopen hinstalled hearly
    | later hpc hopen hinstalled hearly hleft =>
        exact Placed.later hpc hopen hinstalled hearly hleft
    | killed hpc hfresh hsent => exact Placed.killed hpc ⟨hfresh.early, hfresh.taken⟩ hsent

theorem Inv.moves (h : Inv g s) {pc : Pc} {blocked : Bool} {handlers : List Nat}
    (hplaced : Placed g { s with pc := pc, blocked := blocked, handlers := handlers }) :
    Inv g { s with pc := pc, blocked := blocked, handlers := handlers } :=
  ⟨h.ok, h.pending, h.taken, h.toSend, h.sent, h.early, h.sorted, hplaced⟩

theorem signo_of_sends {x : Signal} (hx : x ∈ sends) :
    SIGRTMAX < x.signo + 3 ∧ x.signo ≤ SIGRTMAX := by
  rcases List.mem_flatMap.mp hx with ⟨k, hk, hmem⟩
  rcases List.mem_map.mp hmem with ⟨j, _, rfl⟩
  have hlt := List.mem_range.mp hk
  constructor
  · show SIGRTMAX < SIGRTMAX - k + 3
    unfold SIGRTMAX
    lia
  · exact Nat.sub_le _ _

theorem Inv.step {a : Action} {o : Event} (h : Inv g s) (hstep : step s a = some (t, o)) :
    Inv (g.observe o) t := by
  cases stepped_of_step hstep with
  | refuse hsend => exact h.refuse hsend
  | queue hsend halive => exact h.queue hsend halive
  | deliver hblocked hhandler halive hpending hinstalled =>
      exact h.deliver hhandler hblocked halive hpending hinstalled
  | @kill x rest hblocked hhandler halive hpending hnone =>
      have hx : x ∈ sends := h.pending_sends (by rw [hpending]; exact List.mem_cons_self)
      rcases h.deliverable hblocked halive with ⟨_, _, hfresh⟩ | hinstalled
      · refine h.moves (Placed.killed rfl ⟨hfresh.early, hfresh.taken⟩ ?_)
        exact h.sent_ne_nil (by rw [hpending]; exact List.cons_ne_nil x rest)
      · exact absurd (hinstalled x hx) hnone
  | receive hhandler => exact h.receive hhandler
  | block hhandler hpc =>
      refine h.moves ?_
      cases h.placed with
      | start _ _ hfresh =>
          refine Placed.installs rfl rfl ?_ hfresh
          intro x hx hlt
          have hle := (signo_of_sends hx).2
          lia
      | _ => simp_all
  | @install k hhandler hpc =>
      refine h.moves ?_
      cases h.placed with
      | @installs k' hplace hblocked hinstalled hfresh =>
          cases hplace.symm.trans hpc
          have hnext : forall x, x ∈ sends -> SIGRTMAX < x.signo + (k + 1) ->
              x.signo ∈ (SIGRTMAX - k) :: s.handlers := by
            intro x hx hlt
            rcases Nat.lt_or_ge SIGRTMAX (x.signo + k) with hold | hnew
            · exact List.mem_cons_of_mem _ (hinstalled x hx hold)
            · have heq : x.signo = SIGRTMAX - k := by lia
              rw [heq]
              exact List.mem_cons_self
          by_cases hk : k < 2
          · rw [if_pos hk]
            exact Placed.installs rfl hblocked hnext hfresh
          · rw [if_neg hk]
            refine Placed.masked (Or.inl rfl) hblocked ?_ hfresh
            intro x hx
            have hlt := (signo_of_sends hx).1
            exact hnext x hx (by lia)
      | _ => simp_all
  | sleep hhandler hpc =>
      refine h.moves ?_
      cases h.placed with
      | masked _ hblocked hinstalled hfresh =>
          exact Placed.masked (Or.inr rfl) hblocked hinstalled hfresh
      | _ => simp_all
  | unblock hhandler hpc =>
      have hmask : Installed s ∧ Fresh g := by
        cases h.placed with
        | masked _ _ hinstalled hfresh => exact ⟨hinstalled, hfresh⟩
        | _ => simp_all
      rcases hmask with ⟨hinstalled, hfresh⟩
      refine ⟨h.ok, h.pending, h.taken, h.toSend, h.sent, ?_, ?_, ?_⟩
      · intro n hn
        cases hn
        exact Nat.le_refl _
      · intro _
        exact h.sorted fun n hn => by cases hfresh.early.symm.trans hn
      · exact Placed.drains rfl rfl hinstalled rfl
  | goOn hhandler hpc hnone =>
      refine h.moves ?_
      cases h.placed with
      | drains _ hopen hinstalled hearly =>
          refine Placed.later (Or.inl rfl) hopen hinstalled hearly ?_
          intro y hy
          have hempty := h.pending
          rw [hnone, List.map_eq_nil_iff] at hempty
          rw [hempty] at hy
          cases hy
      | _ => simp_all
  | wake hhandler hpc hnone =>
      refine h.moves ?_
      cases h.placed with
      | later _ hopen hinstalled hearly hleft =>
          exact Placed.later (Or.inr (Or.inl rfl)) hopen hinstalled hearly hleft
      | _ => simp_all
  | exit hhandler hpc =>
      refine h.moves ?_
      cases h.placed with
      | later _ hopen hinstalled hearly hleft =>
          exact Placed.later (Or.inr (Or.inr rfl)) hopen hinstalled hearly hleft
      | _ => simp_all

/-!
# Runs
-/

section Runs

variable {tr : List (Transition State Action Event)}

def logOf (tr : List (Transition State Action Event)) : Log :=
  observed Log.observe Log.empty tr

theorem inv_run (hrun : Run Init step tr s) : Inv (logOf tr) s := by
  refine run_induction (I := fun tr s => Inv (logOf tr) s) ?_ ?_ hrun
  · intro s hs
    constructor
    · exact History.ok_empty prio
    · exact hs.pending.symm
    · rw [hs.handler]
      rfl
    · intro x hx
      rw [hs.toSend] at hx
      exact hx
    · intro x hx
      cases hx
    · intro n hn
      cases hn
    · intro _
      rw [hs.pending]
      rfl
    · exact Placed.start hs.pc hs.handlers ⟨rfl, rfl⟩
  · intro tr s a o t _ ih hstep
    rw [logOf, observed_snoc]
    exact ih.step hstep

theorem delivered_first (hrun : Run Init step tr s) {a : Action} {x : Signal}
    (hstep : step s a = some (t, Event.delivered x)) :
    exists k, (x, k) ∈ (logOf tr).queue.pending ∧
      forall y, y ∈ (logOf tr).queue.pending -> y ≠ (x, k) ->
        x.signo < y.1.signo ∨ x.signo = y.1.signo ∧ k < y.2 := by
  have h := inv_run hrun
  cases stepped_of_step hstep with
  | deliver _ _ _ hpending _ =>
      rcases h.pending_cons hpending with ⟨k, left, hqueue, _⟩
      refine ⟨k, by rw [hqueue]; exact List.mem_cons_self, ?_⟩
      intro y hy hne
      rw [hqueue] at hy
      rcases List.mem_cons.mp hy with heq | hmem
      · exact absurd heq hne
      · rcases h.ok.head_precedes hqueue hmem with hlt | ⟨heq, hlt⟩
        · exact Or.inl hlt
        · exact Or.inr ⟨(OrderDual.toDual.injective heq).symm, hlt⟩

theorem pending_of_no_deliver (hopen : s.blocked = false) (hhandler : s.handler = none)
    (halive : s.pc.ended = false) (hnone : step s Action.deliver = none) : s.pending = [] := by
  cases hpending : s.pending with
  | nil => rfl
  | cons x rest =>
      simp only [step, hopen, hhandler, halive, hpending] at hnone
      by_cases hinstalled : x.signo ∈ s.handlers <;> simp [hinstalled] at hnone

theorem Inv.ended_of_stuck (h : Inv (logOf tr) s) (hstuck : forall a, RtSignals.step s a = none) :
    s.toSend = [] ∧ s.pc.ended = true := by
  have hhandler : s.handler = none := by
    cases hsome : s.handler with
    | none => rfl
    | some x =>
        have hchild := hstuck Action.child
        simp [RtSignals.step, childStep, hsome] at hchild
  constructor
  · cases hsend : s.toSend with
    | nil => rfl
    | cons x rest =>
        have hparent := hstuck (Action.send true)
        simp [RtSignals.step, hsend] at hparent
  · have hchild := hstuck Action.child
    simp only [RtSignals.step, childStep, hhandler] at hchild
    have hdeliver := hstuck Action.deliver
    cases h.placed with
    | start hpc _ _ => simp [hpc] at hchild
    | installs hpc _ _ _ => simp [hpc] at hchild
    | masked hpc _ _ _ => rcases hpc with hpc | hpc <;> simp [hpc] at hchild
    | killed hpc _ _ =>
        rw [hpc]
        rfl
    | drains hpc hopen _ _ =>
        have hnone := pending_of_no_deliver hopen hhandler (by rw [hpc]; rfl) hdeliver
        simp [hpc, hnone] at hchild
    | later hpc hopen _ _ _ =>
        rcases hpc with hpc | hpc | hpc
        · have hnone := pending_of_no_deliver hopen hhandler (by rw [hpc]; rfl) hdeliver
          simp [hpc, hnone] at hchild
        · simp [hpc] at hchild
        · rw [hpc]
          rfl

/-- Each signal that has been queued is pending or has been received, once; what is delivered
comes before all that is left pending, the lower number first and each number in the order of the
calls.  The child is killed only by a signal, and then before it has received any.  When it has
come behind the call that unblocks the signals, all that had been queued at that call have been
received, and if they were all, in the sorted order.  Nothing can happen only when the parent has
made its calls and the child has ended. -/
theorem signals_delivered (hrun : Run Init step tr s) :
    ((logOf tr).queue.pending ++ (logOf tr).queue.taken).Perm (logOf tr).queue.sent.zipIdx ∧
      (logOf tr).queue.taken.map Prod.fst = (logOf tr).printed ++ s.handler.toList ∧
      (forall tr₁ e tr₂, tr = tr₁ ++ e :: tr₂ -> forall x, e.event = Event.delivered x ->
        exists k, (x, k) ∈ (logOf tr₁).queue.pending ∧
          forall y, y ∈ (logOf tr₁).queue.pending -> y ≠ (x, k) ->
            x.signo < y.1.signo ∨ x.signo = y.1.signo ∧ k < y.2) ∧
      (s.pc = Pc.killed -> (logOf tr).printed = [] ∧ (logOf tr).queue.sent ≠ []) ∧
      (s.pc = Pc.sleepAgain ∨ s.pc = Pc.exit ∨ s.pc = Pc.exited ->
        exists n, (logOf tr).early = some n ∧
          (forall x k, (x, k) ∈ (logOf tr).queue.sent.zipIdx -> k < n ->
            (x, k) ∈ (logOf tr).queue.taken) ∧
          (n = (logOf tr).queue.sent.length ->
            (logOf tr).printed ++ s.handler.toList = sorted (logOf tr).queue.sent)) ∧
      ((forall a, step s a = none) -> s.toSend = [] ∧ s.pc.ended = true) := by
  have h := inv_run hrun
  refine ⟨h.ok.complete, h.taken, ?_, ?_, ?_, h.ended_of_stuck⟩
  · rintro tr₁ e tr₂ rfl x hevent
    rcases run_split hrun with ⟨hprior, hvalid, _⟩
    rcases e with ⟨s', a, o, t⟩
    simp only at hevent
    subst hevent
    exact delivered_first hprior hvalid
  · intro hpc
    cases h.placed with
    | killed _ hfresh hsent =>
        have htaken := h.taken
        rw [hfresh.taken] at htaken
        exact ⟨(List.append_eq_nil_iff.mp htaken.symm).1, hsent⟩
    | _ => simp_all
  · intro hpc
    cases h.placed with
    | @later n _ _ _ hearly hleft =>
        refine ⟨n, hearly, ?_, ?_⟩
        · intro x k hx hlt
          rcases List.mem_append.mp (h.ok.complete.mem_iff.mpr hx) with hpending | htaken
          · exact absurd hlt (Nat.not_lt.mpr (hleft _ hpending))
          · exact htaken
        · intro hall
          -- nothing is left: its number would not be below that of the signals
          have hempty : (logOf tr).queue.pending = [] := by
            by_contra hsome
            rcases List.exists_mem_of_ne_nil _ hsome with ⟨y, hy⟩
            have hlt := h.ok.number_lt hy
            have hle := hleft y hy
            lia
          have hsorted := h.sorted fun m hm => by
            cases hearly.symm.trans hm
            exact hall
          rw [← h.pending, hempty, h.taken] at hsorted
          simpa using hsorted
    | _ => rcases hpc with hpc | hpc | hpc <;> simp_all

def firstState : State :=
  { toSend := sends, pending := [], pc := Pc.block, blocked := false, handlers := []
    handler := none }

theorem init_firstState : Init firstState :=
  ⟨rfl, rfl, rfl, rfl, rfl, rfl⟩

/-- All nine are queued before the child unblocks them. -/
theorem signals_delivered_nine :
    exists tr s, Run Init step tr s ∧ s.pc = Pc.exited ∧ (logOf tr).printed = sorted sends := by
  have hreplay : exists tr s, Run Init step tr s ∧
      decide (s.pc = Pc.exited ∧ s.handler = none ∧ (logOf tr).early = some 9 ∧
        (logOf tr).queue.sent = sends) = true :=
    run_of_replay
      (List.replicate 5 Action.child ++ List.replicate 9 (Action.send false) ++
        List.replicate 1 Action.child ++
        (List.replicate 9 [Action.deliver, Action.child]).flatten ++
        List.replicate 3 Action.child)
      init_firstState (by decide +kernel)
  rcases hreplay with ⟨tr, s, hrun, htest⟩
  rcases of_decide_eq_true htest with ⟨hpc, hhandler, hearly, hsent⟩
  rcases (signals_delivered hrun).2.2.2.2.1 (Or.inr (Or.inr hpc)) with ⟨n, hn, _, hsorted⟩
  have hlength : n = (logOf tr).queue.sent.length := by
    rw [hsent]
    cases hearly.symm.trans hn
    rfl
  have hprinted := hsorted hlength
  rw [hhandler, hsent] at hprinted
  exact ⟨tr, s, hrun, hpc, by simpa using hprinted⟩

end Runs

end RtSignals
end InterprocessComm
