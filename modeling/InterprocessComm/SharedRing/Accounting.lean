import InterprocessComm.SharedRing.Accesses

/-!
# The accounts of the ring

The tokens of `nempty` and `nstored` are with the semaphores, the clients and the server, and
every attempt to get one ends as a reservation or as an overflow.
-/

namespace InterprocessComm
namespace SharedRing

open Verification

/-!
# What a place counts for
-/

namespace ClientPc

/-- After a successful `sem_trywait`, before the slot is reserved. -/
def unreserved : ClientPc -> Nat
  | lock _ => 1
  | reserve _ => 1
  | _ => 0

/-- After the slot is reserved, before `sem_post(&ptr->nstored)`. -/
def unposted : ClientPc -> Nat
  | unlock _ _ => 1
  | copy _ _ _ => 1
  | postStored _ => 1
  | _ => 0

/-- The token of a client, from `sem_trywait(&ptr->nempty)` to `sem_post(&ptr->nstored)`. -/
def holding (pc : ClientPc) : Nat := pc.unreserved + pc.unposted

/-- After a `sem_trywait` that failed with `EAGAIN`, before `ptr->noverflow++`. -/
def refused : ClientPc -> Nat
  | lockOverflow _ => 1
  | countOverflow _ => 1
  | _ => 0

def ahead (nloop : Nat) : ClientPc -> Nat
  | tryWait i => nloop - i
  | lockOverflow i => nloop - (i + 1)
  | countOverflow i => nloop - (i + 1)
  | unlockOverflow i => nloop - (i + 1)
  | lock i => nloop - (i + 1)
  | reserve i => nloop - (i + 1)
  | unlock i _ => nloop - (i + 1)
  | copy i _ _ => nloop - (i + 1)
  | postStored i => nloop - (i + 1)
  | returned => 0

/-- `sem_trywait` is called in a round of the loop. -/
def Within (nloop : Nat) : ClientPc -> Prop
  | tryWait i => i < nloop
  | _ => True

end ClientPc

/-- The token of the server, from `sem_wait(&ptr->nstored)` to `sem_post(&ptr->nempty)`. -/
def ServerPc.holding (pc : ServerPc) : Nat := pc.taking + pc.recycling

/-!
# What a run has done
-/

/-- The calls of `sem_trywait`, the slots reserved, the messages posted; the calls of
`sem_trywait` that failed for another reason than `EAGAIN`, and the rounds these took from their
clients. -/
structure Counts where
  attempts : Nat
  reservations : Nat
  posts : Nat
  failures : Nat
  givenUp : Nat
deriving DecidableEq

namespace Counts

def zero : Counts :=
  { attempts := 0, reservations := 0, posts := 0, failures := 0, givenUp := 0 }

def client {client : Type} (nloop : Nat) (fault : Bool) (e : RingEvent client) (k : Counts) :
    ClientPc -> Counts
  | ClientPc.tryWait i =>
      if fault then
        { k with attempts := k.attempts + 1, failures := k.failures + 1,
                 givenUp := k.givenUp + (nloop - i) }
      else
        { k with attempts := k.attempts + 1 }
  | _ =>
      match e with
      | RingEvent.reserved _ _ => { k with reservations := k.reservations + 1 }
      | RingEvent.posted _ _ => { k with posts := k.posts + 1 }
      | _ => k

def record {client : Type} (cl : Clients client) (clients : client -> ClientPc) (k : Counts) :
    RingAction client -> RingEvent client -> Counts
  | RingAction.client c fault, e => Counts.client (cl.nloop c) fault e k (clients c)
  | RingAction.server, _ => k

end Counts

section Runs

variable {client : Type}

def Counts.ofRing (cl : Clients client) (tr : List (RingTransition client)) : Counts :=
  tr.foldl (fun k e => Counts.record cl e.source.clients k e.action e.event) Counts.zero

def Counts.of (cl : Clients client) (tr : List (AccessTransition client)) : Counts :=
  tr.foldl (fun k e => Counts.record cl e.source.ring.clients k e.action e.event) Counts.zero

end Runs

/-!
# Steps
-/

section Steps

variable {client : Type} {pid : Pid} {nloop : Nat} {c : client} {shm shm' : Shmstruct}
  {fault : Bool} {e : RingEvent client}

theorem clientLoop_accounts (nloop i : Nat) :
    (clientLoop nloop i).holding = 0 ∧ (clientLoop nloop i).unreserved = 0 ∧
      (clientLoop nloop i).unposted = 0 ∧ (clientLoop nloop i).refused = 0 ∧
      (clientLoop nloop i).ahead nloop = nloop - i ∧ (clientLoop nloop i).Within nloop := by
  unfold clientLoop
  split
  · rename_i hlt
    exact ⟨rfl, rfl, rfl, rfl, rfl, hlt⟩
  · refine ⟨rfl, rfl, rfl, rfl, ?_, trivial⟩
    simp only [ClientPc.ahead]
    lia

structure Moves (nloop : Nat) (k k' : Counts) (shm shm' : Shmstruct) (pc pc' : ClientPc) :
    Prop where
  tokens : shm'.nempty + shm'.nstored + pc'.holding = shm.nempty + shm.nstored + pc.holding
  nput : shm.nput = k.reservations % NMESG -> shm'.nput = k'.reservations % NMESG
  attempts : shm'.noverflow + k'.reservations + k'.failures + pc'.refused + pc'.unreserved +
    k.attempts = shm.noverflow + k.reservations + k.failures + pc.refused + pc.unreserved +
    k'.attempts
  posts : k'.posts + pc'.unposted + k.reservations = k.posts + pc.unposted + k'.reservations
  rounds : k'.attempts + k'.givenUp + pc'.ahead nloop + k.failures =
    k.attempts + k.givenUp + pc.ahead nloop + k'.failures
  within : pc'.Within nloop

theorem clientStep_accounts {pc pc' : ClientPc} (k : Counts) (hwithin : pc.Within nloop)
    (h : clientStep pid nloop c shm fault pc = some (shm', pc', e)) :
    Moves nloop k (Counts.client nloop fault e k pc) shm shm' pc pc' := by
  cases pc with
  | tryWait i =>
      have hlt : i < nloop := hwithin
      cases fault with
      | true =>
          cases h
          refine ⟨rfl, id, ?_, rfl, ?_, trivial⟩
          · simp only [Counts.client, ClientPc.refused, ClientPc.unreserved, if_true]
            lia
          · simp only [Counts.client, ClientPc.ahead, if_true]
            lia
      | false =>
          cases hwait : semWait shm.nempty with
          | some n =>
              have hn := semWait_eq hwait
              simp only [clientStep, hwait] at h
              cases h
              refine ⟨?_, id, ?_, rfl, ?_, trivial⟩
              · simp only [ClientPc.holding, ClientPc.unreserved, ClientPc.unposted]
                lia
              · simp only [Counts.client, ClientPc.refused, ClientPc.unreserved]
                lia
              · simp only [Counts.client, ClientPc.ahead]
                lia
          | none =>
              simp only [clientStep, hwait] at h
              cases h
              refine ⟨rfl, id, ?_, rfl, ?_, trivial⟩
              · simp only [Counts.client, ClientPc.refused, ClientPc.unreserved]
                lia
              · simp only [Counts.client, ClientPc.ahead]
                lia
  | lockOverflow i =>
      rcases Option.map_eq_some_iff.mp h with ⟨n, _, heq⟩
      cases heq
      exact ⟨rfl, id, rfl, rfl, rfl, trivial⟩
  | countOverflow i =>
      cases h
      refine ⟨rfl, id, ?_, rfl, rfl, trivial⟩
      simp only [Counts.client, ClientPc.refused, ClientPc.unreserved]
      lia
  | unlockOverflow i =>
      cases h
      rcases clientLoop_accounts nloop (i + 1) with
        ⟨hholding, hunreserved, hunposted, hrefused, hahead, hnext⟩
      refine ⟨?_, id, ?_, ?_, ?_, hnext⟩
      · rw [hholding]
        rfl
      · rw [hrefused, hunreserved]
        rfl
      · rw [hunposted]
        rfl
      · rw [hahead]
        rfl
  | lock i =>
      rcases Option.map_eq_some_iff.mp h with ⟨n, _, heq⟩
      cases heq
      exact ⟨rfl, id, rfl, rfl, rfl, trivial⟩
  | reserve i =>
      cases h
      refine ⟨rfl, ?_, ?_, ?_, rfl, trivial⟩
      · intro hput
        simp only [Counts.client, hput]
        exact advance_mod k.reservations
      · simp only [Counts.client, ClientPc.refused, ClientPc.unreserved]
        lia
      · simp only [Counts.client, ClientPc.unposted]
        lia
  | unlock i offset =>
      cases h
      exact ⟨rfl, id, rfl, rfl, rfl, trivial⟩
  | copy i offset j =>
      simp only [clientStep] at h
      split at h
      · cases h
        split <;> exact ⟨rfl, id, rfl, rfl, rfl, trivial⟩
      · cases h
  | postStored i =>
      cases h
      rcases clientLoop_accounts nloop (i + 1) with
        ⟨hholding, hunreserved, hunposted, hrefused, hahead, hnext⟩
      refine ⟨?_, id, ?_, ?_, ?_, hnext⟩
      · rw [hholding]
        rfl
      · rw [hrefused, hunreserved]
        rfl
      · rw [hunposted]
        simp only [Counts.client, ClientPc.unposted]
      · rw [hahead]
        rfl
  | returned => cases h

theorem serverStep_accounts {v v' : Server} (h : serverStep shm v = some (shm', v', e)) :
    shm'.nempty + shm'.nstored + v'.pc.holding = shm.nempty + shm.nstored + v.pc.holding := by
  rcases v with ⟨pc, index, last⟩
  cases pc with
  | waitStored =>
      rcases Option.map_eq_some_iff.mp h with ⟨n, hwait, heq⟩
      cases heq
      have hn := semWait_eq hwait
      simp only [ServerPc.holding, ServerPc.taking, ServerPc.recycling]
      lia
  | lock =>
      rcases Option.map_eq_some_iff.mp h with ⟨n, _, heq⟩
      cases heq
      rfl
  | fetch =>
      cases h
      rfl
  | print offset k text =>
      simp only [serverStep] at h
      split at h
      · cases hchar : shm.msgdata (offset + k) with
        | some ch =>
            simp only [hchar] at h
            cases h
            rfl
        | none =>
            simp only [hchar] at h
            cases h
            rfl
      · cases h
  | unlock =>
      cases h
      rfl
  | postEmpty =>
      cases h
      simp only [ServerPc.holding, ServerPc.taking, ServerPc.recycling, semPost]
      lia
  | lockOverflow =>
      rcases Option.map_eq_some_iff.mp h with ⟨n, _, heq⟩
      cases heq
      rfl
  | readOverflow =>
      cases h
      rfl
  | unlockOverflow temp =>
      cases h
      rfl

theorem client_of_hidden {pc pc' : AccessPc} (k : Counts) (hhidden : pc.hidden = true)
    (h : accessClient pid nloop c shm fault pc = some (shm', pc', e)) :
    Counts.client nloop fault e k pc.ring = k := by
  cases pc with
  | program pc =>
      cases pc with
      | reserve i =>
          cases h
          rfl
      | countOverflow i =>
          cases h
          rfl
      | _ => cases hhidden
  | loadPut i offset =>
      cases h
      rfl
  | testPut i offset value =>
      simp only [accessClient] at h
      split at h
      · cases h
        rfl
      · cases h
        rfl
  | resetPut i offset =>
      cases h
      rfl
  | storePut i offset nput => cases hhidden
  | storeOverflow i noverflow => cases hhidden

end Steps

/-!
# Runs
-/

section Ring

variable {client : Type} [Fintype client] {cl : Clients client}

def Clients.rounds (cl : Clients client) : Nat := total id cl.nloop

structure Balanced (cl : Clients client) (k : Counts) (s : RingState client) : Prop where
  tokens : s.shm.nempty + s.shm.nstored + total ClientPc.holding s.clients +
    s.server.pc.holding = NMESG
  nput : s.shm.nput = k.reservations % NMESG
  attempts : s.shm.noverflow + k.reservations + k.failures + total ClientPc.refused s.clients +
    total ClientPc.unreserved s.clients = k.attempts
  posts : k.posts + total ClientPc.unposted s.clients = k.reservations
  rounds : k.attempts + k.givenUp + total id (fun c => (s.clients c).ahead (cl.nloop c)) =
    cl.rounds + k.failures
  within : forall c, (s.clients c).Within (cl.nloop c)

theorem balanced_init {s : RingState client} (hinit : RingInit cl s) :
    Balanced cl Counts.zero s := by
  cases hinit
  have haccounts := fun c => clientLoop_accounts (cl.nloop c) 0
  have hholding : total ClientPc.holding (ringStart cl).clients = 0 :=
    total_eq_zero_iff.mpr fun c => (haccounts c).1
  have hunreserved : total ClientPc.unreserved (ringStart cl).clients = 0 :=
    total_eq_zero_iff.mpr fun c => (haccounts c).2.1
  have hunposted : total ClientPc.unposted (ringStart cl).clients = 0 :=
    total_eq_zero_iff.mpr fun c => (haccounts c).2.2.1
  have hrefused : total ClientPc.refused (ringStart cl).clients = 0 :=
    total_eq_zero_iff.mpr fun c => (haccounts c).2.2.2.1
  have hahead : total id (fun c => ((ringStart cl).clients c).ahead (cl.nloop c)) =
      cl.rounds := total_congr fun c => (haccounts c).2.2.2.2.1
  constructor
  · rw [hholding]
    rfl
  · rfl
  · rw [hrefused, hunreserved]
    rfl
  · rw [hunposted]
    rfl
  · rw [hahead]
    exact Nat.zero_add _
  · exact fun c => (haccounts c).2.2.2.2.2

variable [DecidableEq client]

theorem Balanced.step {k : Counts} {s t : RingState client} {a : RingAction client}
    {e : RingEvent client} (h : Balanced cl k s) (hstep : ringStep cl s a = some (t, e)) :
    Balanced cl (Counts.record cl s.clients k a e) t := by
  rcases h with ⟨htokens, hput, hattempts, hposts, hrounds, hwithin⟩
  cases a with
  | client c fault =>
      rcases Option.map_eq_some_iff.mp hstep with ⟨⟨shm', pc', e'⟩, hc, heq⟩
      cases heq
      have hmoves := clientStep_accounts k (hwithin c) hc
      have hholding := total_update ClientPc.holding s.clients c pc'
      have hrefused := total_update ClientPc.refused s.clients c pc'
      have hunreserved := total_update ClientPc.unreserved s.clients c pc'
      have hunposted := total_update ClientPc.unposted s.clients c pc'
      have hahead := total_weigh_update (fun u pc => ClientPc.ahead (cl.nloop u) pc) s.clients c pc'
      constructor
      · have hmoved := hmoves.tokens
        simp only
        lia
      · exact hmoves.nput hput
      · have hmoved := hmoves.attempts
        simp only [Counts.record]
        lia
      · have hmoved := hmoves.posts
        simp only [Counts.record]
        lia
      · have hmoved := hmoves.rounds
        simp only [Counts.record] at hahead ⊢
        lia
      · apply (Function.forall_update_iff s.clients fun d pc => pc.Within (cl.nloop d)).mpr
        constructor
        · exact hmoves.within
        · intro d _
          exact hwithin d
  | server =>
      rcases Option.map_eq_some_iff.mp hstep with ⟨⟨shm', v', e'⟩, hs, heq⟩
      cases heq
      rcases serverStep_counters hs with ⟨hsame, hsame', _⟩
      have htokens' := serverStep_accounts hs
      constructor
      · simp only
        lia
      · exact hsame.trans hput
      · simp only [Counts.record, hsame']
        exact hattempts
      · exact hposts
      · exact hrounds
      · exact hwithin

theorem run_balanced {tr : List (RingTransition client)} {s : RingState client}
    (hrun : Run (RingInit cl) (ringStep cl) tr s) : Balanced cl (Counts.ofRing cl tr) s := by
  refine run_induction (I := fun tr s => Balanced cl (Counts.ofRing cl tr) s)
    (fun s hinit => balanced_init hinit) ?_ hrun
  intro tr s a e t _ hbalanced hstep
  have hnext := hbalanced.step hstep
  unfold Counts.ofRing at hnext ⊢
  rw [List.foldl_append]
  exact hnext

omit [Fintype client] in
theorem Counts.of_eq {tr : List (AccessTransition client)} {s : AccessState client}
    (hrun : Run (AccessInit cl) (accessStep cl) tr s) :
    Counts.of cl tr = Counts.ofRing cl
      (tr.filterMap (Simulation.coarse AccessState.ring AccessTransition.label)) := by
  refine Simulation.recorded (fun k (e : RingTransition client) =>
    Counts.record cl e.source.clients k e.action e.event) hrun ?_ Counts.zero
  rintro k ⟨s, a, e, t⟩ (hstep : accessStep cl s a = some (t, e))
  cases a with
  | client c fault =>
      rcases Option.map_eq_some_iff.mp hstep with ⟨⟨shm', pc', e'⟩, hc, heq⟩
      cases heq
      cases hhidden : (s.clients c).hidden with
      | true =>
          have hsame : Counts.record cl s.ring.clients k (RingAction.client c fault) e' = k :=
            client_of_hidden k hhidden hc
          simpa [Simulation.coarse, AccessTransition.label, hhidden] using hsame
      | false => simp [Simulation.coarse, AccessTransition.label, hhidden]
  | server => rfl

/-- What the counters of a run show at any time. -/
structure Accounts (cl : Clients client) (k : Counts) (s : AccessState client) : Prop where
  tokens : s.shm.nempty + s.shm.nstored + total ClientPc.holding s.ring.clients +
    s.server.pc.holding = NMESG
  nput : (forall c, (s.clients c).ring.inMutex = 0) -> s.shm.nput = k.reservations % NMESG
  attempts : s.shm.noverflow + k.reservations + total ClientPc.refused s.ring.clients +
    total ClientPc.unreserved s.ring.clients + k.failures = k.attempts
  finished : (forall c, (s.clients c).ring = ClientPc.returned) ->
    s.shm.noverflow + k.posts + k.givenUp = cl.rounds

/-- In every state the tokens are all somewhere, `nput` is the number of reservations when nobody
is in the mutex, and each attempt is counted, refused, reserved, about to be reserved or
failed; in the end the overflows, the messages posted and the rounds that failed clients gave up
are all rounds. -/
theorem ring_accounts (cl : Clients client) {tr : List (AccessTransition client)}
    {s : AccessState client} (hrun : Run (AccessInit cl) (accessStep cl) tr s) :
    Accounts cl (Counts.of cl tr) s := by
  rcases (ring_simulates cl).run hrun with ⟨hexact, hcoarse⟩
  have hbalanced := run_balanced hcoarse
  rw [<- Counts.of_eq hrun] at hbalanced
  rcases hbalanced with ⟨htokens, hput, hattempts, hposts, hrounds, _⟩
  have hput' : s.shm.nput % NMESG = (Counts.of cl tr).reservations % NMESG := hput
  have hattempts' : s.shm.noverflow + (Counts.of cl tr).reservations + (Counts.of cl tr).failures +
      total ClientPc.refused s.ring.clients + total ClientPc.unreserved s.ring.clients =
      (Counts.of cl tr).attempts := hattempts
  constructor
  · exact htokens
  · intro houtside
    have hlt : s.shm.nput < NMESG := hexact.bounded fun c => by
      cases hc : (s.clients c).wrapping with
      | false => rfl
      | true =>
          have hone := inMutex_of_wrapping hc
          rw [houtside c] at hone
          cases hone
    rwa [Nat.mod_eq_of_lt hlt] at hput'
  · lia
  · intro hreturned
    have hnone : forall w : ClientPc -> Nat, w ClientPc.returned = 0 ->
        total w s.ring.clients = 0 := fun w hw => total_eq_zero_iff.mpr fun c => by
      rw [<- hw, <- hreturned c]
      rfl
    have hrefused := hnone ClientPc.refused rfl
    have hunreserved := hnone ClientPc.unreserved rfl
    have hunposted := hnone ClientPc.unposted rfl
    have hahead : total id (fun c => (s.ring.clients c).ahead (cl.nloop c)) = 0 :=
      total_eq_zero_iff.mpr fun c => by
        have hc : s.ring.clients c = ClientPc.returned := hreturned c
        rw [hc]
        rfl
    lia

end Ring

def manyClients : Clients (Fin 17) :=
  { pid := fun c => ⟨c.val + 1, by have hlt := c.isLt; lia⟩, nloop := fun _ => 1 }

/-- The last client finds no slot free and counts an overflow. -/
theorem ring_accounts_manyClients :
    exists (tr : List (AccessTransition (Fin 17))) (s : AccessState (Fin 17)),
      Run (AccessInit manyClients) (accessStep manyClients) tr s ∧
        (Counts.of manyClients tr).attempts = 17 ∧ s.shm.noverflow = 1 ∧
        Accounts manyClients (Counts.of manyClients tr) s := by
  have hreplay : exists (tr : List (AccessTransition (Fin 17))) (s : AccessState (Fin 17)),
      Run (AccessInit manyClients) (accessStep manyClients) tr s ∧
        decide ((Counts.of manyClients tr).attempts = 17 ∧ s.shm.noverflow = 1) = true :=
    run_of_replay ((List.finRange 17).map (fun c => RingAction.client c false) ++
        List.replicate 4 (RingAction.client (Fin.last 16) false))
      (show AccessInit _ (accessStart _) from rfl) (by decide +kernel)
  rcases hreplay with ⟨tr, s, hrun, htest⟩
  rcases of_decide_eq_true htest with ⟨hattempts, hnoverflow⟩
  exact ⟨tr, s, hrun, hattempts, hnoverflow, ring_accounts manyClients hrun⟩

/-- A client with a token and no slot has attempted and neither reserved nor overflowed, and if
the token is the reservation then `nput` is behind; and where `sem_trywait` fails in another
way the rounds are not all counted. -/
theorem attempt_unaccounted_twoClients :
    (exists (tr : List (AccessTransition (Fin 2))) (s : AccessState (Fin 2)),
      Run (AccessInit (twoClients fun _ => 1)) (accessStep (twoClients fun _ => 1)) tr s ∧
        (forall c, (s.clients c).ring.inMutex = 0) ∧
        s.shm.noverflow + (Counts.of (twoClients fun _ => 1) tr).reservations +
          total ClientPc.refused s.ring.clients ≠ (Counts.of (twoClients fun _ => 1) tr).attempts ∧
        s.shm.nput ≠ ((Counts.of (twoClients fun _ => 1) tr).reservations +
          total ClientPc.unreserved s.ring.clients) % NMESG) ∧
      exists (tr : List (AccessTransition (Fin 2))) (s : AccessState (Fin 2)),
        Run (AccessInit (twoClients fun _ => 1)) (accessStep (twoClients fun _ => 1)) tr s ∧
          (forall c, (s.clients c).ring = ClientPc.returned) ∧
          s.shm.noverflow + (Counts.of (twoClients fun _ => 1) tr).posts ≠
            (twoClients fun _ => 1).rounds := by
  constructor
  · have hreplay : exists (tr : List (AccessTransition (Fin 2))) (s : AccessState (Fin 2)),
        Run (AccessInit (twoClients fun _ => 1)) (accessStep (twoClients fun _ => 1)) tr s ∧
          decide ((forall c, (s.clients c).ring.inMutex = 0) ∧
            s.shm.noverflow + (Counts.of (twoClients fun _ => 1) tr).reservations +
              total ClientPc.refused s.ring.clients ≠
                (Counts.of (twoClients fun _ => 1) tr).attempts ∧
            s.shm.nput ≠ ((Counts.of (twoClients fun _ => 1) tr).reservations +
              total ClientPc.unreserved s.ring.clients) % NMESG) = true :=
      run_of_replay [RingAction.client 0 false]
        (show AccessInit _ (accessStart _) from rfl) (by decide +kernel)
    rcases hreplay with ⟨tr, s, hrun, htest⟩
    exact ⟨tr, s, hrun, of_decide_eq_true htest⟩
  · have hreplay : exists (tr : List (AccessTransition (Fin 2))) (s : AccessState (Fin 2)),
        Run (AccessInit (twoClients fun _ => 1)) (accessStep (twoClients fun _ => 1)) tr s ∧
          decide ((forall c, (s.clients c).ring = ClientPc.returned) ∧
            s.shm.noverflow + (Counts.of (twoClients fun _ => 1) tr).posts ≠
              (twoClients fun _ => 1).rounds) = true :=
      run_of_replay [RingAction.client 0 true, RingAction.client 1 true]
        (show AccessInit _ (accessStart _) from rfl) (by decide +kernel)
    rcases hreplay with ⟨tr, s, hrun, htest⟩
    exact ⟨tr, s, hrun, of_decide_eq_true htest⟩

end SharedRing
end InterprocessComm
