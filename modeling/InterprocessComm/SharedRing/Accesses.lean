import InterprocessComm.Lib.Simulation
import InterprocessComm.SharedRing.Messages

/-!
# The accesses to the counters

`++(ptr->nput)`, the test of its value and the assignment behind it, and `ptr->noverflow++`, are
several accesses to the shared memory.  The two mutexes make each of them one step of the ring.
-/

namespace InterprocessComm
namespace SharedRing

open Verification

/-!
# The clients
-/

/-- Where a client is when each load and each store of a counter is a step: at a step of its
program, with the offset of its slot, with the value of `nput` too, with the new value, before
`nput = 0`, or with the value of `noverflow`. -/
inductive AccessPc where
  | program (pc : ClientPc)
  | loadPut (i offset : Nat)
  | storePut (i offset nput : Nat)
  | testPut (i offset value : Nat)
  | resetPut (i offset : Nat)
  | storeOverflow (i : Nat) (noverflow : Int)
deriving DecidableEq

def accessClient {client : Type} (pid : Pid) (nloop : Nat) (c : client) (shm : Shmstruct)
    (fault : Bool) : AccessPc -> Option (Shmstruct × AccessPc × RingEvent client)
  | AccessPc.program pc =>
      match pc with
      | ClientPc.reserve i =>
          some (shm, AccessPc.loadPut i (msgoff shm.nput), RingEvent.silent)
      | ClientPc.countOverflow i =>
          some (shm, AccessPc.storeOverflow i shm.noverflow, RingEvent.silent)
      | pc =>
          (clientStep pid nloop c shm fault pc).map fun r =>
            (r.1, AccessPc.program r.2.1, r.2.2)
  | AccessPc.loadPut i offset =>
      some (shm, AccessPc.storePut i offset shm.nput, RingEvent.silent)
  | AccessPc.storePut i offset nput =>
      some ({ shm with nput := nput + 1 }, AccessPc.testPut i offset (nput + 1),
        RingEvent.reserved c i)
  | AccessPc.testPut i offset value =>
      if value ≥ NMESG then
        some (shm, AccessPc.resetPut i offset, RingEvent.silent)
      else
        some (shm, AccessPc.program (ClientPc.unlock i offset), RingEvent.silent)
  | AccessPc.resetPut i offset =>
      some ({ shm with nput := 0 }, AccessPc.program (ClientPc.unlock i offset),
        RingEvent.silent)
  | AccessPc.storeOverflow i noverflow =>
      some ({ shm with noverflow := noverflow + 1 },
        AccessPc.program (ClientPc.unlockOverflow i), RingEvent.silent)

/-!
# The system
-/

structure AccessState (client : Type) where
  shm : Shmstruct
  clients : client -> AccessPc
  server : Server

section System

variable {client : Type} [DecidableEq client]

def accessStep (cl : Clients client) (s : AccessState client) :
    RingAction client -> Option (AccessState client × RingEvent client)
  | RingAction.client c fault =>
      (accessClient (cl.pid c) (cl.nloop c) c s.shm fault (s.clients c)).map fun r =>
        ({ s with shm := r.1, clients := Function.update s.clients c r.2.1 }, r.2.2)
  | RingAction.server =>
      (serverStep s.shm s.server).map fun r => ({ s with shm := r.1, server := r.2.1 }, r.2.2)

def accessStart (cl : Clients client) : AccessState client :=
  { shm := (ringStart cl).shm,
    clients := fun c => AccessPc.program ((ringStart cl).clients c),
    server := (ringStart cl).server }

def AccessInit (cl : Clients client) (s : AccessState client) : Prop := s = accessStart cl

end System

abbrev AccessTransition (client : Type) : Type :=
  Transition (AccessState client) (RingAction client) (RingEvent client)

/-!
# What the ring sees of the accesses
-/

namespace AccessPc

/-- A client has reserved its slot when it has stored the new value of `nput`. -/
def ring : AccessPc -> ClientPc
  | program pc => pc
  | loadPut i _ => ClientPc.reserve i
  | storePut i _ _ => ClientPc.reserve i
  | testPut i offset _ => ClientPc.unlock i offset
  | resetPut i offset => ClientPc.unlock i offset
  | storeOverflow i _ => ClientPc.countOverflow i

/-- The next access is none that the ring sees. -/
def hidden : AccessPc -> Bool
  | program (ClientPc.reserve _) => true
  | program (ClientPc.countOverflow _) => true
  | loadPut _ _ => true
  | testPut _ _ _ => true
  | resetPut _ _ => true
  | _ => false

def wrapping : AccessPc -> Bool
  | testPut _ _ _ => true
  | resetPut _ _ => true
  | _ => false

def Loaded (shm : Shmstruct) : AccessPc -> Prop
  | program _ => True
  | loadPut _ offset => offset = msgoff shm.nput
  | storePut _ offset nput => nput = shm.nput ∧ offset = msgoff shm.nput
  | testPut _ _ value => value = shm.nput ∧ shm.nput ≤ NMESG
  | resetPut _ _ => shm.nput = NMESG
  | storeOverflow _ noverflow => noverflow = shm.noverflow

end AccessPc

/-- Before it is set back to 0, `nput` is seen as 0. -/
def Shmstruct.ring (shm : Shmstruct) : Shmstruct :=
  { shm with nput := shm.nput % NMESG }

def AccessState.ring {client : Type} (s : AccessState client) : RingState client where
  shm := s.shm.ring
  clients := fun c => (s.clients c).ring
  server := s.server

def AccessTransition.label {client : Type} (e : AccessTransition client) :
    Option (RingAction client × RingEvent client) :=
  match e.action with
  | RingAction.client c fault =>
      if (e.source.clients c).hidden then none else some (RingAction.client c fault, e.event)
  | RingAction.server => some (RingAction.server, e.event)

/-!
# Steps
-/

section Steps

variable {client : Type} {pid : Pid} {nloop : Nat} {c : client} {shm shm' : Shmstruct}
  {fault : Bool} {e : RingEvent client}

theorem clientStep_counters {pc pc' : ClientPc} (hpc : (AccessPc.program pc).hidden = false)
    (h : clientStep pid nloop c shm fault pc = some (shm', pc', e)) :
    shm'.nput = shm.nput ∧ shm'.noverflow = shm.noverflow ∧
      clientStep pid nloop c shm.ring fault pc = some (shm'.ring, pc', e) := by
  cases pc with
  | tryWait i =>
      cases fault with
      | true =>
          cases h
          exact ⟨rfl, rfl, rfl⟩
      | false =>
          cases hwait : semWait shm.nempty with
          | some n =>
              simp only [clientStep, hwait] at h
              cases h
              simp [clientStep, Shmstruct.ring, hwait]
          | none =>
              simp only [clientStep, hwait] at h
              cases h
              simp [clientStep, Shmstruct.ring, hwait]
  | lockOverflow i =>
      rcases Option.map_eq_some_iff.mp h with ⟨n, hwait, heq⟩
      cases heq
      simp [clientStep, Shmstruct.ring, hwait]
  | countOverflow i => cases hpc
  | unlockOverflow i =>
      cases h
      exact ⟨rfl, rfl, rfl⟩
  | lock i =>
      rcases Option.map_eq_some_iff.mp h with ⟨n, hwait, heq⟩
      cases heq
      simp [clientStep, Shmstruct.ring, hwait]
  | reserve i => cases hpc
  | unlock i offset =>
      cases h
      exact ⟨rfl, rfl, rfl⟩
  | copy i offset k =>
      simp only [clientStep] at h
      split at h
      · rename_i hin
        cases h
        exact ⟨rfl, rfl, if_pos hin⟩
      · cases h
  | postStored i =>
      cases h
      exact ⟨rfl, rfl, rfl⟩
  | returned => cases h

theorem serverStep_counters {v v' : Server} (h : serverStep shm v = some (shm', v', e)) :
    shm'.nput = shm.nput ∧ shm'.noverflow = shm.noverflow ∧
      serverStep shm.ring v = some (shm'.ring, v', e) := by
  rcases v with ⟨pc, index, last⟩
  cases pc with
  | waitStored =>
      rcases Option.map_eq_some_iff.mp h with ⟨n, hwait, heq⟩
      cases heq
      simp [serverStep, Shmstruct.ring, hwait]
  | lock =>
      rcases Option.map_eq_some_iff.mp h with ⟨n, hwait, heq⟩
      cases heq
      simp [serverStep, Shmstruct.ring, hwait]
  | print offset k text =>
      simp only [serverStep] at h
      split at h
      · rename_i hin
        cases hchar : shm.msgdata (offset + k) with
        | some ch =>
            simp only [hchar] at h
            cases h
            simp [serverStep, Shmstruct.ring, hin, hchar]
        | none =>
            simp only [hchar] at h
            cases h
            simp [serverStep, Shmstruct.ring, hin, hchar]
      · cases h
  | lockOverflow =>
      rcases Option.map_eq_some_iff.mp h with ⟨n, hwait, heq⟩
      cases heq
      simp [serverStep, Shmstruct.ring, hwait]
  | fetch =>
      cases h
      exact ⟨rfl, rfl, rfl⟩
  | unlock =>
      cases h
      exact ⟨rfl, rfl, rfl⟩
  | postEmpty =>
      cases h
      exact ⟨rfl, rfl, rfl⟩
  | readOverflow =>
      cases h
      exact ⟨rfl, rfl, rfl⟩
  | unlockOverflow temp =>
      cases h
      exact ⟨rfl, rfl, rfl⟩

theorem accessClient_program {pc : ClientPc} (hpc : (AccessPc.program pc).hidden = false) :
    accessClient pid nloop c shm fault (AccessPc.program pc) =
      (clientStep pid nloop c shm fault pc).map fun r =>
        (r.1, AccessPc.program r.2.1, r.2.2) := by
  cases pc with
  | reserve i => cases hpc
  | countOverflow i => cases hpc
  | _ => rfl

section Spec

variable {pc pc' : AccessPc}

theorem accessClient_ring (hloaded : pc.Loaded shm)
    (hbound : pc.ring.inMutex = 1 -> pc.wrapping = false -> shm.nput < NMESG)
    (h : accessClient pid nloop c shm fault pc = some (shm', pc', e)) :
    (pc.hidden = true -> shm'.ring = shm.ring ∧ pc'.ring = pc.ring ∧ e = RingEvent.silent) ∧
      (pc.hidden = false ->
        clientStep pid nloop c shm.ring fault pc.ring = some (shm'.ring, pc'.ring, e)) := by
  have hno : forall {P : Prop}, true = false -> P := fun heq => Bool.noConfusion heq
  have hno' : forall {P : Prop}, false = true -> P := fun heq => Bool.noConfusion heq
  cases pc with
  | program pc =>
      cases hhidden : (AccessPc.program pc).hidden with
      | true =>
          refine ⟨fun _ => ?_, hno⟩
          cases pc with
          | reserve i =>
              cases h
              exact ⟨rfl, rfl, rfl⟩
          | countOverflow i =>
              cases h
              exact ⟨rfl, rfl, rfl⟩
          | _ => cases hhidden
      | false =>
          refine ⟨hno', fun _ => ?_⟩
          rw [accessClient_program hhidden] at h
          rcases Option.map_eq_some_iff.mp h with ⟨⟨shm₁, pc₁, e₁⟩, hstep, heq⟩
          cases heq
          exact (clientStep_counters hhidden hstep).2.2
  | loadPut i offset =>
      cases h
      exact ⟨fun _ => ⟨rfl, rfl, rfl⟩, hno⟩
  | storePut i offset nput =>
      rcases hloaded with ⟨rfl, rfl⟩
      cases h
      refine ⟨hno', fun _ => ?_⟩
      have hmod : shm.nput % NMESG = shm.nput := Nat.mod_eq_of_lt (hbound rfl rfl)
      show some ({ shm.ring with nput := advance (shm.nput % NMESG) },
        ClientPc.unlock i (msgoff (shm.nput % NMESG)), RingEvent.reserved c i) = _
      rw [advance_mod, hmod]
      rfl
  | testPut i offset value =>
      simp only [accessClient] at h
      split at h
      · cases h
        exact ⟨fun _ => ⟨rfl, rfl, rfl⟩, hno⟩
      · cases h
        exact ⟨fun _ => ⟨rfl, rfl, rfl⟩, hno⟩
  | resetPut i offset =>
      have hfull : shm.nput = NMESG := hloaded
      cases h
      refine ⟨fun _ => ⟨?_, rfl, rfl⟩, hno⟩
      simp [Shmstruct.ring, hfull]
  | storeOverflow i noverflow =>
      have hsame : noverflow = shm.noverflow := hloaded
      subst hsame
      cases h
      exact ⟨hno', fun _ => rfl⟩

theorem accessClient_counters (hloaded : pc.Loaded shm)
    (h : accessClient pid nloop c shm fault pc = some (shm', pc', e)) :
    (pc.ring.inMutex = 0 -> shm'.nput = shm.nput) ∧
      (pc.ring.inOverflow = 0 -> shm'.noverflow = shm.noverflow) := by
  cases pc with
  | program pc =>
      cases hhidden : (AccessPc.program pc).hidden with
      | true =>
          cases pc with
          | reserve i =>
              cases h
              exact ⟨fun _ => rfl, fun _ => rfl⟩
          | countOverflow i =>
              cases h
              exact ⟨fun _ => rfl, fun _ => rfl⟩
          | _ => cases hhidden
      | false =>
          rw [accessClient_program hhidden] at h
          rcases Option.map_eq_some_iff.mp h with ⟨⟨shm₁, pc₁, e₁⟩, hstep, heq⟩
          cases heq
          rcases clientStep_counters hhidden hstep with ⟨hput, hoverflow, _⟩
          exact ⟨fun _ => hput, fun _ => hoverflow⟩
  | loadPut i offset =>
      cases h
      exact ⟨nofun, fun _ => rfl⟩
  | storePut i offset nput =>
      cases h
      exact ⟨nofun, fun _ => rfl⟩
  | testPut i offset value =>
      simp only [accessClient] at h
      split at h <;> cases h <;> exact ⟨nofun, fun _ => rfl⟩
  | resetPut i offset =>
      cases h
      exact ⟨nofun, fun _ => rfl⟩
  | storeOverflow i noverflow =>
      cases h
      exact ⟨fun _ => rfl, nofun⟩

theorem accessClient_loaded (hloaded : pc.Loaded shm)
    (hbound : pc.ring.inMutex = 1 -> pc.wrapping = false -> shm.nput < NMESG)
    (h : accessClient pid nloop c shm fault pc = some (shm', pc', e)) :
    pc'.Loaded shm' ∧ ((pc.wrapping = false -> shm.nput < NMESG) ->
      pc'.wrapping = false -> shm'.nput < NMESG) := by
  cases pc with
  | program pc =>
      cases hhidden : (AccessPc.program pc).hidden with
      | true =>
          cases pc with
          | reserve i =>
              cases h
              exact ⟨rfl, fun hold _ => hold rfl⟩
          | countOverflow i =>
              cases h
              exact ⟨rfl, fun hold _ => hold rfl⟩
          | _ => cases hhidden
      | false =>
          rw [accessClient_program hhidden] at h
          rcases Option.map_eq_some_iff.mp h with ⟨⟨shm₁, pc₁, e₁⟩, hstep, heq⟩
          cases heq
          refine ⟨trivial, fun hold _ => ?_⟩
          rw [(clientStep_counters hhidden hstep).1]
          exact hold rfl
  | loadPut i offset =>
      cases h
      exact ⟨⟨rfl, hloaded⟩, fun hold _ => hold rfl⟩
  | storePut i offset nput =>
      rcases hloaded with ⟨rfl, rfl⟩
      have hlt := hbound rfl rfl
      cases h
      exact ⟨⟨rfl, hlt⟩, nofun⟩
  | testPut i offset value =>
      rcases hloaded with ⟨rfl, hle⟩
      simp only [accessClient] at h
      split at h
      · rename_i hfull
        cases h
        exact ⟨Nat.le_antisymm hle hfull, nofun⟩
      · rename_i hroom
        cases h
        exact ⟨trivial, fun _ _ => Nat.lt_of_not_ge hroom⟩
  | resetPut i offset =>
      cases h
      exact ⟨trivial, fun _ _ => (show 0 < NMESG by decide)⟩
  | storeOverflow i noverflow =>
      cases h
      exact ⟨trivial, fun hold _ => hold rfl⟩

theorem loaded_congr (hloaded : pc.Loaded shm)
    (hput : pc.ring.inMutex = 0 ∨ shm'.nput = shm.nput)
    (hoverflow : pc.ring.inOverflow = 0 ∨ shm'.noverflow = shm.noverflow) : pc.Loaded shm' := by
  cases pc with
  | program pc => trivial
  | storeOverflow i noverflow =>
      rcases hoverflow with hout | hsame
      · cases hout
      · exact Eq.trans hloaded hsame.symm
  | _ =>
      rcases hput with hout | hsame
      · cases hout
      · unfold AccessPc.Loaded at hloaded ⊢
        rw [hsame]
        exact hloaded

theorem inMutex_of_wrapping (h : pc.wrapping = true) : pc.ring.inMutex = 1 := by
  cases pc with
  | testPut i offset value => rfl
  | resetPut i offset => rfl
  | _ => cases h

end Spec

end Steps

/-!
# The simulation
-/

section Ring

variable {client : Type} [Fintype client]

structure Exact (s : AccessState client) : Prop where
  mutexes : Mutexes s.ring
  loaded : forall c, (s.clients c).Loaded s.shm
  bounded : (forall c, (s.clients c).wrapping = false) -> s.shm.nput < NMESG

variable {cl : Clients client} {s t : AccessState client} {c d : client}

theorem Exact.alone (h : Exact s) (hne : d ≠ c) :
    ((s.clients d).ring.inMutex = 0 ∨ (s.clients c).ring.inMutex = 0) ∧
      ((s.clients d).ring.inOverflow = 0 ∨ (s.clients c).ring.inOverflow = 0) := by
  have hmutex := h.mutexes.mutex
  have hoverflow := h.mutexes.noverflowmutex
  have hpair := add_le_total ClientPc.inMutex s.ring.clients hne
  have hpair' := add_le_total ClientPc.inOverflow s.ring.clients hne
  have hc : s.ring.clients c = (s.clients c).ring := rfl
  have hd : s.ring.clients d = (s.clients d).ring := rfl
  rw [hc, hd] at hpair hpair'
  constructor <;> lia

/-- A client in the mutex finds `nput` in bounds, unless it has itself taken it beyond. -/
theorem Exact.lt_of_inMutex (h : Exact s) (hin : (s.clients c).ring.inMutex = 1)
    (hwrapping : (s.clients c).wrapping = false) : s.shm.nput < NMESG := by
  apply h.bounded
  intro d
  by_cases hdc : d = c
  · rw [hdc]
    exact hwrapping
  · cases hd : (s.clients d).wrapping with
    | false => rfl
    | true =>
        have hone := inMutex_of_wrapping hd
        rcases (h.alone hdc).1 with hzero | hzero
        · rw [hone] at hzero
          cases hzero
        · rw [hin] at hzero
          cases hzero

theorem exact_init (hinit : AccessInit cl s) : Exact s ∧ RingInit cl s.ring := by
  cases hinit
  have hring : (accessStart cl).ring = ringStart cl := rfl
  refine ⟨⟨?_, fun c => trivial, fun _ => (show 0 < NMESG by decide)⟩, hring⟩
  rw [hring]
  exact init_mutexes rfl

variable [DecidableEq client] {a : RingAction client} {e : RingEvent client}

omit [Fintype client] in
theorem ring_update (shm : Shmstruct) (pc : AccessPc) :
    AccessState.ring { s with shm := shm, clients := Function.update s.clients c pc } =
      { s.ring with shm := shm.ring,
                    clients := Function.update s.ring.clients c pc.ring } := by
  have hcomp := Function.comp_update AccessPc.ring s.clients c pc
  simp only [AccessState.ring, RingState.mk.injEq, true_and, and_true]
  exact hcomp

theorem Exact.ring_step (h : Exact s) (hstep : accessStep cl s a = some (t, e)) :
    (AccessTransition.label ⟨s, a, e, t⟩ = none -> t.ring = s.ring) ∧
      forall a' e', AccessTransition.label ⟨s, a, e, t⟩ = some (a', e') ->
        ringStep cl s.ring a' = some (t.ring, e') := by
  cases a with
  | client c fault =>
      rcases Option.map_eq_some_iff.mp hstep with ⟨⟨shm', pc', e'⟩, hc, heq⟩
      cases heq
      rcases accessClient_ring (h.loaded c) h.lt_of_inMutex hc with ⟨hsilent, hmove⟩
      rw [ring_update]
      cases hhidden : (s.clients c).hidden with
      | true =>
          rcases hsilent hhidden with ⟨hshm, hpc, _⟩
          constructor
          · intro _
            have hsame : (s.clients c).ring = s.ring.clients c := rfl
            rw [hshm, hpc, hsame, Function.update_eq_self]
            rfl
          · intro a' e' hlabel
            simp [AccessTransition.label, hhidden] at hlabel
      | false =>
          constructor
          · intro hlabel
            simp [AccessTransition.label, hhidden] at hlabel
          · intro a' e' hlabel
            simp only [AccessTransition.label, hhidden] at hlabel
            cases hlabel
            exact Option.map_eq_some_iff.mpr ⟨_, hmove hhidden, rfl⟩
  | server =>
      rcases Option.map_eq_some_iff.mp hstep with ⟨⟨shm', v', e'⟩, hs, heq⟩
      cases heq
      constructor
      · intro hlabel
        cases hlabel
      · intro a' e' hlabel
        cases hlabel
        exact Option.map_eq_some_iff.mpr ⟨_, (serverStep_counters hs).2.2, rfl⟩

theorem Exact.step (h : Exact s) (hstep : accessStep cl s a = some (t, e)) : Exact t := by
  have hmutexes : Mutexes t.ring := by
    rcases h.ring_step hstep with ⟨hsame, hmove⟩
    cases hlabel : AccessTransition.label ⟨s, a, e, t⟩ with
    | none =>
        rw [hsame hlabel]
        exact h.mutexes
    | some l => exact h.mutexes.step (hmove l.1 l.2 hlabel)
  cases a with
  | client c fault =>
      rcases Option.map_eq_some_iff.mp hstep with ⟨⟨shm', pc', e'⟩, hc, heq⟩
      cases heq
      rcases accessClient_loaded (h.loaded c) h.lt_of_inMutex hc with ⟨hloaded, hbound⟩
      rcases accessClient_counters (h.loaded c) hc with ⟨hput, hoverflow⟩
      refine ⟨hmutexes, ?_, ?_⟩
      · apply (Function.forall_update_iff s.clients fun _ pc => pc.Loaded shm').mpr
        constructor
        · exact hloaded
        · intro d hne
          rcases h.alone hne with ⟨hmutex, hcount⟩
          exact loaded_congr (h.loaded d) (hmutex.imp_right hput) (hcount.imp_right hoverflow)
      · intro hnone
        rcases (Function.forall_update_iff s.clients fun _ pc => pc.wrapping = false).mp hnone with
          ⟨hself, hothers⟩
        refine hbound (fun hwrapping => h.bounded fun d => ?_) hself
        by_cases hdc : d = c
        · rw [hdc]
          exact hwrapping
        · exact hothers d hdc
  | server =>
      rcases Option.map_eq_some_iff.mp hstep with ⟨⟨shm', v', e'⟩, hs, heq⟩
      cases heq
      rcases serverStep_counters hs with ⟨hput, hoverflow, _⟩
      refine ⟨hmutexes, ?_, ?_⟩
      · intro d
        exact loaded_congr (h.loaded d) (Or.inr hput) (Or.inr hoverflow)
      · intro hnone
        simp only [hput]
        exact h.bounded hnone

/-- With each access a step of its own, the ring takes the steps it takes when the updates of
its counters are steps. -/
theorem ring_simulates (cl : Clients client) :
    Simulation (AccessInit cl) (accessStep cl) (RingInit cl) (ringStep cl) AccessState.ring
      AccessTransition.label Exact where
  init := fun _ hinit => exact_init hinit
  keeps := fun _ _ _ _ h hstep => h.step hstep
  stutters := fun _ _ _ _ h hstep => (h.ring_step hstep).1
  moves := fun _ _ _ _ a' e' h hstep => (h.ring_step hstep).2 a' e'

end Ring

end SharedRing
end InterprocessComm
