import InterprocessComm.SharedRing.Invariant

/-!
# Every message once

As long as the server takes a token only for a message that is posted, it reads each
message once, complete and in the order of the reservations, and the ring never gets
stuck before everything is read.
-/

namespace InterprocessComm
namespace SharedRing

open Verification

/-!
# The mutexes
-/

theorem clientLoop_outside (nloop i : Nat) :
    (clientLoop nloop i).inMutex = 0 ∧ (clientLoop nloop i).inOverflow = 0 := by
  unfold clientLoop
  split <;> exact ⟨rfl, rfl⟩

theorem clientStep_mutexes {client : Type} {pid : Pid} {nloop : Nat} {c : client}
    {shm shm' : Shmstruct} {fault : Bool} {pc pc' : ClientPc} {e : RingEvent client}
    (h : clientStep pid nloop c shm fault pc = some (shm', pc', e)) :
    shm'.mutex + pc'.inMutex = shm.mutex + pc.inMutex ∧
      shm'.noverflowmutex + pc'.inOverflow = shm.noverflowmutex + pc.inOverflow := by
  cases pc with
  | tryWait i =>
      cases fault with
      | true =>
          cases h
          exact ⟨rfl, rfl⟩
      | false =>
          cases hwait : semWait shm.nempty with
          | some n =>
              simp only [clientStep, hwait] at h
              cases h
              exact ⟨rfl, rfl⟩
          | none =>
              simp only [clientStep, hwait] at h
              cases h
              exact ⟨rfl, rfl⟩
  | lockOverflow i =>
      rcases Option.map_eq_some_iff.mp h with ⟨n, hwait, heq⟩
      cases heq
      exact ⟨rfl, (semWait_eq hwait).symm⟩
  | countOverflow i =>
      cases h
      exact ⟨rfl, rfl⟩
  | unlockOverflow i =>
      cases h
      rcases clientLoop_outside nloop (i + 1) with ⟨hmutex, hoverflow⟩
      rw [hmutex, hoverflow]
      exact ⟨rfl, rfl⟩
  | lock i =>
      rcases Option.map_eq_some_iff.mp h with ⟨n, hwait, heq⟩
      cases heq
      exact ⟨(semWait_eq hwait).symm, rfl⟩
  | reserve i =>
      cases h
      exact ⟨rfl, rfl⟩
  | unlock i offset =>
      cases h
      exact ⟨rfl, rfl⟩
  | copy i offset k =>
      simp only [clientStep] at h
      split at h
      · cases h
        split <;> exact ⟨rfl, rfl⟩
      · cases h
  | postStored i =>
      cases h
      rcases clientLoop_outside nloop (i + 1) with ⟨hmutex, hoverflow⟩
      rw [hmutex, hoverflow]
      exact ⟨rfl, rfl⟩
  | returned => cases h

theorem serverStep_mutexes {client : Type} {shm shm' : Shmstruct} {v v' : Server}
    {e : RingEvent client} (h : serverStep shm v = some (shm', v', e)) :
    shm'.mutex + v'.pc.inMutex = shm.mutex + v.pc.inMutex ∧
      shm'.noverflowmutex + v'.pc.inOverflow = shm.noverflowmutex + v.pc.inOverflow := by
  rcases v with ⟨pc, index, last⟩
  cases pc with
  | waitStored =>
      rcases Option.map_eq_some_iff.mp h with ⟨n, _, heq⟩
      cases heq
      exact ⟨rfl, rfl⟩
  | lock =>
      rcases Option.map_eq_some_iff.mp h with ⟨n, hwait, heq⟩
      cases heq
      exact ⟨(semWait_eq hwait).symm, rfl⟩
  | fetch =>
      cases h
      exact ⟨rfl, rfl⟩
  | print offset k text =>
      simp only [serverStep] at h
      split at h
      · cases hchar : shm.msgdata (offset + k) with
        | some ch =>
            simp only [hchar] at h
            cases h
            exact ⟨rfl, rfl⟩
        | none =>
            simp only [hchar] at h
            cases h
            exact ⟨rfl, rfl⟩
      · cases h
  | unlock =>
      cases h
      exact ⟨rfl, rfl⟩
  | postEmpty =>
      cases h
      exact ⟨rfl, rfl⟩
  | lockOverflow =>
      rcases Option.map_eq_some_iff.mp h with ⟨n, hwait, heq⟩
      cases heq
      exact ⟨rfl, (semWait_eq hwait).symm⟩
  | readOverflow =>
      cases h
      exact ⟨rfl, rfl⟩
  | unlockOverflow temp =>
      cases h
      exact ⟨rfl, rfl⟩

section Ring

variable {client : Type} [Fintype client]

/-- One of the clients and the server is inside, or the mutex is free. -/
structure Mutexes (s : RingState client) : Prop where
  mutex : s.shm.mutex + total ClientPc.inMutex s.clients + s.server.pc.inMutex = 1
  noverflowmutex :
    s.shm.noverflowmutex + total ClientPc.inOverflow s.clients + s.server.pc.inOverflow = 1

structure RingInv (cl : Clients client) (h : History client) (s : RingState client) :
    Prop where
  tokens : Tokens h s
  messages : Messages h s.clients
  memory : Memory cl h s
  mutexes : Mutexes s

variable {cl : Clients client} {h : History client} {s : RingState client}

theorem init_mutexes (hinit : RingInit cl s) : Mutexes s := by
  cases hinit
  have hmutex : total ClientPc.inMutex (ringStart cl).clients = 0 :=
    total_eq_zero_iff.mpr fun c => (clientLoop_outside (cl.nloop c) 0).1
  have hoverflow : total ClientPc.inOverflow (ringStart cl).clients = 0 :=
    total_eq_zero_iff.mpr fun c => (clientLoop_outside (cl.nloop c) 0).2
  constructor
  · rw [hmutex]
    rfl
  · rw [hoverflow]
    rfl

theorem init_inv (hinit : RingInit cl s) : RingInv cl History.empty s := by
  have hmutexes := init_mutexes hinit
  cases hinit
  constructor
  · exact ⟨rfl, rfl, rfl, rfl, rfl, rfl⟩
  · exact Messages.init cl
  · refine ⟨rfl, ?_, ?_, ?_, trivial⟩
    · intro r hr
      exact absurd hr (Nat.not_lt_zero r)
    · intro r m _ hres
      cases hres
    · intro c
      exact clientLoop_stores _ _ _ _ _ _
  · exact hmutexes

variable [DecidableEq client]

theorem Mutexes.step {a : RingAction client} {t : RingState client} {e : RingEvent client}
    (h : Mutexes s) (hstep : ringStep cl s a = some (t, e)) : Mutexes t := by
  have hone := h.mutex
  have hone' := h.noverflowmutex
  cases a with
  | client c fault =>
      rcases Option.map_eq_some_iff.mp hstep with ⟨⟨shm', pc', e'⟩, hc, heq⟩
      cases heq
      rcases clientStep_mutexes hc with ⟨hmutex, hoverflow⟩
      have hin := total_update ClientPc.inMutex s.clients c pc'
      have hover := total_update ClientPc.inOverflow s.clients c pc'
      constructor
      · simp only
        lia
      · simp only
        lia
  | server =>
      rcases Option.map_eq_some_iff.mp hstep with ⟨⟨shm', v', e'⟩, hs, heq⟩
      cases heq
      rcases serverStep_mutexes hs with ⟨hmutex, hoverflow⟩
      constructor
      · simp only
        lia
      · simp only
        lia

theorem step_inv {a : RingAction client} {t : RingState client} {e : RingEvent client}
    (hinv : RingInv cl h s) (hguard : TakesPosted h e) (hstep : ringStep cl s a = some (t, e)) :
    RingInv cl (h.observe e) t ∧ SlotLaw cl h e := by
  rcases hinv with ⟨ht, hm, hmem, hmutexes⟩
  have hkept := hmutexes.step hstep
  cases a with
  | client c fault =>
      rcases Option.map_eq_some_iff.mp hstep with ⟨⟨shm', pc', e'⟩, hc, heq⟩
      cases heq
      have hmove := clientStep_moves hc
      rcases hmem.client_step ht hm hmove with ⟨hmem', hlaw⟩
      exact ⟨⟨ht.client_step hmove, hm.client_step hmove, hmem', hkept⟩, hlaw⟩
  | server =>
      rcases Option.map_eq_some_iff.mp hstep with ⟨⟨shm', v', e'⟩, hs, heq⟩
      cases heq
      rcases server_step ht hm hmem hguard hs with ⟨ht', hm', hmem', hlaw⟩
      exact ⟨⟨ht', hm', hmem', hkept⟩, hlaw⟩

/-!
# Nobody is left
-/

omit [Fintype client] [DecidableEq client] in
theorem clientStep_none (hmem : Memory cl h s) {c : client}
    (hstuck : clientStep (cl.pid c) (cl.nloop c) c s.shm false (s.clients c) = none) :
    (s.clients c).inMutex = 0 ∧ (s.clients c).inOverflow = 0 ∧
      (0 < s.shm.mutex -> 0 < s.shm.noverflowmutex -> s.clients c = ClientPc.returned) := by
  have hs := hmem.storing c
  generalize s.clients c = pc at hstuck hs
  cases pc with
  | tryWait i => cases hwait : semWait s.shm.nempty <;> simp [clientStep, hwait] at hstuck
  | lockOverflow i =>
      have hzero := semWait_eq_none.mp (Option.map_eq_none_iff.mp hstuck)
      exact ⟨rfl, rfl, fun _ hpos => absurd hzero (Nat.ne_of_gt hpos)⟩
  | countOverflow i => cases hstuck
  | unlockOverflow i => cases hstuck
  | lock i =>
      have hzero := semWait_eq_none.mp (Option.map_eq_none_iff.mp hstuck)
      exact ⟨rfl, rfl, fun hpos _ => absurd hzero (Nat.ne_of_gt hpos)⟩
  | reserve i => cases hstuck
  | unlock i offset => cases hstuck
  | copy i offset k =>
      rcases hs with ⟨r, _, hoffset, hk, _⟩
      have hlength := mesgText_length (cl.pid c) i
      have hslot := slot_lt r
      have hin : offset + k < sizeofMsgdata := by lia
      simp [clientStep, hin] at hstuck
  | postStored i => cases hstuck
  | returned => exact ⟨rfl, rfl, fun _ _ => rfl⟩

omit [Fintype client] [DecidableEq client] in
theorem serverStep_none (hmem : Memory cl h s)
    (hstuck : (serverStep s.shm s.server : Option (_ × _ × RingEvent client)) = none) :
    s.server.pc.inMutex = 0 ∧ s.server.pc.inOverflow = 0 ∧
      (0 < s.shm.mutex -> 0 < s.shm.noverflowmutex ->
        s.server.pc = ServerPc.waitStored ∧ s.shm.nstored = 0) := by
  have hprints := hmem.printing
  generalize s.server = v at hstuck hprints
  rcases v with ⟨pc, index, last⟩
  cases pc with
  | waitStored =>
      have hzero := semWait_eq_none.mp (Option.map_eq_none_iff.mp hstuck)
      exact ⟨rfl, rfl, fun _ _ => ⟨rfl, hzero⟩⟩
  | lock =>
      have hzero := semWait_eq_none.mp (Option.map_eq_none_iff.mp hstuck)
      exact ⟨rfl, rfl, fun hpos _ => absurd hzero (Nat.ne_of_gt hpos)⟩
  | fetch => cases hstuck
  | print offset k text =>
      rcases hprints with ⟨m, _, hoffset, hk, _⟩
      have hlength : (cl.text m).length < MESGSIZE := mesgText_length _ _
      have hslot := slot_lt h.texts.length
      have hin : offset + k < sizeofMsgdata := by lia
      cases hchar : s.shm.msgdata (offset + k) <;> simp [serverStep, hin, hchar] at hstuck
  | unlock => cases hstuck
  | postEmpty => cases hstuck
  | lockOverflow =>
      have hzero := semWait_eq_none.mp (Option.map_eq_none_iff.mp hstuck)
      exact ⟨rfl, rfl, fun _ hpos => absurd hzero (Nat.ne_of_gt hpos)⟩
  | readOverflow => cases hstuck
  | unlockOverflow temp => cases hstuck

theorem stuck_finished (hinv : RingInv cl h s) (hstuck : Stuck cl s) :
    (forall c, s.clients c = ClientPc.returned) ∧ s.server.pc = ServerPc.waitStored ∧
      s.shm.nstored = 0 := by
  rcases hinv with ⟨_, _, hmem, hmutexes⟩
  have hclient := fun c =>
    clientStep_none hmem (Option.map_eq_none_iff.mp (hstuck (RingAction.client c false)))
  have hserver := serverStep_none hmem (Option.map_eq_none_iff.mp (hstuck RingAction.server))
  have hmutex : 0 < s.shm.mutex := by
    have hone := hmutexes.mutex
    have hnobody : total ClientPc.inMutex s.clients = 0 :=
      total_eq_zero_iff.mpr fun c => (hclient c).1
    rw [hnobody, hserver.1] at hone
    lia
  have hoverflow : 0 < s.shm.noverflowmutex := by
    have hone := hmutexes.noverflowmutex
    have hnobody : total ClientPc.inOverflow s.clients = 0 :=
      total_eq_zero_iff.mpr fun c => (hclient c).2.1
    rw [hnobody, hserver.2.1] at hone
    lia
  exact ⟨fun c => (hclient c).2.2 hmutex hoverflow, hserver.2.2 hmutex hoverflow⟩

theorem stuck_readOnce (hinv : RingInv cl h s) (hstuck : Stuck cl s) : ReadOnce cl h := by
  rcases stuck_finished hinv hstuck with ⟨hclients, hserver, hnstored⟩
  rcases hinv with ⟨ht, hm, hmem, _⟩
  have haccepted : forall m, m ∈ h.reserved <-> m ∈ h.accepted := by
    intro m
    rw [hm.accepted_iff, hclients]
    simp [ClientPc.accepting]
  have hposted : h.reserved ⊆ h.posted := by
    intro m hmem
    have hcases := (hm.reserved_iff m).mp hmem
    rw [hclients] at hcases
    simpa [ClientPc.storing] using hcases
  have hall : h.reserved.length ≤ h.texts.length := by
    have hle := (List.subperm_of_subset hm.reserved_nodup hposted).length_le
    have htokens := ht.nstored
    have htaken := ht.taken
    rw [hserver] at htaken
    simp only [ServerPc.taking] at htaken
    lia
  constructor
  · exact hm.accepted_nodup
  · exact (List.perm_ext_iff_of_nodup hm.reserved_nodup hm.accepted_nodup).mpr haccepted
  · have htexts := hmem.texts
    rwa [List.take_of_length_le hall] at htexts

end Ring

/-!
# Runs
-/

/-- In a run in which the server takes tokens of posted messages only, each text that is
read is the next message, complete, each character is written into the slot of its own
message and of no other, and when nothing can move every message has been read once. -/
theorem messages_read_once {client : Type} [Fintype client] [DecidableEq client]
    (cl : Clients client) {tr : List (RingTransition client)} {s : RingState client}
    (hrun : Run (RingInit cl) (ringStep cl) tr s)
    (hposted : AtEach History.observe History.empty TakesPosted tr) :
    AtEach History.observe History.empty (SlotLaw cl) tr ∧
      (Stuck cl s -> ReadOnce cl (historyOf tr)) := by
  rcases run_observed (I := RingInv cl) (fun s hs => init_inv hs)
    (fun h s a e t hs hguard hstep => step_inv hs hguard hstep) hrun hposted with ⟨hinv, hlaw⟩
  exact ⟨hlaw, fun hstuck => stuck_readOnce hinv hstuck⟩

def twoClients (nloop : Fin 2 -> Nat) : Clients (Fin 2) :=
  { pid := fun c => if c = 0 then ⟨7, by decide⟩ else ⟨8, by decide⟩, nloop := nloop }

def clientSteps (c : Fin 2) (count : Nat) : List (RingAction (Fin 2)) :=
  List.replicate count (RingAction.client c false)

def serverSteps (count : Nat) : List (RingAction (Fin 2)) :=
  List.replicate count RingAction.server

/-- Two clients send one message each, which the server reads. -/
theorem messages_read_once_twoClients :
    exists (tr : List (RingTransition (Fin 2))) (s : RingState (Fin 2)),
      Run (RingInit (twoClients fun _ => 1)) (ringStep (twoClients fun _ => 1)) tr s ∧
        AtEach History.observe History.empty (SlotLaw (twoClients fun _ => 1)) tr ∧
        Stuck (twoClients fun _ => 1) s ∧ (historyOf tr).accepted.length = 2 ∧
        ReadOnce (twoClients fun _ => 1) (historyOf tr) := by
  have hreplay : exists (tr : List (RingTransition (Fin 2))) (s : RingState (Fin 2)),
      Run (RingInit (twoClients fun _ => 1)) (ringStep (twoClients fun _ => 1)) tr s ∧
        decide (AtEach History.observe History.empty TakesPosted tr ∧
          (historyOf tr).accepted.length = 2 ∧
          (forall c fault, (ringStep (twoClients fun _ => 1) s
            (RingAction.client c fault)).isNone) ∧
          (ringStep (twoClients fun _ => 1) s RingAction.server).isNone) = true :=
    run_of_replay (clientSteps 0 24 ++ clientSteps 1 24 ++ serverSteps 54)
      (show RingInit _ (ringStart _) from rfl) (by decide +kernel)
  rcases hreplay with ⟨tr, s, hrun, htest⟩
  rcases of_decide_eq_true htest with ⟨hposted, haccepted, hclients, hserver⟩
  rcases messages_read_once (twoClients fun _ => 1) hrun hposted with ⟨hlaw, hread⟩
  have hstuck : Stuck (twoClients fun _ => 1) s := by
    intro a
    cases a with
    | client c fault => exact Option.isNone_iff_eq_none.mp (hclients c fault)
    | server => exact Option.isNone_iff_eq_none.mp hserver
  exact ⟨tr, s, hrun, hlaw, hstuck, haccepted, hread hstuck⟩

/-- Client 0 has the first slot and has written nothing yet; client 1 has the second one,
fills it and posts. The server takes the token and reads the first slot. -/
theorem unfinished_message_read_twoClients :
    exists (tr : List (RingTransition (Fin 2))) (s : RingState (Fin 2)),
      Run (RingInit (twoClients fun _ => 1)) (ringStep (twoClients fun _ => 1)) tr s ∧
        ¬ AtEach History.observe History.empty (SlotLaw (twoClients fun _ => 1)) tr := by
  have hreplay : exists (tr : List (RingTransition (Fin 2))) (s : RingState (Fin 2)),
      Run (RingInit (twoClients fun _ => 1)) (ringStep (twoClients fun _ => 1)) tr s ∧
        decide (¬ AtEach History.observe History.empty
          (fun _ e => e ≠ RingEvent.read []) tr) = true :=
    run_of_replay (clientSteps 0 4 ++ clientSteps 1 24 ++ serverSteps 4)
      (show RingInit _ (ringStart _) from rfl) (by decide +kernel)
  rcases hreplay with ⟨tr, s, hrun, htest⟩
  refine ⟨tr, s, hrun, ?_⟩
  intro hlaw
  refine of_decide_eq_true htest (hlaw.mono ?_)
  rintro h e hslot rfl
  rcases hslot with ⟨m, _, _, htext⟩
  cases htext

end SharedRing
end InterprocessComm
