import InterprocessComm.Lib.Threads
import InterprocessComm.SharedRing.History

/-!
# The rounds of the clients

A client puts its messages one after the other.  Its place in the program tells which of
them it is putting, and whether that one has a token or a slot.
-/

namespace InterprocessComm
namespace SharedRing

open Verification

/-!
# Slots
-/

/-- The first `n` characters of the text, and the null character after them, are in
memory at `offset`. -/
def Filled (data : Nat -> Option Char) (offset : Nat) (text : List Char) (n : Nat) : Prop :=
  forall k, k < n -> data (offset + k) = text[k]?

theorem filled_zero (data : Nat -> Option Char) (offset : Nat) (text : List Char) :
    Filled data offset text 0 := by
  intro k hk
  exact absurd hk (Nat.not_lt_zero k)

theorem Filled.put {data : Nat -> Option Char} {offset n : Nat} {text : List Char}
    (h : Filled data offset text n) :
    Filled (Function.update data (offset + n) text[n]?) offset text (n + 1) := by
  intro k hk
  rcases Nat.lt_succ_iff_lt_or_eq.mp hk with hlt | heq
  · rw [Function.update_of_ne (by lia)]
    exact h k hlt
  · rw [heq, Function.update_self]

theorem Filled.outside {data : Nat -> Option Char} {offset n address : Nat} {text : List Char}
    {ch : Option Char} (h : Filled data offset text n) (hn : n ≤ MESGSIZE)
    (hout : address < offset ∨ offset + MESGSIZE ≤ address) :
    Filled (Function.update data address ch) offset text n := by
  intro k hk
  rw [Function.update_of_ne (by lia)]
  exact h k hk

theorem slot_disjoint {r r' base : Nat} (hr : base ≤ r) (hr' : base ≤ r')
    (hlt : r < base + NMESG) (hlt' : r' < base + NMESG) (hne : r ≠ r') {address : Nat}
    (hin : slot r ≤ address ∧ address < slot r + MESGSIZE) :
    address < slot r' ∨ slot r' + MESGSIZE ≤ address := by
  have hmod : r % NMESG ≠ r' % NMESG := by
    unfold NMESG at *
    lia
  unfold slot msgoff MESGSIZE at *
  lia

theorem slot_lt (r : Nat) : slot r + MESGSIZE ≤ sizeofMsgdata := by
  have hlt : r % NMESG < NMESG := Nat.mod_lt r (by decide)
  unfold slot msgoff sizeofMsgdata
  have hmul := Nat.mul_le_mul_right MESGSIZE hlt
  rw [Nat.succ_mul] at hmul
  exact hmul

theorem advance_mod (n : Nat) : advance (n % NMESG) = (n + 1) % NMESG := by
  unfold advance NMESG
  split <;> lia

/-!
# What a place tells of the messages
-/

namespace ClientPc

def accepting : ClientPc -> Option Nat
  | lock i => some i
  | reserve i => some i
  | _ => none

/-- The message that has a slot and is not posted yet. -/
def storing : ClientPc -> Option Nat
  | unlock i _ => some i
  | copy i _ _ => some i
  | postStored i => some i
  | _ => none

def Round : ClientPc -> Nat -> Prop
  | tryWait i, j => j < i
  | lockOverflow i, j => j < i
  | countOverflow i, j => j < i
  | unlockOverflow i, j => j < i
  | lock i, j => j ≤ i
  | reserve i, j => j ≤ i
  | unlock i _, j => j ≤ i
  | copy i _ _, j => j ≤ i
  | postStored i, j => j ≤ i
  | returned, _ => True

def inMutex : ClientPc -> Nat
  | reserve _ => 1
  | unlock _ _ => 1
  | _ => 0

def inOverflow : ClientPc -> Nat
  | countOverflow _ => 1
  | unlockOverflow _ => 1
  | _ => 0

end ClientPc

section Moves

variable {client : Type}

/-- What the place of client `c` says about the memory: the reserved slot, and how much
of the text is in it. -/
def ClientPc.Stores (text : Nat -> List Char) (h : History client)
    (data : Nat -> Option Char) (c : client) : ClientPc -> Prop
  | unlock i offset => exists r, h.reserved[r]? = some (c, i) ∧ offset = slot r
  | copy i offset k =>
      exists r, h.reserved[r]? = some (c, i) ∧ offset = slot r ∧ k ≤ (text i).length ∧
        Filled data (slot r) (text i) k
  | postStored i =>
      exists r, h.reserved[r]? = some (c, i) ∧
        Filled data (slot r) (text i) ((text i).length + 1)
  | _ => True

/-- The kinds of steps of a client: those that concern no message, and the four that
accept, reserve, write and post one. -/
inductive ClientMove (text : Nat -> List Char) (c : client) :
    Shmstruct -> ClientPc -> RingEvent client -> Shmstruct -> ClientPc -> Prop where
  | rests {shm shm' : Shmstruct} {pc pc' : ClientPc} {e : RingEvent client}
      (hnempty : shm'.nempty = shm.nempty) (hnstored : shm'.nstored = shm.nstored)
      (hnput : shm'.nput = shm.nput) (hdata : shm'.msgdata = shm.msgdata)
      (hevent : e = RingEvent.silent ∨ exists i, e = RingEvent.refused c i)
      (haccepting : pc'.accepting = pc.accepting) (hstoring : pc'.storing = pc.storing)
      (hround : forall j, pc.Round j -> pc'.Round j)
      (hstores : forall (h : History client) data,
        pc.Stores text h data c -> pc'.Stores text h data c) :
      ClientMove text c shm pc e shm' pc'
  | accepts {shm : Shmstruct} {n : Nat} (i : Nat) (h : semWait shm.nempty = some n) :
      ClientMove text c shm (ClientPc.tryWait i) (RingEvent.accepted c i)
        { shm with nempty := n } (ClientPc.lock i)
  | reserves {shm : Shmstruct} (i : Nat) :
      ClientMove text c shm (ClientPc.reserve i) (RingEvent.reserved c i)
        { shm with nput := advance shm.nput } (ClientPc.unlock i (msgoff shm.nput))
  | writes {shm : Shmstruct} (i offset k : Nat) :
      ClientMove text c shm (ClientPc.copy i offset k) (RingEvent.wrote c i (offset + k))
        { shm with msgdata := Function.update shm.msgdata (offset + k) (text i)[k]? }
        (if k < (text i).length then ClientPc.copy i offset (k + 1) else ClientPc.postStored i)
  | posts {shm : Shmstruct} (i nloop : Nat) :
      ClientMove text c shm (ClientPc.postStored i) (RingEvent.posted c i)
        { shm with nstored := semPost shm.nstored } (clientLoop nloop (i + 1))

theorem clientLoop_round (nloop : Nat) {i j : Nat} (h : j < i) :
    (clientLoop nloop i).Round j := by
  unfold clientLoop
  split
  · exact h
  · trivial

theorem clientLoop_accepting (nloop i : Nat) : (clientLoop nloop i).accepting = none := by
  unfold clientLoop
  split <;> rfl

theorem clientLoop_storing (nloop i : Nat) : (clientLoop nloop i).storing = none := by
  unfold clientLoop
  split <;> rfl

theorem clientLoop_stores (text : Nat -> List Char) (h : History client)
    (data : Nat -> Option Char) (c : client) (nloop i : Nat) :
    (clientLoop nloop i).Stores text h data c := by
  unfold clientLoop
  split <;> trivial

theorem clientStep_moves {pid : Pid} {nloop : Nat} {c : client} {shm shm' : Shmstruct}
    {fault : Bool} {pc pc' : ClientPc} {e : RingEvent client}
    (h : clientStep pid nloop c shm fault pc = some (shm', pc', e)) :
    ClientMove (mesgText pid) c shm pc e shm' pc' := by
  cases pc with
  | tryWait i =>
      cases fault with
      | true =>
          cases h
          exact ClientMove.rests rfl rfl rfl rfl (Or.inl rfl) rfl rfl (fun _ _ => trivial)
            (fun _ _ _ => trivial)
      | false =>
          cases hwait : semWait shm.nempty with
          | some n =>
              simp only [clientStep, hwait] at h
              cases h
              exact ClientMove.accepts i hwait
          | none =>
              simp only [clientStep, hwait] at h
              cases h
              exact ClientMove.rests rfl rfl rfl rfl (Or.inr ⟨i, rfl⟩) rfl rfl
                (fun _ hj => hj) (fun _ _ _ => trivial)
  | lockOverflow i =>
      rcases Option.map_eq_some_iff.mp h with ⟨n, _, heq⟩
      cases heq
      exact ClientMove.rests rfl rfl rfl rfl (Or.inl rfl) rfl rfl (fun _ hj => hj)
        (fun _ _ _ => trivial)
  | countOverflow i =>
      cases h
      exact ClientMove.rests rfl rfl rfl rfl (Or.inl rfl) rfl rfl (fun _ hj => hj)
        (fun _ _ _ => trivial)
  | unlockOverflow i =>
      cases h
      exact ClientMove.rests rfl rfl rfl rfl (Or.inl rfl) (clientLoop_accepting _ _)
        (clientLoop_storing _ _)
        (fun j hj => clientLoop_round _ (Nat.lt_succ_of_lt hj))
        (fun _ _ _ => clientLoop_stores _ _ _ _ _ _)
  | lock i =>
      rcases Option.map_eq_some_iff.mp h with ⟨n, _, heq⟩
      cases heq
      exact ClientMove.rests rfl rfl rfl rfl (Or.inl rfl) rfl rfl (fun _ hj => hj)
        (fun _ _ _ => trivial)
  | reserve i =>
      cases h
      exact ClientMove.reserves i
  | unlock i offset =>
      cases h
      refine ClientMove.rests rfl rfl rfl rfl (Or.inl rfl) rfl rfl (fun _ hj => hj) ?_
      rintro h data ⟨r, hr, hoffset⟩
      exact ⟨r, hr, hoffset, Nat.zero_le _, filled_zero _ _ _⟩
  | copy i offset k =>
      simp only [clientStep] at h
      split at h
      · cases h
        exact ClientMove.writes i offset k
      · cases h
  | postStored i =>
      cases h
      exact ClientMove.posts i nloop
  | returned => cases h

end Moves

/-!
# The messages
-/

section Messages

variable {client : Type}

/-- An accepted message is reserved or its client has still to reserve it, and a reserved
one is posted or its client has still to post it. -/
structure Messages (h : History client) (clients : client -> ClientPc) : Prop where
  accepted_nodup : h.accepted.Nodup
  reserved_nodup : h.reserved.Nodup
  rounds : forall m, m ∈ h.accepted -> (clients m.1).Round m.2
  accepted_iff : forall m, m ∈ h.accepted <->
    m ∈ h.reserved ∨ (clients m.1).accepting = some m.2
  reserved_iff : forall m, m ∈ h.reserved <->
    m ∈ h.posted ∨ (clients m.1).storing = some m.2
  accepting_new : forall m, (clients m.1).accepting = some m.2 -> m ∉ h.reserved
  storing_new : forall m, (clients m.1).storing = some m.2 -> m ∉ h.posted

variable [DecidableEq client] {h : History client} {clients : client -> ClientPc}

theorem update_eq_some_iff {f : ClientPc -> Option Nat} {c : client} {pc : ClientPc}
    (m : client × Nat) :
    f (Function.update clients c pc m.1) = some m.2 <->
      (m.1 ≠ c ∧ f (clients m.1) = some m.2) ∨ (m.1 = c ∧ f pc = some m.2) := by
  rcases eq_or_ne m.1 c with heq | hne
  · simp [heq]
  · simp [hne]

theorem update_round_iff {c : client} {pc : ClientPc} (m : client × Nat) :
    (Function.update clients c pc m.1).Round m.2 <->
      (m.1 ≠ c ∧ (clients m.1).Round m.2) ∨ (m.1 = c ∧ pc.Round m.2) := by
  rcases eq_or_ne m.1 c with heq | hne
  · simp [heq]
  · simp [hne]

theorem Messages.rest (hm : Messages h clients) {c : client} {pc : ClientPc}
    (haccepting : pc.accepting = (clients c).accepting)
    (hstoring : pc.storing = (clients c).storing)
    (hround : forall j, (clients c).Round j -> pc.Round j) :
    Messages h (Function.update clients c pc) := by
  constructor
  · exact hm.accepted_nodup
  · exact hm.reserved_nodup
  · intro m hmem
    have hold := hm.rounds m hmem
    rw [update_round_iff]
    grind
  · intro m
    rw [update_eq_some_iff]
    have hold := hm.accepted_iff m
    grind
  · intro m
    rw [update_eq_some_iff]
    have hold := hm.reserved_iff m
    grind
  · intro m
    rw [update_eq_some_iff]
    have hold := hm.accepting_new m
    grind
  · intro m
    rw [update_eq_some_iff]
    have hold := hm.storing_new m
    grind

theorem Messages.accept (hm : Messages h clients) {c : client} {i : Nat}
    (hc : clients c = ClientPc.tryWait i) :
    Messages (h.observe (RingEvent.accepted c i))
      (Function.update clients c (ClientPc.lock i)) := by
  have hnew : (c, i) ∉ h.accepted := by
    intro hmem
    have hj := hm.rounds _ hmem
    rw [hc] at hj
    exact Nat.lt_irrefl _ hj
  constructor
  · simpa [History.observe] using hm.accepted_nodup.concat hnew
  · exact hm.reserved_nodup
  · intro m hmem
    have hold := hm.rounds m
    rw [update_round_iff]
    grind [History.observe, ClientPc.Round]
  · intro m
    rw [update_eq_some_iff]
    have hold := hm.accepted_iff m
    grind [History.observe, ClientPc.accepting]
  · intro m
    rw [update_eq_some_iff]
    have hold := hm.reserved_iff m
    grind [History.observe, ClientPc.storing]
  · intro m
    rw [update_eq_some_iff]
    have hold := hm.accepting_new m
    have hmem := hm.accepted_iff m
    grind [History.observe, ClientPc.accepting]
  · intro m
    rw [update_eq_some_iff]
    have hold := hm.storing_new m
    grind [History.observe, ClientPc.storing]

theorem Messages.reserve (hm : Messages h clients) {c : client} {i offset : Nat}
    (hc : clients c = ClientPc.reserve i) :
    Messages (h.observe (RingEvent.reserved c i))
      (Function.update clients c (ClientPc.unlock i offset)) := by
  have hnew : (c, i) ∉ h.reserved := hm.accepting_new (c, i) (by rw [hc]; rfl)
  constructor
  · exact hm.accepted_nodup
  · simpa [History.observe] using hm.reserved_nodup.concat hnew
  · intro m hmem
    have hold := hm.rounds m
    rw [update_round_iff]
    grind [History.observe, ClientPc.Round]
  · intro m
    rw [update_eq_some_iff]
    have hold := hm.accepted_iff m
    grind [History.observe, ClientPc.accepting]
  · intro m
    rw [update_eq_some_iff]
    have hold := hm.reserved_iff m
    grind [History.observe, ClientPc.storing]
  · intro m
    rw [update_eq_some_iff]
    have hold := hm.accepting_new m
    grind [History.observe, ClientPc.accepting]
  · intro m
    rw [update_eq_some_iff]
    have hold := hm.storing_new m
    have hmem := hm.reserved_iff m
    grind [History.observe, ClientPc.storing]

theorem Messages.post (hm : Messages h clients) {c : client} {i nloop : Nat}
    (hc : clients c = ClientPc.postStored i) :
    Messages (h.observe (RingEvent.posted c i))
      (Function.update clients c (clientLoop nloop (i + 1))) := by
  have haccepting := clientLoop_accepting nloop (i + 1)
  have hstoring := clientLoop_storing nloop (i + 1)
  constructor
  · exact hm.accepted_nodup
  · exact hm.reserved_nodup
  · intro m hmem
    have hold := hm.rounds m hmem
    have hround := @clientLoop_round nloop (i + 1) m.2
    rw [update_round_iff]
    grind [ClientPc.Round]
  · intro m
    rw [update_eq_some_iff]
    have hold := hm.accepted_iff m
    grind [History.observe, ClientPc.accepting]
  · intro m
    rw [update_eq_some_iff]
    have hold := hm.reserved_iff m
    grind [History.observe, ClientPc.storing]
  · intro m
    rw [update_eq_some_iff]
    have hold := hm.accepting_new m
    grind [History.observe]
  · intro m
    rw [update_eq_some_iff]
    have hold := hm.storing_new m
    grind [History.observe]

omit [DecidableEq client] in
theorem Messages.init (cl : Clients client) :
    Messages (History.empty : History client) (fun c => clientLoop (cl.nloop c) 0) := by
  constructor
  · exact List.nodup_nil
  · exact List.nodup_nil
  · intro m hmem
    cases hmem
  · intro m
    simp [History.empty, clientLoop_accepting]
  · intro m
    simp [History.empty, clientLoop_storing]
  · intro m hm
    simp [clientLoop_accepting] at hm
  · intro m hm
    simp [clientLoop_storing] at hm

end Messages

end SharedRing
end InterprocessComm
