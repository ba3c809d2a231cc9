import InterprocessComm.Lib.Transition
import InterprocessComm.SharedRing.Operations

/-!
# What the ring is for

The messages a run accepts, reserves slots for, posts and reads, and what is asked
of them: the server reads the message of each reservation once, in order and only
when it is complete, and nobody writes into the slot of another.
-/

namespace InterprocessComm
namespace SharedRing

open Verification

/-- The messages for which `sem_trywait` succeeded, those that have a slot, and those
that are stored, each by client and round; and what the server has done. -/
structure History (client : Type) where
  accepted : List (client × Nat)
  reserved : List (client × Nat)
  posted : List (client × Nat)
  taken : Nat
  texts : List (List Char)
  recycled : Nat

variable {client : Type}

namespace History

def empty : History client :=
  { accepted := [], reserved := [], posted := [], taken := 0, texts := [], recycled := 0 }

def observe (h : History client) : RingEvent client -> History client
  | RingEvent.silent => h
  | RingEvent.accepted c i => { h with accepted := h.accepted ++ [(c, i)] }
  | RingEvent.refused _ _ => h
  | RingEvent.reserved c i => { h with reserved := h.reserved ++ [(c, i)] }
  | RingEvent.wrote _ _ _ => h
  | RingEvent.posted c i => { h with posted := h.posted ++ [(c, i)] }
  | RingEvent.taken => { h with taken := h.taken + 1 }
  | RingEvent.read text => { h with texts := h.texts ++ [text] }
  | RingEvent.recycled => { h with recycled := h.recycled + 1 }

end History

abbrev RingTransition (client : Type) : Type :=
  Transition (RingState client) (RingAction client) (RingEvent client)

def historyOf (tr : List (RingTransition client)) : History client :=
  observed History.observe History.empty tr

def Clients.text (cl : Clients client) (m : client × Nat) : List Char :=
  mesgText (cl.pid m.1) m.2

def slot (r : Nat) : Nat := msgoff (r % NMESG)

/-- The reservation `r` is for the message `m`, which is not stored or not read yet. -/
def Outstanding (h : History client) (r : Nat) (m : client × Nat) : Prop :=
  h.reserved[r]? = some m ∧ (m ∉ h.posted ∨ h.texts.length ≤ r)

/-- What is read is the whole text of the next reservation, which its client has
finished storing; what is written goes into the slot of the client's own reservation and
of no other that is outstanding. -/
def SlotLaw (cl : Clients client) (h : History client) : RingEvent client -> Prop
  | RingEvent.read text =>
      exists m, h.reserved[h.texts.length]? = some m ∧ m ∈ h.posted ∧ text = cl.text m
  | RingEvent.wrote c i address =>
      (exists r, h.reserved[r]? = some (c, i) ∧
        slot r ≤ address ∧ address < slot r + MESGSIZE) ∧
      forall r m, Outstanding h r m -> m ≠ (c, i) ->
        address < slot r ∨ slot r + MESGSIZE ≤ address
  | _ => True

/-- Each message that `sem_trywait` let through has been reserved once and read once. -/
structure ReadOnce (cl : Clients client) (h : History client) : Prop where
  accepted_nodup : h.accepted.Nodup
  reserved_perm : h.reserved.Perm h.accepted
  texts : h.texts = h.reserved.map cl.text

/-- When the server takes a token of `nstored`, the oldest reservation for which it has
taken none has been posted. -/
def TakesPosted (h : History client) : RingEvent client -> Prop
  | RingEvent.taken => exists m, h.reserved[h.taken]? = some m ∧ m ∈ h.posted
  | _ => True

instance [DecidableEq client] (h : History client) (e : RingEvent client) :
    Decidable (TakesPosted h e) :=
  match e with
  | RingEvent.taken =>
      match hres : h.reserved[h.taken]? with
      | some m => decidable_of_iff (m ∈ h.posted) (by
          constructor
          · intro hposted
            exact ⟨m, hres, hposted⟩
          · rintro ⟨m', hres', hposted⟩
            rw [hres] at hres'
            cases hres'
            exact hposted)
      | none => isFalse (by
          rintro ⟨m, hm, _⟩
          rw [hres] at hm
          cases hm)
  | RingEvent.silent => isTrue trivial
  | RingEvent.accepted _ _ => isTrue trivial
  | RingEvent.refused _ _ => isTrue trivial
  | RingEvent.reserved _ _ => isTrue trivial
  | RingEvent.wrote _ _ _ => isTrue trivial
  | RingEvent.posted _ _ => isTrue trivial
  | RingEvent.read _ => isTrue trivial
  | RingEvent.recycled => isTrue trivial

def Stuck [DecidableEq client] (cl : Clients client) (s : RingState client) : Prop :=
  forall a, ringStep cl s a = none

end SharedRing
end InterprocessComm
