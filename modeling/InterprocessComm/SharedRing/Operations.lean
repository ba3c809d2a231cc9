import InterprocessComm.Posix
import Mathlib.Algebra.Group.Nat.Defs
import Mathlib.Logic.Function.Basic

/-!
# The shared message ring

The steps of the clients, which store messages in the slots of a ring in shared
memory, and of the server, which prints them.  Each semaphore operation, each access
to a counter and each character that is copied or read is a step.
-/

namespace InterprocessComm
namespace SharedRing

def MESGSIZE : Nat := 256

def NMESG : Nat := 16

/-- The semaphores are given by their values; in `msgdata`, `none` is the null character.
`msgoff` is never written after the server has initialised it. -/
structure Shmstruct where
  mutex : Nat
  nempty : Nat
  nstored : Nat
  nput : Nat
  noverflow : Int
  noverflowmutex : Nat
  msgdata : Nat -> Option Char

def msgoff (index : Nat) : Nat := index * MESGSIZE

def sizeofMsgdata : Nat := NMESG * MESGSIZE

def advance (index : Nat) : Nat :=
  if index + 1 ≥ NMESG then 0 else index + 1

/-- What `snprintf` puts into `mesg`, up to the null character. -/
def mesgText (pid : Pid) (i : Nat) : List Char :=
  ([ 'p', 'i', 'd', ' '] ++ Nat.toDigits 10 pid.val.toNat ++
    [ ':', ' ', 'm', 'e', 's', 's', 'a', 'g', 'e', ' '] ++ Nat.toDigits 10 i ++
    [ ' ', '\n']).take (MESGSIZE - 1)

theorem mesgText_length (pid : Pid) (i : Nat) : (mesgText pid i).length < MESGSIZE := by
  have hle := List.length_take_le (MESGSIZE - 1)
    ([ 'p', 'i', 'd', ' '] ++ Nat.toDigits 10 pid.val.toNat ++
      [ ':', ' ', 'm', 'e', 's', 's', 'a', 'g', 'e', ' '] ++ Nat.toDigits 10 i ++ [ ' ', '\n'])
  exact Nat.lt_of_le_of_lt hle (by decide)

/-!
# A client
-/

/-- Where a client is in the round `i` of its loop. -/
inductive ClientPc where
  | tryWait (i : Nat)
  | lockOverflow (i : Nat)
  | countOverflow (i : Nat)
  | unlockOverflow (i : Nat)
  | lock (i : Nat)
  | reserve (i : Nat)
  | unlock (i offset : Nat)
  | copy (i offset k : Nat)
  | postStored (i : Nat)
  | returned
deriving DecidableEq

inductive RingEvent (client : Type) where
  | silent
  | accepted (c : client) (i : Nat)
  | refused (c : client) (i : Nat)
  | reserved (c : client) (i : Nat)
  | wrote (c : client) (i address : Nat)
  | posted (c : client) (i : Nat)
  | taken
  | read (text : List Char)
  | recycled
deriving DecidableEq

def clientLoop (nloop i : Nat) : ClientPc :=
  if i < nloop then ClientPc.tryWait i else ClientPc.returned

/-- A step of client `c`; `fault` makes `sem_trywait` fail for a reason of its own. A step
beyond the end of `msgdata` has no defined result. -/
def clientStep {client : Type} (pid : Pid) (nloop : Nat) (c : client) (shm : Shmstruct)
    (fault : Bool) : ClientPc -> Option (Shmstruct × ClientPc × RingEvent client)
  | ClientPc.tryWait i =>
      if fault then
        some (shm, ClientPc.returned, RingEvent.silent)
      else
        match semWait shm.nempty with
        | some n => some ({ shm with nempty := n }, ClientPc.lock i, RingEvent.accepted c i)
        | none => some (shm, ClientPc.lockOverflow i, RingEvent.refused c i)
  | ClientPc.lockOverflow i =>
      (semWait shm.noverflowmutex).map fun n =>
        ({ shm with noverflowmutex := n }, ClientPc.countOverflow i, RingEvent.silent)
  | ClientPc.countOverflow i =>
      some ({ shm with noverflow := shm.noverflow + 1 }, ClientPc.unlockOverflow i,
        RingEvent.silent)
  | ClientPc.unlockOverflow i =>
      some ({ shm with noverflowmutex := semPost shm.noverflowmutex },
        clientLoop nloop (i + 1), RingEvent.silent)
  | ClientPc.lock i =>
      (semWait shm.mutex).map fun n =>
        ({ shm with mutex := n }, ClientPc.reserve i, RingEvent.silent)
  | ClientPc.reserve i =>
      some ({ shm with nput := advance shm.nput }, ClientPc.unlock i (msgoff shm.nput),
        RingEvent.reserved c i)
  | ClientPc.unlock i offset =>
      some ({ shm with mutex := semPost shm.mutex }, ClientPc.copy i offset 0,
        RingEvent.silent)
  | ClientPc.copy i offset k =>
      if offset + k < sizeofMsgdata then
        some ({ shm with
            msgdata := Function.update shm.msgdata (offset + k) (mesgText pid i)[k]? },
          if k < (mesgText pid i).length then
            ClientPc.copy i offset (k + 1)
          else
            ClientPc.postStored i,
          RingEvent.wrote c i (offset + k))
      else
        none
  | ClientPc.postStored i =>
      some ({ shm with nstored := semPost shm.nstored }, clientLoop nloop (i + 1),
        RingEvent.posted c i)
  | ClientPc.returned => none

/-!
# The server
-/

inductive ServerPc where
  | waitStored
  | lock
  | fetch
  | print (offset k : Nat) (text : List Char)
  | unlock
  | postEmpty
  | lockOverflow
  | readOverflow
  | unlockOverflow (temp : Int)
deriving DecidableEq

structure Server where
  pc : ServerPc
  index : Nat
  lastnoverflow : Int
deriving DecidableEq

def toInt (v : Int) : Int := Int.bmod v (2 ^ 32)

def serverStep {client : Type} (shm : Shmstruct) (v : Server) :
    Option (Shmstruct × Server × RingEvent client) :=
  match v.pc with
  | ServerPc.waitStored =>
      (semWait shm.nstored).map fun n =>
        ({ shm with nstored := n }, { v with pc := ServerPc.lock }, RingEvent.taken)
  | ServerPc.lock =>
      (semWait shm.mutex).map fun n =>
        ({ shm with mutex := n }, { v with pc := ServerPc.fetch }, RingEvent.silent)
  | ServerPc.fetch =>
      some (shm, { v with pc := ServerPc.print (msgoff v.index) 0 [] }, RingEvent.silent)
  | ServerPc.print offset k text =>
      if offset + k < sizeofMsgdata then
        match shm.msgdata (offset + k) with
        | some ch =>
            some (shm, { v with pc := ServerPc.print offset (k + 1) (text ++ [ch]) },
              RingEvent.silent)
        | none =>
            some (shm, { v with pc := ServerPc.unlock, index := advance v.index },
              RingEvent.read text)
      else
        none
  | ServerPc.unlock =>
      some ({ shm with mutex := semPost shm.mutex }, { v with pc := ServerPc.postEmpty },
        RingEvent.silent)
  | ServerPc.postEmpty =>
      some ({ shm with nempty := semPost shm.nempty }, { v with pc := ServerPc.lockOverflow },
        RingEvent.recycled)
  | ServerPc.lockOverflow =>
      (semWait shm.noverflowmutex).map fun n =>
        ({ shm with noverflowmutex := n }, { v with pc := ServerPc.readOverflow },
          RingEvent.silent)
  | ServerPc.readOverflow =>
      some (shm, { v with pc := ServerPc.unlockOverflow (toInt shm.noverflow) },
        RingEvent.silent)
  | ServerPc.unlockOverflow temp =>
      some ({ shm with noverflowmutex := semPost shm.noverflowmutex },
        { v with pc := ServerPc.waitStored, lastnoverflow := temp }, RingEvent.silent)

/-!
# The system
-/

structure RingState (client : Type) where
  shm : Shmstruct
  clients : client -> ClientPc
  server : Server

inductive RingAction (client : Type) where
  | client (c : client) (fault : Bool)
  | server

structure Clients (client : Type) where
  pid : client -> Pid
  nloop : client -> Nat

section System

variable {client : Type} [DecidableEq client]

def ringStep (cl : Clients client) (s : RingState client) :
    RingAction client -> Option (RingState client × RingEvent client)
  | RingAction.client c fault =>
      (clientStep (cl.pid c) (cl.nloop c) c s.shm fault (s.clients c)).map fun r =>
        ({ s with shm := r.1, clients := Function.update s.clients c r.2.1 }, r.2.2)
  | RingAction.server =>
      (serverStep s.shm s.server).map fun r => ({ s with shm := r.1, server := r.2.1 }, r.2.2)

def ringStart (cl : Clients client) : RingState client :=
  { shm := { mutex := 1, nempty := NMESG, nstored := 0, nput := 0, noverflow := 0,
             noverflowmutex := 1, msgdata := fun _ => none },
    clients := fun c => clientLoop (cl.nloop c) 0,
    server := { pc := ServerPc.waitStored, index := 0, lastnoverflow := 0 } }

def RingInit (cl : Clients client) (s : RingState client) : Prop := s = ringStart cl

end System

end SharedRing
end InterprocessComm
