import InterprocessComm.Lib.Transition
import InterprocessComm.Svmsg.Messages

/-!
# The children of the server

The server of `svmsgmpxnq` makes a child for each request.  A child that terminates raises
`SIGCHLD`, and `sig_child` runs between any two steps of the server: it may interrupt the `msgrcv`
in `mesg_recv`, and `Mesg_recv` tries an interrupted call again.
-/

namespace InterprocessComm
namespace Svmsg
namespace Mpxnq

open Verification

def EINTR : Errno := Errno.other 4

def ECHILD : Errno := Errno.other 10

/-- Where the server is: it calls `msgrcv`, is inside of it, has been interrupted there, has the
result of `mesg_recv`, tests `errno`, returns from `Mesg_recv`, or is about to serve a request. -/
inductive ServerPc where
  | call
  | receiving
  | interrupted
  | returned (n : Int)
  | testErrno
  | result (n : Int)
  | request (n : Int)
deriving DecidableEq

inductive HandlerPc where
  | waitpid
  | returning
deriving DecidableEq

inductive Child where
  | running
  | zombie
  | reaped
deriving DecidableEq

/-- `handler` is where `sig_child` is, if it runs, and `pending` says that there is a `SIGCHLD`
to deliver. -/
structure ServerState where
  pc : ServerPc
  errno : Errno
  handler : Option HandlerPc
  pending : Bool
  children : List Child
deriving DecidableEq

/-- The server makes a step, or its handler, where `waitpid` takes the child `i` if it can; a
message arrives for `msgrcv`, or it fails; a request is served by a new child; the signal is
delivered; a child terminates, or is only stopped or continued. -/
inductive ServerAction where
  | step
  | handler (i : Nat)
  | message (n : Nat)
  | failure (e : Errno)
  | fork
  | deliver
  | exit (i : Nat)
  | stop (i : Nat)
deriving DecidableEq

/-- A `msgrcv` fails and sets `errno`, `Mesg_recv` tries again or returns, a child terminates or is
reaped, or nothing of interest happens. -/
inductive ServerEvent where
  | silent
  | failed (e : Errno)
  | retried
  | returned (n : Int)
  | exited (i : Nat)
  | reaped (i : Nat)
deriving DecidableEq

namespace ServerState

def mainStep (s : ServerState) : Option (ServerState × ServerEvent) :=
  match s.pc with
  | ServerPc.call => some ({ s with pc := ServerPc.receiving }, ServerEvent.silent)
  | ServerPc.receiving => none
  | ServerPc.interrupted =>
      -- `errno` is set when the handler has returned
      some ({ s with pc := ServerPc.returned (-1), errno := EINTR }, ServerEvent.failed EINTR)
  | ServerPc.returned n =>
      if n = -1 then
        some ({ s with pc := ServerPc.testErrno }, ServerEvent.silent)
      else
        some ({ s with pc := ServerPc.result n }, ServerEvent.silent)
  | ServerPc.testErrno =>
      if s.errno = EINTR then
        some ({ s with pc := ServerPc.call }, ServerEvent.retried)
      else
        some ({ s with pc := ServerPc.result (-1) }, ServerEvent.silent)
  | ServerPc.result n => some ({ s with pc := ServerPc.request n }, ServerEvent.returned n)
  | ServerPc.request _ =>
      -- no pathname, a bogus request, or no child
      some ({ s with pc := ServerPc.call }, ServerEvent.silent)

/-- `waitpid` with `WNOHANG` takes any child that has terminated; it fails if there are no
children, and returns 0 if all of them run. -/
def handlerStep (s : ServerState) (i : Nat) : Option (ServerState × ServerEvent) :=
  match s.handler with
  | none => none
  | some HandlerPc.waitpid =>
      if Child.zombie ∈ s.children then
        if s.children[i]? = some Child.zombie then
          some ({ s with children := s.children.set i Child.reaped }, ServerEvent.reaped i)
        else
          none
      else if Child.running ∈ s.children then
        some ({ s with handler := some HandlerPc.returning }, ServerEvent.silent)
      else
        some ({ s with handler := some HandlerPc.returning, errno := ECHILD },
          ServerEvent.silent)
  | some HandlerPc.returning => some ({ s with handler := none }, ServerEvent.silent)

/-- The signal is blocked while its handler runs; a `msgrcv` that waits is interrupted. -/
def deliver (s : ServerState) : Option ServerState :=
  if s.pending = true ∧ s.handler = none then
    let s' := { s with handler := some HandlerPc.waitpid, pending := false }
    if s.pc = ServerPc.receiving then
      some { s' with pc := ServerPc.interrupted }
    else
      some s'
  else
    none

end ServerState

/-- The server does nothing while the handler runs. -/
def serverStep (s : ServerState) : ServerAction -> Option (ServerState × ServerEvent)
  | ServerAction.step => if s.handler = none then s.mainStep else none
  | ServerAction.handler i => s.handlerStep i
  | ServerAction.message n =>
      if s.handler = none ∧ s.pc = ServerPc.receiving ∧ n ≤ MAXMESGDATA then
        some ({ s with pc := ServerPc.returned n }, ServerEvent.silent)
      else
        none
  | ServerAction.failure e =>
      if s.handler = none ∧ s.pc = ServerPc.receiving then
        some ({ s with pc := ServerPc.returned (-1), errno := e }, ServerEvent.failed e)
      else
        none
  | ServerAction.fork =>
      match s.pc with
      | ServerPc.request n =>
          if s.handler = none ∧ n ≠ 0 then
            some ({ s with pc := ServerPc.call, children := s.children ++ [Child.running] },
              ServerEvent.silent)
          else
            none
      | _ => none
  | ServerAction.deliver => s.deliver.map fun s' => (s', ServerEvent.silent)
  | ServerAction.exit i =>
      if s.children[i]? = some Child.running then
        some ({ s with children := s.children.set i Child.zombie, pending := true },
          ServerEvent.exited i)
      else
        none
  | ServerAction.stop i =>
      if s.children[i]? = some Child.running then
        some ({ s with pending := true }, ServerEvent.silent)
      else
        none

inductive ServerMove (s : ServerState) :
    ServerAction -> ServerEvent -> ServerState -> Prop where
  | main {t : ServerState} {o : ServerEvent} :
      s.handler = none ->
      s.mainStep = some (t, o) ->
      ServerMove s ServerAction.step o t
  | reap (i : Nat) :
      s.handler = some HandlerPc.waitpid ->
      s.children[i]? = some Child.zombie ->
      ServerMove s (ServerAction.handler i) (ServerEvent.reaped i)
        { s with children := s.children.set i Child.reaped }
  | noneEnded (i : Nat) :
      s.handler = some HandlerPc.waitpid ->
      Child.zombie ∉ s.children ->
      Child.running ∈ s.children ->
      ServerMove s (ServerAction.handler i) ServerEvent.silent
        { s with handler := some HandlerPc.returning }
  | noChildren (i : Nat) :
      s.handler = some HandlerPc.waitpid ->
      Child.zombie ∉ s.children ->
      Child.running ∉ s.children ->
      ServerMove s (ServerAction.handler i) ServerEvent.silent
        { s with handler := some HandlerPc.returning, errno := ECHILD }
  | handled (i : Nat) :
      s.handler = some HandlerPc.returning ->
      ServerMove s (ServerAction.handler i) ServerEvent.silent { s with handler := none }
  | message (n : Nat) :
      s.handler = none ∧ s.pc = ServerPc.receiving ∧ n ≤ MAXMESGDATA ->
      ServerMove s (ServerAction.message n) ServerEvent.silent
        { s with pc := ServerPc.returned n }
  | failure (e : Errno) :
      s.handler = none ∧ s.pc = ServerPc.receiving ->
      ServerMove s (ServerAction.failure e) (ServerEvent.failed e)
        { s with pc := ServerPc.returned (-1), errno := e }
  | fork (n : Int) :
      s.pc = ServerPc.request n ->
      s.handler = none ∧ n ≠ 0 ->
      ServerMove s ServerAction.fork ServerEvent.silent
        { s with pc := ServerPc.call, children := s.children ++ [Child.running] }
  | interrupt :
      s.pending = true ∧ s.handler = none ->
      s.pc = ServerPc.receiving ->
      ServerMove s ServerAction.deliver ServerEvent.silent
        { s with pc := ServerPc.interrupted, handler := some HandlerPc.waitpid, pending := false }
  | deliver :
      s.pending = true ∧ s.handler = none ->
      s.pc ≠ ServerPc.receiving ->
      ServerMove s ServerAction.deliver ServerEvent.silent
        { s with handler := some HandlerPc.waitpid, pending := false }
  | exit (i : Nat) :
      s.children[i]? = some Child.running ->
      ServerMove s (ServerAction.exit i) (ServerEvent.exited i)
        { s with children := s.children.set i Child.zombie, pending := true }
  | stop (i : Nat) :
      s.children[i]? = some Child.running ->
      ServerMove s (ServerAction.stop i) ServerEvent.silent { s with pending := true }

theorem handlerStep_move {s t : ServerState} {i : Nat} {o : ServerEvent}
    (h : s.handlerStep i = some (t, o)) : ServerMove s (ServerAction.handler i) o t := by
  unfold ServerState.handlerStep at h
  split at h
  · cases h
  · rename_i hhandler
    split at h
    · split at h
      · rename_i hzombie
        cases h
        exact ServerMove.reap i hhandler hzombie
      · cases h
    · rename_i hzombie
      split at h
      · rename_i hrunning
        cases h
        exact ServerMove.noneEnded i hhandler hzombie hrunning
      · rename_i hrunning
        cases h
        exact ServerMove.noChildren i hhandler hzombie hrunning
  · rename_i hhandler
    cases h
    exact ServerMove.handled i hhandler

theorem deliver_move {s t : ServerState} (h : s.deliver = some t) :
    ServerMove s ServerAction.deliver ServerEvent.silent t := by
  unfold ServerState.deliver at h
  split at h
  · rename_i hready
    split at h
    · rename_i hpc
      cases h
      exact ServerMove.interrupt hready hpc
    · rename_i hpc
      cases h
      exact ServerMove.deliver hready hpc
  · cases h

theorem serverStep_move {s t : ServerState} {a : ServerAction} {o : ServerEvent}
    (h : serverStep s a = some (t, o)) : ServerMove s a o t := by
  cases a with
  | step =>
      simp only [serverStep] at h
      split at h
      · rename_i hhandler
        exact ServerMove.main hhandler h
      · cases h
  | handler i => exact handlerStep_move h
  | message n =>
      simp only [serverStep] at h
      split at h
      · rename_i hready
        cases h
        exact ServerMove.message n hready
      · cases h
  | failure e =>
      simp only [serverStep] at h
      split at h
      · rename_i hready
        cases h
        exact ServerMove.failure e hready
      · cases h
  | fork =>
      simp only [serverStep] at h
      split at h
      · rename_i n hpc
        split at h
        · rename_i hready
          cases h
          exact ServerMove.fork n hpc hready
        · cases h
      · cases h
  | deliver =>
      rcases Option.map_eq_some_iff.mp h with ⟨t', hdeliver, hdone⟩
      cases hdone
      exact deliver_move hdeliver
  | exit i =>
      simp only [serverStep] at h
      split at h
      · rename_i hrunning
        cases h
        exact ServerMove.exit i hrunning
      · cases h
  | stop i =>
      simp only [serverStep] at h
      split at h
      · rename_i hrunning
        cases h
        exact ServerMove.stop i hrunning
      · cases h

structure ServerInit (s : ServerState) : Prop where
  pc : s.pc = ServerPc.call
  handler : s.handler = none
  pending : s.pending = false
  children : s.children = []

abbrev ServerTransition : Type :=
  Transition ServerState ServerAction ServerEvent

def serverStart (errno : Errno) : ServerState where
  pc := ServerPc.call
  errno := errno
  handler := none
  pending := false
  children := []

theorem init_serverStart (errno : Errno) : ServerInit (serverStart errno) :=
  ⟨rfl, rfl, rfl, rfl⟩

def receives (n : Nat) : List ServerAction :=
  [ServerAction.step, ServerAction.message n, ServerAction.step, ServerAction.step]

end Mpxnq
end Svmsg
end InterprocessComm
