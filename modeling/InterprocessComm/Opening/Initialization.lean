import InterprocessComm.Opening.MqOpen
import InterprocessComm.Opening.SemOpen
import InterprocessComm.Opening.Safety

/-!
# Opening only what is initialised

`mq_open` and `sem_open` ask `stat` about the name, but use the file they opened
before.  What they return is initialised as long as the two agree; once the name
is removed and created again in between, they return a file that is not.
-/

namespace InterprocessComm
namespace Opening

open Verification

/-- Everything `mq_open` returns is initialised and has the length of its file, and
everything `sem_open` returns is initialised, in runs in which no replaced file is
mistaken for the one that is open. -/
theorem opened_files_initialised (proc : Type) [DecidableEq proc] (valueMax : Int) :
    (forall (tr : List (OpenTransition proc MqOpenArgs MqOpenLoc)) s,
      Run OpenInit (openStep mqOpenCode) tr s ->
      (forall e, e ∈ tr -> StatTrusted mqOpenCode true e) ->
      forall e, e ∈ tr -> DescriptorGood true e) ∧
    (forall (tr : List (OpenTransition proc SemOpenArgs SemOpenLoc)) s,
      Run OpenInit (openStep (semOpenCode valueMax)) tr s ->
      (forall e, e ∈ tr -> StatTrusted (semOpenCode valueMax) false e) ->
      forall e, e ∈ tr -> DescriptorGood false e) := by
  constructor
  · intro tr s hrun htrusted
    exact descriptors_good mqOpenFollows hrun htrusted
  · intro tr s hrun htrusted
    exact descriptors_good (semOpenFollows valueMax) hrun htrusted

/-!
## A name that is created twice
-/

def absent {proc loc : Type} : OpenState proc loc :=
  { fs := { name := none, files := fun _ => File.created, next := 0 }, calls := fun _ => none }

theorem absent_init {proc loc : Type} : OpenInit (absent : OpenState proc loc) := by
  constructor
  · intro p
    rfl
  · intro f hf
    cases hf
  · intro f hf
    exact absurd hf (Nat.not_lt_zero f)

def syscalls {n : Nat} {args : Type} (p : Fin n) (count : Nat) : List (OpenAction (Fin n) args) :=
  List.replicate count (OpenAction.syscall p none)

def mqCreate : MqOpenArgs := { o_creat := true, o_excl := false, attr := some (3, 1) }

def mqOpenExisting : MqOpenArgs := { o_creat := false, o_excl := false, attr := none }

def semCreate : SemOpenArgs := { o_creat := true, o_excl := false, value := 1 }

def semOpenExisting : SemOpenArgs := { o_creat := false, o_excl := false, value := 0 }

def returned {proc args loc : Type} (tr : List (OpenTransition proc args loc)) :
    List Descriptor :=
  tr.filterMap fun e =>
    match e.event with
    | some (Except.ok d) => some d
    | _ => none

/-- A second process opens the queue, and the semaphore, that a first one creates. -/
theorem opened_files_initialised_twoProcesses :
    (exists (tr : List (OpenTransition (Fin 2) MqOpenArgs MqOpenLoc)) (s : _),
      Run OpenInit (openStep mqOpenCode) tr s ∧
        returned tr = [⟨some 0, 312⟩, ⟨some 0, 312⟩] ∧
        forall e, e ∈ tr -> DescriptorGood true e) ∧
    (exists (tr : List (OpenTransition (Fin 2) SemOpenArgs SemOpenLoc)) (s : _),
      Run OpenInit (openStep (semOpenCode 32767)) tr s ∧
        returned tr = [⟨some 0, 96⟩, ⟨some 0, 96⟩] ∧
        forall e, e ∈ tr -> DescriptorGood false e) := by
  have hmq : exists (tr : List (OpenTransition (Fin 2) MqOpenArgs MqOpenLoc)) (s : _),
      Run OpenInit (openStep mqOpenCode) tr s ∧
        decide ((forall e, e ∈ tr -> StatTrusted mqOpenCode true e) ∧
          returned tr = [⟨some 0, 312⟩, ⟨some 0, 312⟩]) = true :=
    run_of_replay ([OpenAction.call 0 mqCreate] ++ syscalls 0 12 ++
      [OpenAction.call 1 mqOpenExisting] ++ syscalls 1 5) absent_init (by decide +kernel)
  have hsem : exists (tr : List (OpenTransition (Fin 2) SemOpenArgs SemOpenLoc)) (s : _),
      Run OpenInit (openStep (semOpenCode 32767)) tr s ∧
        decide ((forall e, e ∈ tr -> StatTrusted (semOpenCode 32767) false e) ∧
          returned tr = [⟨some 0, 96⟩, ⟨some 0, 96⟩]) = true :=
    run_of_replay ([OpenAction.call 0 semCreate] ++ syscalls 0 11 ++
      [OpenAction.call 1 semOpenExisting] ++ syscalls 1 5) absent_init (by decide +kernel)
  rcases opened_files_initialised (Fin 2) 32767 with ⟨mq_safe, sem_safe⟩
  constructor
  · rcases hmq with ⟨tr, s, hrun, htest⟩
    rcases of_decide_eq_true htest with ⟨htrusted, hreturned⟩
    exact ⟨tr, s, hrun, hreturned, mq_safe tr s hrun htrusted⟩
  · rcases hsem with ⟨tr, s, hrun, htest⟩
    rcases of_decide_eq_true htest with ⟨htrusted, hreturned⟩
    exact ⟨tr, s, hrun, hreturned, sem_safe tr s hrun htrusted⟩

/-- A process opens the file of a creator that is not done; the name is removed and
created again, and `stat` finds the second file initialised. -/
theorem opened_uninitialised_file_threeProcesses :
    (exists (tr : List (OpenTransition (Fin 3) MqOpenArgs MqOpenLoc)) (s : _),
      Run OpenInit (openStep mqOpenCode) tr s ∧
        exists e, e ∈ tr ∧ ¬ DescriptorGood true e) ∧
    (exists (tr : List (OpenTransition (Fin 3) SemOpenArgs SemOpenLoc)) (s : _),
      Run OpenInit (openStep (semOpenCode 32767)) tr s ∧
        exists e, e ∈ tr ∧ ¬ DescriptorGood false e) := by
  have hmq : exists (tr : List (OpenTransition (Fin 3) MqOpenArgs MqOpenLoc)) (s : _),
      Run OpenInit (openStep mqOpenCode) tr s ∧
        decide (exists e, e ∈ tr ∧ ¬ DescriptorGood true e) = true :=
    run_of_replay ([OpenAction.call 0 mqCreate] ++ syscalls 0 1 ++
      [OpenAction.call 1 mqOpenExisting] ++ syscalls 1 1 ++
      [OpenAction.unlink, OpenAction.call 2 mqCreate] ++ syscalls 2 12 ++ syscalls 1 4)
      absent_init (by decide +kernel)
  have hsem : exists (tr : List (OpenTransition (Fin 3) SemOpenArgs SemOpenLoc)) (s : _),
      Run OpenInit (openStep (semOpenCode 32767)) tr s ∧
        decide (exists e, e ∈ tr ∧ ¬ DescriptorGood false e) = true :=
    run_of_replay ([OpenAction.call 0 semCreate] ++ syscalls 0 2 ++
      [OpenAction.call 1 semOpenExisting] ++ syscalls 1 2 ++
      [OpenAction.unlink, OpenAction.call 2 semCreate] ++ syscalls 2 11 ++ syscalls 1 3)
      absent_init (by decide +kernel)
  constructor
  · rcases hmq with ⟨tr, s, hrun, htest⟩
    exact ⟨tr, s, hrun, of_decide_eq_true htest⟩
  · rcases hsem with ⟨tr, s, hrun, htest⟩
    exact ⟨tr, s, hrun, of_decide_eq_true htest⟩

end Opening
end InterprocessComm
