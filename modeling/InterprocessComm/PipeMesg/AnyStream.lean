import InterprocessComm.PipeMesg.Framing

/-!
# Bytes of any content

Any number of processes write any bytes into the FIFO, and the reader takes them for
messages: the length in the header is what it asks `read` for.
-/

namespace InterprocessComm
namespace PipeMesg

open Verification

/-!
## The system
-/

inductive Recv where
  | goesOn
  | returned (n : Int)
  | exited
deriving DecidableEq

inductive WireAction where
  | opens (w : Nat)
  | closes (w : Nat)
  | writes (w : Nat) (bytes : List UInt8)
  | calls (mptr : Mem)
  | reads (fault : Bool)

/-- `read` says where the bytes that it took from the FIFO were stored. -/
inductive WireEvent where
  | silent
  | called
  | read (place : Int) (bytes : List UInt8) (recv : Recv)
deriving DecidableEq

/-- `read(fd, mptr, MESGHDRSIZE)` and the tests behind it. -/
def wireHeader (s : FifoState) (fault : Bool) : Option (FifoState × WireEvent) :=
  (readFd s.pipe MESGHDRSIZE fault).map fun (r, pipe) =>
    let m := writeBytes s.mptr 0 r.bytes
    let event := WireEvent.read 0 r.bytes
    if r.value = 0 then
      (⟨pipe, m, Reading.outside⟩, event (Recv.returned 0))
    else if r.value ≠ MESGHDRSIZE then
      (⟨pipe, m, Reading.exited⟩, event Recv.exited)
    else
      let len := loadNat 8 m MESG_LEN
      if len > 0 then
        (⟨pipe, m, Reading.data len⟩, event Recv.goesOn)
      else
        (⟨pipe, m, Reading.outside⟩, event (Recv.returned 0))

/-- `read(fd, mptr->mesg_data, len)` and the test behind it, which compares the result as a
`size_t`. -/
def wireData (s : FifoState) (len : Nat) (fault : Bool) : Option (FifoState × WireEvent) :=
  (readFd s.pipe len fault).map fun (r, pipe) =>
    let m := writeBytes s.mptr MESG_DATA r.bytes
    let event := WireEvent.read MESG_DATA r.bytes
    if r.value % 2 ^ 64 ≠ len then
      (⟨pipe, m, Reading.exited⟩, event Recv.exited)
    else
      (⟨pipe, m, Reading.outside⟩, event (Recv.returned (Int.bmod len (2 ^ 64))))

def wireStep (s : FifoState) : WireAction -> Option (FifoState × WireEvent)
  | WireAction.opens w => some ({ s with pipe := s.pipe.openWrite w }, WireEvent.silent)
  | WireAction.closes w => some ({ s with pipe := s.pipe.closeWrite w }, WireEvent.silent)
  | WireAction.writes w bytes =>
      (s.pipe.write PIPE_BUF w bytes).map fun pipe =>
        ({ s with pipe := pipe }, WireEvent.silent)
  | WireAction.calls mptr =>
      if s.reading = Reading.outside then
        some (⟨s.pipe, mptr, Reading.header⟩, WireEvent.called)
      else
        none
  | WireAction.reads fault =>
      match s.reading with
      | Reading.header => wireHeader s fault
      | Reading.data len => wireData s len fault
      | _ => none

abbrev WireTransition : Type :=
  Transition FifoState WireAction WireEvent

/-!
## What is stored and returned
-/

def observeTaken (taken : List UInt8) : WireEvent -> List UInt8
  | WireEvent.silent => taken
  | WireEvent.called => []
  | WireEvent.read _ bytes _ => taken ++ bytes

/-- A read stores into the header or into `mesg_data`; and a call that returns a positive number
has taken a header and as many bytes of data, which fit. -/
def RecvLaw (taken : List UInt8) : WireEvent -> Prop
  | WireEvent.read place bytes recv =>
      ((place = 0 ∧ bytes.length ≤ MESGHDRSIZE) ∨
          (place = MESG_DATA ∧ bytes.length ≤ MAXMESGDATA)) ∧
        forall n, recv = Recv.returned n -> 0 < n ->
          n ≤ MAXMESGDATA ∧ ((taken ++ bytes).length : Int) = MESGHDRSIZE + n
  | _ => True

/-- The reader asks for more data than `mesg_data` has room for, and they are there. -/
def overruns (e : WireTransition) : Bool :=
  match e.action, e.source.reading with
  | WireAction.reads fault, Reading.data len =>
      !fault && (decide (MAXMESGDATA < len ∧ len ≤ SSIZE_MAX) &&
        decide (MAXMESGDATA < e.source.pipe.bytes.length))
  | _, _ => false

section Steps

variable {s t : FifoState} {o : WireEvent} {taken : List UInt8}

theorem readFd_cases {p q : BytePipe} {count : Nat} {fault : Bool} {r : ReadResult}
    (h : readFd p count fault = some (r, q)) :
    (r = ReadResult.failed ∧ (fault = true ∨ SSIZE_MAX < count)) ∨
      (r = ReadResult.stored (p.bytes.take count) ∧ fault = false ∧ count ≤ SSIZE_MAX) := by
  unfold readFd at h
  split at h
  · rename_i hfails
    cases h
    exact Or.inl ⟨rfl, hfails⟩
  · rename_i hgood
    rcases Option.map_eq_some_iff.mp h with ⟨⟨bytes, pipe⟩, hread, hdone⟩
    cases hdone
    rw [(BytePipe.read_eq hread).1]
    rw [not_or, Bool.not_eq_true, Nat.not_lt] at hgood
    exact Or.inr ⟨rfl, hgood⟩

def Taking (taken : List UInt8) : Reading -> Prop
  | Reading.header => taken = []
  | Reading.data _ => taken.length = MESGHDRSIZE
  | _ => True

theorem recvLaw_of_place {place : Int} {bytes : List UInt8} {recv : Recv}
    (hplace : (place = 0 ∧ bytes.length ≤ MESGHDRSIZE) ∨
      (place = MESG_DATA ∧ bytes.length ≤ MAXMESGDATA))
    (hrecv : forall n, recv = Recv.returned n -> n ≤ 0) :
    RecvLaw taken (WireEvent.read place bytes recv) := by
  refine ⟨hplace, ?_⟩
  intro n hn hpos
  have hle := hrecv n hn
  lia

theorem wireHeader_law {fault : Bool} (h : wireHeader s fault = some (t, o)) :
    Taking (observeTaken [] o) t.reading ∧ RecvLaw [] o := by
  rcases Option.map_eq_some_iff.mp h with ⟨⟨r, pipe⟩, hread, hdone⟩
  have hplace : (0 : Int) = 0 ∧ r.bytes.length ≤ MESGHDRSIZE := by
    rcases readFd_cases hread with ⟨rfl, _⟩ | ⟨rfl, _⟩
    · exact ⟨rfl, Nat.zero_le _⟩
    · exact ⟨rfl, List.length_take_le _ _⟩
  have hzero : forall n, Recv.returned 0 = Recv.returned n -> n ≤ 0 := by
    intro n hn
    cases hn
    exact Int.le_refl 0
  simp only at hdone
  split at hdone
  · cases hdone
    exact ⟨trivial, recvLaw_of_place (Or.inl hplace) hzero⟩
  · split at hdone
    · cases hdone
      exact ⟨trivial, recvLaw_of_place (Or.inl hplace) fun n => Recv.noConfusion⟩
    · rename_i hfull
      rw [not_not] at hfull
      split at hdone
      · cases hdone
        refine ⟨?_, recvLaw_of_place (Or.inl hplace) fun n => Recv.noConfusion⟩
        cases r with
        | failed => cases hfull
        | stored bytes => exact Int.ofNat.inj hfull
      · cases hdone
        exact ⟨trivial, recvLaw_of_place (Or.inl hplace) hzero⟩

/-- A read of data keeps the law exactly if what it stores fits. -/
theorem recvLaw_data {bytes : List UInt8} {recv : Recv}
    (hrecv : forall n, recv = Recv.returned n ->
      n = bytes.length ∧ taken.length = MESGHDRSIZE) :
    RecvLaw taken (WireEvent.read MESG_DATA bytes recv) <-> bytes.length ≤ MAXMESGDATA := by
  constructor
  · rintro ⟨⟨hzero, _⟩ | ⟨_, hle⟩, _⟩
    · cases hzero
    · exact hle
  · intro hle
    refine ⟨Or.inr ⟨rfl, hle⟩, ?_⟩
    intro n hn _
    rcases hrecv n hn with ⟨rfl, htaken⟩
    rw [List.length_append, htaken]
    exact ⟨Int.ofNat_le.mpr hle, Int.natCast_add _ _⟩

theorem bmod_of_le {len : Nat} (h : len ≤ SSIZE_MAX) : Int.bmod len (2 ^ 64) = len := by
  unfold SSIZE_MAX at h
  rw [Int.bmod_def]
  split <;> lia

theorem wireData_law {len : Nat} {fault : Bool} (htaken : taken.length = MESGHDRSIZE)
    (hreading : s.reading = Reading.data len) (h : wireData s len fault = some (t, o)) :
    Taking (observeTaken taken o) t.reading ∧
      (RecvLaw taken o <-> overruns ⟨s, WireAction.reads fault, o, t⟩ = false) := by
  rcases Option.map_eq_some_iff.mp h with ⟨⟨r, pipe⟩, hread, hdone⟩
  unfold overruns
  simp only [hreading]
  rcases readFd_cases hread with ⟨rfl, hfails⟩ | ⟨rfl, rfl, hlen⟩
  · have hnone : (!fault && (decide (MAXMESGDATA < len ∧ len ≤ SSIZE_MAX) &&
        decide (MAXMESGDATA < s.pipe.bytes.length))) = false := by
      rcases hfails with rfl | hlen
      · rfl
      · simp [Nat.not_le.mpr hlen]
    simp only [hnone, iff_true]
    have hplace : MESG_DATA = MESG_DATA ∧ ReadResult.failed.bytes.length ≤ MAXMESGDATA :=
      ⟨rfl, Nat.zero_le _⟩
    simp only at hdone
    split at hdone
    · cases hdone
      exact ⟨trivial, recvLaw_of_place (Or.inr hplace) fun n => Recv.noConfusion⟩
    · -- only the length -1 is equal to the result
      rename_i hsame
      have hminus : len = 2 ^ 64 - 1 := by
        rw [not_not] at hsame
        simp only [ReadResult.value] at hsame
        lia
      cases hdone
      refine ⟨trivial, recvLaw_of_place (Or.inr hplace) ?_⟩
      intro n hn
      rw [← Recv.returned.inj hn, hminus]
      decide
  · have hbytes : (ReadResult.stored (s.pipe.bytes.take len)).bytes.length =
        min len s.pipe.bytes.length := List.length_take
    have hvalue : (ReadResult.stored (s.pipe.bytes.take len)).value % 2 ^ 64 =
        (min len s.pipe.bytes.length : Nat) := by
      have hcount : (ReadResult.stored (s.pipe.bytes.take len)).value =
          (min len s.pipe.bytes.length : Nat) := congrArg Nat.cast hbytes
      rw [hcount]
      unfold SSIZE_MAX at hlen
      lia
    have hoverruns : (!false && (decide (MAXMESGDATA < len ∧ len ≤ SSIZE_MAX) &&
        decide (MAXMESGDATA < s.pipe.bytes.length))) = false <->
          min len s.pipe.bytes.length ≤ MAXMESGDATA := by
      simp only [hlen, and_true, Bool.not_false, Bool.true_and, Bool.and_eq_false_iff,
        decide_eq_false_iff_not, Nat.not_lt]
      exact min_le_iff.symm
    rw [hoverruns, ← hbytes]
    simp only [hvalue] at hdone
    split at hdone
    · cases hdone
      refine ⟨trivial, recvLaw_data ?_⟩
      intro n hn
      cases hn
    · rename_i hsame
      rw [not_not] at hsame
      cases hdone
      refine ⟨trivial, recvLaw_data ?_⟩
      intro n hn
      rw [← Recv.returned.inj hn, bmod_of_le hlen, hbytes]
      exact ⟨hsame.symm, htaken⟩

theorem wireStep_law {a : WireAction} (htaken : Taking taken s.reading)
    (h : wireStep s a = some (t, o)) :
    Taking (observeTaken taken o) t.reading ∧
      (RecvLaw taken o <-> overruns ⟨s, a, o, t⟩ = false) := by
  cases a with
  | opens w =>
      cases h
      exact ⟨htaken, iff_of_true trivial rfl⟩
  | closes w =>
      cases h
      exact ⟨htaken, iff_of_true trivial rfl⟩
  | writes w bytes =>
      rcases Option.map_eq_some_iff.mp h with ⟨pipe, _, hdone⟩
      cases hdone
      exact ⟨htaken, iff_of_true trivial rfl⟩
  | calls mptr =>
      simp only [wireStep] at h
      split at h
      · cases h
        exact ⟨rfl, iff_of_true trivial rfl⟩
      · cases h
  | reads fault =>
      simp only [wireStep] at h
      split at h
      · rename_i hreading
        rw [hreading] at htaken
        cases htaken
        rcases wireHeader_law h with ⟨hnext, hlaw⟩
        refine ⟨hnext, iff_of_true hlaw ?_⟩
        simp only [overruns, hreading]
      · rename_i len hreading
        rw [hreading] at htaken
        exact wireData_law htaken hreading h
      · cases h

end Steps

/-!
## Whole runs
-/

/-- Whatever arrives, `mesg_recv` stores inside of the structure and takes what it returns,
exactly if it never finds more than `MAXMESGDATA` bytes behind a header that announces more. -/
theorem recv_stays_inside_iff {tr : List WireTransition} {s : FifoState}
    (hrun : Run FifoInit wireStep tr s) :
    AtEach observeTaken [] RecvLaw tr <-> forall e, e ∈ tr -> overruns e = false := by
  refine atEachStep_iff_forall (P := fun taken e => RecvLaw taken e.event) ?_
  refine (run_observed_steps (I := fun taken s => Taking taken s.reading)
    (G := fun _ _ => True) ?_ ?_ hrun fun _ _ _ _ => trivial).2
  · rintro s ⟨_, hreading⟩
    rw [hreading]
    trivial
  · intro taken s a o t htaken _ hstep
    exact wireStep_law htaken hstep

def headerBytes (len type : Int) : List UInt8 :=
  readBytes (storeInt 8 (storeInt 8 freshFifo.mptr MESG_LEN len) MESG_TYPE type) 0 MESGHDRSIZE

/-- Behind a header with the length -1 there are two bytes, which nobody takes; a message with
three bytes of data follows after a new call. -/
theorem recv_stays_inside_iff_negativeLength :
    exists tr s, Run FifoInit wireStep tr s ∧
      (tr.map Transition.event).getLast? =
        some (WireEvent.read MESG_DATA [97, 98, 99] (Recv.returned 3)) ∧
      AtEach observeTaken [] RecvLaw tr := by
  have hreplay : exists tr s, Run FifoInit wireStep tr s ∧
      decide ((tr.map Transition.event).getLast? =
          some (WireEvent.read MESG_DATA [97, 98, 99] (Recv.returned 3)) ∧
        forall e, e ∈ tr -> overruns e = false) = true :=
    run_of_replay
      [WireAction.opens 0, WireAction.writes 0 (headerBytes (-1) 1),
        WireAction.calls freshFifo.mptr, WireAction.reads false, WireAction.reads false,
        WireAction.writes 0 (headerBytes 3 1 ++ [97, 98, 99]), WireAction.calls freshFifo.mptr,
        WireAction.reads false, WireAction.reads false]
      init_freshFifo (by decide +kernel)
  rcases hreplay with ⟨tr, s, hrun, htest⟩
  rcases of_decide_eq_true htest with ⟨hlast, hinside⟩
  exact ⟨tr, s, hrun, hlast, (recv_stays_inside_iff hrun).mpr hinside⟩

/-- A message with 1009 bytes of data puts the last of them behind `mesg_data`. -/
theorem recv_overruns_longMessage :
    exists tr s, Run FifoInit wireStep tr s ∧
      (tr.map Transition.event).getLast? =
        some (WireEvent.read MESG_DATA (List.replicate 1009 65) (Recv.returned 1009)) ∧
      s.mptr (MESG_DATA + MAXMESGDATA) = 65 ∧ ¬ AtEach observeTaken [] RecvLaw tr := by
  have hreplay : exists tr s, Run FifoInit wireStep tr s ∧
      decide ((tr.map Transition.event).getLast? =
          some (WireEvent.read MESG_DATA (List.replicate 1009 65) (Recv.returned 1009)) ∧
        s.mptr (MESG_DATA + MAXMESGDATA) = 65) = true :=
    run_of_replay
      [WireAction.opens 0, WireAction.writes 0 (headerBytes 1009 1),
        WireAction.writes 0 (List.replicate 1009 65), WireAction.calls freshFifo.mptr,
        WireAction.reads false, WireAction.reads false]
      init_freshFifo (by decide +kernel)
  rcases hreplay with ⟨tr, s, hrun, htest⟩
  rcases of_decide_eq_true htest with ⟨hlast, hbehind⟩
  refine ⟨tr, s, hrun, hlast, hbehind, ?_⟩
  intro hlaw
  rcases List.getLast?_eq_some_iff.mp hlast with ⟨events, hevents⟩
  rcases List.map_eq_append_iff.mp hevents with ⟨front, back, rfl, _, hback⟩
  rcases List.map_eq_singleton_iff.mp hback with ⟨e, rfl, hevent⟩
  have hkept := hlaw front e [] rfl
  rw [hevent] at hkept
  rcases hkept.1 with ⟨hplace, _⟩ | ⟨_, hlength⟩
  · cases hplace
  · rw [List.length_replicate] at hlength
    exact absurd hlength (by decide)

end PipeMesg
end InterprocessComm
