import InterprocessComm.Lib.BytePipe
import InterprocessComm.Lib.Transition
import InterprocessComm.PipeMesg.Chunks

/-!
# Many writers and one reader

Any number of processes send messages into one FIFO and a single reader takes them out, a
header and then the data.  The FIFO always holds the rest of the message the reader is in,
followed by whole messages.
-/

namespace InterprocessComm
namespace PipeMesg

open Verification

def PIPE_BUF : Nat := 1024

structure Mymesg where
  mem : Mem
  mesg_type_pos : 0 < loadInt 8 mem MESG_TYPE
  mesg_len_nonneg : 0 ≤ loadInt 8 mem MESG_LEN
  mesg_len_le : loadInt 8 mem MESG_LEN ≤ MAXMESGDATA

structure Content where
  mesg_len : Int
  mesg_type : Int
  mesg_data : List UInt8
deriving DecidableEq

def content (m : Mem) : Content where
  mesg_len := loadInt 8 m MESG_LEN
  mesg_type := loadInt 8 m MESG_TYPE
  mesg_data := readBytes m MESG_DATA (loadInt 8 m MESG_LEN).toNat

/-!
## The system
-/

inductive Reading where
  | outside
  | header
  | data (len : Nat)
  | exited
deriving DecidableEq

structure FifoState where
  pipe : BytePipe
  mptr : Mem
  reading : Reading

inductive FifoAction where
  | opens (w : Nat)
  | closes (w : Nat)
  | sends (w : Nat) (m : Mymesg)
  | calls (mptr : Mem)
  | reads

inductive FifoEvent where
  | silent
  | sent (w : Nat) (m : Mymesg)
  | returned (mptr : Mem) (n : Int)
  | ended
  | exited

/-- `read`, if it does not wait; a fault, or a count above `SSIZE_MAX`, makes it fail. -/
def readFd (p : BytePipe) (count : Nat) (fault : Bool) : Option (ReadResult × BytePipe) :=
  if fault = true ∨ count > SSIZE_MAX then
    some (ReadResult.failed, p)
  else
    (p.read count).map fun (bytes, p) => (ReadResult.stored bytes, p)

/-- `read(fd, mptr, MESGHDRSIZE)` and the tests behind it. -/
def recvHeader (s : FifoState) : Option (FifoState × FifoEvent) :=
  (s.pipe.read MESGHDRSIZE).map fun (header, pipe) =>
    let m := writeBytes s.mptr 0 header
    if header.length = 0 then
      (⟨pipe, m, Reading.outside⟩, FifoEvent.ended)
    else if header.length ≠ MESGHDRSIZE then
      (⟨pipe, m, Reading.exited⟩, FifoEvent.exited)
    else
      let len := loadNat 8 m MESG_LEN
      if len > 0 then
        (⟨pipe, m, Reading.data len⟩, FifoEvent.silent)
      else
        (⟨pipe, m, Reading.outside⟩, FifoEvent.returned m 0)

/-- `read(fd, mptr->mesg_data, len)` and the test behind it, which compares the result as a
`size_t`. -/
def recvData (s : FifoState) (len : Nat) : Option (FifoState × FifoEvent) :=
  (readFd s.pipe len false).map fun (r, pipe) =>
    let m := writeBytes s.mptr MESG_DATA r.bytes
    if r.value % 2 ^ 64 ≠ len then
      (⟨pipe, m, Reading.exited⟩, FifoEvent.exited)
    else
      (⟨pipe, m, Reading.outside⟩, FifoEvent.returned m (Int.bmod len (2 ^ 64)))

def fifoStep (s : FifoState) : FifoAction -> Option (FifoState × FifoEvent)
  | FifoAction.opens w => some ({ s with pipe := s.pipe.openWrite w }, FifoEvent.silent)
  | FifoAction.closes w => some ({ s with pipe := s.pipe.closeWrite w }, FifoEvent.silent)
  | FifoAction.sends w m =>
      (s.pipe.write PIPE_BUF w (mesgSend m.mem)).map fun pipe =>
        ({ s with pipe := pipe }, FifoEvent.sent w m)
  | FifoAction.calls mptr =>
      if s.reading = Reading.outside then
        some (⟨s.pipe, mptr, Reading.header⟩, FifoEvent.silent)
      else
        none
  | FifoAction.reads =>
      match s.reading with
      | Reading.header => recvHeader s
      | Reading.data len => recvData s len
      | _ => none

def FifoInit (s : FifoState) : Prop :=
  s.pipe = BytePipe.empty ∧ s.reading = Reading.outside

abbrev FifoTransition : Type :=
  Transition FifoState FifoAction FifoEvent

def written (tr : List FifoTransition) : List Mymesg :=
  tr.filterMap fun e =>
    match e.event with
    | FifoEvent.sent _ m => some m
    | _ => none

/-- What the calls of `mesg_recv` that found a message left in the reader's structure. -/
def received (tr : List FifoTransition) : List Content :=
  tr.filterMap fun e =>
    match e.event with
    | FifoEvent.returned mptr _ => some (content mptr)
    | _ => none

def stream (ms : List Mymesg) : List UInt8 :=
  ms.flatMap fun m => mesgSend m.mem

/-!
## The reader on a closed FIFO

Without a writer no read waits, and the two reads are the `mesg_recv` of the programs that
send a single file.
-/

/-- The calls of `read` that one `mesg_recv` makes, one right after the other. -/
def recvReads (s : FifoState) : Option (FifoState × FifoEvent) :=
  (recvHeader s).bind fun (t, o) =>
    match t.reading with
    | Reading.data len => recvData t len
    | _ => some (t, o)

def outcome : FifoState × FifoEvent -> Option Received
  | (_, FifoEvent.exited) => some Received.exited
  | (s, FifoEvent.returned mptr n) => some (Received.returned mptr n s.pipe.bytes)
  | (s, FifoEvent.ended) => some (Received.returned s.mptr 0 s.pipe.bytes)
  | _ => none

theorem readFd_closed {bytes : List UInt8} {writers : List Nat} (hclosed : writers = [])
    (count : Nat) :
    readFd ⟨bytes, writers⟩ count false = some (readStream bytes count,
      ⟨bytes.drop (readStream bytes count).bytes.length, writers⟩) := by
  unfold readFd readStream
  by_cases hcount : count > SSIZE_MAX
  · rw [if_pos (Or.inr hcount), if_pos hcount]
    rfl
  · rw [if_neg (by simpa using hcount), if_neg hcount, BytePipe.read_closed hclosed]
    have hdrop : bytes.drop (min count bytes.length) = bytes.drop count := by
      rcases Nat.le_total count bytes.length with hle | hle
      · rw [Nat.min_eq_left hle]
      · rw [Nat.min_eq_right hle, List.drop_length, List.drop_eq_nil_of_le hle]
    simp only [Option.map_some, ReadResult.bytes, List.length_take, hdrop]

theorem readFd_accepted {p : BytePipe} {count : Nat} (h : count ≤ SSIZE_MAX) :
    readFd p count false =
      (p.read count).map fun r => (ReadResult.stored r.1, r.2) :=
  if_neg (by simpa using h)

theorem recvReads_closed {s : FifoState} (hclosed : s.pipe.writers = []) :
    (recvReads s).bind outcome = some (mesgRecv s.mptr s.pipe.bytes) := by
  unfold recvReads recvHeader mesgRecv
  rw [BytePipe.read_closed hclosed]
  simp only [Option.map_some, Option.bind_some]
  by_cases hnone : (s.pipe.bytes.take MESGHDRSIZE).length = 0
  · have hbytes : s.pipe.bytes = [] := by simpa [MESGHDRSIZE] using hnone
    simp [outcome, hbytes]
  · rw [if_neg hnone, if_neg hnone]
    by_cases hshort : (s.pipe.bytes.take MESGHDRSIZE).length ≠ MESGHDRSIZE
    · rw [if_pos hshort, if_pos hshort]
      rfl
    · rw [if_neg hshort, if_neg hshort]
      by_cases hlen : loadNat 8 (writeBytes s.mptr 0 (s.pipe.bytes.take MESGHDRSIZE)) MESG_LEN > 0
      · rw [if_pos hlen, if_pos hlen]
        unfold recvData
        simp only
        rw [readFd_closed hclosed]
        simp only [Option.map_some, Option.bind_some]
        split <;> simp only [outcome]
      · rw [if_neg hlen, if_neg hlen]
        rfl

/-!
## Messages as bytes
-/

section Bytes

variable {m mr : Mem}

theorem content_mesg_len (m : Mem) : (content m).mesg_len = loadInt 8 m MESG_LEN := by
  simp only [content]

theorem Mymesg.mesg_len_eq (m : Mymesg) :
    loadInt 8 m.mem MESG_LEN = loadNat 8 m.mem MESG_LEN :=
  loadInt_of_nonneg m.mesg_len_nonneg

theorem Mymesg.mesg_len_fits (m : Mymesg) : loadNat 8 m.mem MESG_LEN ≤ MAXMESGDATA := by
  have hle := m.mesg_len_le
  rw [m.mesg_len_eq] at hle
  exact_mod_cast hle

theorem content_of_reads (hheader : readBytes mr 0 MESGHDRSIZE = readBytes m 0 MESGHDRSIZE)
    (hdata : readBytes mr MESG_DATA (loadInt 8 m MESG_LEN).toNat =
      readBytes m MESG_DATA (loadInt 8 m MESG_LEN).toNat) : content mr = content m := by
  have hfield (a : Int) (ha : 0 ≤ a ∧ a + 8 ≤ MESGHDRSIZE) : loadInt 8 mr a = loadInt 8 m a := by
    apply loadInt_congr
    intro x hx
    exact eq_of_readBytes hheader (by lia)
  unfold content
  rw [hfield MESG_LEN (by decide), hfield MESG_TYPE (by decide), hdata]

end Bytes

/-!
## Where the reader is in the stream
-/

inductive Position (s : FifoState) : List Mymesg -> Prop where
  | start {ms : List Mymesg} :
      s.reading = Reading.outside ∨ s.reading = Reading.header ->
      s.pipe.bytes = stream ms ->
      Position s ms
  | inside {m : Mymesg} {ms : List Mymesg} :
      s.reading = Reading.data (loadNat 8 m.mem MESG_LEN) ->
      0 < loadNat 8 m.mem MESG_LEN ->
      readBytes s.mptr 0 MESGHDRSIZE = readBytes m.mem 0 MESGHDRSIZE ->
      s.pipe.bytes = readBytes m.mem MESG_DATA (loadNat 8 m.mem MESG_LEN) ++ stream ms ->
      Position s (m :: ms)

def Moves (ms : List Mymesg) (o : FifoEvent) (next : List Mymesg) : Prop :=
  match o with
  | FifoEvent.silent => next = ms
  | FifoEvent.sent _ m => next = ms ++ [m]
  | FifoEvent.returned mptr n =>
      n = (content mptr).mesg_len ∧
        exists m, ms = m :: next ∧ content mptr = content m.mem
  | FifoEvent.ended => ms = [] ∧ next = []
  | FifoEvent.exited => False

section Steps

variable {s t : FifoState} {o : FifoEvent} {m : Mymesg} {ms : List Mymesg}

theorem stream_cons (m : Mymesg) (ms : List Mymesg) :
    stream (m :: ms) = readBytes m.mem 0 MESGHDRSIZE ++
      (readBytes m.mem MESG_DATA (loadNat 8 m.mem MESG_LEN) ++ stream ms) := by
  unfold stream
  rw [List.flatMap_cons, mesgSend_eq m.mesg_len_fits, List.append_assoc]

theorem stream_append (ms next : List Mymesg) : stream (ms ++ next) = stream ms ++ stream next :=
  List.flatMap_append

theorem recvHeader_message (hbytes : s.pipe.bytes = stream (m :: ms)) :
    exists t o, recvHeader s = some (t, o) ∧
      exists next, Position t next ∧ Moves (m :: ms) o next := by
  rw [stream_cons] at hbytes
  have hread := BytePipe.read_of_append hbytes (List.ne_nil_of_length_pos (by simp [MESGHDRSIZE]))
  rw [readBytes_length] at hread
  have hheader : readBytes (writeBytes s.mptr 0 (readBytes m.mem 0 MESGHDRSIZE)) 0 MESGHDRSIZE =
      readBytes m.mem 0 MESGHDRSIZE := by
    have hwrite := readBytes_writeBytes s.mptr 0 (readBytes m.mem 0 MESGHDRSIZE)
    rwa [readBytes_length] at hwrite
  unfold recvHeader
  rw [hread, Option.map_some]
  simp only [readBytes_length, loadNat_header]
  rw [if_neg (by decide), if_neg (by simp)]
  split
  · rename_i hpos
    exact ⟨_, _, rfl, m :: ms, Position.inside rfl hpos hheader rfl, rfl⟩
  · rename_i hzero
    have hnone : loadNat 8 m.mem MESG_LEN = 0 := by lia
    have hcontent : content (writeBytes s.mptr 0 (readBytes m.mem 0 MESGHDRSIZE)) =
        content m.mem := by
      apply content_of_reads hheader
      rw [m.mesg_len_eq, hnone]
      rfl
    refine ⟨_, _, rfl, ms, Position.start (Or.inl rfl) ?_, ?_, m, rfl, hcontent⟩
    · rw [hnone]
      rfl
    · rw [hcontent, content_mesg_len, m.mesg_len_eq, hnone]
      rfl

theorem recvData_message (hpos : 0 < loadNat 8 m.mem MESG_LEN)
    (hheader : readBytes s.mptr 0 MESGHDRSIZE = readBytes m.mem 0 MESGHDRSIZE)
    (hbytes : s.pipe.bytes =
      readBytes m.mem MESG_DATA (loadNat 8 m.mem MESG_LEN) ++ stream ms) :
    exists t o, recvData s (loadNat 8 m.mem MESG_LEN) = some (t, o) ∧
      Position t ms ∧ Moves (m :: ms) o ms := by
  have hread := BytePipe.read_of_append hbytes (List.ne_nil_of_length_pos (by simpa using hpos))
  rw [readBytes_length] at hread
  have hdata := readBytes_writeBytes s.mptr MESG_DATA
    (readBytes m.mem MESG_DATA (loadNat 8 m.mem MESG_LEN))
  rw [readBytes_length] at hdata
  have hcontent : content (writeBytes s.mptr MESG_DATA
      (readBytes m.mem MESG_DATA (loadNat 8 m.mem MESG_LEN))) = content m.mem := by
    apply content_of_reads
    · rw [readBytes_writeBytes_disjoint (Or.inl (by decide))]
      exact hheader
    · rw [m.mesg_len_eq, Int.toNat_natCast]
      exact hdata
  have hcount : Int.bmod (loadNat 8 m.mem MESG_LEN) (2 ^ 64) = loadNat 8 m.mem MESG_LEN := by
    have hfits := m.mesg_len_fits
    unfold MAXMESGDATA at hfits
    rw [Int.bmod_def]
    split <;> lia
  have haccepted : loadNat 8 m.mem MESG_LEN ≤ SSIZE_MAX :=
    Nat.le_trans m.mesg_len_fits (by decide)
  have hvalue : (ReadResult.stored
      (readBytes m.mem MESG_DATA (loadNat 8 m.mem MESG_LEN))).value % 2 ^ 64 =
        loadNat 8 m.mem MESG_LEN := by
    rw [ReadResult.value_stored (by rwa [readBytes_length]), readBytes_length]
  unfold recvData
  rw [readFd_accepted haccepted, hread, Option.map_some, Option.map_some]
  simp only [hvalue, ne_eq, not_true_eq_false, if_false, ReadResult.bytes]
  refine ⟨_, _, rfl, Position.start (Or.inl rfl) rfl, ?_, m, rfl, hcontent⟩
  rw [hcontent, content_mesg_len, m.mesg_len_eq, hcount]

theorem recvHeader_end (hbytes : s.pipe.bytes = []) (h : recvHeader s = some (t, o)) :
    o = FifoEvent.ended ∧ t.reading = Reading.outside ∧ t.pipe.bytes = [] := by
  unfold recvHeader at h
  rcases Option.map_eq_some_iff.mp h with ⟨⟨header, pipe⟩, hread, hresult⟩
  rcases BytePipe.read_eq hread with ⟨rfl, hrest, _⟩
  rw [hbytes, List.drop_nil] at hrest
  simp only [hbytes, List.take_nil, List.length_nil, if_true] at hresult
  cases hresult
  exact ⟨rfl, rfl, hrest⟩

theorem Position.extend (h : Position s ms) {next : List Mymesg} (hreading : t.reading = s.reading)
    (hmptr : t.mptr = s.mptr) (hbytes : t.pipe.bytes = s.pipe.bytes ++ stream next) :
    Position t (ms ++ next) := by
  cases h with
  | start hs hstream =>
      refine Position.start (by rw [hreading]; exact hs) ?_
      rw [hbytes, hstream, stream_append]
  | inside hs hpos hheader hstream =>
      apply Position.inside (hreading.trans hs) hpos
      · rw [hmptr]
        exact hheader
      · rw [hbytes, hstream, List.append_eq, stream_append, List.append_assoc]

theorem Position.congr (h : Position s ms) (hreading : t.reading = s.reading)
    (hmptr : t.mptr = s.mptr) (hbytes : t.pipe.bytes = s.pipe.bytes) : Position t ms := by
  have hnothing : t.pipe.bytes = s.pipe.bytes ++ stream [] := by
    rw [hbytes]
    exact (List.append_nil _).symm
  have hextend := h.extend hreading hmptr hnothing
  rwa [List.append_nil] at hextend

theorem position_step {a : FifoAction} (h : Position s ms) (hstep : fifoStep s a = some (t, o)) :
    exists next, Position t next ∧ Moves ms o next := by
  cases a with
  | opens w =>
      cases hstep
      exact ⟨ms, h.congr rfl rfl rfl, rfl⟩
  | closes w =>
      cases hstep
      exact ⟨ms, h.congr rfl rfl rfl, rfl⟩
  | sends w m =>
      rcases Option.map_eq_some_iff.mp hstep with ⟨pipe, hwrite, hresult⟩
      rcases BytePipe.write_eq hwrite with ⟨_, hbytes, _⟩
      cases hresult
      refine ⟨ms ++ [m], h.extend rfl rfl ?_, rfl⟩
      rw [hbytes]
      unfold stream
      rw [List.flatMap_singleton]
  | calls mptr =>
      simp only [fifoStep] at hstep
      split at hstep
      · rename_i houtside
        cases hstep
        cases h with
        | start _ hstream => exact ⟨ms, Position.start (Or.inr rfl) hstream, rfl⟩
        | inside hinside =>
            rw [houtside] at hinside
            cases hinside
      · cases hstep
  | reads =>
      simp only [fifoStep] at hstep
      cases h with
      | start hs hstream =>
          rcases hs with houtside | hheader
          · simp only [houtside] at hstep
            cases hstep
          · simp only [hheader] at hstep
            cases ms with
            | nil =>
                rcases recvHeader_end hstream hstep with ⟨rfl, hreading, hbytes⟩
                exact ⟨[], Position.start (Or.inl hreading) hbytes, rfl, rfl⟩
            | cons m ms =>
                rcases recvHeader_message hstream with ⟨t', o', hrecv, hposition⟩
                rw [hrecv] at hstep
                cases hstep
                exact hposition
      | @inside m ms hreading hpos hheader hstream =>
          simp only [hreading] at hstep
          rcases recvData_message hpos hheader hstream with ⟨t', o', hrecv, hposition, hmoves⟩
          rw [hrecv] at hstep
          cases hstep
          exact ⟨ms, hposition, hmoves⟩

/-- A `mesg_recv` never waits while there is a message to be received. -/
theorem reads_of_position (h : Position s (m :: ms)) (hcalled : s.reading ≠ Reading.outside) :
    (fifoStep s FifoAction.reads).isSome := by
  unfold fifoStep
  cases h with
  | start hs hstream =>
      have hheader := hs.resolve_left hcalled
      rcases recvHeader_message hstream with ⟨t, o, hrecv, _⟩
      simp only [hheader, hrecv, Option.isSome_some]
  | inside hreading hpos hheader hstream =>
      rcases recvData_message hpos hheader hstream with ⟨t, o, hrecv, _⟩
      simp only [hreading, hrecv, Option.isSome_some]

end Steps

/-!
## Whole runs
-/

section Runs

variable {tr : List FifoTransition} {s : FifoState}

theorem written_snoc (tr : List FifoTransition) (e : FifoTransition) :
    written (tr ++ [e]) = written tr ++ written [e] :=
  List.filterMap_append

theorem received_snoc (tr : List FifoTransition) (e : FifoTransition) :
    received (tr ++ [e]) = received tr ++ received [e] :=
  List.filterMap_append

/-- The messages that have been written and not received lie in the FIFO. -/
theorem position_run (h : Run FifoInit fifoStep tr s) :
    exists front ms, written tr = front ++ ms ∧
      received tr = front.map (fun m => content m.mem) ∧ Position s ms := by
  refine run_induction (I := fun tr s => exists front ms, written tr = front ++ ms ∧
    received tr = front.map (fun m => content m.mem) ∧ Position s ms) ?_ ?_ h
  · rintro s ⟨hpipe, hreading⟩
    have hnothing : s.pipe.bytes = stream [] := by
      rw [hpipe]
      rfl
    exact ⟨[], [], rfl, rfl, Position.start (Or.inl hreading) hnothing⟩
  · rintro tr s a o t _ ⟨front, ms, hwritten, hreceived, hposition⟩ hstep
    rcases position_step hposition hstep with ⟨next, hnext, hmoves⟩
    rw [written_snoc, received_snoc, hwritten, hreceived]
    cases o with
    | silent =>
        cases hmoves
        exact ⟨front, _, List.append_nil _, List.append_nil _, hnext⟩
    | sent w m =>
        cases hmoves
        exact ⟨front, ms ++ [m], List.append_assoc _ _ _, List.append_nil _, hnext⟩
    | returned mptr n =>
        rcases hmoves with ⟨_, m, rfl, hcontent⟩
        refine ⟨front ++ [m], next, by simp [written], ?_, hnext⟩
        simp [received, hcontent]
    | ended =>
        rcases hmoves with ⟨rfl, rfl⟩
        exact ⟨front, [], List.append_nil _, List.append_nil _, hnext⟩
    | exited => cases hmoves

theorem moves_run (h : Run FifoInit fifoStep tr s) {e : FifoTransition} (he : e ∈ tr) :
    exists ms next, Position e.source ms ∧ Position e.target next ∧ Moves ms e.event next := by
  rcases run_transition h he with ⟨⟨tr', hrun⟩, hvalid⟩
  rcases position_run hrun with ⟨_, ms, _, _, hposition⟩
  rcases position_step hposition hvalid with ⟨next, hnext, hmoves⟩
  exact ⟨ms, next, hposition, hnext, hmoves⟩

theorem recvData_event {len : Nat} {t : FifoState} {o : FifoEvent}
    (h : recvData s len = some (t, o)) (hexit : o ≠ FifoEvent.exited) :
    exists n, o = FifoEvent.returned t.mptr n := by
  unfold recvData at h
  rcases Option.map_eq_some_iff.mp h with ⟨⟨data, pipe⟩, _, hresult⟩
  simp only at hresult
  split at hresult
  · cases hresult
    exact absurd rfl hexit
  · cases hresult
    exact ⟨_, rfl⟩

theorem never_exits_run (h : Run FifoInit fifoStep tr s) {e : FifoTransition} (he : e ∈ tr) :
    e.event ≠ FifoEvent.exited := by
  intro hevent
  rcases moves_run h he with ⟨_, _, _, _, hmoves⟩
  rw [hevent] at hmoves
  cases hmoves

/-- Each `mesg_recv` gives the next message that was written: its length, which is also what
the call returns, its type and its bytes. -/
structure Framing (tr : List FifoTransition) (s : FifoState) : Prop where
  in_order : forall k, k < (received tr).length ->
    (received tr)[k]? = ((written tr)[k]?).map fun m => content m.mem
  returns_len : forall e mptr n, e ∈ tr -> e.event = FifoEvent.returned mptr n ->
    n = (content mptr).mesg_len
  positioned : s.reading = Reading.outside ->
    s.pipe.bytes = stream ((written tr).drop (received tr).length)
  never_exits : s.reading ≠ Reading.exited ∧ forall e, e ∈ tr -> e.event ≠ FifoEvent.exited
  completes : forall e len, e ∈ tr -> e.action = FifoAction.reads ->
    e.source.reading = Reading.data len ->
    exists n, e.event = FifoEvent.returned e.target.mptr n
  never_waits : s.reading ≠ Reading.outside -> (received tr).length < (written tr).length ->
    (fifoStep s FifoAction.reads).isSome
  ends_empty : forall e, e ∈ tr -> e.event = FifoEvent.ended -> e.source.pipe.bytes = []

theorem fifo_framing (h : Run FifoInit fifoStep tr s) : Framing tr s := by
  rcases position_run h with ⟨front, ms, hwritten, hreceived, hposition⟩
  have hdrop : (written tr).drop (received tr).length = ms := by
    rw [hwritten, hreceived, List.length_map, List.drop_left]
  constructor
  · intro k hk
    rw [hreceived, List.length_map] at hk
    rw [hreceived, hwritten, List.getElem?_map, List.getElem?_append_left hk]
  · intro e mptr n he hevent
    rcases moves_run h he with ⟨_, _, _, _, hmoves⟩
    rw [hevent] at hmoves
    exact hmoves.1
  · intro houtside
    rw [hdrop]
    cases hposition with
    | start _ hbytes => exact hbytes
    | inside hinside =>
        rw [houtside] at hinside
        cases hinside
  · constructor
    · intro hexited
      cases hposition with
      | start hs => rcases hs with hs | hs <;> cases hexited.symm.trans hs
      | inside hinside => cases hexited.symm.trans hinside
    · intro e he
      exact never_exits_run h he
  · intro e len he haction hreading
    have hvalid := (run_transition h he).2
    unfold Transition.Valid at hvalid
    rw [haction] at hvalid
    simp only [fifoStep, hreading] at hvalid
    exact recvData_event hvalid (never_exits_run h he)
  · intro hcalled hlt
    rw [hwritten, hreceived, List.length_append, List.length_map] at hlt
    cases ms with
    | nil => exact absurd hlt (by simp)
    | cons m ms => exact reads_of_position hposition hcalled
  · intro e he hevent
    rcases moves_run h he with ⟨ms, _, hsource, _, hmoves⟩
    rw [hevent] at hmoves
    rcases hmoves with ⟨rfl, _⟩
    cases hsource with
    | start _ hbytes => exact hbytes

end Runs

def freshFifo : FifoState where
  pipe := BytePipe.empty
  mptr := fun _ => NUL
  reading := Reading.outside

theorem init_freshFifo : FifoInit freshFifo :=
  ⟨rfl, rfl⟩

def abcMesg : Mymesg where
  mem := writeBytes (storeInt 8 (storeInt 8 freshFifo.mptr MESG_LEN 3) MESG_TYPE 1) MESG_DATA
    [97, 98, 99]
  mesg_type_pos := by decide +kernel
  mesg_len_nonneg := by decide +kernel
  mesg_len_le := by decide +kernel

def emptyMesg : Mymesg where
  mem := storeInt 8 (storeInt 8 freshFifo.mptr MESG_LEN 0) MESG_TYPE 7
  mesg_type_pos := by decide +kernel
  mesg_len_nonneg := by decide +kernel
  mesg_len_le := by decide +kernel

/-- A second writer's message without data is written while the reader is between its reads. -/
theorem fifo_framing_twoWriters :
    exists tr s, s.reading = Reading.outside ∧ (written tr).length = 2 ∧
      received tr = [⟨3, 1, [97, 98, 99]⟩, ⟨0, 7, []⟩] ∧ Framing tr s := by
  have hreplay : exists tr s, Run FifoInit fifoStep tr s ∧
      decide (s.reading = Reading.outside ∧ (written tr).length = 2 ∧
        received tr = [⟨3, 1, [97, 98, 99]⟩, ⟨0, 7, []⟩]) = true :=
    run_of_replay
      [FifoAction.opens 0, FifoAction.opens 1, FifoAction.sends 0 abcMesg,
        FifoAction.calls freshFifo.mptr, FifoAction.reads, FifoAction.sends 1 emptyMesg,
        FifoAction.reads, FifoAction.calls freshFifo.mptr, FifoAction.reads]
      init_freshFifo (by decide +kernel)
  rcases hreplay with ⟨tr, s, hrun, htest⟩
  rcases of_decide_eq_true htest with ⟨houtside, hwritten, hreceived⟩
  exact ⟨tr, s, houtside, hwritten, hreceived, fifo_framing hrun⟩

end PipeMesg
end InterprocessComm
