import InterprocessComm.Lib.Ranking
import InterprocessComm.Mainpipe.Transfer

/-!
# The service of a line

The two processes never wait for each other: a server that waits for room in a channel waits for a
client that has something to read.
-/

namespace InterprocessComm
namespace Mainpipe

open Verification
open PipeMesg (NUL NEWLINE)

/-!
# Progress
-/

section Progress

variable {sys : System} {u : Typed} {file : List UInt8} {s t : PipeState} {o : PipeEvent}

theorem System.write_some {p : BytePipe} {bs : List UInt8} (hwriters : p.writers = [0])
    (hempty : p.bytes = []) (hlength : bs.length ≤ PIPE_BUF) : sys.write p bs ≠ none := by
  have hroom : p.bytes.length + bs.length ≤ sys.room := by
    rw [hempty, List.length_nil, Nat.zero_add]
    exact Nat.le_trans hlength sys.room_le
  have hopen : 0 ∈ p.writers := by
    rw [hwriters]
    exact List.mem_singleton_self 0
  unfold System.write BytePipe.write
  rw [if_pos hroom, if_pos ⟨hopen, hlength⟩]
  exact Option.some_ne_none _

theorem PipeInv.waits {path : List UInt8} (h : PipeInv path s)
    (hstuck : Stuck (pipeStep sys u.stdin) s) (hclient : s.client = ClientPc.copying) :
    s.toClient.bytes = [] ∧ s.server ≠ ServerPc.exited := by
  have hnone : clientStep sys u.stdin s (PipeAction.clientRead MAXLINE) = none :=
    hstuck (PipeAction.clientRead MAXLINE)
  unfold clientStep at hnone
  simp only at hnone
  rw [if_pos ⟨hclient, by decide, Nat.le_refl _⟩] at hnone
  rcases BytePipe.read_waits (Option.map_eq_none_iff.mp hnone) with ⟨hempty, hopen⟩
  refine ⟨hempty, ?_⟩
  intro hexited
  exact hopen (h.server_closed hexited)

theorem PipeInv.server_starts (h : PipeInv u.pathname s) (hname : u.pathname ≠ [])
    (hfile : sys.files u.pathname = Except.ok file) (hserver : s.server = ServerPc.start)
    (hpath : s.toServer.bytes = u.pathname) :
    serverStep sys s PipeAction.serverStart ≠ none := by
  intro hnone
  simp only [serverStep, if_pos hserver] at hnone
  cases hread : s.toServer.read MAXLINE with
  | none =>
      rw [(BytePipe.read_waits hread).1] at hpath
      exact hname hpath.symm
  | some r =>
      rcases r with ⟨bytes, toServer⟩
      have hopens := (h.opens hfile hserver hread).2.2
      simp only [hread, Option.bind_some] at hnone
      split at hnone
      · cases hnone
      · rw [hopens] at hnone
        cases hnone

theorem server_reads (sys : System) {rest : List UInt8}
    (hserver : s.server = ServerPc.reading rest) :
    serverStep sys s (PipeAction.serverRead 1) ≠ none := by
  cases rest with
  | nil => simp [serverStep, hserver]
  | cons b rest => simp [serverStep, hserver, MAXLINE]

theorem PipeInv.server_writes {path rest : List UInt8} {n : Nat} (h : PipeInv path s)
    (hserver : s.server = ServerPc.writing n rest) (hempty : s.toClient.bytes = []) :
    serverStep sys s PipeAction.serverWrite ≠ none := by
  intro hnone
  have hlength : (readBytes s.serverBuff 0 n).length ≤ PIPE_BUF := by
    rw [readBytes_length]
    exact Nat.le_trans (h.piece n rest hserver) (by decide)
  simp only [serverStep, hserver, PipeState.writeBuff, Option.map_eq_none_iff] at hnone
  exact System.write_some (h.server_open (by simp [hserver])) hempty hlength hnone

theorem PipeInv.done_of_stuck (h : PipeInv u.pathname s) (hname : u.pathname ≠ [])
    (hfile : sys.files u.pathname = Except.ok file) (hstuck : Stuck (pipeStep sys u.stdin) s) :
    s.client = ClientPc.done := by
  cases hserver : s.server with
  | start =>
      exfalso
      rcases h.requested hserver with ⟨hclient, hempty⟩ | ⟨_, hpath⟩
      · have hnone : clientStep sys u.stdin s PipeAction.clientStart = none :=
          hstuck PipeAction.clientStart
        have hlength : u.pathname.length ≤ PIPE_BUF :=
          Nat.le_trans (Nat.le_of_lt u.pathname_length_lt) (by decide)
        simp only [clientStep, if_pos hclient, clientPathname_eq, Option.bind_some,
          Option.map_eq_none_iff] at hnone
        exact System.write_some h.client_open hempty hlength hnone
      · exact h.server_starts hname hfile hserver hpath (hstuck PipeAction.serverStart)
  | replying n => exact absurd hserver (h.not_replying n)
  | reading rest => exact absurd (hstuck (PipeAction.serverRead 1)) (server_reads sys hserver)
  | writing n rest =>
      cases hclient : s.client with
      | start => exact absurd hclient (h.started (by simp [hserver]))
      | copying =>
          have hempty := (h.waits hstuck hclient).1
          exact absurd (hstuck PipeAction.serverWrite) (h.server_writes hserver hempty)
      | done => rfl
  | exited =>
      cases hclient : s.client with
      | start => exact absurd hclient (h.started (by simp [hserver]))
      | copying => exact absurd hserver (h.waits hstuck hclient).2
      | done => rfl

/-!
# Counting the steps
-/

def ClientPc.rank : ClientPc -> Nat
  | start => 2
  | copying => 1
  | done => 0

/-- Each byte of the file is read, written and read once more at most. -/
def ServerPc.rank (length : Nat) : ServerPc -> Nat
  | start => 2 + 3 * length
  | reading rest => 1 + 3 * rest.length
  | writing n rest => 2 + n + 3 * rest.length
  | _ => 0

def rank (length : Nat) (s : PipeState) : Nat :=
  s.client.rank + s.toClient.bytes.length + s.server.rank length

theorem PipeInv.rank_lt (h : PipeInv u.pathname s) (hfile : sys.files u.pathname = Except.ok file)
    (hstep : Stepped sys u.stdin s t o) : rank file.length t < rank file.length s := by
  cases hstep with
  | asks hclient hpath hwrite =>
      simp only [rank, hclient, ClientPc.rank]
      lia
  | copies hclient hmax hread hbytes =>
      have hlength := congrArg List.length (BytePipe.read_append hread)
      have hpos := List.length_pos_iff.mpr hbytes
      rw [List.length_append] at hlength
      simp only [rank]
      lia
  | ends hclient hk hread =>
      have hlength := congrArg List.length (BytePipe.read_append hread)
      rw [List.nil_append] at hlength
      simp only [rank, hclient, ClientPc.rank]
      lia
  | closed hserver hread => exact absurd hread h.not_closed
  | opens hserver hread hbytes hopen =>
      rcases h.opens hfile hserver hread with ⟨_, _, heq⟩
      cases heq.symm.trans hopen
      simp only [rank, hserver, ServerPc.rank]
      lia
  | exits hserver =>
      show s.client.rank + s.toClient.bytes.length + 0 < _
      simp only [rank, hserver, ServerPc.rank, List.length_nil]
      lia
  | reads hserver hk hmax hrest =>
      simp only [rank, hserver, ServerPc.rank, List.length_drop]
      lia
  | replies hserver hwrite => exact absurd hserver (h.not_replying _)
  | writes hserver hwrite =>
      rcases writeBuff_eq hwrite with ⟨toClient, rfl, hbytes, _⟩
      simp only [rank, hserver, ServerPc.rank, hbytes, List.length_append, readBytes_length]
      lia

theorem rank_init (h : PipeInit s) (length : Nat) : rank length s = 4 + 3 * length := by
  rcases h with ⟨_, htoClient, hclient, hserver⟩
  simp only [rank, htoClient, hclient, hserver, ClientPc.rank, ServerPc.rank, List.length_nil]
  lia

theorem length_run {tr : List PipeTransition} (h : Run PipeInit (pipeStep sys u.stdin) tr s)
    (hfile : sys.files u.pathname = Except.ok file) : tr.length ≤ 4 + 3 * file.length := by
  have hbound : tr.length + rank file.length s ≤ 4 + 3 * file.length := by
    refine run_length_add_rank_le (fun _ _ => ()) () (fun _ s => PipeInv u.pathname s)
      (fun _ => rank file.length) ?_ ?_ h
    · exact fun s hs => ⟨inv_init _ hs, Nat.le_of_eq (rank_init hs _)⟩
    · intro _ s a o t hinv hlast
      have hstep := stepped_of_step hlast
      exact ⟨hinv.step hfile hstep, hinv.rank_lt hfile hstep⟩
  lia

end Progress

def freshPipes : PipeState where
  toServer := ⟨[], [0]⟩
  toClient := ⟨[], [0]⟩
  client := ClientPc.start
  clientBuff := fun _ => NUL
  server := ServerPc.start
  serverBuff := fun _ => NUL

theorem init_freshPipes : PipeInit freshPipes :=
  ⟨rfl, rfl, rfl, rfl⟩

/-!
# The service
-/

section Service

variable {sys : System} {u : Typed} {file : List UInt8}

/-- Every run can be ended, and the client has then received the file and written zeros. -/
theorem run_to_end {tr : List PipeTransition} {s : PipeState}
    (h : Run PipeInit (pipeStep sys u.stdin) tr s) (hname : u.pathname ≠ [])
    (hfile : sys.files u.pathname = Except.ok file) :
    exists more t, Path (pipeStep sys u.stdin) s more t ∧ t.client = ClientPc.done ∧
      output (tr ++ more) = List.replicate file.length 0 := by
  rcases run_to_stuck (fun tr s hrun => length_run hrun hfile) h with ⟨more, t, hmore, hstuck⟩
  have hrun := run_append h hmore
  have hinv := stream_run hrun hfile
  have hdone := hinv.places.done_of_stuck hname hfile hstuck
  refine ⟨more, t, hmore, hdone, ?_⟩
  rw [hinv.zeros, received_file hrun hfile hdone]

structure Exact (sys : System) (stdin file : List UInt8) : Prop where
  ends : forall tr s, Run PipeInit (pipeStep sys stdin) tr s -> Stuck (pipeStep sys stdin) s ->
    s.client = ClientPc.done
  bounded : exists n, forall tr s, Run PipeInit (pipeStep sys stdin) tr s -> tr.length ≤ n
  output : forall tr s, Run PipeInit (pipeStep sys stdin) tr s -> s.client = ClientPc.done ->
    output tr = file

theorem Exact.zeros {content : List UInt8} (h : Exact sys u.stdin file) (hname : u.pathname ≠ [])
    (hfile : sys.files u.pathname = Except.ok content) :
    file = List.replicate content.length 0 := by
  have hfirst : Run PipeInit (pipeStep sys u.stdin) [] freshPipes :=
    ⟨freshPipes, init_freshPipes, Path.nil⟩
  rcases run_to_end hfirst hname hfile with ⟨more, t, hmore, hdone, houtput⟩
  rw [← houtput]
  exact (h.output _ t (run_append hfirst hmore) hdone).symm

/-- Behind an empty line both wait for ever. -/
theorem Exact.name_ne_nil (h : Exact sys u.stdin file) : u.pathname ≠ [] := by
  intro hempty
  have hstep : pipeStep sys u.stdin freshPipes PipeAction.clientStart =
      some ({ freshPipes with
        clientBuff := afterFgets freshPipes.clientBuff 0 MAXLINE u.stdin
        client := ClientPc.copying }, PipeEvent.silent) := by
    have hpath := clientPathname_eq u freshPipes.clientBuff
    rw [hempty] at hpath
    have hwrite : sys.write freshPipes.toServer [] = some freshPipes.toServer :=
      if_pos (Nat.zero_le sys.room)
    simp only [pipeStep, clientStep, hpath, Option.bind_some, hwrite, Option.map_some]
    rfl
  have hrun := run_append ⟨freshPipes, init_freshPipes, Path.nil⟩ (path_cons hstep Path.nil)
  have hstuck : Stuck (pipeStep sys u.stdin) { freshPipes with
      clientBuff := afterFgets freshPipes.clientBuff 0 MAXLINE u.stdin
      client := ClientPc.copying } := by
    intro a
    cases a with
    | clientRead k =>
        simp [pipeStep, clientStep, freshPipes, BytePipe.read]
    | _ => rfl
  cases h.ends _ _ hrun hstuck

theorem Typed.fits_of_exact (hexact : forall sys : System,
    sys.files u.line = Except.ok file -> Exact sys u.stdin file) : u.line.length < MAXLINE := by
  by_contra hlong
  -- the name that is left of a line that is too long is the one of a longer file
  let sys : System :=
    { files := fun path => if path = u.line then Except.ok file else Except.ok (0 :: file)
      room := PIPE_BUF
      room_le := Nat.le_refl _ }
  have h : Exact sys u.stdin file := hexact sys (if_pos rfl)
  have hother : u.pathname ≠ u.line := by
    intro heq
    exact hlong (heq ▸ u.pathname_length_lt)
  have hzeros := congrArg List.length (h.zeros h.name_ne_nil (if_neg hother))
  rw [List.length_replicate, List.length_cons] at hzeros
  lia

theorem Exact.of_zeros (hname : u.pathname ≠ []) (hfile : sys.files u.pathname = Except.ok file)
    (hzero : forall b, b ∈ file -> b = 0) : Exact sys u.stdin file where
  ends _ _ hrun := (stream_run hrun hfile).places.done_of_stuck hname hfile
  bounded := ⟨_, fun _ _ hrun => length_run hrun hfile⟩
  output tr s hrun hdone := by
    rw [(stream_run hrun hfile).zeros, received_file hrun hfile hdone]
    exact (List.eq_replicate_iff.mpr ⟨rfl, hzero⟩).symm

/-- Because of the `memset` the output is right for files of zero bytes only, and because of the
array for lines that fit only. -/
theorem pipe_service_exact_iff (u : Typed) (file : List UInt8) :
    ((forall sys : System, sys.files u.line = Except.ok file -> Exact sys u.stdin file) <->
        u.line ≠ [] ∧ u.line.length < MAXLINE ∧ forall b, b ∈ file -> b = 0) ∧
      (u.line ≠ [] -> u.line.length < MAXLINE -> forall sys : System,
        sys.files u.line = Except.ok file ->
          forall tr s, Run PipeInit (pipeStep sys u.stdin) tr s ->
            (s.client ≠ ClientPc.done -> exists a, pipeStep sys u.stdin s a ≠ none) ∧
              tr.length ≤ 4 + 3 * file.length ∧
              (s.client = ClientPc.done -> received tr = file)) := by
  refine ⟨⟨?_, ?_⟩, ?_⟩
  · intro hexact
    have h := hexact ⟨fun _ => Except.ok file, PIPE_BUF, Nat.le_refl _⟩ rfl
    have hname := h.name_ne_nil
    refine ⟨?_, Typed.fits_of_exact hexact, ?_⟩
    · intro hempty
      apply hname
      rw [Typed.pathname, hempty, List.take_nil]
    · intro b hb
      rw [h.zeros hname rfl] at hb
      exact List.eq_of_mem_replicate hb
  · rintro ⟨hname, hfits, hzero⟩ sys hfile
    rw [← Typed.pathname_of_fits hfits] at hname hfile
    exact Exact.of_zeros hname hfile hzero
  · intro hname hfits sys hfile tr s hrun
    rw [← Typed.pathname_of_fits hfits] at hname hfile
    refine ⟨?_, length_run hrun hfile, received_file hrun hfile⟩
    intro hrunning
    by_contra hnone
    push Not at hnone
    exact hrunning ((stream_run hrun hfile).places.done_of_stuck hname hfile hnone)

end Service

def fileA (file : List UInt8) : System where
  files := fun path => if path = [97] then Except.ok file else Except.error [63]
  room := PIPE_BUF
  room_le := Nat.le_refl _

def typedA : Typed where
  line := [97]
  more := [NEWLINE]
  no_nul := by decide
  no_newline := by decide
  ended := Or.inr ⟨[], rfl⟩
  some_byte := by decide

def threeBytes : List PipeAction :=
  [PipeAction.clientStart, PipeAction.serverStart, PipeAction.serverRead 2,
    PipeAction.serverWrite, PipeAction.clientRead 1, PipeAction.serverRead 1,
    PipeAction.serverWrite, PipeAction.clientRead 256, PipeAction.serverRead 256,
    PipeAction.clientRead 256]

theorem cleared_file_threeLetters :
    exists (tr : List PipeTransition) (s : PipeState),
      Run PipeInit (pipeStep (fileA [120, 121, 122]) typedA.stdin) tr s ∧
        s.client = ClientPc.done ∧ received tr = [120, 121, 122] ∧ output tr = [0, 0, 0] := by
  have hreplay : exists tr s,
      Run PipeInit (pipeStep (fileA [120, 121, 122]) typedA.stdin) tr s ∧
        decide (s.client = ClientPc.done ∧ received tr = [120, 121, 122] ∧
          output tr = [0, 0, 0]) = true :=
    run_of_replay threeBytes init_freshPipes (by decide +kernel)
  rcases hreplay with ⟨tr, s, hrun, htest⟩
  exact ⟨tr, s, hrun, of_decide_eq_true htest⟩

/-- Three zero bytes are delivered, in whatever pieces they are read. -/
theorem pipe_service_exact_iff_zeroBytes :
    Exact (fileA [0, 0, 0]) typedA.stdin [0, 0, 0] ∧
      exists (tr : List PipeTransition) (s : PipeState),
        Run PipeInit (pipeStep (fileA [0, 0, 0]) typedA.stdin) tr s ∧
          s.client = ClientPc.done ∧ tr.length = 10 := by
  refine ⟨(pipe_service_exact_iff typedA [0, 0, 0]).1.mpr ?_ (fileA [0, 0, 0]) rfl, ?_⟩
  · exact ⟨by decide, by decide, by simp⟩
  · have hreplay : exists tr s, Run PipeInit (pipeStep (fileA [0, 0, 0]) typedA.stdin) tr s ∧
        decide (s.client = ClientPc.done ∧ tr.length = 10) = true :=
      run_of_replay threeBytes init_freshPipes (by decide +kernel)
    rcases hreplay with ⟨tr, s, hrun, htest⟩
    exact ⟨tr, s, hrun, of_decide_eq_true htest⟩

end Mainpipe
end InterprocessComm
