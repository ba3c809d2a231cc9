import InterprocessComm.Mainpipe.Operations

/-!
# What arrives of the file

However the reads cut the file and the stream, the client receives the bytes of the file in
their order.  It clears its array before it writes them.
-/

namespace InterprocessComm
namespace Mainpipe

open Verification
open PipeMesg (NUL NEWLINE CANT_OPEN)

/-!
# The pathname
-/

/-- What the user types: a line, and behind it its newline or the end of the input. -/
structure Typed where
  line : List UInt8
  more : List UInt8
  no_nul : 0 ∉ line
  no_newline : NEWLINE ∉ line
  ended : more = [] ∨ exists rest, more = NEWLINE :: rest
  some_byte : line ++ more ≠ []

namespace Typed

def stdin (u : Typed) : List UInt8 := u.line ++ u.more

def pathname (u : Typed) : List UInt8 := u.line.take (MAXLINE - 1)

theorem pathname_of_fits {u : Typed} (hfits : u.line.length < MAXLINE) : u.pathname = u.line :=
  List.take_of_length_le (Nat.le_sub_one_of_lt hfits)

theorem pathname_length_lt (u : Typed) : u.pathname.length < MAXLINE :=
  Nat.lt_of_le_of_lt (List.length_take_le _ _) (by decide)

theorem zero_not_mem_pathname (u : Typed) : 0 ∉ u.pathname :=
  fun h => u.no_nul (List.mem_of_mem_take h)

theorem lineOf_stdin (u : Typed) :
    lineOf (MAXLINE - 1) u.stdin = u.pathname ∨
      lineOf (MAXLINE - 1) u.stdin = u.pathname ++ [NEWLINE] := by
  have hline : lineOf (MAXLINE - 1) u.stdin =
      u.pathname ++ lineOf (MAXLINE - 1 - u.line.length) u.more :=
    lineOf_append u.no_newline _ _
  rw [hline]
  generalize MAXLINE - 1 - u.line.length = limit
  rcases u.ended with hend | ⟨rest, hmore⟩
  · left
    rw [hend]
    cases limit <;> exact List.append_nil _
  · rw [hmore]
    cases limit with
    | zero => exact Or.inl (List.append_nil _)
    | succ limit => exact Or.inr rfl

end Typed

theorem clientPathname_eq (u : Typed) (buff : Mem) :
    clientPathname buff u.stdin = some (u.pathname, afterFgets buff 0 MAXLINE u.stdin) := by
  have hne : lineOf (MAXLINE - 1) u.stdin ≠ [] := lineOf_ne_nil (by decide) u.some_byte
  have hcontains : Contains (afterFgets buff 0 MAXLINE u.stdin) 0
      (lineOf (MAXLINE - 1) u.stdin ++ [0]) := by
    unfold afterFgets fgets
    split
    · rename_i hfgets
      split at hfgets
      · cases hfgets
      · cases hfgets
        exact contains_write _ _ _
    · rename_i hfgets
      split at hfgets
      · rename_i hnil
        exact absurd hnil u.some_byte
      · cases hfgets
  have hlength := lineOf_length_le (MAXLINE - 1) u.stdin
  have hclean : 0 ∉ lineOf (MAXLINE - 1) u.stdin ∧
      withoutNewline (lineOf (MAXLINE - 1) u.stdin) = u.pathname := by
    have hpath : NEWLINE ∉ u.pathname := fun h => u.no_newline (List.mem_of_mem_take h)
    rcases u.lineOf_stdin with hline | hline
    · rw [hline]
      exact ⟨u.zero_not_mem_pathname, withoutNewline_of_no_newline hpath⟩
    · rw [hline]
      refine ⟨?_, withoutNewline_snoc _⟩
      intro hzero
      rcases List.mem_append.mp hzero with h | h
      · exact u.zero_not_mem_pathname h
      · cases List.mem_singleton.mp h
  have hstring := cString_of_string hcontains hclean.1
    (Nat.lt_of_le_of_lt hlength (show MAXLINE - 1 < MAXLINE by decide))
  have hread := readBytes_withoutNewline (contains_append.mp hcontains).1 hne
  have hpos := List.length_pos_iff.mpr hne
  unfold clientPathname
  simp only [strlen, hstring, Option.map_some, Option.bind_some]
  rw [if_neg (by lia), ← hclean.2, ← hread, Int.zero_add]
  congr 3
  unfold NEWLINE
  split <;> lia

theorem readBytes_memset (m : Mem) {n : Nat} (hn : n ≤ MAXLINE) :
    readBytes (memset m) 0 n = List.replicate n 0 := by
  have hcontains := contains_write m 0 (List.replicate MAXLINE NUL)
  have hsplit : List.replicate MAXLINE NUL =
      List.replicate n NUL ++ List.replicate (MAXLINE - n) NUL := by
    rw [List.replicate_append_replicate, Nat.add_sub_cancel' hn]
  rw [hsplit] at hcontains
  have hread := readBytes_of_contains hcontains
  rw [← hsplit, List.length_replicate] at hread
  exact hread

/-!
# The two processes
-/

structure PipeInv (path : List UInt8) (s : PipeState) : Prop where
  not_replying : forall n, s.server ≠ ServerPc.replying n
  client_open : s.toServer.writers = [0]
  server_open : s.server ≠ ServerPc.exited -> s.toClient.writers = [0]
  server_closed : s.server = ServerPc.exited -> s.toClient.writers = []
  requested : s.server = ServerPc.start -> s.client = ClientPc.start ∧ s.toServer.bytes = [] ∨
    s.client = ClientPc.copying ∧ s.toServer.bytes = path
  started : s.server ≠ ServerPc.start -> s.client ≠ ClientPc.start
  piece : forall n rest, s.server = ServerPc.writing n rest -> n ≤ MAXLINE
  finished : s.client = ClientPc.done -> s.server = ServerPc.exited ∧ s.toClient.bytes = []

def PipeState.left (file : List UInt8) (s : PipeState) : List UInt8 :=
  match s.server with
  | ServerPc.start => file
  | ServerPc.reading rest => rest
  | ServerPc.writing n rest => readBytes s.serverBuff 0 n ++ rest
  | _ => []

section Steps

variable {sys : System} {u : Typed} {file : List UInt8} {s t : PipeState} {o : PipeEvent}

theorem System.write_eq {p q : BytePipe} {bs : List UInt8} (h : sys.write p bs = some q) :
    q.bytes = p.bytes ++ bs ∧ q.writers = p.writers :=
  (BytePipe.write_eq (Option.ite_none_right_eq_some.mp h).2).2

theorem writeBuff_eq {n : Nat} (h : s.writeBuff sys n = some t) :
    exists toClient : BytePipe, t = { s with toClient := toClient } ∧
      toClient.bytes = s.toClient.bytes ++ readBytes s.serverBuff 0 n ∧
      toClient.writers = s.toClient.writers := by
  rcases Option.map_eq_some_iff.mp h with ⟨toClient, hwrite, hresult⟩
  exact ⟨toClient, hresult.symm, System.write_eq hwrite⟩

theorem openFile_eq {n : Nat} {path : List UInt8} (hpath : 0 ∉ path)
    (hcontains : Contains s.serverBuff 0 path) (hn : n = path.length) (hroom : n ≤ MAXLINE)
    (hfile : sys.files path = Except.ok file) :
    s.openFile sys n =
      some ({ s with serverBuff := writeBytes s.serverBuff n [NUL],
                     server := ServerPc.reading file }, PipeEvent.opened path file) := by
  subst hn
  have hended : Contains (writeBytes s.serverBuff path.length [NUL]) 0 (path ++ [0]) := by
    rw [contains_append]
    constructor
    · apply hcontains.frame
      exact Or.inl (by lia)
    · rw [Int.zero_add]
      exact contains_write _ _ _
  unfold PipeState.openFile
  simp only [cString_of_string hended hpath (Nat.lt_succ_of_le hroom), Option.bind_some, hfile]

theorem PipeInv.opens (h : PipeInv u.pathname s) (hfile : sys.files u.pathname = Except.ok file)
    (hserver : s.server = ServerPc.start) {bytes : List UInt8} {toServer : BytePipe}
    (hread : s.toServer.read MAXLINE = some (bytes, toServer)) :
    s.client = ClientPc.copying ∧ toServer.writers = [0] ∧
      { s with toServer := toServer,
               serverBuff := writeBytes s.serverBuff 0 bytes }.openFile sys bytes.length =
        some ({ s with
          toServer := toServer
          serverBuff := writeBytes (writeBytes s.serverBuff 0 bytes) bytes.length [NUL]
          server := ServerPc.reading file }, PipeEvent.opened u.pathname file) := by
  rcases BytePipe.read_eq hread with ⟨hbytes, _, hwriters, hempty⟩
  rw [h.client_open] at hwriters hempty
  rcases h.requested hserver with ⟨_, hnone⟩ | ⟨hcopying, hpath⟩
  · cases hempty hnone
  · rw [hpath, List.take_of_length_le (Nat.le_of_lt u.pathname_length_lt)] at hbytes
    subst hbytes
    refine ⟨hcopying, hwriters, ?_⟩
    exact openFile_eq u.zero_not_mem_pathname (contains_write _ _ _) rfl
      (Nat.le_of_lt u.pathname_length_lt) hfile

theorem PipeInv.read_end {path : List UInt8} (h : PipeInv path s) {k : Nat} {toClient : BytePipe}
    (hk : 0 < k) (hread : s.toClient.read k = some ([], toClient)) :
    s.server = ServerPc.exited ∧ s.toClient.bytes = [] ∧ toClient.bytes = [] ∧
      toClient.writers = [] := by
  rcases BytePipe.read_eq hread with ⟨hbytes, hrest, hwriters, hempty⟩
  have hnone : s.toClient.bytes = [] := by
    rcases List.take_eq_nil_iff.mp hbytes.symm with hzero | hnone
    · lia
    · exact hnone
  rw [hnone, List.drop_nil] at hrest
  rw [hempty hnone] at hwriters
  refine ⟨?_, hnone, hrest, hwriters⟩
  by_contra hrunning
  rw [h.server_open hrunning] at hempty
  cases hempty hnone

/-- The channel to the server is not closed before the pathname has come. -/
theorem PipeInv.not_closed {path : List UInt8} (h : PipeInv path s) {toServer : BytePipe} :
    s.toServer.read MAXLINE ≠ some ([], toServer) := by
  intro hread
  rcases BytePipe.read_eq hread with ⟨hbytes, _, _, hempty⟩
  rw [h.client_open] at hempty
  rcases List.take_eq_nil_iff.mp hbytes.symm with hzero | hnone
  · cases hzero
  · cases hempty hnone

theorem PipeInv.serves {path : List UInt8} (h : PipeInv path s)
    (hrunning : s.server ≠ ServerPc.exited) (hasked : s.client ≠ ClientPc.start)
    (hclient : t.client = s.client) (htoServer : t.toServer.writers = [0])
    (hstarted : t.server ≠ ServerPc.start) (hreplying : forall n, t.server ≠ ServerPc.replying n)
    (hpiece : forall n rest, t.server = ServerPc.writing n rest -> n ≤ MAXLINE)
    (hopen : t.server ≠ ServerPc.exited -> t.toClient.writers = s.toClient.writers)
    (hclosed : t.server = ServerPc.exited -> t.toClient.writers = []) : PipeInv path t := by
  refine ⟨hreplying, htoServer, ?_, hclosed, ?_, ?_, hpiece, ?_⟩
  · intro hmore
    rw [hopen hmore]
    exact h.server_open hrunning
  · intro hstart
    exact absurd hstart hstarted
  · intro _
    rw [hclient]
    exact hasked
  · intro hdone
    rw [hclient] at hdone
    exact absurd (h.finished hdone).1 hrunning

theorem PipeInv.step (h : PipeInv u.pathname s) (hfile : sys.files u.pathname = Except.ok file)
    (hstep : Stepped sys u.stdin s t o) : PipeInv u.pathname t := by
  cases hstep with
  | @asks path buff toServer hclient hpath hwrite =>
      rw [clientPathname_eq] at hpath
      cases hpath
      rcases System.write_eq hwrite with ⟨hbytes, hwriters⟩
      refine ⟨h.not_replying, hwriters.trans h.client_open, h.server_open, h.server_closed, ?_,
        fun _ => ClientPc.noConfusion, h.piece, ClientPc.noConfusion⟩
      intro hserver
      rcases h.requested hserver with ⟨_, hempty⟩ | ⟨hcopying, _⟩
      · exact Or.inr ⟨rfl, by rw [hbytes, hempty]; rfl⟩
      · cases hclient.symm.trans hcopying
  | @copies k bytes toClient hclient hmax hread hbytes =>
      rcases BytePipe.read_eq hread with ⟨_, _, hwriters, _⟩
      refine ⟨h.not_replying, h.client_open, ?_, ?_, h.requested, h.started, h.piece, ?_⟩
      · intro hrunning
        exact hwriters.trans (h.server_open hrunning)
      · intro hexited
        exact hwriters.trans (h.server_closed hexited)
      · intro hdone
        cases hclient.symm.trans hdone
  | @ends k toClient hclient hk hread =>
      rcases h.read_end hk hread with ⟨hexited, _, hrest, hwriters⟩
      refine ⟨h.not_replying, h.client_open, fun hrunning => absurd hexited hrunning,
        fun _ => hwriters, ?_, fun _ => ClientPc.noConfusion, h.piece, fun _ => ⟨hexited, hrest⟩⟩
      intro hserver
      cases hexited.symm.trans hserver
  | closed hserver hread => exact absurd hread h.not_closed
  | @opens bytes toServer t o hserver hread hbytes hopen =>
      rcases h.opens hfile hserver hread with ⟨hcopying, hwriters, heq⟩
      cases heq.symm.trans hopen
      exact h.serves (by simp [hserver]) (by simp [hcopying]) rfl hwriters ServerPc.noConfusion
        (fun _ => ServerPc.noConfusion) (fun _ _ => ServerPc.noConfusion) (fun _ => rfl)
        ServerPc.noConfusion
  | exits hserver =>
      have hopen := h.server_open (by simp [hserver])
      refine h.serves (by simp [hserver]) (h.started (by simp [hserver])) rfl h.client_open
        ServerPc.noConfusion (fun _ => ServerPc.noConfusion) (fun _ _ => ServerPc.noConfusion)
        (fun hrunning => absurd rfl hrunning) ?_
      intro _
      show s.toClient.writers.erase 0 = []
      rw [hopen]
      rfl
  | @reads k rest hserver hk hmax hrest =>
      refine h.serves (by simp [hserver]) (h.started (by simp [hserver])) rfl h.client_open
        ServerPc.noConfusion (fun _ => ServerPc.noConfusion) ?_ (fun _ => rfl)
        ServerPc.noConfusion
      intro n rest hwriting
      cases hwriting
      exact hmax
  | replies hserver hwrite => exact absurd hserver (h.not_replying _)
  | @writes n rest v hserver hwrite =>
      rcases writeBuff_eq hwrite with ⟨toClient, rfl, hbytes, hwriters⟩
      exact h.serves (by simp [hserver]) (h.started (by simp [hserver])) rfl h.client_open
        ServerPc.noConfusion (fun _ => ServerPc.noConfusion) (fun _ _ => ServerPc.noConfusion)
        (fun _ => hwriters) ServerPc.noConfusion

/-- What the client receives is the next of the bytes that are in the channel or that the server
has left of the file. -/
theorem PipeInv.stream (h : PipeInv u.pathname s) (hfile : sys.files u.pathname = Except.ok file)
    (hstep : Stepped sys u.stdin s t o) :
    o.received ++ (t.toClient.bytes ++ t.left file) = s.toClient.bytes ++ s.left file := by
  cases hstep with
  | asks hclient hpath hwrite => rfl
  | copies hclient hmax hread hbytes =>
      rw [BytePipe.read_append hread, List.append_assoc]
      rfl
  | ends hclient hk hread =>
      rcases h.read_end hk hread with ⟨_, hempty, hrest, _⟩
      simp only [hrest, hempty]
      rfl
  | closed hserver hread => exact absurd hread h.not_closed
  | opens hserver hread hbytes hopen =>
      rcases h.opens hfile hserver hread with ⟨_, _, heq⟩
      cases heq.symm.trans hopen
      unfold PipeState.left
      rw [hserver]
      rfl
  | exits hserver =>
      unfold PipeState.left
      rw [hserver]
      rfl
  | @reads k rest hserver hk hmax hrest =>
      have hread := readBytes_writeBytes s.serverBuff 0 (rest.take k)
      rw [List.length_take, Nat.min_eq_left hrest] at hread
      unfold PipeState.left
      simp only [hread, hserver, List.take_append_drop]
      rfl
  | replies hserver hwrite => exact absurd hserver (h.not_replying _)
  | writes hserver hwrite =>
      rcases writeBuff_eq hwrite with ⟨toClient, rfl, hbytes, hwriters⟩
      unfold PipeState.left
      simp only [hbytes, hserver, List.append_assoc]
      rfl

/-- The `memset` comes before the `write`. -/
theorem PipeInv.zeros (h : PipeInv u.pathname s) (hfile : sys.files u.pathname = Except.ok file)
    (hstep : Stepped sys u.stdin s t o) :
    o.output = List.replicate o.received.length 0 := by
  cases hstep with
  | @copies k bytes toClient hclient hmax hread hbytes =>
      have hlength : bytes.length ≤ MAXLINE := by
        rw [(BytePipe.read_eq hread).1, List.length_take]
        lia
      exact readBytes_memset _ hlength
  | opens hserver hread hbytes hopen =>
      rcases h.opens hfile hserver hread with ⟨_, _, heq⟩
      cases heq.symm.trans hopen
      rfl
  | _ => rfl

theorem inv_init (path : List UInt8) (h : PipeInit s) : PipeInv path s := by
  rcases h with ⟨htoServer, htoClient, hclient, hserver⟩
  refine ⟨?_, by rw [htoServer], fun _ => by rw [htoClient], ?_, ?_, ?_, ?_, ?_⟩
  · intro n hreplying
    cases hserver.symm.trans hreplying
  · intro hexited
    cases hserver.symm.trans hexited
  · intro _
    exact Or.inl ⟨hclient, by rw [htoServer]⟩
  · intro hstarted
    exact absurd hserver hstarted
  · intro n rest hwriting
    cases hserver.symm.trans hwriting
  · intro hdone
    cases hclient.symm.trans hdone

end Steps

/-!
# Runs
-/

section Runs

variable {sys : System} {u : Typed} {file : List UInt8} {tr : List PipeTransition}
  {s : PipeState}

/-- The file is what the client has received, what is in the channel and what the server has
left; the client has written zeros for it. -/
structure StreamInv (path file : List UInt8) (tr : List PipeTransition) (s : PipeState) :
    Prop where
  places : PipeInv path s
  stream : received tr ++ (s.toClient.bytes ++ s.left file) = file
  zeros : output tr = List.replicate (received tr).length 0

theorem stream_run (h : Run PipeInit (pipeStep sys u.stdin) tr s)
    (hfile : sys.files u.pathname = Except.ok file) : StreamInv u.pathname file tr s := by
  refine run_induction (I := fun tr s => StreamInv u.pathname file tr s) ?_ ?_ h
  · intro s hs
    refine ⟨inv_init _ hs, ?_, rfl⟩
    rcases hs with ⟨_, htoClient, _, hserver⟩
    unfold PipeState.left
    rw [hserver, htoClient]
    rfl
  · intro tr s a o t _ hinv hlast
    have hstep := stepped_of_step hlast
    have hreceived : received (tr ++ [⟨s, a, o, t⟩]) = received tr ++ o.received := by
      simp [received]
    have houtput : output (tr ++ [⟨s, a, o, t⟩]) = output tr ++ o.output := by
      simp [output]
    refine ⟨hinv.places.step hfile hstep, ?_, ?_⟩
    · rw [hreceived, List.append_assoc, hinv.places.stream hfile hstep]
      exact hinv.stream
    · rw [houtput, hreceived, hinv.zeros, hinv.places.zeros hfile hstep, List.length_append,
        List.replicate_append_replicate]

theorem received_file (h : Run PipeInit (pipeStep sys u.stdin) tr s)
    (hfile : sys.files u.pathname = Except.ok file) (hdone : s.client = ClientPc.done) :
    received tr = file := by
  have hinv := stream_run h hfile
  rcases hinv.places.finished hdone with ⟨hexited, hempty⟩
  have hstream := hinv.stream
  unfold PipeState.left at hstream
  rw [hexited, hempty, List.append_nil, List.append_nil] at hstream
  exact hstream

end Runs

end Mainpipe
end InterprocessComm
