import InterprocessComm.PipeMesg.Chunks
import Mathlib.Data.List.Forall2

/-!
# Transfer of a file over two FIFOs

The whole of a transfer, from the line that names the file to the bytes on the standard
output of the client.
-/

namespace InterprocessComm
namespace PipeMesg

open Verification

def pathname (stdin : List UInt8) : List UInt8 :=
  withoutNewline (beforeNul (lineOf (MAXMESGDATA - 1) stdin))

/-- What lets the server send each chunk as it has read it: no zero byte in the file, no chunk
shorter than the pathname or than a chunk before it, and behind a chunk that is longer than the
pathname a zero byte in the memory `ms` of the server. -/
structure SentAsRead (n : Nat) (ms : Mem) (chunks : List (List UInt8)) : Prop where
  zero : 0 ∉ chunks.flatten
  sizes : chunks.Pairwise fun c d => c.length ≤ d.length
  pathname : forall c, c ∈ chunks -> n ≤ c.length
  memory : forall c, c ∈ chunks -> n < c.length -> ms (MESG_DATA + c.length) = 0

section Request

variable {stdin : List UInt8}

theorem pathname_length_lt (stdin : List UInt8) : (pathname stdin).length < MAXMESGDATA := by
  have hline : (pathname stdin).length ≤ MAXMESGDATA - 1 := line_length_le _ _
  exact Nat.lt_of_le_of_lt hline (by decide)

theorem clientRequest_spec (mc : Mem) (hpath : pathname stdin ≠ []) :
    exists m, clientRequest mc stdin = some m ∧
      loadNat 8 m MESG_LEN = (pathname stdin).length ∧
      readBytes m MESG_DATA (pathname stdin).length = pathname stdin := by
  have hline : Contains (afterFgets mc MESG_DATA MAXMESGDATA stdin) MESG_DATA
      (lineOf (MAXMESGDATA - 1) stdin ++ [0]) := by
    cases stdin with
    | nil => exact absurd rfl hpath
    | cons c rest => exact contains_write _ _ _
  generalize hm : afterFgets mc MESG_DATA MAXMESGDATA stdin = m at hline
  have hlength := lineOf_length_le (MAXMESGDATA - 1) stdin
  have hstring : cString m MESG_DATA MAXMESGDATA =
      some (beforeNul (lineOf (MAXMESGDATA - 1) stdin)) := by
    rw [cString_of_contains hline (by simp) (by unfold MAXMESGDATA at *; simp; lia), beforeNul_snoc]
  have hne : beforeNul (lineOf (MAXMESGDATA - 1) stdin) ≠ [] := by
    intro h
    apply hpath
    unfold pathname
    rw [h]
    rfl
  have hcontains := (contains_append.mp (cString_spec hstring).1).1
  have hread := readBytes_withoutNewline hcontains hne
  have hpos := List.length_pos_iff.mpr hne
  unfold clientRequest
  simp only [hm, strlen, hstring, Option.map_some]
  refine ⟨_, rfl, ?_⟩
  have hlength := congrArg List.length hread
  rw [readBytes_length] at hlength
  change _ = (pathname stdin).length at hlength
  change readBytes m MESG_DATA _ = pathname stdin at hread
  change loadNat 8 (storeInt 8 (storeInt 8 m MESG_LEN (if m (MESG_DATA + _) = 10 then _ else _))
    MESG_TYPE 1) MESG_LEN = _ ∧ _
  generalize hlen : (if m (MESG_DATA + ((beforeNul (lineOf (MAXMESGDATA - 1) stdin)).length - 1)) =
    10 then ((beforeNul (lineOf (MAXMESGDATA - 1) stdin)).length - 1 : Int)
    else (beforeNul (lineOf (MAXMESGDATA - 1) stdin)).length) = len at hlength hread ⊢
  have hnonneg : 0 ≤ len := by
    rw [← hlen]
    split <;> lia
  have hlt := pathname_length_lt stdin
  have hload := loadNat_storeInt 8 m MESG_LEN len
  constructor
  · rw [loadNat_storeInt_disjoint (Or.inl (by decide))]
    unfold MAXMESGDATA at hlt
    lia
  · rw [readBytes_storeInt_disjoint (Or.inr (by decide)),
      readBytes_storeInt_disjoint (Or.inr (by decide)), ← hlength]
    exact hread

end Request

/-!
## The server
-/

section Server

variable {files : Files} {ms m : Mem} {path : List UInt8} {chunks : List (List UInt8)}

theorem contains_getElem {a : Int} {bs : List UInt8} (h : Contains m a bs) {k : Nat}
    (hk : k < bs.length) : m (a + k) = bs[k] := by
  unfold Contains readBytes at h
  have hcell := List.getElem_of_eq h (i := k) (by simpa using hk)
  rw [List.getElem_map, List.getElem_range] at hcell
  exact hcell

theorem server_opened (files : Files) (ms : Mem) (hpath : path ≠ [])
    (hlt : path.length < MAXMESGDATA) (hzero : 0 ∉ path)
    (hlen : loadNat 8 m MESG_LEN = path.length)
    (hread : readBytes m MESG_DATA path.length = path) (hopen : files path = Except.ok chunks) :
    exists m0, server files ms (mesgSend m) = serverLoop m0 chunks ∧
      forall k : Nat, m0 (MESG_DATA + k) = 0 <->
        path.length ≤ k ∧ (path.length < k -> ms (MESG_DATA + k) = 0) := by
  have hpos := List.length_pos_iff.mpr hpath
  rcases mesgRecv_mesgSend (m := m) (storeInt 8 ms MESG_TYPE 1) [] (by lia) with
    ⟨m', hrecv, hcontains, hbehind⟩
  rw [hlen, List.append_nil] at hrecv
  rw [hlen, hread] at hcontains
  rw [hlen] at hbehind
  have hended : Contains (writeBytes m' (MESG_DATA + path.length) [NUL]) MESG_DATA
      (path ++ [0]) := by
    rw [contains_append]
    exact ⟨hcontains.frame (Or.inl (Int.le_refl _)), contains_write _ _ _⟩
  refine ⟨writeBytes m' (MESG_DATA + path.length) [NUL], ?_, ?_⟩
  · unfold server
    rw [hrecv]
    simp only
    rw [if_neg (by lia), if_pos ⟨by lia, by lia⟩, cString_of_string hended hzero hlt,
      Option.bind_some, hopen]
  · intro k
    rcases Nat.lt_trichotomy k path.length with hbefore | rfl | hafter
    · have hcell := contains_getElem (contains_append.mp hended).1 hbefore
      rw [hcell]
      constructor
      · intro h
        exact absurd (h ▸ List.getElem_mem hbefore) hzero
      · rintro ⟨hle, _⟩
        lia
    · have hcell := (contains_cons.mp (contains_append.mp hended).2).1
      exact ⟨fun _ => ⟨Nat.le_refl _, fun h => absurd h (Nat.lt_irrefl _)⟩, fun _ => hcell⟩
    · rw [writeBytes_outside (by simp; lia), hbehind _ (by lia),
        storeInt_outside (by unfold MESG_TYPE MESG_DATA; lia)]
      exact ⟨fun h => ⟨Nat.le_of_lt hafter, fun _ => h⟩, fun h => h.2 hafter⟩

/-- The zero bytes that the buffer needs, in terms of the pathname and of the memory of the
server. -/
theorem chunkTexts_opened_iff {m0 : Mem} {n : Nat}
    (hbuffer : forall k : Nat, m0 (MESG_DATA + k) = 0 <->
      n ≤ k ∧ (n < k -> ms (MESG_DATA + k) = 0))
    (hsize : forall c, c ∈ chunks -> c.length < MAXMESGDATA) :
    chunkTexts m0 chunks = some chunks <-> SentAsRead n ms chunks := by
  rw [chunkTexts_self_iff hsize]
  constructor
  · rintro ⟨hzero, hsizes, hcells⟩
    exact {
      zero := hzero
      sizes := hsizes
      pathname := fun c hc => ((hbuffer _).mp (hcells c hc)).1
      memory := fun c hc => ((hbuffer _).mp (hcells c hc)).2 }
  · intro h
    exact ⟨h.zero, h.sizes, fun c hc => (hbuffer _).mpr ⟨h.pathname c hc, h.memory c hc⟩⟩

theorem output_eq_flatten_iff {texts : List (List UInt8)} {m0 : Mem}
    (hne : forall c, c ∈ chunks -> c ≠ []) (htexts : chunkTexts m0 chunks = some texts) :
    readUntilEmpty texts = chunks.flatten <-> texts = chunks := by
  constructor
  · intro houtput
    have hzero : 0 ∉ chunks.flatten := by
      intro h
      rw [← houtput] at h
      rcases mem_readUntilEmpty h with ⟨s, hs, hmem⟩
      exact texts_zero htexts hs hmem
    have hextend := texts_extend hzero htexts
    have htexts_ne : forall s, s ∈ texts -> s ≠ [] := by
      intro s hs hnil
      subst hnil
      rcases List.mem_iff_getElem.mp hs with ⟨i, hi, hget⟩
      have hi' : i < chunks.length := hextend.length_eq ▸ hi
      have hprefix := List.Forall₂.get hextend hi' hi
      rw [List.get_eq_getElem, List.get_eq_getElem, hget, List.prefix_nil] at hprefix
      exact hne _ (List.getElem_mem hi') hprefix
    rw [readUntilEmpty_eq_flatten htexts_ne] at houtput
    exact (eq_of_extend hextend).2 (Nat.le_of_eq (congrArg List.length houtput))
  · rintro rfl
    exact readUntilEmpty_eq_flatten hne

end Server

/-!
# The transfer
-/

/-- For a file that the server opens and that `read` gives in chunks of at most `MAXLINE` bytes,
the client puts out the content of the file exactly when each chunk is sent as it was read. -/
theorem pipemesg_exact_iff (files : Files) (mc ms : Mem) (stdin : List UInt8)
    (chunks : List (List UInt8)) (hpath : pathname stdin ≠ [])
    (hopen : files (pathname stdin) = Except.ok chunks)
    (hchunks : forall c, c ∈ chunks -> 1 ≤ c.length ∧ c.length ≤ MAXLINE) :
    transfer files mc ms stdin = some chunks.flatten <->
      SentAsRead (pathname stdin).length ms chunks := by
  rcases clientRequest_spec mc hpath with ⟨m, hrequest, hlen, hread⟩
  rcases server_opened files ms hpath (pathname_length_lt stdin)
    (zero_not_mem_line _ _) hlen hread hopen with ⟨m0, hserver, hbuffer⟩
  have hsize : forall c, c ∈ chunks -> c.length < MAXMESGDATA := fun c hc =>
    Nat.lt_of_le_of_lt (hchunks c hc).2 (by decide)
  have hne : forall c, c ∈ chunks -> c ≠ [] := fun c hc =>
    List.length_pos_iff.mp (hchunks c hc).1
  rw [← chunkTexts_opened_iff hbuffer hsize]
  unfold transfer
  rw [hrequest, Option.bind_some, hserver]
  cases htexts : chunkTexts m0 chunks with
  | none => simp [serverLoop_none htexts]
  | some texts =>
      rcases clientLoop_serverLoop htexts with ⟨stream, hstream, hclient⟩
      rw [hstream, Option.map_some, Option.some_inj, Option.some_inj, clientOutput,
        hclient _ _ (Nat.lt_succ_self _)]
      exact output_eq_flatten_iff hne htexts

/-- Two full chunks behind a pathname of one byte. -/
theorem pipemesg_exact_iff_twoChunks :
    transfer (fun _ => Except.ok [[104, 105], [106, 107]]) (fun _ => 0) (fun _ => 0) [97, 10] =
      some [104, 105, 106, 107] :=
  (pipemesg_exact_iff _ _ _ _ [[104, 105], [106, 107]] (by decide) rfl (by decide)).mpr
    { zero := by decide
      sizes := by decide
      pathname := by decide
      memory := fun _ _ _ => rfl }

/-- A file that is shorter than its pathname arrives with the rest of the pathname. -/
theorem short_file_fourBytes :
    transfer (fun _ => Except.ok [[104, 105]]) (fun _ => 0) (fun _ => 0) [102, 105, 108, 101, 10] =
        some [104, 105, 108, 101] ∧
      [104, 105, 108, 101] ≠ ([[104, 105]] : List (List UInt8)).flatten := by
  decide +kernel

end PipeMesg
end InterprocessComm
