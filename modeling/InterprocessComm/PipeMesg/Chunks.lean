import InterprocessComm.PipeMesg.Operations

/-!
# Chunks of a file as strings

The server measures each chunk with `strlen` in a buffer that it never clears.  A chunk
is sent as it is exactly when it has no zero byte and the byte behind it, left there by
the pathname, by an earlier chunk or by whatever was in the memory, is zero.
-/

namespace InterprocessComm
namespace PipeMesg

open Verification

/-!
## Messages in the pipe
-/

section Framing

variable {m : Mem}

theorem mesgSend_eq (hlen : loadNat 8 m MESG_LEN ≤ MAXMESGDATA) :
    mesgSend m = readBytes m 0 MESGHDRSIZE ++ readBytes m MESG_DATA (loadNat 8 m MESG_LEN) := by
  have hcount : (MESGHDRSIZE + loadNat 8 m MESG_LEN) % 2 ^ 64 =
      MESGHDRSIZE + loadNat 8 m MESG_LEN := by
    unfold MESGHDRSIZE MAXMESGDATA at *
    lia
  unfold mesgSend
  rw [hcount, readBytes_append]
  rfl

theorem loadNat_header (m mr : Mem) :
    loadNat 8 (writeBytes mr 0 (readBytes m 0 MESGHDRSIZE)) MESG_LEN = loadNat 8 m MESG_LEN := by
  have hheader := contains_write mr 0 (readBytes m 0 MESGHDRSIZE)
  rw [show MESGHDRSIZE = 8 + 8 from rfl, readBytes_append] at hheader ⊢
  have hlen := readBytes_of_contains hheader
  rw [readBytes_length] at hlen
  unfold loadNat MESG_LEN
  rw [hlen]

theorem mesgRecv_mesgSend (mr : Mem) (rest : List UInt8)
    (hlen : loadNat 8 m MESG_LEN ≤ MAXMESGDATA) :
    exists m', mesgRecv mr (mesgSend m ++ rest) =
        Received.returned m' (loadNat 8 m MESG_LEN) rest ∧
      Contains m' MESG_DATA (readBytes m MESG_DATA (loadNat 8 m MESG_LEN)) ∧
      forall x, MESG_DATA + loadNat 8 m MESG_LEN ≤ x -> m' x = mr x := by
  have hstream : mesgSend m ++ rest = readBytes m 0 MESGHDRSIZE ++
      (readBytes m MESG_DATA (loadNat 8 m MESG_LEN) ++ rest) := by
    rw [mesgSend_eq hlen, List.append_assoc]
  have htake : (mesgSend m ++ rest).take MESGHDRSIZE = readBytes m 0 MESGHDRSIZE := by
    rw [hstream, List.take_left' (readBytes_length m 0 MESGHDRSIZE)]
  have hdrop : (mesgSend m ++ rest).drop MESGHDRSIZE =
      readBytes m MESG_DATA (loadNat 8 m MESG_LEN) ++ rest := by
    rw [hstream, List.drop_left' (readBytes_length m 0 MESGHDRSIZE)]
  have hheader : (readBytes m 0 MESGHDRSIZE).length = MESGHDRSIZE := readBytes_length _ _ _
  have hoff : MESG_DATA = (MESGHDRSIZE : Int) := rfl
  have hbehind : forall x, MESG_DATA ≤ x ->
      writeBytes mr 0 (readBytes m 0 MESGHDRSIZE) x = mr x := by
    intro x hx
    apply writeBytes_outside
    rw [hheader]
    lia
  unfold mesgRecv
  simp only [htake, hdrop, hheader, loadNat_header]
  rw [if_neg (by decide), if_neg (by simp)]
  split
  · have hdata : (readBytes m MESG_DATA (loadNat 8 m MESG_LEN) ++ rest).take
        (loadNat 8 m MESG_LEN) = readBytes m MESG_DATA (loadNat 8 m MESG_LEN) :=
      List.take_left' (readBytes_length _ _ _)
    have hrest : (readBytes m MESG_DATA (loadNat 8 m MESG_LEN) ++ rest).drop
        (loadNat 8 m MESG_LEN) = rest := List.drop_left' (readBytes_length _ _ _)
    have hn : Int.bmod (loadNat 8 m MESG_LEN) (2 ^ 64) = loadNat 8 m MESG_LEN := by
      unfold MAXMESGDATA at hlen
      rw [Int.bmod_def]
      split <;> lia
    have haccepted : loadNat 8 m MESG_LEN ≤ SSIZE_MAX := Nat.le_trans hlen (by decide)
    have hvalue : (ReadResult.stored (readBytes m MESG_DATA (loadNat 8 m MESG_LEN))).value %
        2 ^ 64 = loadNat 8 m MESG_LEN := by
      rw [ReadResult.value_stored (by rwa [readBytes_length]), readBytes_length]
    rw [readStream_of_le haccepted, hdata, hvalue, hn, if_neg (not_not_intro rfl)]
    simp only [ReadResult.bytes, readBytes_length, hrest]
    refine ⟨_, rfl, contains_write _ _ _, ?_⟩
    intro x hx
    rw [writeBytes_outside]
    · exact hbehind x (by lia)
    · rw [readBytes_length]
      lia
  · rename_i hzero
    have hnone : loadNat 8 m MESG_LEN = 0 := by lia
    rw [hnone]
    exact ⟨_, rfl, rfl, fun x hx => hbehind x (by lia)⟩

end Framing

/-!
## What the server sends of the chunks
-/

def chunkTexts (m : Mem) : List (List UInt8) -> Option (List (List UInt8))
  | [] => some []
  | chunk :: rest =>
      let m := writeBytes m MESG_DATA chunk
      (cString m MESG_DATA MAXMESGDATA).bind fun s =>
        (chunkTexts (storeInt 8 m MESG_LEN s.length) rest).map (s :: ·)

section Sending

variable {m : Mem} {chunks : List (List UInt8)}

theorem serverLoop_none (h : chunkTexts m chunks = none) : serverLoop m chunks = none := by
  induction chunks generalizing m with
  | nil => cases h
  | cons chunk rest ih =>
      rw [chunkTexts] at h
      rw [serverLoop]
      cases hs : cString (writeBytes m MESG_DATA chunk) MESG_DATA MAXMESGDATA with
      | none => simp only [strlen, hs, Option.map_none, Option.bind_none]
      | some s =>
          simp only [hs, Option.bind_some] at h
          have hrest := ih (Option.map_eq_none_iff.mp h)
          simp only [strlen, hs, Option.map_some, Option.bind_some, hrest, Option.map_none]

theorem stored_string {s : List UInt8} (hs : cString m MESG_DATA MAXMESGDATA = some s) :
    loadNat 8 (storeInt 8 m MESG_LEN s.length) MESG_LEN = s.length ∧
      readBytes (storeInt 8 m MESG_LEN s.length) MESG_DATA s.length = s ∧
      s.length ≤ MAXMESGDATA := by
  rcases cString_spec hs with ⟨hcontains, _, hlength⟩
  have hload := loadNat_storeInt 8 m MESG_LEN s.length
  unfold MAXMESGDATA at hlength
  refine ⟨by lia, ?_, Nat.le_of_lt hlength⟩
  rw [readBytes_storeInt_disjoint (Or.inr (by decide))]
  exact readBytes_of_contains hcontains

theorem clientLoop_serverLoop {texts : List (List UInt8)} (h : chunkTexts m chunks = some texts) :
    exists stream, serverLoop m chunks = some stream ∧
      forall fuel mr, stream.length < fuel ->
        clientLoop fuel mr stream = readUntilEmpty texts := by
  induction chunks generalizing m texts with
  | nil =>
      cases h
      refine ⟨[], rfl, ?_⟩
      intro fuel mr hfuel
      cases fuel with
      | zero => cases hfuel
      | succ fuel => rfl
  | cons chunk rest ih =>
      rw [chunkTexts] at h
      rcases Option.bind_eq_some_iff.mp h with ⟨s, hs, hrest⟩
      rcases Option.map_eq_some_iff.mp hrest with ⟨texts', htexts, rfl⟩
      rcases ih htexts with ⟨stream, hstream, hclient⟩
      rcases stored_string hs with ⟨hlen, hdata, hle⟩
      have hfits := Nat.le_trans (Nat.le_of_eq hlen) hle
      rw [serverLoop]
      simp only [strlen, hs, Option.map_some, Option.bind_some, hstream]
      refine ⟨_, rfl, ?_⟩
      intro fuel mr hfuel
      rcases mesgRecv_mesgSend mr stream hfits with ⟨m', hrecv, hcontains, _⟩
      rw [hlen, hdata] at hcontains
      rw [hlen] at hrecv
      cases fuel with
      | zero => cases hfuel
      | succ fuel =>
          rw [clientLoop, hrecv, readUntilEmpty_cons]
          simp only
          rcases eq_or_ne s [] with rfl | hne
          · rfl
          · have hpos := List.length_pos_iff.mpr hne
            rw [if_pos (by lia), if_neg hne, Int.toNat_natCast, hcontains, hclient]
            rw [List.length_append, mesgSend_eq hfits, List.length_append,
              readBytes_length] at hfuel
            unfold MESGHDRSIZE at hfuel
            lia

theorem contains_prefix_of_le {a : Int} {bs cs : List UInt8} (hbs : Contains m a bs)
    (hcs : Contains m a cs) (hle : bs.length ≤ cs.length) : bs <+: cs := by
  rcases Nat.exists_eq_add_of_le hle with ⟨k, hk⟩
  unfold Contains at hbs hcs
  rw [hk, readBytes_append, hbs] at hcs
  exact ⟨_, hcs⟩

theorem chunk_of_text {chunk s : List UInt8} (hzero : 0 ∉ chunk)
    (hs : cString (writeBytes m MESG_DATA chunk) MESG_DATA MAXMESGDATA = some s) : chunk <+: s := by
  rcases cString_spec hs with ⟨hcontains, _, _⟩
  have hchunk := contains_write m MESG_DATA chunk
  rcases Nat.lt_or_ge s.length chunk.length with hlt | hge
  · -- the zero behind the string would be in the chunk
    rcases contains_prefix_of_le hcontains hchunk (by simp; lia) with ⟨rest, hrest⟩
    exact absurd (hrest ▸ by simp) hzero
  · exact contains_prefix_of_le hchunk (contains_append.mp hcontains).1 hge

theorem texts_extend {texts : List (List UInt8)} (hzero : 0 ∉ chunks.flatten)
    (h : chunkTexts m chunks = some texts) : List.Forall₂ (· <+: ·) chunks texts := by
  induction chunks generalizing m texts with
  | nil =>
      cases h
      exact List.Forall₂.nil
  | cons chunk rest ih =>
      rw [chunkTexts] at h
      rcases Option.bind_eq_some_iff.mp h with ⟨s, hs, hrest⟩
      rcases Option.map_eq_some_iff.mp hrest with ⟨texts', htexts, rfl⟩
      rw [List.flatten_cons, List.mem_append, not_or] at hzero
      exact List.Forall₂.cons (chunk_of_text hzero.1 hs) (ih hzero.2 htexts)

theorem eq_of_extend {texts : List (List UInt8)} (h : List.Forall₂ (· <+: ·) chunks texts) :
    chunks.flatten.length ≤ texts.flatten.length ∧
      (texts.flatten.length ≤ chunks.flatten.length -> texts = chunks) := by
  induction h with
  | nil => exact ⟨Nat.le_refl _, fun _ => rfl⟩
  | cons hfirst _ ih =>
      rcases ih with ⟨hle, heq⟩
      have hfirst' := hfirst.length_le
      simp only [List.flatten_cons, List.length_append]
      refine ⟨Nat.add_le_add hfirst' hle, ?_⟩
      intro htotal
      rw [heq (by lia), hfirst.eq_of_length (by lia)]

theorem texts_zero {texts : List (List UInt8)} (h : chunkTexts m chunks = some texts)
    {s : List UInt8} (hs : s ∈ texts) : 0 ∉ s := by
  induction chunks generalizing m texts with
  | nil =>
      cases h
      cases hs
  | cons chunk rest ih =>
      rw [chunkTexts] at h
      rcases Option.bind_eq_some_iff.mp h with ⟨first, hfirst, hrest⟩
      rcases Option.map_eq_some_iff.mp hrest with ⟨texts', htexts, rfl⟩
      rcases List.mem_cons.mp hs with rfl | hs
      · exact (cString_spec hfirst).2.1
      · exact ih htexts hs

theorem chunk_sent_iff {chunk : List UInt8} (hsize : chunk.length < MAXMESGDATA) :
    cString (writeBytes m MESG_DATA chunk) MESG_DATA MAXMESGDATA = some chunk <->
      0 ∉ chunk ∧ m (MESG_DATA + chunk.length) = 0 := by
  have hbehind : writeBytes m MESG_DATA chunk (MESG_DATA + chunk.length) =
      m (MESG_DATA + chunk.length) := writeBytes_outside (by lia)
  constructor
  · intro h
    rcases cString_spec h with ⟨hcontains, hzero, _⟩
    have hlast := (contains_cons.mp (contains_append.mp hcontains).2).1
    exact ⟨hzero, hbehind.symm.trans hlast⟩
  · rintro ⟨hzero, hlast⟩
    apply cString_of_string _ hzero hsize
    exact contains_append.mpr ⟨contains_write _ _ _, contains_cons.mpr ⟨hbehind.trans hlast, rfl⟩⟩

/-- The buffer after a chunk without a zero byte has a zero behind the next one if the next one
is not shorter and the buffer had a zero there before. -/
theorem zero_behind_iff {chunk : List UInt8} (hzero : 0 ∉ chunk) (n k : Nat) :
    storeInt 8 (writeBytes m MESG_DATA chunk) MESG_LEN n (MESG_DATA + k) = 0 <->
      chunk.length ≤ k ∧ m (MESG_DATA + k) = 0 := by
  rw [storeInt_outside (by unfold MESG_LEN MESG_DATA; lia)]
  rcases Nat.lt_or_ge k chunk.length with hlt | hge
  · have hcell : writeBytes m MESG_DATA chunk (MESG_DATA + k) = chunk[k] := by
      have hsub : (MESG_DATA + (k : Int) - MESG_DATA).toNat = k := by lia
      rw [writeBytes, if_pos ⟨by lia, by lia⟩, hsub, List.getD_eq_getElem _ _ hlt]
    rw [hcell]
    constructor
    · intro h
      exact absurd (h ▸ List.getElem_mem hlt) hzero
    · rintro ⟨hle, _⟩
      lia
  · rw [writeBytes_outside (by lia)]
    exact ⟨fun h => ⟨hge, h⟩, fun h => h.2⟩

/-- The chunks are sent as they are when none has a zero byte, none is shorter than one before
it, and the buffer has a zero behind each. -/
theorem chunkTexts_self_iff (hsize : forall c, c ∈ chunks -> c.length < MAXMESGDATA) :
    chunkTexts m chunks = some chunks <->
      0 ∉ chunks.flatten ∧ chunks.Pairwise (fun c d => c.length ≤ d.length) ∧
        forall c, c ∈ chunks -> m (MESG_DATA + c.length) = 0 := by
  induction chunks generalizing m with
  | nil => simp [chunkTexts]
  | cons chunk rest ih =>
      have hchunk := chunk_sent_iff (m := m) (hsize chunk List.mem_cons_self)
      have hrest := ih
        (m := storeInt 8 (writeBytes m MESG_DATA chunk) MESG_LEN chunk.length)
        fun c hc => hsize c (List.mem_cons_of_mem chunk hc)
      rw [chunkTexts]
      constructor
      · intro h
        rcases Option.bind_eq_some_iff.mp h with ⟨s, hs, hmap⟩
        rcases Option.map_eq_some_iff.mp hmap with ⟨texts, htexts, hcons⟩
        rcases List.cons.inj hcons with ⟨rfl, rfl⟩
        rcases hchunk.mp hs with ⟨hzero, hbehind⟩
        rcases hrest.mp htexts with ⟨hzero', hsizes, hbehind'⟩
        refine ⟨?_, List.pairwise_cons.mpr ⟨?_, hsizes⟩, ?_⟩
        · rw [List.flatten_cons, List.mem_append, not_or]
          exact ⟨hzero, hzero'⟩
        · intro d hd
          exact ((zero_behind_iff hzero _ _).mp (hbehind' d hd)).1
        · intro c hc
          rcases List.mem_cons.mp hc with rfl | hc
          · exact hbehind
          · exact ((zero_behind_iff hzero _ _).mp (hbehind' c hc)).2
      · rintro ⟨hzero, hsizes, hbehind⟩
        rw [List.flatten_cons, List.mem_append, not_or] at hzero
        rcases List.pairwise_cons.mp hsizes with ⟨hfirst, hsizes⟩
        rw [hchunk.mpr ⟨hzero.1, hbehind chunk List.mem_cons_self⟩, Option.bind_some,
          hrest.mpr ⟨hzero.2, hsizes, fun c hc => (zero_behind_iff hzero.1 _ _).mpr
            ⟨hfirst c hc, hbehind c (List.mem_cons_of_mem chunk hc)⟩⟩]
        rfl

end Sending

end PipeMesg
end InterprocessComm
