import InterprocessComm.Fifoclieser.Operations
import InterprocessComm.Lib.Cuts

/-!
# readline

The `readline` of the servers, called again and again until a stream is at its end.  It
stops at a newline and at a byte that is equal to `EOF`, and it finds out that the array is
full by a byte that it has taken from the stream already.
-/

namespace InterprocessComm
namespace Fifoclieser

open Verification
open Svmsg (NUL NEWLINE)

/-!
# The function
-/

/-- The loop around `read`, on what is left of the stream: the array, the count that is
returned, and the rest. -/
def readlineLoop (maxnum : Nat) (buff : Mem) (count : Nat) :
    List UInt8 -> Mem × Nat × List UInt8
  | [] => (writeBytes buff count [NUL], count, [])
  | c :: rest =>
      match readByte maxnum buff count c with
      | Readline.more buff count => readlineLoop maxnum buff count rest
      | Readline.returned buff count => (buff, count, rest)

def readline (fd : Int) (buff : Mem) (maxnum : Nat) (stream : List UInt8) :
    Mem × Nat × List UInt8 :=
  if fd < 0 then
    (buff, 0, stream)
  else
    readlineLoop maxnum buff 0 stream

structure Chunk where
  text : List UInt8
  ending : UInt8
deriving DecidableEq

/-- The calls of `readline` until one returns 0; `buffs` is what the array holds when it is
called. -/
def chunks (fd : Int) (maxnum : Nat) (buffs : Nat -> Mem) :
    Nat -> List UInt8 -> Option (List Chunk)
  | 0, _ => none
  | fuel + 1, stream =>
      let (buff, n, rest) := readline fd (buffs fuel) maxnum stream
      if n = 0 then
        some []
      else
        (chunks fd maxnum buffs fuel rest).map (⟨readBytes buff 0 n, buff n⟩ :: ·)

/-!
# What it is for
-/

/-- The chunks are the stream: each is a string of at most `maxnum` bytes, ends behind the
first newline, and ends before it only if it is full or the last one. -/
structure ReadlineLaw (maxnum : Nat) (stream : List UInt8) (cs : List Chunk) : Prop where
  concat : cs.flatMap Chunk.text = stream
  length_le : forall c, c ∈ cs -> c.text.length ≤ maxnum
  terminated : forall c, c ∈ cs -> c.ending = NUL
  newline_last : forall c, c ∈ cs -> NEWLINE ∉ c.text.dropLast
  full_or_last : forall front c back, cs = front ++ c :: back ->
    c.text.getLast? = some NEWLINE ∨ c.text.length = maxnum ∨ back = []

def isEnd (c : UInt8) : Bool := c = NEWLINE ∨ c = EOF

/-- No line is longer than `maxnum`, and a line that ends with a byte equal to `EOF` has just
that length or is the last one. -/
def LinesFit (maxnum : Nat) (stream : List UInt8) : Prop :=
  (forall line, line ∈ cuts isEnd stream -> line.length ≤ maxnum) ∧
    forall front line back, cuts isEnd stream = front ++ line :: back ->
      line.getLast? = some EOF -> line.length = maxnum ∨ back = []

/-!
# One call
-/

section Call

variable {buff : Mem} {maxnum : Nat} {front body stream : List UInt8} {c : UInt8}

theorem isEnd_iff : isEnd c = true <-> c = NEWLINE ∨ c = EOF := decide_eq_true_iff

theorem readByte_more (hcontains : Contains buff 0 front) (hroom : front.length < maxnum)
    (hc : isEnd c = false) :
    exists buff', readByte maxnum buff front.length c =
        Readline.more buff' (front ++ [c]).length ∧ Contains buff' 0 (front ++ [c]) := by
  have hnot : ¬ (c = NEWLINE ∨ c = EOF) := of_decide_eq_false hc
  unfold readByte
  rw [if_neg (Nat.ne_of_lt hroom)]
  simp only
  rw [if_neg hnot, List.length_append, List.length_singleton]
  refine ⟨_, rfl, contains_append.mpr ⟨?_, ?_⟩⟩
  · exact hcontains.frame (Or.inl (by lia))
  · rw [Int.zero_add]
    exact contains_write _ _ _

theorem readByte_returned (hcontains : Contains buff 0 front) (hroom : front.length < maxnum)
    (hc : isEnd c = true) :
    exists buff', readByte maxnum buff front.length c =
        Readline.returned buff' (front ++ [c]).length ∧
      Contains buff' 0 (front ++ [c] ++ [NUL]) := by
  unfold readByte
  rw [if_neg (Nat.ne_of_lt hroom)]
  simp only
  rw [if_pos (isEnd_iff.mp hc), List.length_append, List.length_singleton]
  refine ⟨_, rfl, contains_append.mpr ⟨contains_append.mpr ⟨?_, ?_⟩, ?_⟩⟩
  · apply Contains.frame
    · exact hcontains.frame (Or.inl (by lia))
    · exact Or.inl (by lia)
  · rw [Int.zero_add]
    apply Contains.frame
    · exact contains_write _ _ _
    · exact Or.inl (by simp)
  · have hplace : (0 : Int) + (front ++ [c]).length = (front.length : Int) + 1 := by simp
    rw [hplace]
    exact contains_write _ _ _

theorem readlineLoop_body (hbody : forall y, y ∈ body -> isEnd y = false)
    (hcontains : Contains buff 0 front) (hroom : front.length + body.length ≤ maxnum)
    (more : List UInt8) :
    exists buff', readlineLoop maxnum buff front.length (body ++ more) =
        readlineLoop maxnum buff' (front ++ body).length more ∧
      Contains buff' 0 (front ++ body) := by
  induction body generalizing buff front with
  | nil => exact ⟨buff, by simp, by simpa using hcontains⟩
  | cons y body ih =>
      rw [List.length_cons] at hroom
      rcases readByte_more hcontains (show front.length < maxnum by lia)
        (hbody y List.mem_cons_self) with ⟨buff', hbyte, hnext⟩
      rcases ih (fun w hw => hbody w (List.mem_cons_of_mem y hw)) hnext
        (by rw [List.length_append, List.length_singleton]; lia) with ⟨last, hloop, hlast⟩
      rw [List.append_assoc, List.singleton_append] at hlast hloop
      refine ⟨last, ?_, hlast⟩
      rw [List.cons_append, readlineLoop, hbyte]
      exact hloop

theorem readlineLoop_line (hbody : forall y, y ∈ body -> isEnd y = false)
    (hroom : body.length < maxnum) (hc : isEnd c = true) (buff : Mem) (rest : List UInt8) :
    exists buff', readlineLoop maxnum buff 0 (body ++ c :: rest) =
        (buff', (body ++ [c]).length, rest) ∧ Contains buff' 0 (body ++ [c] ++ [NUL]) := by
  have hnothing : Contains buff 0 [] := rfl
  rcases readlineLoop_body hbody hnothing (by simpa using Nat.le_of_lt hroom) (c :: rest) with
    ⟨buff', hloop, hcontains⟩
  rw [List.nil_append] at hcontains hloop
  rcases readByte_returned hcontains hroom hc with ⟨last, hbyte, hended⟩
  rw [List.length_nil, readlineLoop, hbyte] at hloop
  exact ⟨last, hloop, hended⟩

/-- The byte that does not fit is lost, and the string is not ended. -/
theorem readlineLoop_full (buff : Mem) (maxnum : Nat) (lost : UInt8) (rest : List UInt8) :
    readlineLoop maxnum buff maxnum (lost :: rest) = (buff, maxnum, rest) := by
  simp [readlineLoop, readByte]

theorem readline_end {fd : Int} (hfd : 0 ≤ fd) (buff : Mem) (maxnum : Nat) :
    readline fd buff maxnum [] = (writeBytes buff 0 [NUL], 0, []) :=
  if_neg (Int.not_lt.mpr hfd)

/-- What a call makes of a stream: a line that fits, or a full array and a lost byte. -/
def Reads (maxnum : Nat) (stream : List UInt8) : Mem × Nat × List UInt8 -> Prop
  | (buff, n, rest) =>
      exists text, n = text.length ∧ text ≠ [] ∧ Contains buff 0 text ∧
        ((cuts isEnd stream = text :: cuts isEnd rest ∧ text.length ≤ maxnum ∧
            Contains buff 0 (text ++ [NUL])) ∨
          exists lost line, stream = text ++ lost :: rest ∧ line ∈ cuts isEnd stream ∧
            maxnum < line.length)

theorem reads_long {lost : UInt8} {rest line : List UInt8} (hmax : 1 ≤ maxnum)
    (hfront : forall y, y ∈ front -> isEnd y = false) (hlength : front.length = maxnum)
    (hline : line ∈ cuts isEnd (front ++ lost :: rest)) (hlong : maxnum < line.length)
    (buff : Mem) :
    Reads maxnum (front ++ lost :: rest) (readlineLoop maxnum buff 0 (front ++ lost :: rest)) := by
  have hnothing : Contains buff 0 [] := rfl
  rcases readlineLoop_body hfront hnothing (Nat.le_of_eq (by simpa using hlength))
    (lost :: rest) with ⟨buff', hloop, hcontains⟩
  have hresult : readlineLoop maxnum buff 0 (front ++ lost :: rest) =
      (buff', front.length, rest) := by
    rw [List.length_nil, List.nil_append, hlength, readlineLoop_full] at hloop
    rw [hloop, hlength]
  have hne : front ≠ [] := by
    rintro rfl
    rw [List.length_nil] at hlength
    lia
  rw [hresult]
  exact ⟨front, rfl, hne, hcontains, Or.inr ⟨lost, line, rfl, hline, hlong⟩⟩

theorem reads_long_body {more : List UInt8} (hmax : 1 ≤ maxnum)
    (hbody : forall y, y ∈ body -> isEnd y = false) (hlong : maxnum < body.length)
    {line : List UInt8} (hline : line ∈ cuts isEnd (body ++ more)) (hle : body.length ≤ line.length)
    (buff : Mem) :
    Reads maxnum (body ++ more) (readlineLoop maxnum buff 0 (body ++ more)) := by
  rcases Nat.exists_eq_add_of_lt hlong with ⟨k, hk⟩
  have hdrop : (body.drop maxnum).length = k + 1 := by
    rw [List.length_drop]
    lia
  cases hrest : body.drop maxnum with
  | nil =>
      rw [hrest] at hdrop
      cases hdrop
  | cons lost rest =>
      have hsplit : body ++ more = body.take maxnum ++ lost :: (rest ++ more) := by
        rw [← List.cons_append, ← hrest, ← List.append_assoc, List.take_append_drop]
      have hlength : (body.take maxnum).length = maxnum := by
        rw [List.length_take]
        lia
      rw [hsplit] at hline ⊢
      exact reads_long hmax (fun y hy => hbody y (List.mem_of_mem_take hy)) hlength hline
        (by lia) buff

theorem reads_stream (hmax : 1 ≤ maxnum) (hstream : stream ≠ []) (buff : Mem) :
    Reads maxnum stream (readlineLoop maxnum buff 0 stream) := by
  have hnothing : Contains buff 0 [] := rfl
  rcases body_cases isEnd stream with ⟨body, hbody, rfl | ⟨c, rest, hc, rfl⟩⟩
  · have hcuts := cuts_body hbody hstream
    rcases Nat.lt_or_ge maxnum stream.length with hlong | hfits
    · have hcut : stream ∈ cuts isEnd (stream ++ []) := by
        rw [List.append_nil, hcuts]
        exact List.mem_singleton_self _
      have hread := reads_long_body hmax hbody hlong hcut (Nat.le_refl _) buff
      rwa [List.append_nil] at hread
    · rcases readlineLoop_body hbody hnothing (by simpa using hfits) [] with
        ⟨buff', hloop, hcontains⟩
      rw [List.append_nil, List.nil_append, List.length_nil] at hloop
      rw [List.nil_append] at hcontains
      rw [hloop]
      have hended : Contains (writeBytes buff' stream.length [NUL]) 0 (stream ++ [NUL]) := by
        rw [contains_append, Int.zero_add]
        exact ⟨hcontains.frame (Or.inl (by lia)), contains_write _ _ _⟩
      exact ⟨stream, rfl, hstream, (contains_append.mp hended).1,
        Or.inl ⟨hcuts, hfits, hended⟩⟩
  · have hcuts := cuts_append hbody hc rest
    have hfirst : body ++ [c] ∈ cuts isEnd (body ++ c :: rest) := by
      rw [hcuts]
      exact List.mem_cons_self
    have hlength : (body ++ [c]).length = body.length + 1 := by simp
    rcases Nat.lt_trichotomy maxnum body.length with hlong | hfull | hfits
    · exact reads_long_body hmax hbody hlong hfirst (by lia) buff
    · exact reads_long hmax hbody hfull.symm hfirst (by lia) buff
    · rcases readlineLoop_line hbody hfits hc buff rest with ⟨last, hloop, hended⟩
      rw [hloop]
      exact ⟨body ++ [c], rfl, by simp, (contains_append.mp hended).1,
        Or.inl ⟨hcuts, by lia, hended⟩⟩

end Call

/-!
# All calls
-/

section Calls

variable {fd : Int} {maxnum : Nat} {stream : List UInt8} {cs : List Chunk}

/-- The calls come to an end; their chunks are the lines of the stream where all of them fit,
and otherwise some bytes are missing. -/
theorem chunks_spec (hfd : 0 ≤ fd) (hmax : 1 ≤ maxnum) (buffs : Nat -> Mem) {fuel : Nat}
    (hfuel : stream.length < fuel) :
    exists cs, chunks fd maxnum buffs fuel stream = some cs ∧
      ((cs.map Chunk.text = cuts isEnd stream ∧
          forall c, c ∈ cs -> c.text.length ≤ maxnum ∧ c.ending = NUL) ∨
        (cs.flatMap Chunk.text).length < stream.length ∧
          exists line, line ∈ cuts isEnd stream ∧ maxnum < line.length) := by
  induction fuel generalizing stream with
  | zero => exact absurd hfuel (Nat.not_lt_zero _)
  | succ fuel ih =>
      rcases eq_or_ne stream [] with rfl | hstream
      · refine ⟨[], ?_, Or.inl ⟨rfl, by simp⟩⟩
        simp [chunks, readline_end hfd]
      · have hread := reads_stream hmax hstream (buffs fuel)
        have hcall : readline fd (buffs fuel) maxnum stream =
            readlineLoop maxnum (buffs fuel) 0 stream := if_neg (Int.not_lt.mpr hfd)
        rw [← hcall] at hread
        rcases hresult : readline fd (buffs fuel) maxnum stream with ⟨buff, n, rest⟩
        rw [hresult] at hread
        rcases hread with ⟨text, rfl, hne, hcontains, hkind⟩
        have hpos : text.length ≠ 0 := fun hzero => hne (List.length_eq_zero_iff.mp hzero)
        have htext : readBytes buff 0 text.length = text := hcontains
        have hchunks : chunks fd maxnum buffs (fuel + 1) stream =
            (chunks fd maxnum buffs fuel rest).map (⟨text, buff text.length⟩ :: ·) := by
          simp only [chunks, hresult, if_neg hpos, htext]
        rw [hchunks]
        rcases hkind with ⟨hcuts, hfits, hended⟩ | ⟨lost, line, hsplit, hline, hlong⟩
        · have hsplit : stream = text ++ rest := by
            rw [← cuts_flatten (p := isEnd) stream, hcuts, List.flatten_cons, cuts_flatten]
          have hlength := congrArg List.length hsplit
          rw [List.length_append] at hlength
          have hrest : rest.length < fuel := by lia
          rcases ih hrest with ⟨cs, hcs, hlines⟩
          have hzero : buff text.length = NUL := by
            have hlast := (contains_cons.mp (contains_append.mp hended).2).1
            rwa [Int.zero_add] at hlast
          refine ⟨⟨text, buff text.length⟩ :: cs, by rw [hcs]; rfl, ?_⟩
          rcases hlines with ⟨hmap, hall⟩ | ⟨hless, line, hline, hlong⟩
          · refine Or.inl ⟨by rw [List.map_cons, hmap, hcuts], ?_⟩
            intro c hc
            rcases List.mem_cons.mp hc with rfl | hc
            · exact ⟨hfits, hzero⟩
            · exact hall c hc
          · refine Or.inr ⟨?_, line, ?_, hlong⟩
            · rw [List.flatMap_cons, List.length_append]
              lia
            · rw [hcuts]
              exact List.mem_cons_of_mem _ hline
        · have hlength := congrArg List.length hsplit
          rw [List.length_append, List.length_cons] at hlength
          have hrest : rest.length < fuel := by lia
          rcases ih hrest with ⟨cs, hcs, hlines⟩
          refine ⟨⟨text, buff text.length⟩ :: cs, by rw [hcs]; rfl,
            Or.inr ⟨?_, line, hline, hlong⟩⟩
          have hle : (cs.flatMap Chunk.text).length ≤ rest.length := by
            rcases hlines with ⟨hmap, _⟩ | ⟨hless, _⟩
            · rw [List.flatMap_def, hmap, cuts_flatten]
            · exact Nat.le_of_lt hless
          rw [List.flatMap_cons, List.length_append]
          lia

theorem law_iff_of_lines (hmap : cs.map Chunk.text = cuts isEnd stream)
    (hall : forall c, c ∈ cs -> c.text.length ≤ maxnum ∧ c.ending = NUL) :
    ReadlineLaw maxnum stream cs <-> LinesFit maxnum stream := by
  constructor
  · intro hlaw
    constructor
    · intro line hline
      rw [← hmap] at hline
      rcases List.mem_map.mp hline with ⟨c, hc, rfl⟩
      exact (hall c hc).1
    · intro front line back hcuts hlast
      rw [← hmap] at hcuts
      rcases List.map_eq_append_iff.mp hcuts with ⟨front', cs', rfl, _, hrest⟩
      rcases List.map_eq_cons_iff.mp hrest with ⟨c, back', rfl, rfl, hback⟩
      rcases hlaw.full_or_last front' c back' rfl with hnewline | hfull | hnone
      · rw [hlast] at hnewline
        cases hnewline
      · exact Or.inl hfull
      · rw [hnone] at hback
        exact Or.inr hback.symm
  · rintro ⟨_, hends⟩
    have hmem : forall c, c ∈ cs -> c.text ∈ cuts isEnd stream := by
      intro c hc
      rw [← hmap]
      exact List.mem_map_of_mem hc
    constructor
    · rw [List.flatMap_def, hmap, cuts_flatten]
    · exact fun c hc => (hall c hc).1
    · exact fun c hc => (hall c hc).2
    · intro c hc hnewline
      have hnone := not_mem_dropLast_cut (hmem c hc) hnewline
      cases hnone
    · rintro front c back rfl
      have hcuts : cuts isEnd stream =
          front.map Chunk.text ++ c.text :: back.map Chunk.text := by
        rw [← hmap, List.map_append, List.map_cons]
      rcases cut_ends hcuts with hnone | ⟨x, hlast, hx⟩
      · exact Or.inr (Or.inr (List.map_eq_nil_iff.mp hnone))
      · rcases isEnd_iff.mp hx with rfl | rfl
        · exact Or.inl hlast
        · rcases hends _ _ _ hcuts hlast with hfull | hnone
          · exact Or.inr (Or.inl hfull)
          · exact Or.inr (Or.inr (List.map_eq_nil_iff.mp hnone))

/-- Repeated calls of `readline` bring a stream through as strings that end behind their
newline exactly if every line fits, and no byte equal to `EOF` ends one too early. -/
theorem readline_law_iff (hfd : 0 ≤ fd) (hmax : 1 ≤ maxnum) (buffs : Nat -> Mem)
    (stream : List UInt8) :
    exists cs, chunks fd maxnum buffs (stream.length + 1) stream = some cs ∧
      (ReadlineLaw maxnum stream cs <-> LinesFit maxnum stream) := by
  rcases chunks_spec hfd hmax buffs (Nat.lt_succ_self stream.length) with ⟨cs, hcs, hlines⟩
  refine ⟨cs, hcs, ?_⟩
  rcases hlines with ⟨hmap, hall⟩ | ⟨hless, line, hline, hlong⟩
  · exact law_iff_of_lines hmap hall
  · apply iff_of_false
    · intro hlaw
      rw [hlaw.concat] at hless
      exact Nat.lt_irrefl _ hless
    · intro hfit
      have hle := hfit.1 line hline
      lia

end Calls

/-- The lines `"ab\n"` and `"c\n"` in an array for three characters. -/
theorem readline_law_iff_twoLines :
    exists cs, chunks 0 3 (fun _ _ => 7) 6 [97, 98, 10, 99, 10] = some cs ∧
      ReadlineLaw 3 [97, 98, 10, 99, 10] cs := by
  have hfit : LinesFit 3 [97, 98, 10, 99, 10] := by
    constructor
    · decide +kernel
    · intro front line back hcuts hlast
      have hnone : forall piece, piece ∈ cuts isEnd [97, 98, 10, 99, 10] ->
          piece.getLast? ≠ some EOF := by decide +kernel
      exact absurd hlast (hnone line (hcuts ▸ by simp))
  have hfd : (0 : Int) ≤ 0 := Int.le_refl 0
  have hmax : 1 ≤ 3 := by decide
  rcases readline_law_iff hfd hmax (fun _ _ => 7) [97, 98, 10, 99, 10] with ⟨cs, hcs, hiff⟩
  exact ⟨cs, hcs, hiff.mpr hfit⟩

/-- Of `"abcde\n"` an array for three characters loses the `d`; and a byte equal to `EOF` ends
a chunk that is neither full nor the last one. -/
theorem readline_loses_byte_threeBytes :
    (exists cs, chunks 0 3 (fun _ _ => 7) 7 [97, 98, 99, 100, 101, 10] = some cs ∧
      cs = [⟨[97, 98, 99], 7⟩, ⟨[101, 10], 0⟩] ∧
      ¬ ReadlineLaw 3 [97, 98, 99, 100, 101, 10] cs) ∧
    (exists cs, chunks 0 3 (fun _ _ => 7) 5 [97, 255, 98, 10] = some cs ∧
      cs = [⟨[97, 255], 0⟩, ⟨[98, 10], 0⟩] ∧ ¬ ReadlineLaw 3 [97, 255, 98, 10] cs) := by
  constructor
  · refine ⟨_, rfl, by decide +kernel, ?_⟩
    intro hlaw
    have hconcat := hlaw.concat
    revert hconcat
    decide +kernel
  · refine ⟨_, rfl, by decide +kernel, ?_⟩
    intro hlaw
    have hcut := hlaw.full_or_last [] _ _ rfl
    revert hcut
    decide +kernel

end Fifoclieser
end InterprocessComm
