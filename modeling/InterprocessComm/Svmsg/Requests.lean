import InterprocessComm.Svmsg.Messages

/-!
# Requests

The request a client builds is its id, a blank and a pathname; the server finds the same
id and the same pathname in it.
-/

namespace InterprocessComm
namespace Svmsg

open Verification

def idText (id : Nat) : List UInt8 :=
  decimal id ++ [BLANK]

/-- The pathname that reaches the server. -/
def pathname (size id : Nat) (stdin : List UInt8) : List UInt8 :=
  withoutNewline (beforeNul (lineOf (size - (idText id).length - 1) stdin))

def requestText (size id : Nat) (stdin : List UInt8) : List UInt8 :=
  idText id ++ pathname size id stdin

section Texts

variable {size id : Nat} {stdin : List UInt8}

theorem zero_not_mem_decimal (n : Nat) : 0 ∉ decimal n := by
  intro h
  cases digits_isDigit h

theorem blank_not_mem_decimal (n : Nat) : BLANK ∉ decimal n := by
  intro h
  cases digits_isDigit h

theorem zero_not_mem_idText (id : Nat) : 0 ∉ idText id := by
  intro h
  rcases List.mem_append.mp h with h | h
  · exact zero_not_mem_decimal id h
  · cases List.mem_singleton.mp h

theorem idText_length_le (hid : id < 2 ^ 31) : (idText id).length ≤ 11 := by
  have hdigits : (decimal id).length ≤ 10 := digits_length_le (by decide) (by lia)
  simp only [idText, List.length_append, List.length_singleton]
  lia

theorem zero_not_mem_pathname : 0 ∉ pathname size id stdin :=
  zero_not_mem_line _ _

theorem requestText_length_lt (stdin : List UInt8) (hroom : (idText id).length < size) :
    (requestText size id stdin).length < size := by
  have hline := line_length_le (size - (idText id).length - 1) stdin
  simp only [requestText, pathname, List.length_append]
  lia

end Texts

/-!
# The client
-/

section Client

variable {size id : Nat} {stdin : List UInt8}

theorem withoutNewline_idText (s : List UInt8) :
    withoutNewline (idText id ++ s) = idText id ++ withoutNewline s := by
  rcases List.eq_nil_or_concat s with rfl | ⟨front, c, rfl⟩
  · simp [withoutNewline, idText, BLANK]
  · have happend : idText id ++ front.concat c = (idText id ++ front).concat c := by simp
    rw [happend]
    by_cases hnewline : c = 10 <;> simp [withoutNewline, hnewline]

theorem clientRequest_spec (mesg : Mesg) (stdin : List UInt8)
    (hroom : (idText id).length < size) :
    exists mesg', clientRequest size mesg id stdin = some mesg' ∧
      mesg'.sent = { mtype := 1, mtext := requestText size id stdin } := by
  have hid : Contains (snprintf mesg.mesg_data 0 size (idText id)) 0 (idText id ++ [0]) :=
    contains_snprintf hroom
  have hidlen : strlen (snprintf mesg.mesg_data 0 size (idText id)) 0 size =
      some (idText id).length := by
    rw [strlen, cString_of_string hid (zero_not_mem_idText id) hroom]
    rfl
  have hline := contains_line (b := (idText id).length) (size - (idText id).length) stdin hid
    (by simp)
  unfold clientRequest
  rw [show decimal id ++ [BLANK] = idText id from rfl]
  simp only [hidlen, Option.bind_some]
  generalize afterFgets _ _ _ stdin = data at hline ⊢
  -- the string that the second `strlen` measures
  have hstring : beforeNul (idText id ++ (lineOf (size - (idText id).length - 1) stdin ++ [0])) =
      idText id ++ beforeNul (lineOf (size - (idText id).length - 1) stdin) := by
    rw [beforeNul_append (zero_not_mem_idText id), beforeNul_snoc]
  have hlen : strlen data 0 size =
      some (idText id ++ beforeNul (lineOf (size - (idText id).length - 1) stdin)).length := by
    have hlinelen := lineOf_length_le (size - (idText id).length - 1) stdin
    rw [strlen, cString_of_contains hline (by simp) (by simp; lia), hstring]
    rfl
  rw [hlen]
  refine ⟨_, rfl, ?_⟩
  have hsplit := List.takeWhile_append_dropWhile (p := fun b : UInt8 => decide (b ≠ 0))
    (l := lineOf (size - (idText id).length - 1) stdin)
  rw [← hsplit, List.append_assoc, ← List.append_assoc] at hline
  have hread := readBytes_withoutNewline (contains_append.mp hline).1 (by simp [idText])
  rw [withoutNewline_idText, Int.zero_add] at hread
  exact congrArg (Msg.mk 1) hread

end Client

/-!
# The server
-/

section Server

variable {size id : Nat} {path : List UInt8}

theorem toInt_of_lt (hid : id < 2 ^ 31) : toInt id = id := by
  unfold toInt
  rw [Int.bmod_def]
  split <;> lia

theorem idxOf_blank (id : Nat) (path : List UInt8) :
    (idText id ++ path).idxOf? BLANK = some (decimal id).length := by
  have hsplit : idText id ++ path = decimal id ++ BLANK :: path := by simp [idText]
  rw [hsplit]
  have hnone := blank_not_mem_decimal id
  generalize decimal id = front at hnone
  induction front with
  | nil => rfl
  | cons c rest ih =>
      rw [List.mem_cons, not_or] at hnone
      rcases hnone with ⟨hc, hrest⟩
      rw [List.cons_append, List.idxOf?_cons, ih hrest]
      have hne : (c == BLANK) = false := beq_false_of_ne fun h => hc h.symm
      rw [hne]
      rfl

theorem contains_cut {m : Mem} {s : List UInt8} {k : Nat} (h : Contains m 0 (s ++ [0]))
    (hk : k ≤ s.length) : Contains (writeBytes m k [NUL]) 0 (s.take k ++ [0]) := by
  have hlength : (s.take k).length = k := by simpa using hk
  rw [← List.take_append_drop k s, List.append_assoc] at h
  have hfront := (contains_append.mp h).1
  rw [contains_append]
  constructor
  · apply hfront.frame
    rw [hlength]
    exact Or.inl (by lia)
  · rw [hlength, Int.zero_add]
    exact contains_write _ _ _

/-- The server understands every request that has room for its zero, in one way, and finds what
is behind the first blank. -/
theorem parseRequest_text {text : List UInt8} (mesg : Mesg) (htext : text.length < size)
    (hcontains : Contains mesg.mesg_data 0 text) :
    ((beforeNul text).idxOf? BLANK = none ∧
        exists mesg', parseRequest size mesg text.length = some (Request.bogus mesg')) ∨
      exists k data, (beforeNul text).idxOf? BLANK = some k ∧ k < text.length ∧
        parseRequest size mesg text.length =
          some (Request.named { mesg with mesg_data := data }
            (atol ((beforeNul text).take k)) (k + 1)) ∧
        Contains data (k + 1 : Nat) (text.drop (k + 1) ++ [0]) := by
  have hended : Contains (writeBytes mesg.mesg_data text.length [NUL]) 0 (text ++ [0]) := by
    rw [contains_append]
    constructor
    · apply hcontains.frame
      exact Or.inl (by lia)
    · rw [Int.zero_add]
      exact contains_write _ _ _
  have hstring : cString (writeBytes mesg.mesg_data text.length [NUL]) 0 size =
      some (beforeNul text) := by
    rw [cString_of_contains hended (by simp) (by simp; lia), beforeNul_snoc]
  unfold parseRequest
  rw [if_pos ⟨by lia, by lia⟩]
  simp only [hstring, Option.bind_some]
  generalize writeBytes mesg.mesg_data text.length [NUL] = data at hstring hended
  cases hk : (beforeNul text).idxOf? BLANK with
  | none => exact Or.inl ⟨rfl, _, rfl⟩
  | some k =>
      rcases List.idxOf?_eq_some_iff.mp hk with ⟨hlt, _⟩
      have hle := beforeNul_length_le text
      rcases cString_spec hstring with ⟨hdata, hnone, _⟩
      have hcut : cString (writeBytes data k [NUL]) 0 size = some ((beforeNul text).take k) := by
        apply cString_of_string (contains_cut hdata (Nat.le_of_lt hlt))
        · exact fun hmem => hnone (List.mem_of_mem_take hmem)
        · rw [List.length_take]
          lia
      refine Or.inr ⟨k, writeBytes data k [NUL], rfl, by lia, ?_, ?_⟩
      · simp only [hcut, Option.map_some]
      · -- the zero behind the id is in front of the pathname
        have hfront : (text.take (k + 1)).length = k + 1 := by
          rw [List.length_take]
          lia
        rw [← List.take_append_drop (k + 1) text, List.append_assoc, contains_append, hfront,
          Int.zero_add] at hended
        exact hended.2.frame (Or.inr (by rw [List.length_singleton]; lia))

theorem parseRequest_spec {mesg : Mesg} (hid : id < 2 ^ 31) (hpath : 0 ∉ path)
    (hcontains : Contains mesg.mesg_data 0 (idText id ++ path))
    (hroom : (idText id ++ path).length < size) :
    exists data, parseRequest size mesg (idText id ++ path).length =
        some (Request.named { mesg with mesg_data := data } id (idText id).length) ∧
      Contains data (idText id).length (path ++ [0]) := by
  have htext : 0 ∉ idText id ++ path := by
    intro h
    rcases List.mem_append.mp h with h | h
    · exact zero_not_mem_idText id h
    · exact hpath h
  have hseen : beforeNul (idText id ++ path) = idText id ++ path := beforeNul_eq_self_iff.mpr htext
  have hsplit : idText id ++ path = decimal id ++ BLANK :: path := by simp [idText]
  have hlength : (decimal id).length + 1 = (idText id).length := by simp [idText]
  rcases parseRequest_text mesg hroom hcontains with ⟨hnone, _⟩ | ⟨k, data, hk, _, hparse, hdata⟩
  · rw [hseen, idxOf_blank] at hnone
    cases hnone
  · rw [hseen, idxOf_blank] at hk
    cases hk
    have htake : (idText id ++ path).take (decimal id).length = decimal id := by
      rw [hsplit, List.take_left]
    have hdrop : (idText id ++ path).drop (idText id).length = path := List.drop_left
    rw [hseen, htake, atol_decimal (by unfold LONG_MAX; lia), hlength] at hparse
    rw [hlength, hdrop] at hdata
    exact ⟨data, hparse, hdata⟩

end Server

end Svmsg
end InterprocessComm
