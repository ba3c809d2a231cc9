import InterprocessComm.Fifoclieser.Readline

/-!
# Requests through the server's FIFO

The request of a client that fits into its array is its process id, a blank and its line.
The server finds the process id and the line in it, unless a byte of the line ends the loop
of `readline` too early.
-/

namespace InterprocessComm
namespace Fifoclieser

open Verification
open Svmsg (NUL NEWLINE BLANK idText toInt)

/-!
## The client
-/

abbrev Terminator (b : UInt8) : Prop :=
  b = NEWLINE ∨ b = EOF

namespace Client

def id (c : Client) : Nat := c.pid.val.toNat

def Fits (c : Client) : Prop :=
  (idText c.id).length + c.line.length + 2 ≤ MAXLINE

def requestText (c : Client) : List UInt8 :=
  idText c.id ++ (c.line ++ [NEWLINE])

def named (c : Client) : Int × List UInt8 :=
  (c.pid.val, c.line)

variable {c : Client}

theorem id_lt (c : Client) : c.id < 2 ^ 31 := by
  have hpid := c.pid.2
  unfold id Pid.val
  lia

theorem id_cast (c : Client) : (c.id : Int) = c.pid.val := by
  have hpid := c.pid.2.1
  unfold id Pid.val
  lia

theorem no_terminator_idText (c : Client) {b : UInt8} (hb : b ∈ idText c.id) :
    ¬ Terminator b := by
  rcases List.mem_append.mp hb with hdigit | hblank
  · have hrange := digits_isDigit hdigit
    simp only [isDigit, Bool.and_eq_true, decide_eq_true_eq] at hrange
    rintro (rfl | rfl)
    · exact absurd hrange.1 (by decide)
    · exact absurd hrange.2 (by decide)
  · cases List.mem_singleton.mp hblank
    decide

theorem idText_room (c : Client) : (idText c.id).length < MAXLINE := by
  have hlength := Svmsg.idText_length_le c.id_lt
  unfold MAXLINE
  lia

theorem strlen_id (c : Client) :
    strlen (snprintf c.buff 0 MAXLINE (idText c.id)) 0 MAXLINE = some (idText c.id).length := by
  have hcontains : Contains (snprintf c.buff 0 MAXLINE (idText c.id)) 0 (idText c.id ++ [0]) :=
    contains_snprintf c.idText_room
  rw [strlen, cString_of_string hcontains (Svmsg.zero_not_mem_idText c.id) c.idText_room]
  rfl

theorem taken_line (hshort : c.line.length < MAXLINE - 1) :
    lineOf (MAXLINE - 1) c.stdin = c.line ++ [NEWLINE] :=
  lineOf_of_short c.no_newline hshort c.more

/-- `fgets` may write `MAXLINE` bytes, wherever in the array it starts. -/
theorem request_overruns (hfits : ¬ c.Fits) : c.request = none := by
  have hnone : ¬ (idText c.id).length + (lineOf (MAXLINE - 1) c.stdin).length + 1 ≤ MAXLINE := by
    have hblank : 1 ≤ (idText c.id).length := by simp [idText]
    unfold Fits at hfits
    rcases Nat.lt_or_ge c.line.length (MAXLINE - 1) with hlt | hge
    · rw [taken_line hlt, List.length_append, List.length_singleton]
      lia
    · rw [stdin, lineOf_of_long c.no_newline hge, List.length_take_of_le hge]
      unfold MAXLINE at *
      lia
  unfold request
  rw [show decimal c.pid.val.toNat ++ [BLANK] = idText c.id from rfl]
  simp only [c.strlen_id, Option.bind_some]
  rw [if_neg hnone]

theorem zero_not_mem_requestText (c : Client) : 0 ∉ c.requestText := by
  intro h
  rcases List.mem_append.mp h with h | h
  · exact Svmsg.zero_not_mem_idText c.id h
  · rcases List.mem_append.mp h with h | h
    · exact c.no_nul h
    · cases List.mem_singleton.mp h

theorem requestText_length (c : Client) :
    c.requestText.length = (idText c.id).length + c.line.length + 1 := by
  simp [requestText, Nat.add_assoc]

theorem request_eq (hfits : c.Fits) : c.request = some c.requestText := by
  have hshort : c.line.length < MAXLINE - 1 := by
    unfold Fits at hfits
    lia
  have hline := taken_line hshort
  have hcontains : Contains (afterFgets (snprintf c.buff 0 MAXLINE (idText c.id))
      (idText c.id).length MAXLINE c.stdin) 0 (c.requestText ++ [0]) := by
    have hid : Contains (snprintf c.buff 0 MAXLINE (idText c.id)) 0 (idText c.id ++ [0]) :=
      contains_snprintf c.idText_room
    have hboth := contains_line (b := (idText c.id).length) MAXLINE c.stdin hid (by simp)
    rw [hline] at hboth
    simpa [requestText] using hboth
  have hroom : c.requestText.length < MAXLINE := by
    unfold Fits at hfits
    rw [c.requestText_length]
    lia
  unfold request
  rw [show decimal c.pid.val.toNat ++ [BLANK] = idText c.id from rfl]
  simp only [c.strlen_id, Option.bind_some, hline]
  rw [if_pos (by simpa [Fits, Nat.add_assoc] using hfits), strlen,
    cString_of_string hcontains c.zero_not_mem_requestText hroom]
  simp only [Option.map_some, readBytes_of_contains hcontains]

end Client

/-!
## The server
-/

section Server

variable {buff : Mem} {front : List UInt8} {b : UInt8}

theorem readByte_inside (hcontains : Contains buff 0 front) (hroom : front.length < MAXLINE)
    (hb : ¬ Terminator b) :
    exists buff', readByte MAXLINE buff front.length b =
        Readline.more buff' (front ++ [b]).length ∧ Contains buff' 0 (front ++ [b]) :=
  readByte_more hcontains hroom (decide_eq_false hb)

theorem readByte_ends (hcontains : Contains buff 0 front) (hroom : front.length < MAXLINE)
    (hb : Terminator b) :
    exists buff', readByte MAXLINE buff front.length b =
        Readline.returned buff' (front ++ [b]).length ∧ Contains buff' 0 (front ++ [b]) := by
  rcases readByte_returned hcontains hroom (isEnd_iff.mpr hb) with ⟨buff', hbyte, hended⟩
  exact ⟨buff', hbyte, (contains_append.mp hended).1⟩

theorem handle_request {id n : Nat} {path : List UInt8} (hid : id < 2 ^ 31) (hpath : 0 ∉ path)
    (hcontains : Contains buff 0 (idText id ++ path))
    (hroom : (idText id ++ path).length ≤ MAXLINE)
    (hn : (if buff (n - 1) = NEWLINE then n - 1 else n) = (idText id ++ path).length) :
    exists buff', handle buff n = some (Handled.request buff' id path (idText id).length
        (idText id ++ path).length) ∧
      Contains buff' (idText id).length (path ++ [0]) := by
  unfold handle
  simp only [hn]
  have hparsed : exists data, Svmsg.parseRequest (MAXLINE + 1)
      ⟨(idText id ++ path).length, 0, buff⟩ (idText id ++ path).length =
        some (Svmsg.Request.named ⟨(idText id ++ path).length, 0, data⟩ id (idText id).length) ∧
      Contains data (idText id).length (path ++ [0]) :=
    Svmsg.parseRequest_spec hid hpath hcontains (Nat.lt_succ_of_le hroom)
  rcases hparsed with ⟨data, hparse, hdata⟩
  have hlength : path.length < MAXLINE + 1 - (idText id).length := by
    rw [List.length_append] at hroom
    lia
  simp only [hparse, Option.bind_some, cString_of_string hdata hpath hlength, Option.map_some,
    Svmsg.toInt_of_lt hid]
  exact ⟨data, rfl, hdata⟩

theorem handle_newline (hcontains : Contains buff 0 [NEWLINE]) :
    exists buff', handle buff 1 = some (Handled.bogus buff') := by
  have hlast : buff ((1 : Nat) - 1) = NEWLINE := (contains_cons.mp hcontains).1
  have hempty : cString (writeBytes buff 0 [NUL]) 0 (MAXLINE + 1) = some [] :=
    cString_of_string (contains_write _ _ _) List.not_mem_nil (by decide)
  unfold handle
  simp only [hlast, if_true, Nat.sub_self]
  unfold Svmsg.parseRequest
  simp only [Nat.cast_zero, hempty, Option.bind_some, List.idxOf?_nil]
  exact ⟨_, rfl⟩

end Server

end Fifoclieser
end InterprocessComm
