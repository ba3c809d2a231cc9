import InterprocessComm.Svmsg.Requests

/-!
# Requests from end to end

What the client takes from its standard input comes out of the server's array again: the id and
the line, cut where the array of the client is full.
-/

namespace InterprocessComm
namespace Svmsg

open Verification

/-- A line without zero bytes at the standard input of a client, with what follows its newline,
if it has one. -/
structure InputLine where
  line : List UInt8
  no_zero : 0 ∉ line
  no_newline : NEWLINE ∉ line
  more : Option (List UInt8)

def InputLine.stdin (l : InputLine) : List UInt8 :=
  match l.more with
  | none => l.line
  | some rest => l.line ++ NEWLINE :: rest

def lineLimit (size id : Nat) : Nat :=
  size - 1 - (idText id).length

def decode (size : Nat) (mesg : Mesg) (m : Msg) : Option (Int × List UInt8) :=
  (parseRequest size (mesg.received m) m.mtext.length).bind fun parsed =>
    match parsed with
    | Request.bogus _ => none
    | Request.named mesg id ptr =>
        (cString mesg.mesg_data ptr (size - ptr)).map fun path => (toInt id, path)

section Decode

variable {size id : Nat}

theorem pathname_line (size id : Nat) (l : InputLine) :
    pathname size id l.stdin = l.line.take (lineLimit size id) := by
  have hroom : size - (idText id).length - 1 = lineLimit size id := by
    unfold lineLimit
    lia
  have hzero : 0 ∉ l.line.take (lineLimit size id) := fun h => l.no_zero (List.mem_of_mem_take h)
  have hnewline : NEWLINE ∉ l.line.take (lineLimit size id) := fun h =>
    l.no_newline (List.mem_of_mem_take h)
  have hcut : withoutNewline (beforeNul (l.line.take (lineLimit size id))) =
      l.line.take (lineLimit size id) := by
    rw [beforeNul_eq_self_iff.mpr hzero, withoutNewline_of_no_newline hnewline]
  unfold pathname
  rw [hroom]
  cases hmore : l.more with
  | none =>
      have hend : l.stdin = l.line ++ [] := by
        rw [InputLine.stdin, hmore, List.append_nil]
      have hnothing : forall limit, lineOf limit [] = [] := by
        intro limit
        cases limit <;> rfl
      rw [hend, lineOf_append l.no_newline, hnothing, List.append_nil, hcut]
  | some rest =>
      have hline : l.stdin = l.line ++ NEWLINE :: rest := by
        rw [InputLine.stdin, hmore]
      rw [hline]
      rcases Nat.lt_or_ge l.line.length (lineLimit size id) with hshort | hlong
      · have hwhole : 0 ∉ l.line ++ [10] := by simpa using l.no_zero
        have htaken : lineOf (lineLimit size id) (l.line ++ NEWLINE :: rest) = l.line ++ [10] :=
          lineOf_of_short l.no_newline hshort rest
        rw [htaken, beforeNul_eq_self_iff.mpr hwhole,
          withoutNewline_snoc, List.take_of_length_le (Nat.le_of_lt hshort)]
      · rw [lineOf_of_long l.no_newline hlong, hcut]

theorem decode_requestText (mesg : Mesg) (stdin : List UInt8) (hid : id < 2 ^ 31)
    (hroom : (idText id).length < size) :
    decode size mesg ⟨1, requestText size id stdin⟩ =
      some ((id : Int), pathname size id stdin) := by
  have hlength := requestText_length_lt stdin hroom
  have hcontains : Contains (mesg.received ⟨1, requestText size id stdin⟩).mesg_data 0
      (idText id ++ pathname size id stdin) := contains_write mesg.mesg_data 0 _
  rcases parseRequest_spec hid zero_not_mem_pathname hcontains hlength with
    ⟨data, hparse, hdata⟩
  have hpath : cString data (idText id).length (size - (idText id).length) =
      some (pathname size id stdin) := by
    apply cString_of_string hdata zero_not_mem_pathname
    rw [requestText, List.length_append] at hlength
    lia
  have hfound : parseRequest size (mesg.received ⟨1, requestText size id stdin⟩)
      (requestText size id stdin).length = _ := hparse
  unfold decode
  simp only [hfound, Option.bind_some, hpath, Option.map_some, toInt_of_lt hid]

theorem clientRequest_decode (mesg mesg' : Mesg) (l : InputLine) (hid : id < 2 ^ 31)
    (hroom : (idText id).length < size) :
    exists sent, clientRequest size mesg id l.stdin = some sent ∧ sent.mesg_type = 1 ∧
      sent.sent.mtext.length < size ∧
      decode size mesg' sent.sent = some ((id : Int), l.line.take (lineLimit size id)) := by
  rcases clientRequest_spec mesg l.stdin hroom with ⟨sent, hsent, hmsg⟩
  refine ⟨sent, hsent, congrArg Msg.mtype hmsg, ?_, ?_⟩
  · rw [hmsg]
    exact requestText_length_lt l.stdin hroom
  · rw [hmsg, decode_requestText mesg' l.stdin hid hroom, pathname_line]

end Decode

/-- Both servers find in a request the id of the client and its line, cut to the room that the
client has for it. -/
theorem requests_decode :
    (forall (pid : Pid) (l : InputLine) (mesg mesg' : Mesg), exists sent,
      Cliserv.request mesg pid l.stdin = some sent ∧ sent.mesg_type = 1 ∧
        sent.sent.mtext.length < Cliserv.MAXMESGDATA ∧
        decode Cliserv.MAXMESGDATA mesg' sent.sent =
          some (pid.val, l.line.take (lineLimit Cliserv.MAXMESGDATA pid.val.toNat))) ∧
    (forall readid : Nat, readid < 2 ^ 31 -> forall (l : InputLine) (mesg mesg' : Mesg),
      exists sent, Mpxnq.request mesg readid l.stdin = some sent ∧ sent.mesg_type = 1 ∧
        sent.sent.mtext.length < Mpxnq.MAXMESGDATA ∧
        decode Mpxnq.MAXMESGDATA mesg' sent.sent =
          some ((readid : Int), l.line.take (lineLimit Mpxnq.MAXMESGDATA readid))) := by
  constructor
  · intro pid l mesg mesg'
    have hroom : (idText pid.val.toNat).length < Cliserv.MAXMESGDATA :=
      Nat.lt_of_le_of_lt (idText_length_le pid.toNat_lt) (by decide)
    rcases clientRequest_decode mesg mesg' l pid.toNat_lt hroom with
      ⟨sent, hsent, htype, hlength, hdecode⟩
    rw [pid.toNat_cast] at hdecode
    exact ⟨sent, hsent, htype, hlength, hdecode⟩
  · intro readid hid l mesg mesg'
    have hroom : (idText readid).length < Mpxnq.MAXMESGDATA :=
      Nat.lt_of_le_of_lt (idText_length_le hid) (by decide)
    exact clientRequest_decode mesg mesg' l hid hroom

/-- The line `" a b"` behind the queue id 0, with a newline and more. -/
theorem requests_decode_blanks :
    exists sent, Mpxnq.request ⟨0, 0, fun _ => 255⟩ 0 [32, 97, 32, 98, 10, 99] = some sent ∧
      decode Mpxnq.MAXMESGDATA ⟨0, 0, fun _ => 255⟩ sent.sent = some (0, [32, 97, 32, 98]) := by
  rcases requests_decode.2 0 (by decide) ⟨[32, 97, 32, 98], by decide, by decide, some [99]⟩
    ⟨0, 0, fun _ => 255⟩ ⟨0, 0, fun _ => 255⟩ with ⟨sent, hsent, _, _, hdecode⟩
  exact ⟨sent, hsent, hdecode⟩

end Svmsg
end InterprocessComm
