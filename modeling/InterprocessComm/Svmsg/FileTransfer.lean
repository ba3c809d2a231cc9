import InterprocessComm.Lib.TypedQueue
import InterprocessComm.Svmsg.Replies

/-!
# Transfer of a file

A file reaches the client exactly when it has no zero byte: both servers send what
`strlen` measures of a line, and both clients stop at an empty message.
-/

namespace InterprocessComm
namespace Svmsg

open Verification

/-!
# The transfers
-/

/-- The client sends its request, the server answers it on the same queue, and the client
writes what has its process id as type. -/
def Cliserv.transfer (files : Files) (mesg mesg' : Mesg) (pid : Pid) (stdin : List UInt8)
    (fuel : Nat) : Option (List UInt8) :=
  (Cliserv.request mesg pid stdin).bind fun mesg =>
    (Cliserv.serve files mesg' mesg.sent).bind fun srv =>
      (srv.replies Cliserv.MAXMESGDATA fuel).map fun ms =>
        clientOutput mesg (ofType Msg.mtype pid.val ms)

/-- The client asks for replies on its own queue, and takes those of type 1. -/
def Mpxnq.transfer (files : Files) (mesg mesg' : Mesg) (readid : Nat) (stdin : List UInt8)
    (fuel : Nat) : Option (List UInt8) :=
  (Mpxnq.request mesg readid stdin).bind fun mesg =>
    (Mpxnq.serve files mesg' mesg.sent).bind fun child =>
      match child with
      | none => some []
      | some (srv, writeid) =>
          (srv.replies Mpxnq.MAXMESGDATA fuel).map fun ms =>
            if writeid = readid then
              clientOutput mesg (ofType Msg.mtype mesg.mesg_type ms)
            else
              []

/-!
# What the client writes
-/

section Output

theorem clientOutput_texts (mesg : Mesg) (t : Int) (texts : List (List UInt8)) :
    clientOutput mesg (texts.map (Msg.mk t)) = readUntilEmpty texts := by
  induction texts generalizing mesg with
  | nil => rfl
  | cons s rest ih =>
      rw [List.map_cons, clientOutput]
      cases s with
      | nil => rfl
      | cons c s =>
          have hlen : (mesg.received ⟨t, c :: s⟩).mesg_len > 0 := by
            show ((c :: s).length : Int) > 0
            rw [List.length_cons]
            lia
          have hread : readBytes (mesg.received ⟨t, c :: s⟩).mesg_data 0
              (mesg.received ⟨t, c :: s⟩).mesg_len.toNat = c :: s :=
            readBytes_writeBytes mesg.mesg_data 0 (c :: s)
          simp only [hlen, if_true, hread, ih]
          simp [readUntilEmpty]

theorem readUntilEmpty_lineTexts_iff {size : Nat} {file : List UInt8} (hsize : 1 < size) :
    readUntilEmpty (lineTexts size file ++ [[]]) = file <-> 0 ∉ file := by
  have hlimit : 0 < size - 1 := by lia
  have hflatten := pieces_flatten hlimit (Nat.le_refl file.length)
  constructor
  · intro h hzero
    rw [← hflatten] at hzero
    have hlt := readUntilEmpty_length_lt hzero
    rw [hflatten] at hlt
    unfold lineTexts at h
    rw [h] at hlt
    exact Nat.lt_irrefl _ hlt
  · intro hzero
    rw [← hflatten] at hzero
    have hread := readUntilEmpty_of_no_zero hzero fun line hline => pieces_ne_nil (by lia) hline
    rw [hflatten] at hread
    exact hread

end Output

/-!
# What the server sends
-/

section Replies

variable {size : Nat} {srv : Serving}

theorem replies_spec {fuel : Nat} (hsize : 1 < size) (hfuel : (srv.owed size).length < fuel) :
    srv.replies size fuel = some ((srv.owed size).map (Msg.mk srv.mesg.mesg_type)) := by
  induction fuel generalizing srv with
  | zero => cases hfuel
  | succ fuel ih =>
      rw [Serving.replies]
      cases hm : srv.outgoing with
      | none =>
          rw [outgoing_none hm]
          rfl
      | some m =>
          rcases afterSend_spec hsize hm with ⟨srv', hsrv', howed, htype, htype'⟩
          rw [howed, List.length_cons] at hfuel
          have hrest := ih (Nat.lt_of_succ_lt_succ hfuel)
          simp only [hsrv', Option.bind_some, hrest, Option.map_some, howed, List.map_cons, htype']
          rw [← htype]

theorem lineTexts_length_le (size : Nat) (file : List UInt8) :
    (lineTexts size file).length ≤ file.length := by
  unfold lineTexts
  rw [List.length_map]
  exact pieces_length_le _ _ _

theorem ofType_map (t : Int) (texts : List (List UInt8)) :
    ofType Msg.mtype t (texts.map (Msg.mk t)) = texts.map (Msg.mk t) := by
  unfold ofType
  rw [List.filter_eq_self]
  intro m hm
  rcases List.mem_map.mp hm with ⟨s, _, rfl⟩
  simp

theorem replies_file {files : Files} {path file : List UInt8} {n fuel : Nat} (hsize : 1 < size)
    (hfile : files path = Except.ok file) (hfuel : file.length + 2 ≤ fuel)
    (howed : srv.owed size = replyTexts size files n path) :
    srv.replies size fuel =
      some ((lineTexts size file ++ [[]]).map (Msg.mk srv.mesg.mesg_type)) := by
  have htexts : srv.owed size = lineTexts size file ++ [[]] := by
    rw [howed]
    unfold replyTexts
    rw [hfile]
  have hlen := lineTexts_length_le size file
  rw [replies_spec hsize, htexts]
  rw [htexts, List.length_append, List.length_singleton]
  lia

end Replies

/-!
# The two programs
-/

section Transfer

variable {files : Files} {file stdin : List UInt8} {fuel : Nat}

theorem Cliserv.transfer_spec (mesg mesg' : Mesg) {pid : Pid}
    (hfile : files (pathname Cliserv.MAXMESGDATA pid.val.toNat stdin) = Except.ok file)
    (hfuel : file.length + 2 ≤ fuel) :
    Cliserv.transfer files mesg mesg' pid stdin fuel =
      some (readUntilEmpty (lineTexts Cliserv.MAXMESGDATA file ++ [[]])) := by
  have hid : (idText pid.val.toNat).length < Cliserv.MAXMESGDATA :=
    Nat.lt_of_le_of_lt (idText_length_le pid.toNat_lt) (by decide)
  rcases clientRequest_spec mesg stdin hid with ⟨sent, hsent, hmsg⟩
  rcases Cliserv.serve_spec files mesg' pid.toNat_lt zero_not_mem_pathname
    (requestText_length_lt stdin hid) with ⟨srv, hsrv, howed, htype⟩
  have hreplies := replies_file Cliserv.one_lt_MAXMESGDATA hfile hfuel howed
  unfold Cliserv.transfer Cliserv.request
  rw [hsent, Option.bind_some, hmsg, requestText, hsrv, Option.bind_some, hreplies,
    Option.map_some, htype, pid.toNat_cast, ofType_map, clientOutput_texts]

theorem Mpxnq.transfer_spec (mesg mesg' : Mesg) {readid : Nat} (hreadid : readid < 2 ^ 31)
    (hfile : files (pathname Mpxnq.MAXMESGDATA readid stdin) = Except.ok file)
    (hfuel : file.length + 2 ≤ fuel) :
    Mpxnq.transfer files mesg mesg' readid stdin fuel =
      some (readUntilEmpty (lineTexts Mpxnq.MAXMESGDATA file ++ [[]])) := by
  have hid : (idText readid).length < Mpxnq.MAXMESGDATA :=
    Nat.lt_of_le_of_lt (idText_length_le hreadid) (by decide)
  rcases clientRequest_spec mesg stdin hid with ⟨sent, hsent, hmsg⟩
  rcases Mpxnq.serve_spec files mesg' hreadid zero_not_mem_pathname
    (requestText_length_lt stdin hid) with ⟨srv, hsrv, howed, htype⟩
  have hreplies := replies_file Mpxnq.one_lt_MAXMESGDATA hfile hfuel howed
  have hone : sent.mesg_type = 1 := congrArg Msg.mtype hmsg
  unfold Mpxnq.transfer Mpxnq.request
  rw [hsent, Option.bind_some, hmsg, requestText, hsrv, Option.bind_some]
  simp only [hreplies, Option.map_some, if_true]
  rw [htype, hone, ofType_map, clientOutput_texts]

/-- For every file, both clients write the file if and only if it has no zero byte. -/
theorem file_service_exact_iff (files : Files) (mesg mesg' : Mesg) (stdin file : List UInt8) :
    (forall pid : Pid,
      files (pathname Cliserv.MAXMESGDATA pid.val.toNat stdin) = Except.ok file ->
      forall fuel, file.length + 2 ≤ fuel ->
        (Cliserv.transfer files mesg mesg' pid stdin fuel = some file <-> 0 ∉ file)) ∧
    (forall readid : Nat, readid < 2 ^ 31 ->
      files (pathname Mpxnq.MAXMESGDATA readid stdin) = Except.ok file ->
      forall fuel, file.length + 2 ≤ fuel ->
        (Mpxnq.transfer files mesg mesg' readid stdin fuel = some file <-> 0 ∉ file)) := by
  constructor
  · intro pid hfile fuel hfuel
    rw [Cliserv.transfer_spec mesg mesg' hfile hfuel, Option.some.injEq]
    exact readUntilEmpty_lineTexts_iff Cliserv.one_lt_MAXMESGDATA
  · intro readid hreadid hfile fuel hfuel
    rw [Mpxnq.transfer_spec mesg mesg' hreadid hfile hfuel, Option.some.injEq]
    exact readUntilEmpty_lineTexts_iff Mpxnq.one_lt_MAXMESGDATA

def someFile (file : List UInt8) : Files :=
  fun _ => Except.ok file

def someMesg : Mesg :=
  { mesg_len := 0, mesg_type := 0, mesg_data := fun _ => 255 }

/-- A file of two lines arrives. -/
theorem file_service_exact_iff_twoLines :
    Cliserv.transfer (someFile [104, 105, 10, 10]) someMesg someMesg ⟨7, by decide⟩ [97, 10] 6 =
        some [104, 105, 10, 10] ∧
      Mpxnq.transfer (someFile [104, 105, 10, 10]) someMesg someMesg 3 [97, 10] 6 =
        some [104, 105, 10, 10] := by
  have hboth := file_service_exact_iff (someFile [104, 105, 10, 10]) someMesg someMesg [97, 10]
    [104, 105, 10, 10]
  exact ⟨(hboth.1 ⟨7, by decide⟩ rfl 6 (by decide)).mpr (by decide),
    (hboth.2 3 (by decide) rfl 6 (by decide)).mpr (by decide)⟩

/-- Of a file with a zero byte only the part before it arrives. -/
theorem truncated_file_zeroByte :
    Cliserv.transfer (someFile [97, 0, 98]) someMesg someMesg ⟨7, by decide⟩ [97, 10] 5 =
        some [97] ∧
      Mpxnq.transfer (someFile [97, 0, 98]) someMesg someMesg 3 [97, 10] 5 = some [97] ∧
      ([97] : List UInt8) ≠ [97, 0, 98] := by
  decide +kernel

end Transfer

end Svmsg
end InterprocessComm
