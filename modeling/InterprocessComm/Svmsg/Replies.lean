import InterprocessComm.Svmsg.Requests

/-!
# Replies

What a server sends for a pathname: the lines of the file, each cut by the buffer and by
its first zero byte, or the text of an error; and an empty message at the end.
-/

namespace InterprocessComm
namespace Svmsg

open Verification

/-- The texts of the lines of a file. -/
def lineTexts (size : Nat) (file : List UInt8) : List (List UInt8) :=
  (pieces (size - 1) file.length file).map beforeNul

/-- The text of an error, cut by the buffer; `n` is the length of the request. -/
def errorText (size n : Nat) (path text : List UInt8) : List UInt8 :=
  path ++ beforeNul ((CANT_OPEN ++ text ++ [NEWLINE]).take (size - n - 1))

/-- The texts of the replies to a request of length `n` for a pathname. -/
def replyTexts (size : Nat) (files : Files) (n : Nat) (path : List UInt8) : List (List UInt8) :=
  match files path with
  | Except.ok file => lineTexts size file ++ [[]]
  | Except.error text => [errorText size n path text, []]

/-- The texts that the server has not sent yet. -/
def Serving.owed (size : Nat) (srv : Serving) : List (List UInt8) :=
  match srv.pc with
  | ServePc.done => []
  | ServePc.sendEnd => [srv.mesg.sent.mtext]
  | ServePc.sendError => [srv.mesg.sent.mtext, []]
  | ServePc.sendLine rest => srv.mesg.sent.mtext :: (lineTexts size rest ++ [[]])

section Serve

variable {size : Nat} {mesg : Mesg}

theorem lineTexts_cons {file : List UInt8} (hsize : 1 < size) (hfile : file ≠ []) :
    lineTexts size file = beforeNul (lineOf (size - 1) file) ::
      lineTexts size (file.drop (lineOf (size - 1) file).length) := by
  unfold lineTexts
  rw [pieces_cons (by lia) hfile, List.map_cons]

theorem serveLine_spec (mesg : Mesg) (file : List UInt8) (hsize : 1 < size) :
    exists srv, serveLine size mesg file = some srv ∧
      srv.owed size = lineTexts size file ++ [[]] ∧ srv.mesg.mesg_type = mesg.mesg_type := by
  rcases eq_or_ne file [] with rfl | hfile
  · exact ⟨_, rfl, rfl, rfl⟩
  · have hfgets : fgets mesg.mesg_data 0 size file =
        some (writeBytes mesg.mesg_data 0 (lineOf (size - 1) file ++ [0]),
          file.drop (lineOf (size - 1) file).length) := by
      cases file with
      | nil => exact absurd rfl hfile
      | cons c rest => rfl
    have hline := contains_write mesg.mesg_data 0 (lineOf (size - 1) file ++ [0])
    generalize writeBytes mesg.mesg_data 0 (lineOf (size - 1) file ++ [0]) = data at hfgets hline
    have hlen := lineOf_length_le (size - 1) file
    have hstring : cString data 0 size = some (beforeNul (lineOf (size - 1) file)) := by
      rw [cString_of_contains hline (by simp) (by simp; lia), beforeNul_snoc]
    refine ⟨{ mesg := { mesg with mesg_len := (beforeNul (lineOf (size - 1) file)).length,
                                  mesg_data := data },
              pc := ServePc.sendLine (file.drop (lineOf (size - 1) file).length) }, ?_, ?_, rfl⟩
    · unfold serveLine
      rw [hfgets]
      simp only [strlen, hstring, Option.map_some]
    · have hsplit := List.takeWhile_append_dropWhile (p := fun b : UInt8 => decide (b ≠ 0))
        (l := lineOf (size - 1) file)
      rw [← hsplit, List.append_assoc] at hline
      have hsent := readBytes_of_contains hline
      rw [lineTexts_cons hsize hfile]
      exact congrArg (· :: (lineTexts size (file.drop (lineOf (size - 1) file).length) ++ [[]]))
        hsent

theorem errorText_ne_nil {n : Nat} {path text : List UInt8} (hn : path = [] -> n + 1 < size) :
    errorText size n path text ≠ [] := by
  unfold errorText
  intro h
  rcases List.append_eq_nil_iff.mp h with ⟨hpath, htext⟩
  rcases Nat.exists_eq_add_of_lt (hn hpath) with ⟨k, hk⟩
  have hroom : size - n - 1 = k + 1 := by lia
  rw [hroom] at htext
  simp [CANT_OPEN, beforeNul] at htext

theorem replyText_length_lt {files : Files} {n : Nat} {path text : List UInt8} (hn : n < size)
    (hpath : path.length ≤ n) (htext : text ∈ replyTexts size files n path) :
    text.length < size := by
  unfold replyTexts at htext
  cases hfile : files path with
  | ok file =>
      rw [hfile] at htext
      rcases List.mem_append.mp htext with htext | htext
      · rcases List.mem_map.mp htext with ⟨line, hline, rfl⟩
        have hcut := beforeNul_length_le line
        have hpiece := length_le_of_mem_pieces hline
        lia
      · rw [List.mem_singleton.mp htext]
        exact Nat.lt_of_le_of_lt (Nat.zero_le _) hn
  | error error =>
      rw [hfile] at htext
      rcases List.mem_cons.mp htext with rfl | htext
      · have hcut := beforeNul_length_le ((CANT_OPEN ++ error ++ [NEWLINE]).take (size - n - 1))
        rw [List.length_take] at hcut
        unfold errorText
        rw [List.length_append]
        lia
      · rw [List.mem_singleton.mp htext]
        exact Nat.lt_of_le_of_lt (Nat.zero_le _) hn

theorem contains_errorText {m : Mem} {ptr : Nat} {path : List UInt8} (text : List UInt8)
    (hcontains : Contains m ptr (path ++ [0])) (hroom : ptr + path.length < size) :
    Contains
      (snprintf m (ptr + path.length : Nat) ((size : Int) - (ptr + path.length : Nat)).toNat
        (CANT_OPEN ++ text ++ [NEWLINE])) ptr
      (path ++
        ((CANT_OPEN ++ text ++ [NEWLINE]).take (size - (ptr + path.length) - 1) ++ [0])) := by
  have hsize : ((size : Int) - (ptr + path.length : Nat)).toNat = size - (ptr + path.length) := by
    lia
  unfold snprintf
  rw [hsize, if_neg (by lia), contains_append]
  constructor
  · exact (contains_append.mp hcontains).1.frame (Or.inl (by lia))
  · have hplace : ((ptr : Int) + path.length) = (ptr + path.length : Nat) := by lia
    rw [hplace]
    exact contains_write _ _ _

/-- A file that cannot be opened is answered with the pathname and the text of the error. -/
theorem serveFile_spec (files : Files) (mesg : Mesg) {ptr : Nat} {path : List UInt8}
    (hsize : 1 < size)
    (hpath : 0 ∉ path) (hcontains : Contains mesg.mesg_data ptr (path ++ [0]))
    (hroom : ptr + path.length < size) :
    exists srv, serveFile size files mesg ptr (ptr + path.length : Nat) = some srv ∧
      srv.owed size = replyTexts size files (ptr + path.length) path ∧
      srv.mesg.mesg_type = mesg.mesg_type := by
  have hname : cString mesg.mesg_data ptr (size - ptr) = some path :=
    cString_of_string hcontains hpath (by lia)
  unfold serveFile replyTexts
  rw [hname]
  simp only [Option.bind_some]
  cases hfile : files path with
  | ok file => exact serveLine_spec mesg file hsize
  | error text =>
      simp only
      have hdata := contains_errorText text hcontains hroom
      generalize snprintf mesg.mesg_data (ptr + path.length : Nat)
        ((size : Int) - (ptr + path.length : Nat)).toNat (CANT_OPEN ++ text ++ [NEWLINE]) = data
        at hdata ⊢
      have hstring : cString data ptr (size - ptr) =
          some (errorText size (ptr + path.length) path text) := by
        rw [cString_of_contains hdata (by simp) (by simp; lia), beforeNul_append hpath,
          beforeNul_snoc]
        rfl
      have hread : readBytes data ptr (errorText size (ptr + path.length) path text).length =
          errorText size (ptr + path.length) path text := by
        have hsplit := List.takeWhile_append_dropWhile (p := fun b : UInt8 => decide (b ≠ 0))
          (l := (CANT_OPEN ++ text ++ [NEWLINE]).take (size - (ptr + path.length) - 1))
        rw [← hsplit, List.append_assoc, ← List.append_assoc] at hdata
        exact readBytes_of_contains hdata
      simp only [strlen, hstring, Option.map_some, hread]
      refine ⟨_, rfl, ?_, rfl⟩
      exact congrArg (fun s => [s, []]) (readBytes_writeBytes data 0 _)

theorem outgoing_none {srv : Serving} (h : srv.outgoing = none) : srv.owed size = [] := by
  rcases srv with ⟨mesg, pc⟩
  cases pc with
  | done => rfl
  | _ => cases h

theorem outgoing_of_done {srv : Serving} (h : srv.pc = ServePc.done) : srv.outgoing = none := by
  unfold Serving.outgoing
  rw [h]

theorem afterSend_spec {srv : Serving} {m : Msg} (hsize : 1 < size)
    (hm : srv.outgoing = some m) :
    exists srv', srv.afterSend size = some srv' ∧
      srv.owed size = m.mtext :: srv'.owed size ∧
      m.mtype = srv.mesg.mesg_type ∧ srv'.mesg.mesg_type = srv.mesg.mesg_type := by
  rcases srv with ⟨mesg, pc⟩
  cases pc with
  | sendError =>
      cases hm
      exact ⟨_, rfl, rfl, rfl, rfl⟩
  | sendLine rest =>
      cases hm
      rcases serveLine_spec mesg rest hsize with ⟨srv', hsrv', howed, htype⟩
      exact ⟨srv', hsrv', congrArg (mesg.sent.mtext :: ·) howed.symm, rfl, htype⟩
  | sendEnd =>
      cases hm
      exact ⟨_, rfl, rfl, rfl, rfl⟩
  | done => cases hm

/-!
# The two servers
-/

section Servers

variable {files : Files} {id : Nat} {path : List UInt8}

theorem received_request (mesg : Mesg) (id : Nat) (path : List UInt8) :
    (mesg.received ⟨1, idText id ++ path⟩).mesg_len = (idText id ++ path).length ∧
      (mesg.received ⟨1, idText id ++ path⟩).mesg_len ≠ 0 ∧
      Contains (mesg.received ⟨1, idText id ++ path⟩).mesg_data 0 (idText id ++ path) := by
  refine ⟨rfl, ?_, contains_write mesg.mesg_data 0 _⟩
  show ((idText id ++ path).length : Int) ≠ 0
  simp [idText]
  lia

theorem Cliserv.one_lt_MAXMESGDATA : 1 < Cliserv.MAXMESGDATA := by
  decide

theorem Mpxnq.one_lt_MAXMESGDATA : 1 < Mpxnq.MAXMESGDATA := by
  decide

theorem Cliserv.serve_spec (files : Files) (mesg : Mesg) (hid : id < 2 ^ 31) (hpath : 0 ∉ path)
    (hroom : (idText id ++ path).length < Cliserv.MAXMESGDATA) :
    exists srv, Cliserv.serve files mesg ⟨1, idText id ++ path⟩ = some srv ∧
      srv.owed Cliserv.MAXMESGDATA =
        replyTexts Cliserv.MAXMESGDATA files (idText id ++ path).length path ∧
      srv.mesg.mesg_type = id := by
  rcases received_request mesg id path with ⟨hlen, hne, hcontains⟩
  rcases parseRequest_spec hid hpath hcontains hroom with ⟨data, hparse, hdata⟩
  have hsum : (idText id ++ path).length = (idText id).length + path.length :=
    List.length_append
  rcases serveFile_spec files
    { mesg.received ⟨1, idText id ++ path⟩ with mesg_type := toInt id, mesg_data := data }
    Cliserv.one_lt_MAXMESGDATA hpath hdata (by lia) with ⟨srv, hsrv, howed, htype⟩
  rw [← hsum] at hsrv howed
  simp only [toInt_of_lt hid] at hsrv htype
  refine ⟨srv, ?_, howed, htype⟩
  simp only [Cliserv.serve, if_neg hne]
  rw [hlen, hparse]
  simp only [Option.bind_some, toInt_of_lt hid]
  exact hsrv

theorem Mpxnq.serve_spec (files : Files) (mesg : Mesg) (hid : id < 2 ^ 31) (hpath : 0 ∉ path)
    (hroom : (idText id ++ path).length < Mpxnq.MAXMESGDATA) :
    exists srv, Mpxnq.serve files mesg ⟨1, idText id ++ path⟩ = some (some (srv, (id : Int))) ∧
      srv.owed Mpxnq.MAXMESGDATA =
        replyTexts Mpxnq.MAXMESGDATA files (idText id ++ path).length path ∧
      srv.mesg.mesg_type = 1 := by
  rcases received_request mesg id path with ⟨hlen, hne, hcontains⟩
  rcases parseRequest_spec hid hpath hcontains hroom with ⟨data, hparse, hdata⟩
  have hsum : (idText id ++ path).length = (idText id).length + path.length :=
    List.length_append
  rcases serveFile_spec files { mesg.received ⟨1, idText id ++ path⟩ with mesg_data := data }
    Mpxnq.one_lt_MAXMESGDATA hpath hdata (by lia) with ⟨srv, hsrv, howed, htype⟩
  rw [← hsum] at hsrv howed
  refine ⟨srv, ?_, howed, htype⟩
  simp only [Mpxnq.serve, if_neg hne]
  rw [hlen, hparse]
  simp only [Option.bind_some, hsrv, Option.map_some, toInt_of_lt hid]

end Servers

end Serve

end Svmsg
end InterprocessComm
