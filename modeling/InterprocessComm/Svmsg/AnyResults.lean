import InterprocessComm.Lib.Transition
import InterprocessComm.Svmsg.FileTransfer

/-!
# Results of any kind

The loops of the two servers, for every result that `mesg_recv` can have.  Both use the result
as an index of `mesg_data` unless it is 0, and both keep one structure for all requests.
-/

namespace InterprocessComm
namespace Svmsg

open Verification

/-!
## One iteration
-/

/-- What `mesg_recv` finds: an error, or the text of a message. -/
inductive RecvResult where
  | failed
  | message (text : List UInt8)
deriving DecidableEq

structure Input where
  result : RecvResult
  files : Files

/-- What a server does in one iteration: the places of `mesg_data` that it uses when it ends and
parses the request, and what it sends. -/
structure Iteration (reply : Type) where
  places : List Int
  replies : List reply
deriving DecidableEq

namespace Mesg

/-- The byte in front of `mesg_data` is the highest one of `mesg_type`. -/
def storeFront (mesg : Mesg) (c : UInt8) : Mesg :=
  { mesg with mesg_type := (mesg.mesg_type % 2 ^ 56 + c.toNat * 2 ^ 56).bmod (2 ^ 64) }

/-- `mesg.mesg_data[i] = c`, which does not test the index. -/
def store (mesg : Mesg) (i : Int) (c : UInt8) : Mesg :=
  let mesg := { mesg with mesg_data := writeBytes mesg.mesg_data i [c] }
  if i = -1 then mesg.storeFront c else mesg

def recv (mesg : Mesg) : RecvResult -> Mesg × Int
  | RecvResult.failed => ({ mesg with mesg_len := -1, mesg_type := 1 }, -1)
  | RecvResult.message text => (mesg.received ⟨1, text⟩, text.length)

end Mesg

/-- How many bytes `strchr` reads: up to the first `c` or zero, if it comes that far. -/
def scanLength (m : Mem) (c : UInt8) : Nat -> Int -> Nat
  | 0, _ => 0
  | room + 1, a => if m a = c ∨ m a = NUL then 1 else scanLength m c room (a + 1) + 1

/-- The request is ended and cut, wherever `n` points; the search for the blank is followed until
it has left the array by one place, and `atol` reads no further than it.  A search that finds
nothing has no result. -/
def parseAt (size : Nat) (mesg : Mesg) (n : Int) : List Int × Option Request :=
  let mesg := mesg.store n NUL
  let count := scanLength mesg.mesg_data BLANK (size + 1) 0
  let places := n :: (List.range count).map Int.ofNat
  let k := count - 1
  if mesg.mesg_data k = BLANK then
    let mesg := mesg.store k NUL
    (places, (cString mesg.mesg_data 0 (size + 1)).map fun id =>
      Request.named mesg (atol id) (k + 1))
  else if mesg.mesg_data k = NUL then
    (places, some (Request.bogus mesg))
  else
    (places, none)

/-- The text of an error is printed at the index `n`, and so may begin in front of `mesg_data`. -/
def serveFileAt (size : Nat) (files : Files) (mesg : Mesg) (ptr : Nat) (n : Int) :
    Option Serving :=
  (serveFile size files mesg ptr n).map fun srv =>
    match srv.pc with
    | ServePc.sendError =>
        if n = -1 then
          { srv with mesg := srv.mesg.storeFront (srv.mesg.mesg_data (-1)) }
        else
          srv
    | _ => srv

namespace Serving

def finish (size : Nat) : Nat -> Serving -> Option (List Msg × Mesg)
  | 0, _ => none
  | fuel + 1, srv =>
      match srv.outgoing with
      | none => some ([], srv.mesg)
      | some m =>
          (srv.afterSend size).bind fun srv' =>
            (finish size fuel srv').map fun r => (m :: r.1, r.2)

/-- Every byte of a file is at most one line. -/
def fuel (srv : Serving) : Nat :=
  match srv.pc with
  | ServePc.sendLine rest => rest.length + 3
  | _ => 3

end Serving

/-- The replies to a request, and the structure behind them. -/
def answerAt (size : Nat) (files : Files) (mesg : Mesg) (ptr : Nat) (n : Int) :
    Option (List Msg × Mesg) :=
  (serveFileAt size files mesg ptr n).bind fun srv => srv.finish size srv.fuel

/-- One iteration of the server, which answers itself.  It has no structure to go on with where
it has left the array. -/
def Cliserv.iterate (mesg : Mesg) (input : Input) : Option Mesg × Iteration Msg :=
  let (mesg, n) := mesg.recv input.result
  if n = 0 then
    (some mesg, ⟨[], []⟩)
  else
    match parseAt MAXMESGDATA mesg n with
    | (places, none) => (none, ⟨places, []⟩)
    | (places, some (Request.bogus mesg)) => (some mesg, ⟨places, []⟩)
    | (places, some (Request.named mesg id ptr)) =>
        match answerAt MAXMESGDATA input.files { mesg with mesg_type := toInt id } ptr n with
        | none => (none, ⟨places, []⟩)
        | some (ms, mesg) => (some mesg, ⟨places, ms⟩)

/-- One iteration of the server, whose child answers on the queue that the request names; the
server goes on with its own copy of the structure. -/
def Mpxnq.iterate (mesg : Mesg) (input : Input) : Option Mesg × Iteration (Int × Msg) :=
  let (mesg, n) := mesg.recv input.result
  if n = 0 then
    (some mesg, ⟨[], []⟩)
  else
    match parseAt MAXMESGDATA mesg n with
    | (places, none) => (none, ⟨places, []⟩)
    | (places, some (Request.bogus mesg)) => (some mesg, ⟨places, []⟩)
    | (places, some (Request.named mesg id ptr)) =>
        match answerAt MAXMESGDATA input.files mesg ptr n with
        | none => (some mesg, ⟨places, []⟩)
        | some (ms, _) => (some mesg, ⟨places, ms.map fun m => (toInt id, m)⟩)

/-!
## Runs
-/

/-- `msgrcv` gives at most `size` bytes. -/
def RecvResult.fits (size : Nat) : RecvResult -> Bool
  | RecvResult.failed => true
  | RecvResult.message text => text.length ≤ size

section Loop

variable {reply : Type}

/-- One time around the loop, for as long as the behaviour is defined. -/
def loopStep (size : Nat) (iterate : Mesg -> Input -> Option Mesg × Iteration reply) :
    Option Mesg -> Input -> Option (Option Mesg × Iteration reply)
  | none, _ => none
  | some mesg, input => if input.result.fits size then some (iterate mesg input) else none

abbrev LoopTransition (reply : Type) : Type :=
  Transition (Option Mesg) Input (Iteration reply)

/-- A request is parsed inside of `mesg_data`; and what a server sends is caused by a message
that it has received in this iteration, whatever was in the structure before. -/
structure IterationLaw (size : Nat) (iterate : Mesg -> Input -> Option Mesg × Iteration reply)
    (input : Input) (it : Iteration reply) : Prop where
  inside : forall p, p ∈ it.places -> InRange 0 size p
  caused : it.replies ≠ [] ->
    exists text, input.result = RecvResult.message text ∧ text ≠ [] ∧
      forall mesg, (iterate mesg input).2.replies = it.replies

def RecvResult.astray (size : Nat) : RecvResult -> Bool
  | RecvResult.failed => true
  | RecvResult.message text => text.length = size

end Loop

/-!
## Requests
-/

section Parse

variable {size : Nat} {mesg : Mesg}

theorem store_of_nat (mesg : Mesg) (n : Nat) (c : UInt8) :
    mesg.store n c = { mesg with mesg_data := writeBytes mesg.mesg_data n [c] } := by
  have hne : (n : Int) ≠ -1 := by lia
  unfold Mesg.store
  rw [if_neg hne]

theorem scanLength_string {m : Mem} {a : Int} {s : List UInt8} {room : Nat} (c : UInt8)
    (h : Contains m a (s ++ [0])) (hs : 0 ∉ s) (hroom : s.length < room) :
    scanLength m c room a = (s.idxOf? c).getD s.length + 1 := by
  induction s generalizing a room with
  | nil =>
      rcases Nat.exists_eq_add_of_lt hroom with ⟨k, rfl⟩
      have hzero : m a = NUL := (contains_cons.mp h).1
      rw [scanLength, if_pos (Or.inr hzero)]
      rfl
  | cons b rest ih =>
      rw [List.length_cons] at hroom
      rcases Nat.exists_eq_add_of_lt hroom with ⟨k, rfl⟩
      rcases contains_cons.mp h with ⟨hb, hrest⟩
      rw [List.mem_cons, not_or] at hs
      have hnul : b ≠ NUL := fun hzero => hs.1 hzero.symm
      rw [scanLength, hb, List.idxOf?_cons]
      by_cases hc : b = c
      · rw [if_pos (Or.inl hc), if_pos (beq_iff_eq.mpr hc)]
        rfl
      · have hnot : ¬ (b = c ∨ b = NUL) := not_or.mpr ⟨hc, hnul⟩
        rw [if_neg hnot, if_neg (mt beq_iff_eq.mp hc), ih hrest hs.2 (by lia)]
        cases rest.idxOf? c <;> rfl

theorem parseAt_inside (mesg : Mesg) {n : Nat} (hn : n < size) :
    exists places, parseAt size mesg n = (places, parseRequest size mesg n) ∧
      forall p, p ∈ places -> InRange 0 size p := by
  have hzero : writeBytes mesg.mesg_data n [NUL] (n : Int) = 0 :=
    (contains_cons.mp (contains_write mesg.mesg_data n [NUL])).1
  have hrange : InRange 0 size (n : Int) := ⟨by lia, by lia⟩
  rcases cString_of_zero hrange hzero with ⟨s, hstring⟩
  rcases cString_spec hstring with ⟨hdata, hnone, hlength⟩
  have hbounds : (0 : Int) ≤ n ∧ (n : Int) < size := ⟨by lia, by lia⟩
  unfold parseAt parseRequest
  simp only [store_of_nat, if_pos hbounds, hstring, Option.bind_some,
    scanLength_string BLANK hdata hnone (Nat.lt_succ_of_lt hlength)]
  generalize writeBytes mesg.mesg_data n [NUL] = data at hstring hdata
  have hplaces : forall count : Nat, count ≤ size ->
      forall p, p ∈ (n : Int) :: (List.range count).map Int.ofNat -> InRange 0 size p := by
    intro count hcount p hp
    rcases List.mem_cons.mp hp with rfl | hp
    · exact hrange
    · rcases List.mem_map.mp hp with ⟨i, hi, rfl⟩
      have hlt := List.mem_range.mp hi
      exact ⟨by lia, by lia⟩
  cases hk : s.idxOf? BLANK with
  | none =>
      have hend : data s.length = NUL := by
        have hlast := (contains_cons.mp (contains_append.mp hdata).2).1
        rwa [Int.zero_add] at hlast
      refine ⟨_, ?_, hplaces (s.length + 1) hlength⟩
      simp only [Option.getD_none, Nat.add_sub_cancel, hend]
      rfl
  | some k =>
      rcases List.idxOf?_eq_some_iff.mp hk with ⟨hlt, hblank, _⟩
      have hfound : data k = BLANK := by
        have hsplit : s ++ [0] = s.take k ++ (BLANK :: (s.drop (k + 1) ++ [0])) := by
          rw [← hblank, ← List.cons_append, List.getElem_cons_drop, ← List.append_assoc,
            List.take_append_drop]
        rw [hsplit, contains_append, List.length_take_of_le (Nat.le_of_lt hlt),
          Int.zero_add] at hdata
        exact (contains_cons.mp hdata.2).1
      have hcut := contains_cut hdata (Nat.le_of_lt hlt)
      have hfront : 0 ∉ s.take k := fun hmem => hnone (List.mem_of_mem_take hmem)
      have hshort : (s.take k).length < size := by
        rw [List.length_take_of_le (Nat.le_of_lt hlt)]
        exact Nat.lt_trans hlt hlength
      refine ⟨_, ?_, hplaces (k + 1) (Nat.lt_trans hlt hlength)⟩
      simp only [Option.getD_some, Nat.add_sub_cancel, hfound, if_true,
        cString_of_string hcut hfront hshort,
        cString_of_string hcut hfront (Nat.lt_succ_of_lt hshort)]

end Parse

/-!
## Replies
-/

/-- The texts of the replies to a request of length `n`, of which `rest` is behind the blank; a
zero in it ends the pathname, and the text of an error is printed where nobody reads it. -/
def answerTexts (size : Nat) (files : Files) (n : Nat) (rest : List UInt8) : List (List UInt8) :=
  match files (beforeNul rest) with
  | Except.ok file => lineTexts size file ++ [[]]
  | Except.error text => [if 0 ∈ rest then beforeNul rest else errorText size n rest text, []]

section Answer

variable {size : Nat} {srv : Serving}

theorem finish_replies (size fuel : Nat) (srv : Serving) :
    (srv.finish size fuel).map Prod.fst = srv.replies size fuel := by
  induction fuel generalizing srv with
  | zero => rfl
  | succ fuel ih =>
      rw [Serving.finish, Serving.replies]
      cases srv.outgoing with
      | none => rfl
      | some m =>
          cases srv.afterSend size with
          | none => rfl
          | some srv' =>
              simp only [Option.bind_some, ← ih, Option.map_map]
              rfl

theorem owed_length_lt (srv : Serving) : (srv.owed size).length < srv.fuel := by
  rcases srv with ⟨mesg, pc⟩
  cases pc with
  | sendLine rest =>
      have hlines := lineTexts_length_le size rest
      simp only [Serving.owed, Serving.fuel, List.length_cons, List.length_append,
        List.length_nil]
      lia
  | _ => simp [Serving.owed, Serving.fuel]

theorem finish_spec (hsize : 1 < size) (srv : Serving) :
    exists mesg, srv.finish size srv.fuel =
      some ((srv.owed size).map (Msg.mk srv.mesg.mesg_type), mesg) := by
  have hreplies := replies_spec hsize (owed_length_lt srv)
  rw [← finish_replies] at hreplies
  rcases Option.map_eq_some_iff.mp hreplies with ⟨⟨ms, mesg⟩, hfinish, hms⟩
  cases hms
  exact ⟨mesg, hfinish⟩

theorem serveFile_text (files : Files) (mesg : Mesg) {ptr : Nat} {rest : List UInt8}
    (hsize : 1 < size) (hcontains : Contains mesg.mesg_data ptr (rest ++ [0]))
    (hroom : ptr + rest.length < size) :
    exists srv, serveFile size files mesg ptr (ptr + rest.length : Nat) = some srv ∧
      srv.owed size = answerTexts size files (ptr + rest.length) rest ∧
      srv.mesg.mesg_type = mesg.mesg_type := by
  by_cases hzero : 0 ∈ rest
  · have hpath : cString mesg.mesg_data ptr (size - ptr) = some (beforeNul rest) := by
      rw [cString_of_contains hcontains (by simp) (by simp; lia), beforeNul_snoc]
    unfold serveFile answerTexts
    rw [hpath]
    simp only [Option.bind_some, if_pos hzero]
    cases hfile : files (beforeNul rest) with
    | ok file => exact serveLine_spec mesg file hsize
    | error text =>
        rcases cString_spec hpath with ⟨hstring, hnone, hlength⟩
        have hlt := beforeNul_length_lt hzero
        -- the pathname and its zero are in front of what is printed
        have hkept : Contains
            (snprintf mesg.mesg_data (ptr + rest.length : Nat)
              ((size : Int) - (ptr + rest.length : Nat)).toNat (CANT_OPEN ++ text ++ [NEWLINE]))
            ptr (beforeNul rest ++ [0]) := by
          have hroom' : ((size : Int) - (ptr + rest.length : Nat)).toNat ≠ 0 := by lia
          unfold snprintf
          rw [if_neg hroom']
          apply hstring.frame
          rw [List.length_append, List.length_singleton]
          exact Or.inl (by lia)
        simp only
        generalize snprintf mesg.mesg_data (ptr + rest.length : Nat)
          ((size : Int) - (ptr + rest.length : Nat)).toNat (CANT_OPEN ++ text ++ [NEWLINE]) = data
          at hkept ⊢
        have hread : readBytes data ptr (beforeNul rest).length = beforeNul rest :=
          (contains_append.mp hkept).1
        simp only [strlen, cString_of_string hkept hnone hlength, Option.map_some, hread]
        refine ⟨_, rfl, ?_, rfl⟩
        exact congrArg (fun s => [s, []]) (readBytes_writeBytes data 0 _)
  · rcases serveFile_spec files mesg hsize hzero hcontains hroom with ⟨srv, hsrv, howed, htype⟩
    refine ⟨srv, hsrv, ?_, htype⟩
    have hseen : beforeNul rest = rest := beforeNul_eq_self_iff.mpr hzero
    unfold answerTexts
    simp only [howed, hseen, if_neg hzero]
    rfl

theorem answerAt_text (files : Files) (mesg : Mesg) {ptr : Nat} {rest : List UInt8}
    (hsize : 1 < size) (hcontains : Contains mesg.mesg_data ptr (rest ++ [0]))
    (hroom : ptr + rest.length < size) :
    exists mesg', answerAt size files mesg ptr (ptr + rest.length : Nat) =
      some ((answerTexts size files (ptr + rest.length) rest).map (Msg.mk mesg.mesg_type),
        mesg') := by
  rcases serveFile_text files mesg hsize hcontains hroom with ⟨srv, hsrv, howed, htype⟩
  rcases finish_spec hsize srv with ⟨mesg', hfinish⟩
  have hne : ((ptr + rest.length : Nat) : Int) ≠ -1 := by lia
  refine ⟨mesg', ?_⟩
  unfold answerAt serveFileAt
  rw [hsrv, ← howed, ← htype, Option.map_some, Option.bind_some]
  simp only [if_neg hne]
  cases hpc : srv.pc <;> exact hfinish

end Answer

/-!
## Iterations
-/

section Iterate

variable {text : List UInt8} {files : Files}

def split (text : List UInt8) : Option (Int × List UInt8) :=
  ((beforeNul text).idxOf? BLANK).map fun k =>
    (toInt (atol ((beforeNul text).take k)), text.drop (k + 1))

theorem parseAt_text {size : Nat} (mesg : Mesg) (htext : text.length < size) :
    exists places, (forall p, p ∈ places -> InRange 0 size p) ∧
      ((split text = none ∧ exists mesg',
          parseAt size (mesg.received ⟨1, text⟩) text.length =
            (places, some (Request.bogus mesg'))) ∨
        exists data id ptr rest, split text = some (toInt id, rest) ∧
          ptr + rest.length = text.length ∧ Contains data ptr (rest ++ [0]) ∧
          parseAt size (mesg.received ⟨1, text⟩) text.length =
            (places, some (Request.named { mesg.received ⟨1, text⟩ with mesg_data := data }
              id ptr))) := by
  rcases parseAt_inside (mesg.received ⟨1, text⟩) htext with ⟨places, hparse, hinside⟩
  refine ⟨places, hinside, ?_⟩
  rw [hparse]
  unfold split
  rcases parseRequest_text (mesg.received ⟨1, text⟩) htext (contains_write _ _ _) with
    ⟨hk, mesg', hbogus⟩ | ⟨k, data, hk, hlt, hnamed, hrest⟩
  · rw [hk, hbogus]
    exact Or.inl ⟨rfl, mesg', rfl⟩
  · rw [hk, hnamed]
    refine Or.inr ⟨data, _, k + 1, text.drop (k + 1), rfl, ?_, hrest, rfl⟩
    rw [List.length_drop]
    lia

def answer (size : Nat) (files : Files) (text : List UInt8) : List (Int × List UInt8) :=
  match split text with
  | none => []
  | some (id, rest) => (answerTexts size files text.length rest).map fun s => (id, s)

def Cliserv.answers (files : Files) (text : List UInt8) : List Msg :=
  (answer MAXMESGDATA files text).map fun (id, s) => ⟨id, s⟩

/-- The messages of a child keep the type of the request. -/
def Mpxnq.answers (files : Files) (text : List UInt8) : List (Int × Msg) :=
  (answer MAXMESGDATA files text).map fun (id, s) => (id, ⟨1, s⟩)

theorem Cliserv.iterate_message (mesg : Mesg) (files : Files) (htext : text.length < MAXMESGDATA) :
    exists mesg' it, Cliserv.iterate mesg ⟨RecvResult.message text, files⟩ = (some mesg', it) ∧
      (forall p, p ∈ it.places -> InRange 0 MAXMESGDATA p) ∧
      it.replies = if text = [] then [] else Cliserv.answers files text := by
  unfold Cliserv.answers Cliserv.iterate Mesg.recv
  by_cases hnil : text = []
  · subst hnil
    exact ⟨_, ⟨[], []⟩, rfl, by simp, rfl⟩
  · have hne : (text.length : Int) ≠ 0 := by simpa using hnil
    simp only [if_neg hne, if_neg hnil]
    rcases parseAt_text mesg htext with ⟨places, hinside, hparsed⟩
    unfold answer
    rcases hparsed with ⟨hsplit, mesg', hparse⟩ | ⟨data, id, ptr, rest, hsplit, hn, hrest, hparse⟩
    · simp only [hparse, hsplit]
      exact ⟨mesg', ⟨places, []⟩, rfl, hinside, rfl⟩
    · rcases answerAt_text files
        { mesg.received ⟨1, text⟩ with mesg_type := toInt id, mesg_data := data }
        one_lt_MAXMESGDATA hrest (by lia) with ⟨mesg', hanswer⟩
      rw [hn] at hanswer
      simp only [hparse, hsplit, hanswer]
      exact ⟨mesg', ⟨places, _⟩, rfl, hinside, by simp⟩

theorem Mpxnq.iterate_message (mesg : Mesg) (files : Files) (htext : text.length < MAXMESGDATA) :
    exists mesg' it, Mpxnq.iterate mesg ⟨RecvResult.message text, files⟩ = (some mesg', it) ∧
      (forall p, p ∈ it.places -> InRange 0 MAXMESGDATA p) ∧
      it.replies = if text = [] then [] else Mpxnq.answers files text := by
  unfold Mpxnq.answers Mpxnq.iterate Mesg.recv
  by_cases hnil : text = []
  · subst hnil
    exact ⟨_, ⟨[], []⟩, rfl, by simp, rfl⟩
  · have hne : (text.length : Int) ≠ 0 := by simpa using hnil
    simp only [if_neg hne, if_neg hnil]
    rcases parseAt_text mesg htext with ⟨places, hinside, hparsed⟩
    unfold answer
    rcases hparsed with ⟨hsplit, mesg', hparse⟩ | ⟨data, id, ptr, rest, hsplit, hn, hrest, hparse⟩
    · simp only [hparse, hsplit]
      exact ⟨mesg', ⟨places, []⟩, rfl, hinside, rfl⟩
    · rcases answerAt_text files { mesg.received ⟨1, text⟩ with mesg_data := data }
        one_lt_MAXMESGDATA hrest (by lia) with ⟨mesg', hanswer⟩
      rw [hn] at hanswer
      simp only [hparse, hsplit, hanswer]
      exact ⟨_, ⟨places, _⟩, rfl, hinside, by simp [Mesg.received]⟩

end Iterate

/-!
## Whole runs
-/

section Runs

variable {reply : Type} {size : Nat} {iterate : Mesg -> Input -> Option Mesg × Iteration reply}

theorem parseAt_places (size : Nat) (mesg : Mesg) (n : Int) :
    n ∈ (parseAt size mesg n).1 := by
  simp only [parseAt]
  split
  · exact List.mem_cons_self
  · split <;> exact List.mem_cons_self

theorem Cliserv.iterate_places {mesg : Mesg} {input : Input}
    (hne : (mesg.recv input.result).2 ≠ 0) :
    (mesg.recv input.result).2 ∈ (Cliserv.iterate mesg input).2.places := by
  have hplace := parseAt_places MAXMESGDATA (mesg.recv input.result).1 (mesg.recv input.result).2
  simp only [Cliserv.iterate, if_neg hne]
  rcases hparse : parseAt MAXMESGDATA (mesg.recv input.result).1 (mesg.recv input.result).2 with
    ⟨places, parsed⟩
  rw [hparse] at hplace
  cases parsed with
  | none => exact hplace
  | some request =>
      cases request with
      | bogus mesg => exact hplace
      | named mesg id ptr =>
          simp only
          split <;> exact hplace

theorem Mpxnq.iterate_places {mesg : Mesg} {input : Input}
    (hne : (mesg.recv input.result).2 ≠ 0) :
    (mesg.recv input.result).2 ∈ (Mpxnq.iterate mesg input).2.places := by
  have hplace := parseAt_places MAXMESGDATA (mesg.recv input.result).1 (mesg.recv input.result).2
  simp only [Mpxnq.iterate, if_neg hne]
  rcases hparse : parseAt MAXMESGDATA (mesg.recv input.result).1 (mesg.recv input.result).2 with
    ⟨places, parsed⟩
  rw [hparse] at hplace
  cases parsed with
  | none => exact hplace
  | some request =>
      cases request with
      | bogus mesg => exact hplace
      | named mesg id ptr =>
          simp only
          split <;> exact hplace

/-- One iteration keeps the law exactly if its result is no error and leaves room for a zero. -/
theorem iterationLaw_iff (answers : Files -> List UInt8 -> List reply) (hsize : 0 < size)
    (hplaces : forall (mesg : Mesg) (input : Input), (mesg.recv input.result).2 ≠ 0 ->
      (mesg.recv input.result).2 ∈ (iterate mesg input).2.places)
    (hanswers : forall (mesg : Mesg) (files : Files) (text : List UInt8), text.length < size ->
      exists mesg' it, iterate mesg ⟨RecvResult.message text, files⟩ = (some mesg', it) ∧
        (forall p, p ∈ it.places -> InRange 0 size p) ∧
        it.replies = if text = [] then [] else answers files text)
    (mesg : Mesg) {input : Input} (hfits : input.result.fits size = true) :
    IterationLaw size iterate input (iterate mesg input).2 <->
      input.result.astray size = false := by
  rcases input with ⟨result, files⟩
  cases result with
  | failed =>
      have hminus : (mesg.recv RecvResult.failed).2 ≠ 0 := by
        show (-1 : Int) ≠ 0
        decide
      have hplace := hplaces mesg ⟨RecvResult.failed, files⟩ hminus
      apply iff_of_false
      · intro hlaw
        exact absurd (hlaw.inside (-1) hplace).1 (by decide)
      · exact Bool.noConfusion
  | message text =>
      have hle : text.length ≤ size := of_decide_eq_true hfits
      rcases Nat.lt_or_eq_of_le hle with hlt | heq
      · refine iff_of_true ?_ (decide_eq_false (Nat.ne_of_lt hlt))
        rcases hanswers mesg files text hlt with ⟨mesg', it, hit, hinside, hreplies⟩
        rw [hit]
        refine ⟨hinside, ?_⟩
        intro hne
        refine ⟨text, rfl, ?_, ?_⟩
        · rintro rfl
          exact hne hreplies
        · intro other
          rcases hanswers other files text hlt with ⟨other', it', hit', _, hreplies'⟩
          rw [hit', hreplies, hreplies']
      · have hpos : (mesg.recv (RecvResult.message text)).2 ≠ 0 := by
          show (text.length : Int) ≠ 0
          lia
        have hplace := hplaces mesg ⟨RecvResult.message text, files⟩ hpos
        apply iff_of_false
        · intro hlaw
          have hrange : (text.length : Int) < 0 + size := (hlaw.inside text.length hplace).2
          lia
        · have hastray : (RecvResult.message text).astray size = true := decide_eq_true heq
          rw [hastray]
          exact Bool.noConfusion

theorem loopStep_valid {s t : Option Mesg} {input : Input} {it : Iteration reply}
    (h : loopStep size iterate s input = some (t, it)) :
    exists mesg, s = some mesg ∧ input.result.fits size = true ∧ it = (iterate mesg input).2 := by
  cases s with
  | none => cases h
  | some mesg =>
      simp only [loopStep] at h
      split at h
      · rename_i hfits
        exact ⟨mesg, rfl, hfits, congrArg Prod.snd (Option.some.inj h).symm⟩
      · cases h

theorem loop_lawful_iff {Init : Option Mesg -> Prop}
    (hlaw : forall (mesg : Mesg) {input : Input}, input.result.fits size = true ->
      (IterationLaw size iterate input (iterate mesg input).2 <->
        input.result.astray size = false))
    {tr : List (LoopTransition reply)} {s : Option Mesg}
    (hrun : Run Init (loopStep size iterate) tr s) :
    (forall e, e ∈ tr -> IterationLaw size iterate e.action e.event) <->
      forall e, e ∈ tr -> e.action.result.astray size = false := by
  refine forall₂_congr ?_
  intro e he
  rcases loopStep_valid (run_transition hrun he).2 with ⟨mesg, _, hfits, hevent⟩
  rw [hevent]
  exact hlaw mesg hfits

end Runs

def Cliserv.LoopInit (s : Option Mesg) : Prop :=
  s = some { mesg_len := 0, mesg_type := 0, mesg_data := fun _ => 0 }

def Mpxnq.LoopInit (s : Option Mesg) : Prop := s.isSome

/-- Both servers stay inside of `mesg_data` and answer nothing but what they have received exactly
if no `mesg_recv` fails and no message has `MAXMESGDATA` bytes. -/
theorem servers_answer_received_iff {tr : List (LoopTransition Msg)}
    {mpxnqTr : List (LoopTransition (Int × Msg))} {s mpxnqS : Option Mesg}
    (hcliserv : Run Cliserv.LoopInit (loopStep Cliserv.MAXMESGDATA Cliserv.iterate) tr s)
    (hmpxnq :
      Run Mpxnq.LoopInit (loopStep Mpxnq.MAXMESGDATA Mpxnq.iterate) mpxnqTr mpxnqS) :
    ((forall e, e ∈ tr -> IterationLaw Cliserv.MAXMESGDATA Cliserv.iterate e.action e.event) <->
      forall e, e ∈ tr -> e.action.result.astray Cliserv.MAXMESGDATA = false) ∧
    ((forall e, e ∈ mpxnqTr ->
        IterationLaw Mpxnq.MAXMESGDATA Mpxnq.iterate e.action e.event) <->
      forall e, e ∈ mpxnqTr -> e.action.result.astray Mpxnq.MAXMESGDATA = false) := by
  constructor
  · refine loop_lawful_iff ?_ hcliserv
    intro mesg input hfits
    exact iterationLaw_iff Cliserv.answers (by decide) (fun _ _ => Cliserv.iterate_places)
      (fun mesg files _ => Cliserv.iterate_message mesg files) mesg hfits
  · refine loop_lawful_iff ?_ hmpxnq
    intro mesg input hfits
    exact iterationLaw_iff Mpxnq.answers (by decide) (fun _ _ => Mpxnq.iterate_places)
      (fun mesg files _ => Mpxnq.iterate_message mesg files) mesg hfits

def cleared : Mesg :=
  { mesg_len := 0, mesg_type := 0, mesg_data := fun _ => 0 }

def twoRequests : List Input :=
  [⟨RecvResult.message [55, 32, 102], fun _ => Except.ok [104, 10]⟩,
    ⟨RecvResult.message [], fun _ => Except.ok []⟩,
    ⟨RecvResult.message [56, 32, 102], fun _ => Except.ok []⟩]

/-- Two requests for `f` to each server, an empty message between them. -/
theorem servers_answer_received_iff_twoRequests :
    (exists tr s, Run Cliserv.LoopInit (loopStep Cliserv.MAXMESGDATA Cliserv.iterate) tr s ∧
      tr.map (fun e => e.event.replies) = [[⟨7, [104, 10]⟩, ⟨7, []⟩], [], [⟨8, []⟩]] ∧
      forall e, e ∈ tr -> IterationLaw Cliserv.MAXMESGDATA Cliserv.iterate e.action e.event) ∧
    (exists tr s, Run Mpxnq.LoopInit (loopStep Mpxnq.MAXMESGDATA Mpxnq.iterate) tr s ∧
      tr.map (fun e => e.event.replies) =
        [[(7, ⟨1, [104, 10]⟩), (7, ⟨1, []⟩)], [], [(8, ⟨1, []⟩)]] ∧
      forall e, e ∈ tr -> IterationLaw Mpxnq.MAXMESGDATA Mpxnq.iterate e.action e.event) := by
  have hcliserv : exists tr s,
      Run Cliserv.LoopInit (loopStep Cliserv.MAXMESGDATA Cliserv.iterate) tr s ∧
        decide (tr.map (fun e => e.event.replies) = [[⟨7, [104, 10]⟩, ⟨7, []⟩], [], [⟨8, []⟩]] ∧
          forall e, e ∈ tr -> e.action.result.astray Cliserv.MAXMESGDATA = false) = true :=
    run_of_replay twoRequests (rfl : Cliserv.LoopInit (some cleared)) (by decide +kernel)
  have hmpxnq : exists tr s,
      Run Mpxnq.LoopInit (loopStep Mpxnq.MAXMESGDATA Mpxnq.iterate) tr s ∧
        decide (tr.map (fun e => e.event.replies) =
            [[(7, ⟨1, [104, 10]⟩), (7, ⟨1, []⟩)], [], [(8, ⟨1, []⟩)]] ∧
          forall e, e ∈ tr -> e.action.result.astray Mpxnq.MAXMESGDATA = false) = true :=
    run_of_replay twoRequests (rfl : Mpxnq.LoopInit (some cleared)) (by decide +kernel)
  rcases hcliserv with ⟨tr, s, hrun, htest⟩
  rcases of_decide_eq_true htest with ⟨hreplies, hgood⟩
  rcases hmpxnq with ⟨mpxnqTr, mpxnqS, hmpxnqRun, hmpxnqTest⟩
  rcases of_decide_eq_true hmpxnqTest with ⟨hmpxnqReplies, hmpxnqGood⟩
  rcases servers_answer_received_iff hrun hmpxnqRun with ⟨hlaw, hmpxnqLaw⟩
  exact ⟨⟨tr, s, hrun, hreplies, hlaw.mpr hgood⟩,
    ⟨mpxnqTr, mpxnqS, hmpxnqRun, hmpxnqReplies, hmpxnqLaw.mpr hmpxnqGood⟩⟩

/-- After a file with the line `"9 x"` a failed `mesg_recv` makes the server answer that line; and
a message of `MAXMESGDATA` bytes is ended behind the array. -/
theorem line_answered_failedRecv :
    (exists tr s e, Run Cliserv.LoopInit (loopStep Cliserv.MAXMESGDATA Cliserv.iterate) tr s ∧
      e ∈ tr ∧ e.action.result = RecvResult.failed ∧ e.event = ⟨[-1, 0, 1], [⟨9, []⟩]⟩ ∧
      ¬ IterationLaw Cliserv.MAXMESGDATA Cliserv.iterate e.action e.event) ∧
    (exists tr s e, Run Mpxnq.LoopInit (loopStep Mpxnq.MAXMESGDATA Mpxnq.iterate) tr s ∧
      e ∈ tr ∧ e.action.result = RecvResult.message (List.replicate 1008 65) ∧
      (1008 : Int) ∈ e.event.places ∧
      ¬ IterationLaw Mpxnq.MAXMESGDATA Mpxnq.iterate e.action e.event) := by
  have hfailed : exists tr s,
      Run Cliserv.LoopInit (loopStep Cliserv.MAXMESGDATA Cliserv.iterate) tr s ∧
        tr.any (fun e => decide (e.action.result = RecvResult.failed ∧
          e.event = ⟨[-1, 0, 1], [⟨9, []⟩]⟩)) = true :=
    run_of_replay
      [⟨RecvResult.message [55, 32, 102], fun _ => Except.ok [57, 32, 120, 10]⟩,
        ⟨RecvResult.failed, fun _ => Except.ok []⟩]
      (rfl : Cliserv.LoopInit (some cleared)) (by decide +kernel)
  constructor
  · rcases hfailed with ⟨tr, s, hrun, htest⟩
    rcases List.any_eq_true.mp htest with ⟨e, he, hevent⟩
    rcases of_decide_eq_true hevent with ⟨hresult, hevent⟩
    refine ⟨tr, s, e, hrun, he, hresult, hevent, ?_⟩
    intro hlaw
    have hinside := hlaw.inside (-1) (by rw [hevent]; decide)
    exact absurd hinside.1 (by decide)
  · have hlength : (List.replicate 1008 (65 : UInt8)).length = 1008 := List.length_replicate
    generalize List.replicate 1008 (65 : UInt8) = text at hlength ⊢
    have hresult : (cleared.recv (RecvResult.message text)).2 = 1008 := by
      show (text.length : Int) = 1008
      rw [hlength]
      rfl
    have hplace : (1008 : Int) ∈
        (Mpxnq.iterate cleared ⟨RecvResult.message text, fun _ => Except.ok []⟩).2.places := by
      rw [← hresult]
      apply Mpxnq.iterate_places
      show (cleared.recv (RecvResult.message text)).2 ≠ 0
      rw [hresult]
      decide
    have hfits : (RecvResult.message text).fits Mpxnq.MAXMESGDATA = true :=
      decide_eq_true (Nat.le_of_eq hlength)
    rcases hiterate : Mpxnq.iterate cleared ⟨RecvResult.message text, fun _ => Except.ok []⟩ with
      ⟨next, it⟩
    rw [hiterate] at hplace
    have hstep : loopStep Mpxnq.MAXMESGDATA Mpxnq.iterate (some cleared)
        ⟨RecvResult.message text, fun _ => Except.ok []⟩ = some (next, it) := by
      rw [← hiterate]
      exact if_pos hfits
    refine ⟨_, _, _, ⟨some cleared, rfl, Path.snoc Path.nil hstep⟩,
      List.mem_singleton_self _, rfl, hplace, ?_⟩
    intro hlaw
    exact absurd (hlaw.inside 1008 hplace).2 (by decide)

end Svmsg
end InterprocessComm
