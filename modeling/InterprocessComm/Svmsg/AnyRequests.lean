import InterprocessComm.Svmsg.Cliserv

/-!
# Requests of any content

Messages of type 1 with any bytes are put into the queue of the server, and its replies are
taken out by others.  The number in a request becomes the type of the replies, so a request
that names the type 1 makes the server receive them itself.
-/

namespace InterprocessComm
namespace Svmsg
namespace Cliserv

open Verification

/-!
## The system
-/

structure OpenState where
  queue : List Msg
  server : Serving

/-- Somebody places a request or takes a message of another type; the server receives a request,
with the files as they are then, or sends a reply. -/
inductive OpenAction where
  | place (text : List UInt8)
  | take (type : Int)
  | accept (files : Files)
  | reply

inductive OpenEvent where
  | silent
  | placed (m : Msg)
  | accepted (m : Msg)
  | replied (m : Msg)

/-- `msgsnd` waits while the message does not fit, and fails for a type that is not positive. -/
def openStep (qbytes : Nat) (s : OpenState) : OpenAction -> Option (OpenState × OpenEvent)
  | OpenAction.place text =>
      if Fits qbytes (s.queue ++ [⟨1, text⟩]) then
        some ({ s with queue := s.queue ++ [⟨1, text⟩] }, OpenEvent.placed ⟨1, text⟩)
      else
        none
  | OpenAction.take type =>
      if type = 1 then
        none
      else
        (takeType Msg.mtype type s.queue).map fun r => ({ s with queue := r.2 }, OpenEvent.silent)
  | OpenAction.accept files =>
      match s.server.pc with
      | ServePc.done =>
          (takeType Msg.mtype 1 s.queue).bind fun r =>
            (serve files s.server.mesg r.1).map fun srv =>
              ({ s with queue := r.2, server := srv }, OpenEvent.accepted r.1)
      | _ => none
  | OpenAction.reply =>
      s.server.outgoing.bind fun m =>
        if m.mtype < 1 then
          (s.server.afterSend MAXMESGDATA).map fun srv =>
            ({ s with server := srv }, OpenEvent.silent)
        else if Fits qbytes (s.queue ++ [m]) then
          (s.server.afterSend MAXMESGDATA).map fun srv =>
            ({ s with queue := s.queue ++ [m], server := srv }, OpenEvent.replied m)
        else
          none

def OpenInit (s : OpenState) : Prop :=
  s.queue = [] ∧ s.server.pc = ServePc.done

abbrev OpenTransition : Type :=
  Transition OpenState OpenAction OpenEvent

def placed (tr : List OpenTransition) : List Msg :=
  tr.filterMap fun e =>
    match e.event with
    | OpenEvent.placed m => some m
    | _ => none

def accepted (tr : List OpenTransition) : List Msg :=
  tr.filterMap fun e =>
    match e.event with
    | OpenEvent.accepted m => some m
    | _ => none

/-!
## What a request makes the server do
-/

def replyType (text : List UInt8) : Option Int :=
  ((beforeNul text).idxOf? BLANK).map fun k => toInt (atol ((beforeNul text).take k))

/-- A request that has room for its zero and names no reply of type 1. -/
def Harmless (text : List UInt8) : Prop :=
  text.length < MAXMESGDATA ∧ replyType text ≠ some 1

section Serve

variable {text : List UInt8}

/-- The server understands every request that has room for its zero, in one way. -/
theorem parseRequest_any {size : Nat} (mesg : Mesg) (htext : text.length < size)
    (hcontains : Contains mesg.mesg_data 0 text) :
    (exists mesg', parseRequest size mesg text.length = some (Request.bogus mesg')) ∨
      exists data k, parseRequest size mesg text.length =
          some (Request.named { mesg with mesg_data := data }
            (atol ((beforeNul text).take k)) (k + 1)) ∧
        (beforeNul text).idxOf? BLANK = some k ∧ k < text.length ∧ data text.length = 0 := by
  rcases parseRequest_text mesg htext hcontains with
    ⟨_, hbogus⟩ | ⟨k, data, hk, hlt, hnamed, hrest⟩
  · exact Or.inl hbogus
  · refine Or.inr ⟨data, k, hnamed, hk, hlt, ?_⟩
    have hzero := (contains_cons.mp (contains_append.mp hrest).2).1
    have hplace : ((k + 1 : Nat) : Int) + (text.drop (k + 1)).length = text.length := by
      rw [List.length_drop]
      lia
    rwa [hplace] at hzero

theorem serveLine_type {size : Nat} (mesg : Mesg) (file : List UInt8) (hsize : 1 < size) :
    exists srv, serveLine size mesg file = some srv ∧ srv.mesg.mesg_type = mesg.mesg_type := by
  rcases serveLine_spec mesg file hsize with ⟨srv, hsrv, _, htype⟩
  exact ⟨srv, hsrv, htype⟩

theorem serveFile_any {size ptr n : Nat} (files : Files) (mesg : Mesg) (hptr : ptr ≤ n)
    (hn : n < size) (hsize : 1 < size) (hzero : mesg.mesg_data n = 0) :
    exists srv, serveFile size files mesg ptr n = some srv ∧
      srv.mesg.mesg_type = mesg.mesg_type := by
  have hrange : InRange ptr (size - ptr) n := ⟨by lia, by lia⟩
  rcases cString_of_zero hrange hzero with ⟨path, hpath⟩
  unfold serveFile
  simp only [hpath, Option.bind_some]
  cases files path with
  | ok file => exact serveLine_type mesg file hsize
  | error text =>
      have hroom : ((size : Int) - n).toNat = size - n := by lia
      simp only [hroom]
      have hend : exists x : Int, InRange ptr (size - ptr) x ∧
          snprintf mesg.mesg_data n (size - n) (CANT_OPEN ++ text ++ [NEWLINE]) x = 0 := by
        unfold snprintf
        rw [if_neg (by lia)]
        have hwritten := contains_write mesg.mesg_data n
          ((CANT_OPEN ++ text ++ [NEWLINE]).take (size - n - 1) ++ [0])
        refine ⟨_, ⟨?_, ?_⟩, (contains_cons.mp (contains_append.mp hwritten).2).1⟩
        · lia
        · rw [List.length_take]
          lia
      rcases hend with ⟨x, hx, hx0⟩
      rcases cString_of_zero hx hx0 with ⟨s, hs⟩
      simp only [strlen, hs, Option.map_some]
      exact ⟨_, rfl, rfl⟩

theorem serve_any (files : Files) (mesg : Mesg) (htext : text.length < MAXMESGDATA) :
    exists srv, serve files mesg ⟨1, text⟩ = some srv ∧
      (srv.pc = ServePc.done ∨ replyType text = some srv.mesg.mesg_type) := by
  unfold serve
  simp only
  split
  · exact ⟨_, rfl, Or.inl rfl⟩
  · have hlen : (mesg.received ⟨1, text⟩).mesg_len = text.length := rfl
    rw [hlen]
    rcases parseRequest_any (mesg.received ⟨1, text⟩) htext (contains_write _ _ _) with
      ⟨mesg', hbogus⟩ | ⟨data, k, hnamed, hk, hlt, hzero⟩
    · rw [hbogus]
      exact ⟨_, rfl, Or.inl rfl⟩
    · rw [hnamed]
      simp only [Option.bind_some]
      rcases serveFile_any files
        { mesg.received ⟨1, text⟩ with mesg_type := toInt (atol ((beforeNul text).take k)),
                                       mesg_data := data }
        hlt htext one_lt_MAXMESGDATA hzero with ⟨srv, hsrv, htype⟩
      refine ⟨srv, hsrv, Or.inr ?_⟩
      rw [htype]
      unfold replyType
      rw [hk, Option.map_some]

end Serve

/-!
## Whole runs
-/

/-- What the server sends does not come back to it: it receives the requests that were placed,
one after the other, and goes on after each. -/
structure Apart (qbytes : Nat) (tr : List OpenTransition) (s : OpenState) : Prop where
  replies_apart : forall e m, e ∈ tr -> e.event = OpenEvent.replied m -> m.mtype ≠ 1
  accepted_placed : accepted tr <+: placed tr
  goes_on : s.server.pc = ServePc.done -> (accepted tr).length < (placed tr).length ->
    forall files, (openStep qbytes s (OpenAction.accept files)).isSome

/-- The requests in the queue are those that were placed and not accepted, and the replies that
the server is sending have another type. -/
structure OpenInv (tr : List OpenTransition) (s : OpenState) : Prop where
  requests : placed tr = accepted tr ++ ofType Msg.mtype 1 s.queue
  harmless : forall m, m ∈ placed tr -> m.mtype = 1 ∧ Harmless m.mtext
  replying : s.server.pc = ServePc.done ∨ s.server.mesg.mesg_type ≠ 1
  replies_apart : forall e m, e ∈ tr -> e.event = OpenEvent.replied m -> m.mtype ≠ 1

section Runs

variable {qbytes : Nat} {tr : List OpenTransition} {s t : OpenState} {o : OpenEvent}

theorem placed_snoc (tr : List OpenTransition) (e : OpenTransition) :
    placed (tr ++ [e]) = placed tr ++ placed [e] :=
  List.filterMap_append

theorem accepted_snoc (tr : List OpenTransition) (e : OpenTransition) :
    accepted (tr ++ [e]) = accepted tr ++ accepted [e] :=
  List.filterMap_append

theorem replies_apart_snoc {e : OpenTransition}
    (h : forall d m, d ∈ tr -> d.event = OpenEvent.replied m -> m.mtype ≠ 1)
    (he : forall m, e.event = OpenEvent.replied m -> m.mtype ≠ 1) :
    forall d m, d ∈ tr ++ [e] -> d.event = OpenEvent.replied m -> m.mtype ≠ 1 := by
  intro d m hd
  rcases List.mem_append.mp hd with hd | hd
  · exact h d m hd
  · rw [List.mem_singleton.mp hd]
    exact he m

theorem OpenInv.head {m : Msg} {rest : List Msg} (h : OpenInv tr s)
    (hqueue : ofType Msg.mtype 1 s.queue = m :: rest) :
    m = ⟨1, m.mtext⟩ ∧ Harmless m.mtext := by
  have hmem : m ∈ placed tr := by
    rw [h.requests, hqueue]
    simp
  rcases h.harmless m hmem with ⟨htype, hharmless⟩
  exact ⟨by rw [← htype], hharmless⟩

theorem open_place {text : List UInt8} (h : OpenInv tr s) (htext : Harmless text)
    (hstep : openStep qbytes s (OpenAction.place text) = some (t, o)) :
    OpenInv (tr ++ [⟨s, OpenAction.place text, o, t⟩]) t := by
  simp only [openStep] at hstep
  split at hstep
  · cases hstep
    refine ⟨?_, ?_, h.replying, replies_apart_snoc h.replies_apart fun m => OpenEvent.noConfusion⟩
    · rw [placed_snoc, accepted_snoc, h.requests, ofType_snoc_self s.queue (rfl : Msg.mtype _ = 1)]
      simp [placed, accepted]
    · intro m hm
      rw [placed_snoc] at hm
      rcases List.mem_append.mp hm with hm | hm
      · exact h.harmless m hm
      · have heq : m = ⟨1, text⟩ := by simpa [placed] using hm
        rw [heq]
        exact ⟨rfl, htext⟩
  · cases hstep

theorem open_take {type : Int} (h : OpenInv tr s)
    (hstep : openStep qbytes s (OpenAction.take type) = some (t, o)) :
    OpenInv (tr ++ [⟨s, OpenAction.take type, o, t⟩]) t := by
  simp only [openStep] at hstep
  split at hstep
  · cases hstep
  · rename_i htype
    rcases Option.map_eq_some_iff.mp hstep with ⟨⟨m, queue⟩, htake, hresult⟩
    cases hresult
    refine ⟨?_, ?_, h.replying, replies_apart_snoc h.replies_apart fun m => OpenEvent.noConfusion⟩
    · rw [placed_snoc, accepted_snoc, h.requests, takeType_other htake (Ne.symm htype)]
      simp [placed, accepted]
    · rw [placed_snoc]
      simpa [placed] using h.harmless

theorem open_accept {files : Files} (h : OpenInv tr s)
    (hstep : openStep qbytes s (OpenAction.accept files) = some (t, o)) :
    OpenInv (tr ++ [⟨s, OpenAction.accept files, o, t⟩]) t := by
  simp only [openStep] at hstep
  split at hstep
  · rcases Option.bind_eq_some_iff.mp hstep with ⟨⟨m, queue⟩, htake, hnext⟩
    rcases Option.map_eq_some_iff.mp hnext with ⟨srv, hserve, hresult⟩
    rcases takeType_self htake with ⟨_, hqueue⟩
    rcases h.head hqueue with ⟨hm, hharmless⟩
    rcases serve_any files s.server.mesg hharmless.1 with ⟨srv', hserve', hreplies⟩
    rw [hm, hserve'] at hserve
    cases hserve
    cases hresult
    refine ⟨?_, ?_, ?_, replies_apart_snoc h.replies_apart fun m => OpenEvent.noConfusion⟩
    · rw [placed_snoc, accepted_snoc, h.requests, hqueue]
      simp [placed, accepted]
    · rw [placed_snoc]
      simpa [placed] using h.harmless
    · rcases hreplies with hdone | htype
      · exact Or.inl hdone
      · refine Or.inr ?_
        intro hone
        rw [hone] at htype
        exact hharmless.2 htype
  · cases hstep

theorem open_reply (h : OpenInv tr s)
    (hstep : openStep qbytes s OpenAction.reply = some (t, o)) :
    OpenInv (tr ++ [⟨s, OpenAction.reply, o, t⟩]) t := by
  rcases Option.bind_eq_some_iff.mp hstep with ⟨m, hm, hnext⟩
  have hnotdone : s.server.pc ≠ ServePc.done := by
    intro hdone
    cases (outgoing_of_done hdone).symm.trans hm
  have htype := h.replying.resolve_left hnotdone
  rcases afterSend_spec one_lt_MAXMESGDATA hm with ⟨srv, hsrv, _, hmtype, hkept⟩
  have hother : m.mtype ≠ 1 := by
    rw [hmtype]
    exact htype
  have hsame : srv.mesg.mesg_type ≠ 1 := by
    rw [hkept]
    exact htype
  rw [hsrv] at hnext
  split at hnext
  · cases hnext
    refine ⟨?_, ?_, Or.inr hsame,
      replies_apart_snoc h.replies_apart fun m => OpenEvent.noConfusion⟩
    · rw [placed_snoc, accepted_snoc, h.requests]
      simp [placed, accepted]
    · rw [placed_snoc]
      simpa [placed] using h.harmless
  · split at hnext
    · cases hnext
      refine ⟨?_, ?_, Or.inr hsame, replies_apart_snoc h.replies_apart ?_⟩
      · rw [placed_snoc, accepted_snoc, h.requests, ofType_snoc_other s.queue hother]
        simp [placed, accepted]
      · rw [placed_snoc]
        simpa [placed] using h.harmless
      · intro m' hm'
        cases hm'
        exact hother
    · cases hnext

theorem open_run (h : Run OpenInit (openStep qbytes) tr s)
    (hplaced : forall m, m ∈ placed tr -> Harmless m.mtext) : OpenInv tr s := by
  refine run_induction (I := fun tr s =>
    (forall m, m ∈ placed tr -> Harmless m.mtext) -> OpenInv tr s) ?_ ?_ h hplaced
  · rintro s ⟨hqueue, hdone⟩ _
    refine ⟨?_, ?_, Or.inl hdone, ?_⟩
    · rw [hqueue]
      rfl
    · intro m hm
      cases hm
    · intro e m he
      cases he
  · intro tr s a o t _ ih hstep hplaced
    rw [placed_snoc] at hplaced
    have hinv := ih fun m hm => hplaced m (List.mem_append_left _ hm)
    cases a with
    | place text =>
        have htext : Harmless text := by
          have hstep' := hstep
          simp only [openStep] at hstep'
          split at hstep'
          · cases hstep'
            exact hplaced ⟨1, text⟩ (by simp [placed])
          · cases hstep'
        exact open_place hinv htext hstep
    | take type => exact open_take hinv hstep
    | accept files => exact open_accept hinv hstep
    | reply => exact open_reply hinv hstep

theorem replies_stay_apart (h : Run OpenInit (openStep qbytes) tr s)
    (hplaced : forall m, m ∈ placed tr -> Harmless m.mtext) : Apart qbytes tr s := by
  have hinv := open_run h hplaced
  refine ⟨hinv.replies_apart, ⟨_, hinv.requests.symm⟩, ?_⟩
  intro hdone hlt files
  have hlength := congrArg List.length hinv.requests
  rw [List.length_append] at hlength
  cases htake : takeType Msg.mtype 1 s.queue with
  | none =>
      rw [takeType_eq_none_iff.mp htake, List.length_nil] at hlength
      lia
  | some r =>
      rcases takeType_self htake with ⟨_, hqueue⟩
      rcases hinv.head hqueue with ⟨hm, hharmless⟩
      rcases serve_any files s.server.mesg hharmless.1 with ⟨srv, hserve, _⟩
      rw [← hm] at hserve
      simp only [openStep, hdone, htake, Option.bind_some, hserve, Option.map_some,
        Option.isSome_some]

end Runs

def emptyOpen : OpenState where
  queue := []
  server := ⟨{ mesg_len := 0, mesg_type := 0, mesg_data := fun _ => 0 }, ServePc.done⟩

theorem init_emptyOpen : OpenInit emptyOpen :=
  ⟨rfl, rfl⟩

/-- The request `"7 a"`, for a file that reads like a request for type 1, and `"8"`, which the
server has not accepted. -/
theorem replies_stay_apart_twoRequests :
    exists (tr : List OpenTransition) (s : OpenState),
      ofType Msg.mtype 7 s.queue = [⟨7, [49, 32, 98, 10]⟩, ⟨7, []⟩] ∧
        (forall e m, e ∈ tr -> e.event = OpenEvent.replied m -> m.mtype ≠ 1) ∧
        (accepted tr).length = 1 ∧ accepted tr <+: [⟨1, [55, 32, 97]⟩, ⟨1, [56]⟩] ∧
        forall files, (openStep 100 s (OpenAction.accept files)).isSome := by
  have hreplay : exists tr s, Run OpenInit (openStep 100) tr s ∧
      decide (ofType Msg.mtype 7 s.queue = [⟨7, [49, 32, 98, 10]⟩, ⟨7, []⟩] ∧
        (accepted tr).length = 1 ∧ placed tr = [⟨1, [55, 32, 97]⟩, ⟨1, [56]⟩] ∧
          s.server.pc = ServePc.done) = true :=
    run_of_replay
      [OpenAction.place [55, 32, 97], OpenAction.place [56],
        OpenAction.accept (fun _ => Except.ok [49, 32, 98, 10]), OpenAction.reply,
        OpenAction.reply]
      init_emptyOpen (by decide +kernel)
  rcases hreplay with ⟨tr, s, hrun, htest⟩
  rcases of_decide_eq_true htest with ⟨hqueue, haccepted, hplaced, hdone⟩
  have hapart : Apart 100 tr s := by
    apply replies_stay_apart hrun
    rw [hplaced]
    unfold Harmless
    decide +kernel
  have hin_order := hapart.accepted_placed
  rw [hplaced] at hin_order
  refine ⟨tr, s, hqueue, hapart.replies_apart, haccepted, hin_order, hapart.goes_on hdone ?_⟩
  rw [haccepted, hplaced]
  decide

/-- After the request `"1 a"` the server takes a line of the file for a request. -/
theorem file_accepted_typeOne :
    exists (tr : List OpenTransition) (s : OpenState), Run OpenInit (openStep 100) tr s ∧
      placed tr = [⟨1, [49, 32, 97]⟩] ∧
      accepted tr = [⟨1, [49, 32, 97]⟩, ⟨1, [55, 32, 98, 10]⟩] := by
  have hreplay : exists tr s, Run OpenInit (openStep 100) tr s ∧
      decide (placed tr = [⟨1, [49, 32, 97]⟩] ∧
        accepted tr = [⟨1, [49, 32, 97]⟩, ⟨1, [55, 32, 98, 10]⟩]) = true :=
    run_of_replay
      [OpenAction.place [49, 32, 97], OpenAction.accept (fun _ => Except.ok [55, 32, 98, 10]),
        OpenAction.reply, OpenAction.reply, OpenAction.accept (fun _ => Except.ok [])]
      init_emptyOpen (by decide +kernel)
  rcases hreplay with ⟨tr, s, hrun, htest⟩
  exact ⟨tr, s, hrun, of_decide_eq_true htest⟩

end Cliserv
end Svmsg
end InterprocessComm
