import InterprocessComm.MessageQueue.PriorityQueue

/-!
# Calls that fail

A call of `mq_send`, `mq_receive` or `mq_notify` fails for what it finds on entry and
for nothing else, a failed call changes nothing, and every call that ends gives the
lock back once.
-/

namespace InterprocessComm
namespace MessageQueue

open Verification

section

variable {tid : Type}

/-- What a call finds on entry when it fails, with its error number. -/
inductive Refused (sz : QueueSizes) (m : Mem) (alive : Int -> Bool) (info : MqInfo) :
    MqCall -> Errno -> Prop where
  | tooLong {buf : List UInt8} {prio : UInt32}
      (long : sz.mq_msgsize < buf.length) :
      Refused sz m alive info (MqCall.send buf prio) Errno.EMSGSIZE
  | full {buf : List UInt8} {prio : UInt32}
      (fits : (buf.length : Int) ≤ sz.mq_msgsize)
      (nonblock : info.mqi_flags &&& O_NONBLOCK ≠ 0)
      (none_free : mqCurmsgs m = sz.mq_maxmsg) :
      Refused sz m alive info (MqCall.send buf prio) Errno.EAGAIN
  | tooShort {maxlen : Nat} {priop : Bool}
      (short : (maxlen : Int) < sz.mq_msgsize) :
      Refused sz m alive info (MqCall.receive maxlen priop) Errno.EMSGSIZE
  | empty {maxlen : Nat} {priop : Bool}
      (fits : sz.mq_msgsize ≤ maxlen)
      (nonblock : info.mqi_flags &&& O_NONBLOCK ≠ 0)
      (none_queued : mqCurmsgs m = 0) :
      Refused sz m alive info (MqCall.receive maxlen priop) Errno.EAGAIN
  | busy {ev : Sigevent}
      (registered : mqhPid m ≠ 0)
      (exists_process : alive (mqhPid m) = true) :
      Refused sz m alive info (MqCall.notify (some ev)) Errno.EBUSY

def MqCall.tested : MqCall -> Bool
  | MqCall.send _ _ => true
  | MqCall.receive _ _ => true
  | MqCall.notify _ => true
  | _ => false

def starts (t : tid) [DecidableEq tid] (e : MqTransition tid) : Bool :=
  match e.action.acts e.source with
  | some (u, entering, _) => decide (u = t) && entering
  | none => false

def Outcome.givesBack : Outcome -> Bool
  | returns _ => true
  | _ => false

def unlocks (t : tid) [DecidableEq tid] (e : MqTransition tid) : Bool :=
  match e.action.acts e.source, e.event with
  | some (u, _, _), some x => decide (u = t) && x.outcome.givesBack
  | _, _ => false

def failsWith (e : MqTransition tid) (err : Errno) : Prop :=
  exists x, e.event = some x ∧ x.outcome = Outcome.returns (MqReturn.error err)

/-- Calls fail as `Refused` says, unchanged, and never end with the lock taken. -/
structure CallLaw (sz : QueueSizes) (e : MqTransition tid) : Prop where
  unlocked : forall x, e.event = some x ->
    x.outcome = Outcome.waits ∨ exists ret, x.outcome = Outcome.returns ret
  refused : forall t d c wake info err, e.action = MqAction.call t d c wake ->
    e.source.descs d = some info -> c.tested = true ->
      (failsWith e err <-> Refused sz e.source.mem e.source.alive info c err)
  unchanged : forall t d c wake err, e.action = MqAction.call t d c wake ->
    c.tested = true -> failsWith e err -> e.target = e.source
  resumed : forall t wake err, e.action = MqAction.resume t wake -> ¬ failsWith e err

end

/-!
## Stretches
-/

section Stretches

variable {sz : QueueSizes} {m : Mem} {used free : List Int}

/-- With the magic number, a failing send or receive is one that was refused, and one
that waited does not fail. -/
theorem Effects.of_error {entering : Bool} {role : Role} {r : Stretch} {e : Errno}
    (h : Effects sz m used free entering role r) (hrole : role ≠ Role.other)
    (herror : r.outcome = Outcome.returns (MqReturn.error e)) :
    entering = true ∧ r = Stretch.fail m e := by
  cases h with
  | fails role e' =>
      cases herror
      exact ⟨rfl, rfl⟩
  | header same outcome plain signals sigqueue => exact absurd rfl hrole
  | sendWaits fits full => cases herror
  | receiveWaits fits empty => cases herror
  | links fits slot linked => cases herror
  | takes fits first unlinked => cases herror

/-- A stretch waits or gives the lock back; the messages about a missing free slot and
a missing first message are never printed. -/
theorem Effects.unlocked {entering : Bool} {role : Role} {r : Stretch}
    (h : Effects sz m used free entering role r) :
    r.outcome = Outcome.waits ∨ exists ret, r.outcome = Outcome.returns ret := by
  cases h with
  | fails role e => exact Or.inr ⟨_, rfl⟩
  | header same outcome plain signals sigqueue => exact Or.inr ⟨_, outcome⟩
  | sendWaits fits full => exact Or.inl rfl
  | receiveWaits fits empty => exact Or.inl rfl
  | links fits slot linked => exact Or.inr ⟨_, rfl⟩
  | takes fits first unlinked => exact Or.inr ⟨_, rfl⟩

theorem Effects.waits_role {entering : Bool} {role : Role} {r : Stretch}
    (h : Effects sz m used free entering role r) (hwaits : r.outcome = Outcome.waits) :
    role ≠ Role.other := by
  intro hother
  cases h with
  | fails role e => cases hwaits
  | header same outcome plain signals sigqueue =>
      rw [outcome] at hwaits
      cases hwaits
  | sendWaits fits full => cases hother
  | receiveWaits fits empty => cases hother
  | links fits slot linked => cases hother
  | takes fits first unlinked => cases hother

theorem fail_error_iff {e e' : Errno} :
    (Stretch.fail m e').outcome = Outcome.returns (MqReturn.error e) <-> e = e' := by
  simp only [Stretch.fail, Stretch.ret, Outcome.returns.injEq, MqReturn.error.injEq]
  exact eq_comm

theorem mqSendLink_not_error (h : WellLinked sz m used free) (entering : Bool)
    {buf : List UInt8} (hfits : (buf.length : Int) ≤ sz.mq_msgsize)
    (hroom : mqCurmsgs m < mqMaxmsg m) (prio : UInt32) (e : Errno) :
    (mqSendLink (notified entering m used).1 buf prio (notified entering m used).2).outcome ≠
      Outcome.returns (MqReturn.error e) := by
  intro herror
  cases free with
  | nil => exact h.free_ne_nil hroom rfl
  | cons f rest =>
      rcases mqSendLink_spec (h.congr (sameChains_notified entering m used)) hfits prio
        (notified entering m used).2 with ⟨front, back, q, m', _, hstretch⟩
      rw [hstretch] at herror
      cases herror

theorem mqReceiveTake_not_error (h : WellLinked sz m used free) (hsome : mqCurmsgs m ≠ 0)
    (priop : Bool) (e : Errno) :
    (mqReceiveTake m priop).outcome ≠ Outcome.returns (MqReturn.error e) := by
  intro herror
  cases used with
  | nil => exact hsome (h.curmsgs_eq_zero_iff.mpr rfl)
  | cons i rest =>
      rcases mqReceiveTake_spec h priop with ⟨m', _, hstretch⟩
      rw [hstretch] at herror
      cases herror

theorem mqSend_error_iff (h : WellLinked sz m used free) (flags : UInt32)
    (buf : List UInt8) (prio : UInt32) (e : Errno) :
    (mqSend m flags buf prio).outcome = Outcome.returns (MqReturn.error e) <->
      (sz.mq_msgsize < buf.length ∧ e = Errno.EMSGSIZE) ∨
        ((buf.length : Int) ≤ sz.mq_msgsize ∧ flags &&& O_NONBLOCK ≠ 0 ∧
          mqCurmsgs m = sz.mq_maxmsg ∧ e = Errno.EAGAIN) := by
  have hsize := h.toULong_msgsize
  have hmax := h.maxmsg
  have hcur := h.curmsgs
  have hadd := h.length_add
  have hpos := sz.maxmsg_pos
  unfold mqSend
  by_cases hlong : (buf.length : Int) > toULong (mqMsgsize m)
  · rw [if_pos hlong, fail_error_iff]
    rw [hsize] at hlong
    constructor
    · intro heq
      exact Or.inl ⟨hlong, heq⟩
    · rintro (⟨_, heq⟩ | ⟨hfits, _⟩)
      · exact heq
      · lia
  · rw [if_neg hlong]
    rw [hsize] at hlong
    have hfits : (buf.length : Int) ≤ sz.mq_msgsize := not_lt.mp hlong
    by_cases hempty : mqCurmsgs m = 0
    · have hused : used = [] := h.curmsgs_eq_zero_iff.mp hempty
      have hok := mqSendLink_not_error h true hfits (by lia) prio e
      simp only [notified, hused, and_self, if_true] at hok
      rw [if_pos hempty]
      constructor
      · intro herror
        exact absurd herror hok
      · rintro (⟨hgt, _⟩ | ⟨_, _, hfull, _⟩)
        · lia
        · lia
    · rw [if_neg hempty]
      by_cases hfull : mqCurmsgs m ≥ mqMaxmsg m
      · rw [if_pos hfull]
        by_cases hnonblock : flags &&& O_NONBLOCK ≠ 0
        · rw [if_pos hnonblock, fail_error_iff]
          constructor
          · intro heq
            exact Or.inr ⟨by lia, hnonblock, by lia, heq⟩
          · rintro (⟨hgt, _⟩ | ⟨_, _, _, heq⟩)
            · lia
            · exact heq
        · rw [if_neg hnonblock]
          unfold mqSendRetest
          rw [if_pos hfull]
          constructor
          · intro herror
            cases herror
          · rintro (⟨hgt, _⟩ | ⟨_, hflag, _⟩)
            · lia
            · exact absurd hflag hnonblock
      · rw [if_neg hfull]
        have hok := mqSendLink_not_error h false hfits (not_le.mp hfull) prio e
        simp only [notified, Bool.false_eq_true, false_and, if_false] at hok
        constructor
        · intro herror
          exact absurd herror hok
        · rintro (⟨hgt, _⟩ | ⟨_, _, hcurmsgs, _⟩)
          · lia
          · lia

theorem mqReceive_error_iff (h : WellLinked sz m used free) (flags : UInt32)
    (maxlen : Nat) (priop : Bool) (e : Errno) :
    (mqReceive m flags maxlen priop).outcome = Outcome.returns (MqReturn.error e) <->
      ((maxlen : Int) < sz.mq_msgsize ∧ e = Errno.EMSGSIZE) ∨
        (sz.mq_msgsize ≤ maxlen ∧ flags &&& O_NONBLOCK ≠ 0 ∧
          mqCurmsgs m = 0 ∧ e = Errno.EAGAIN) := by
  have hsize := h.toULong_msgsize
  unfold mqReceive
  by_cases hshort : (maxlen : Int) < toULong (mqMsgsize m)
  · rw [if_pos hshort, fail_error_iff]
    rw [hsize] at hshort
    constructor
    · intro heq
      exact Or.inl ⟨hshort, heq⟩
    · rintro (⟨_, heq⟩ | ⟨hfits, _⟩)
      · exact heq
      · lia
  · rw [if_neg hshort]
    rw [hsize] at hshort
    by_cases hempty : mqCurmsgs m = 0
    · rw [if_pos hempty]
      by_cases hnonblock : flags &&& O_NONBLOCK ≠ 0
      · rw [if_pos hnonblock, fail_error_iff]
        constructor
        · intro heq
          exact Or.inr ⟨by lia, hnonblock, hempty, heq⟩
        · rintro (⟨hlt, _⟩ | ⟨_, _, _, heq⟩)
          · lia
          · exact heq
      · rw [if_neg hnonblock]
        have hsame : SameChains m (putLong m offMqhNwait (mqhNwait m + 1)) :=
          sameChains_putLong m (by lia)
        have hwaiting := h.congr hsame
        have hstill := hwaiting.curmsgs_eq_zero_iff.mpr (h.curmsgs_eq_zero_iff.mp hempty)
        unfold mqReceiveRetest
        rw [if_pos hstill]
        constructor
        · intro herror
          cases herror
        · rintro (⟨hlt, _⟩ | ⟨_, hflag, _⟩)
          · lia
          · exact absurd hflag hnonblock
    · rw [if_neg hempty]
      constructor
      · intro herror
        exact absurd herror (mqReceiveTake_not_error h hempty priop e)
      · rintro (⟨hlt, _⟩ | ⟨_, _, hzero, _⟩)
        · lia
        · exact absurd hzero hempty

theorem mqNotify_error_iff (m : Mem) (pid : Int) (alive : Int -> Bool) (ev : Sigevent)
    (e : Errno) :
    (mqNotify m pid (killZero alive) (some ev)).outcome =
        Outcome.returns (MqReturn.error e) <->
      mqhPid m ≠ 0 ∧ alive (mqhPid m) = true ∧ e = Errno.EBUSY := by
  have hexists : killZero alive (mqhPid m) ≠ some Errno.ESRCH <->
      alive (mqhPid m) = true := by
    unfold killZero
    cases alive (mqhPid m) <;> simp
  simp only [mqNotify, hexists]
  by_cases hbusy : mqhPid m ≠ 0 ∧ alive (mqhPid m) = true
  · rw [if_pos hbusy]
    simp only [Stretch.fail, Stretch.ret, Outcome.returns.injEq, MqReturn.error.injEq]
    constructor
    · intro heq
      exact ⟨hbusy.left, hbusy.right, heq.symm⟩
    · rintro ⟨_, _, heq⟩
      exact heq.symm
  · rw [if_neg hbusy]
    constructor
    · intro herror
      cases herror
    · rintro ⟨hpid, halive, _⟩
      exact absurd ⟨hpid, halive⟩ hbusy

theorem enter_error_iff (h : WellLinked sz m used free) (alive : Int -> Bool)
    {info : MqInfo} (hmagic : info.mqi_magic = MQI_MAGIC) {c : MqCall}
    (htested : c.tested = true) (e : Errno) :
    (c.enter alive m info).outcome = Outcome.returns (MqReturn.error e) <->
      Refused sz m alive info c e := by
  unfold MqCall.enter
  rw [if_neg (fun hne => hne hmagic)]
  cases c with
  | send buf prio =>
      simp only [mqSend_error_iff h]
      constructor
      · rintro (⟨hlong, rfl⟩ | ⟨hfits, hflag, hfull, rfl⟩)
        · exact Refused.tooLong hlong
        · exact Refused.full hfits hflag hfull
      · intro hrefused
        cases hrefused with
        | tooLong hlong => exact Or.inl ⟨hlong, rfl⟩
        | full hfits hflag hfull => exact Or.inr ⟨hfits, hflag, hfull, rfl⟩
  | receive maxlen priop =>
      simp only [mqReceive_error_iff h]
      constructor
      · rintro (⟨hshort, rfl⟩ | ⟨hfits, hflag, hempty, rfl⟩)
        · exact Refused.tooShort hshort
        · exact Refused.empty hfits hflag hempty
      · intro hrefused
        cases hrefused with
        | tooShort hshort => exact Or.inl ⟨hshort, rfl⟩
        | empty hfits hflag hempty => exact Or.inr ⟨hfits, hflag, hempty, rfl⟩
  | notify notification =>
      cases notification with
      | none =>
          constructor
          · intro herror
            cases herror
          · intro hrefused
            cases hrefused
      | some ev =>
          simp only [mqNotify_error_iff]
          constructor
          · rintro ⟨hpid, halive, rfl⟩
            exact Refused.busy hpid halive
          · intro hrefused
            cases hrefused with
            | busy hpid halive => exact ⟨hpid, halive, rfl⟩
  | getattr => cases htested
  | setattr flags omqstat => cases htested
  | close munmap => cases htested

theorem enter_eq_fail (h : WellLinked sz m used free) (alive : Int -> Bool)
    {info : MqInfo} {c : MqCall} (htested : c.tested = true) {e : Errno}
    (herror : (c.enter alive m info).outcome = Outcome.returns (MqReturn.error e)) :
    c.enter alive m info = Stretch.fail m e := by
  have heffects := enter_effects h alive info c
  cases c with
  | send buf prio => exact (heffects.of_error (by simp [MqCall.role]) herror).right
  | receive maxlen priop => exact (heffects.of_error (by simp [MqCall.role]) herror).right
  | notify notification =>
      unfold MqCall.enter at herror ⊢
      by_cases hmagic : info.mqi_magic ≠ MQI_MAGIC
      · rw [if_pos hmagic] at herror ⊢
        cases herror
        rfl
      · rw [if_neg hmagic] at herror ⊢
        cases notification with
        | none => cases herror
        | some ev =>
            simp only [mqNotify] at herror ⊢
            split
            · rename_i hbusy
              rw [if_pos hbusy] at herror
              cases herror
              rfl
            · rename_i hbusy
              rw [if_neg hbusy] at herror
              cases herror
  | getattr => cases htested
  | setattr flags omqstat => cases htested
  | close munmap => cases htested

end Stretches

/-!
## Runs
-/

section Runs

variable {tid : Type} [Fintype tid] [DecidableEq tid] {procOf : tid -> Pid}
variable {sz : QueueSizes} {s s' : MqState tid}

def MagicSet (s : MqState tid) : Prop :=
  forall d info, s.descs d = some info -> info.mqi_magic = MQI_MAGIC

theorem leaves_magic {info info' : MqInfo} {c : MqCall}
    (h : info.mqi_magic = MQI_MAGIC) (hleaves : c.leaves info = some info') :
    info'.mqi_magic = MQI_MAGIC := by
  unfold MqCall.leaves at hleaves
  rw [if_neg (fun hne => hne h)] at hleaves
  cases c with
  | setattr flags omqstat =>
      cases hleaves
      exact h
  | close munmap =>
      cases munmap with
      | none => cases hleaves
      | some e =>
          cases hleaves
          exact h
  | send buf prio =>
      cases hleaves
      exact h
  | receive maxlen priop =>
      cases hleaves
      exact h
  | notify notification =>
      cases hleaves
      exact h
  | getattr =>
      cases hleaves
      exact h

theorem finish_descs {t : tid} {k : Option BlockedCall} {r : Stretch} {wake : Option tid}
    {o : Option Effect} (h : finish s t k r wake = some (s', o)) : s'.descs = s.descs := by
  unfold finish at h
  rcases Option.map_eq_some_iff.mp h with ⟨phase, _, heq⟩
  cases heq
  rfl

theorem step_magic {a : MqAction tid} {o : Option Effect} (hmagic : MagicSet s)
    (h : mqStep procOf s a = some (s', o)) : MagicSet s' := by
  have hupdate : forall d (slot : Option MqInfo),
      (forall info, slot = some info -> info.mqi_magic = MQI_MAGIC) ->
        forall d' info, Function.update s.descs d slot d' = some info ->
          info.mqi_magic = MQI_MAGIC := by
    intro d slot hslot d' info hinfo
    by_cases hd : d' = d
    · subst hd
      rw [Function.update_self] at hinfo
      exact hslot info hinfo
    · rw [Function.update_of_ne hd] at hinfo
      exact hmagic d' info hinfo
  cases a with
  | call t d c wake =>
      cases hdesc : s.descs d with
      | none => simp [mqStep, hdesc] at h
      | some info =>
          simp only [mqStep, hdesc] at h
          split at h
          · unfold MagicSet
            rw [finish_descs h]
            exact hupdate d _ fun info' hleaves => leaves_magic (hmagic d info hdesc) hleaves
          · cases h
  | lockFails t d c e =>
      cases hdesc : s.descs d with
      | none => simp [mqStep, hdesc] at h
      | some info =>
          simp only [mqStep, hdesc] at h
          split at h
          · cases h
            exact hmagic
          · cases h
  | resume t wake =>
      cases hphase : s.phase t with
      | outside => simp [mqStep, hphase] at h
      | asleep c k => simp [mqStep, hphase] at h
      | woken b c k =>
          simp only [mqStep, hphase] at h
          split at h
          · unfold MagicSet
            rw [finish_descs h]
            exact hmagic
          · cases h
  | spurious t =>
      cases hphase : s.phase t with
      | outside => simp [mqStep, hphase] at h
      | woken b c k => simp [mqStep, hphase] at h
      | asleep c k =>
          simp only [mqStep, hphase] at h
          cases h
          exact hmagic
  | opens t d oflag =>
      simp only [mqStep] at h
      split at h
      · cases h
        exact hupdate d _ fun info hopen => by
          cases hopen
          rfl
      · cases h
  | exits p =>
      cases h
      exact hmagic

theorem reachable_magic (h : Reachable (MqInit sz) (mqStep procOf) s) : MagicSet s := by
  refine reachable_invariant (I := MagicSet) ?_ ?_ h
  · intro s hinit d info hinfo
    rw [hinit.descs d] at hinfo
    cases hinfo
  · intro s a o t hmagic hstep
    exact step_magic hmagic hstep

theorem call_step {t : tid} {d : Nat} {c : MqCall} {wake : Option tid} {o : Option Effect}
    {info : MqInfo} (hdesc : s.descs d = some info)
    (h : mqStep procOf s (MqAction.call t d c wake) = some (s', o)) :
    MayCall procOf s t info ∧
      finish { s with descs := Function.update s.descs d (c.leaves info) } t
        (c.blocked d) (c.enter s.alive s.mem info) wake = some (s', o) := by
  simp only [mqStep, hdesc] at h
  by_cases hmay : MayCall procOf s t info
  · rw [if_pos hmay] at h
    exact ⟨hmay, h⟩
  · rw [if_neg hmay] at h
    cases h

theorem leaves_of_tested {info : MqInfo} {c : MqCall} (h : c.tested = true) :
    c.leaves info = some info := by
  unfold MqCall.leaves
  split
  · rfl
  · cases c with
    | send buf prio => rfl
    | receive maxlen priop => rfl
    | notify notification => rfl
    | getattr => cases h
    | setattr flags omqstat => cases h
    | close munmap => cases h

theorem finish_fail {t : tid} {d : Nat} {info : MqInfo} {k : Option BlockedCall} {e : Errno}
    {wake : Option tid} {o : Option Effect} (hdesc : s.descs d = some info)
    (hmay : MayCall procOf s t info)
    (h : finish { s with descs := Function.update s.descs d (some info) } t k
      (Stretch.fail s.mem e) wake = some (s', o)) : s' = s := by
  rcases hmay with ⟨hlocked, _, houtside, _⟩
  have hdescs : Function.update s.descs d (some info) = s.descs := by
    rw [← hdesc]
    exact Function.update_eq_self d s.descs
  have hphase : Function.update s.phase t (Phase.outside : Phase Unit BlockedCall) =
      s.phase := by
    rw [← houtside]
    exact Function.update_eq_self t s.phase
  have hafter : phaseAfter k (Outcome.returns (MqReturn.error e)) = Phase.outside := rfl
  simp only [finish, Stretch.fail, Stretch.ret, hafter, hphase, hdescs, Bool.false_eq_true,
    if_false] at h
  cases hwake : wake.isNone with
  | false => simp [hwake] at h
  | true =>
      simp only [hwake, if_true, Option.map_some, Option.some.injEq, Prod.mk.injEq] at h
      rcases h with ⟨rfl, _⟩
      cases s
      simp only at hlocked
      simp [Outcome.keepsLock, hlocked]

theorem step_callLaw {a : MqAction tid} {o : Option Effect} (hinv : QueueInv sz s)
    (hmagic : MagicSet s) (h : mqStep procOf s a = some (s', o)) :
    CallLaw sz ⟨s, a, o, s'⟩ := by
  rcases hinv.linked with ⟨used, free, hlinked⟩
  -- what a call that starts a stretch shows of it
  have hcall : forall t d c wake info, a = MqAction.call t d c wake ->
      s.descs d = some info ->
        MayCall procOf s t info ∧ o = some (c.enter s.alive s.mem info).effect ∧
          finish { s with descs := Function.update s.descs d (c.leaves info) } t
            (c.blocked d) (c.enter s.alive s.mem info) wake = some (s', o) := by
    intro t d c wake info ha hdesc
    subst ha
    rcases call_step hdesc h with ⟨hmay, hfinish⟩
    exact ⟨hmay, (finished_of_finish hfinish).effect, hfinish⟩
  constructor
  · intro x hx
    have heffect : o = some x := hx
    subst heffect
    rcases ran_of_effect h with ⟨t, entering, role, r, k, hran, _, hstretch⟩
    rw [hstretch]
    exact (hran.effects hinv.blocked hlinked).unlocked
  · intro t d c wake info err ha hdesc htested
    rcases hcall t d c wake info ha hdesc with ⟨_, heffect, _⟩
    rw [← enter_error_iff hlinked s.alive (hmagic d info hdesc) htested err]
    constructor
    · rintro ⟨x, hx, herror⟩
      have hsame : o = some x := hx
      rw [heffect] at hsame
      cases hsame
      exact herror
    · intro herror
      exact ⟨_, heffect, herror⟩
  · intro t d c wake err ha htested hfails
    cases hdesc : s.descs d with
    | none =>
        have haction : a = MqAction.call t d c wake := ha
        subst haction
        simp [mqStep, hdesc] at h
    | some info =>
        rcases hcall t d c wake info ha hdesc with ⟨hmay, heffect, hfinish⟩
        rcases hfails with ⟨x, hx, herror⟩
        have hsame : o = some x := hx
        rw [heffect] at hsame
        cases hsame
        rw [enter_eq_fail hlinked s.alive htested herror, leaves_of_tested htested] at hfinish
        exact finish_fail hdesc hmay hfinish
  · rintro t wake err ha ⟨x, hx, herror⟩
    have hacts : a = MqAction.resume t wake := ha
    have heffect : o = some x := hx
    subst heffect
    rcases ran_of_effect h with ⟨u, entering, role, r, k, hran, -, hstretch⟩
    rw [hstretch] at herror
    have heffects := hran.effects hinv.blocked hlinked
    cases hran with
    | enters d c wake' info outside => cases hacts
    | resumes wake' woken =>
        rename_i b k'
        have hrole : k'.role ≠ Role.other := by
          cases k' with
          | send d buf prio => simp [BlockedCall.role]
          | receive d maxlen priop => simp [BlockedCall.role]
        have hentering := (heffects.of_error hrole herror).left
        cases hentering

/-!
## Every call gives the lock back once
-/

def pendingCalls (p : Phase Unit BlockedCall) : Nat :=
  if p.pending.isSome then 1 else 0

theorem step_pendingCalls {a : MqAction tid} {o : Option Effect} (hinv : QueueInv sz s)
    (h : mqStep procOf s a = some (s', o)) (t : tid) :
    (if starts t ⟨s, a, o, s'⟩ = true then 1 else 0) + pendingCalls (s.phase t) =
      (if unlocks t ⟨s, a, o, s'⟩ = true then 1 else 0) + pendingCalls (s'.phase t) := by
  rcases step_cases h with hidle | ⟨u, entering, role, r, k, hran, hfin⟩
  · have hpending : pendingCalls (s'.phase t) = pendingCalls (s.phase t) := by
      unfold pendingCalls
      rw [hidle.pending t]
    simp [starts, unlocks, hidle.acts, hpending]
  · rcases hinv.linked with ⟨used, free, hlinked⟩
    have heffects := hran.effects hinv.blocked hlinked
    have hstarts : starts t ⟨s, a, o, s'⟩ = (decide (u = t) && entering) := by
      simp [starts, hran.acts]
    have hunlocks : unlocks t ⟨s, a, o, s'⟩ =
        (decide (u = t) && r.outcome.givesBack) := by
      simp [unlocks, hran.acts, hfin.effect, Stretch.effect]
    have hpending := hfin.pending_eq t
    rw [hstarts, hunlocks]
    by_cases hut : u = t
    · subst hut
      rw [Function.update_self] at hpending
      -- the thread was outside just when it enters, and is outside again unless it waits
      have hbefore : pendingCalls (s.phase u) = if entering = true then 0 else 1 := by
        cases hran with
        | enters d c wake info outside => simp [pendingCalls, outside]
        | resumes wake woken => simp [pendingCalls, woken]
      have hafter : pendingCalls (s'.phase u) =
          if r.outcome.givesBack = true then 0 else 1 := by
        unfold pendingCalls
        rw [hpending]
        rcases heffects.unlocked with hwaits | ⟨ret, hreturns⟩
        · rcases hran.call with ⟨_, hother⟩ | ⟨k', rfl, _⟩
          · exact absurd hother (heffects.waits_role hwaits)
          · rw [hwaits]
            rfl
        · rw [hreturns]
          rfl
      rw [hbefore, hafter]
      cases entering <;> cases r.outcome.givesBack <;> simp
    · rw [Function.update_of_ne (Ne.symm hut)] at hpending
      simp [hut, pendingCalls, hpending]

/-- In every run each call fails exactly when it is refused on entry, then changes
nothing, and never ends with the lock taken; the calls of a thread have given the
lock back once each, but for the one it is still in. -/
theorem calls_fail_exactly {tr : List (MqTransition tid)}
    (h : Run (MqInit sz) (mqStep procOf) tr s) :
    (forall e, e ∈ tr -> CallLaw sz e) ∧
      forall t, tr.countP (starts t) = tr.countP (unlocks t) + pendingCalls (s.phase t) := by
  constructor
  · intro e he
    rcases run_transition h he with ⟨hreach, hvalid⟩
    exact step_callLaw (reachable_inv hreach) (reachable_magic hreach) hvalid
  · intro t
    refine run_induction (I := fun tr s =>
      tr.countP (starts t) = tr.countP (unlocks t) + pendingCalls (s.phase t)) ?_ ?_ h
    · intro s hinit
      simp [hinit.phase t, pendingCalls]
    · intro tr s a o s' hrun ih hstep
      have hone := step_pendingCalls (reachable_inv ⟨tr, hrun⟩) hstep t
      simp only [List.countP_append, List.countP_singleton]
      lia

end Runs

/-- A full queue of three messages, a send that may not wait, and a send that waits. -/
theorem calls_fail_exactly_threeSlots :
    exists (tr : List (MqTransition (Fin 2))) (s : MqState (Fin 2)),
      (exists e, e ∈ tr ∧ failsWith e Errno.EAGAIN) ∧ pendingCalls (s.phase 1) = 1 ∧
        (forall e, e ∈ tr -> CallLaw threeSlots e) ∧
        forall t, tr.countP (starts t) = tr.countP (unlocks t) + pendingCalls (s.phase t) := by
  have hreplay : exists tr s, Run (MqInit threeSlots) (mqStep (oneProcess (n := 2))) tr s ∧
      decide ((exists e, e ∈ tr ∧
        e.event = some (Stretch.fail e.source.mem Errno.EAGAIN).effect) ∧
          pendingCalls (s.phase 1) = 1) = true :=
    run_of_replay
      [MqAction.opens 0 0 O_NONBLOCK, MqAction.opens 1 1 0,
        MqAction.call 0 0 (MqCall.send [1] 1) none, MqAction.call 0 0 (MqCall.send [2] 1) none,
        MqAction.call 0 0 (MqCall.send [3] 1) none, MqAction.call 0 0 (MqCall.send [4] 1) none,
        MqAction.call 1 1 (MqCall.send [5] 1) none]
      (init_fresh threeSlots_created) (by decide +kernel)
  rcases hreplay with ⟨tr, s, hrun, htest⟩
  rcases of_decide_eq_true htest with ⟨⟨e, he, hevent⟩, hwaits⟩
  exact ⟨tr, s, ⟨e, he, _, hevent, rfl⟩, hwaits, calls_fail_exactly hrun⟩

end MessageQueue
end InterprocessComm
