import InterprocessComm.Fifoclieser.Requests

/-!
# The server's requests in whole runs

While each request fits into its client's array, the FIFO holds the rest of a request and
whole requests behind it.  Three things put an end to that: a request that does not fit, one
that `readline` cuts at a byte that it takes for the end of the file, and a pathname that
makes the server read its own FIFO as a file.
-/

namespace InterprocessComm
namespace Fifoclieser

open Verification
open Svmsg (NUL NEWLINE BLANK idText toInt)

/-!
## Where a request is cut
-/

namespace Client

/-- The pathname that `readline` lets through: the line up to the first byte that is equal to
`EOF`. -/
inductive Cut (c : Client) : List UInt8 -> List UInt8 -> Prop where
  | whole : EOF ∉ c.line -> Cut c c.line []
  | atEof {front back : List UInt8} :
      c.line = front ++ EOF :: back ->
      EOF ∉ front ->
      Cut c (front ++ [EOF]) (back ++ [NEWLINE])

theorem cut_exists (c : Client) : exists path back, Cut c path back := by
  by_cases heof : EOF ∈ c.line
  · rcases List.eq_append_cons_of_mem heof with ⟨front, back, hline, hfront⟩
    exact ⟨_, _, Cut.atEof hline hfront⟩
  · exact ⟨_, _, Cut.whole heof⟩

variable {c : Client} {path back : List UInt8}

theorem Cut.path_eq_iff (h : Cut c path back) : path = c.line <-> EOF ∉ c.line.dropLast := by
  cases h with
  | whole heof => exact ⟨fun _ hmem => heof (List.dropLast_subset _ hmem), fun _ => rfl⟩
  | @atEof front more hline hfront =>
      rw [hline]
      cases more with
      | nil => simpa using hfront
      | cons b more =>
          rw [List.dropLast_append_of_ne_nil (List.cons_ne_nil _ _)]
          simp

theorem Cut.back_eq (h : Cut c path back) (hpath : path = c.line) :
    back = [] ∨ back = [NEWLINE] := by
  cases h with
  | whole => exact Or.inl rfl
  | @atEof front more hline hfront =>
      rw [hline] at hpath
      have hmore : more = [] := by simpa using hpath
      exact Or.inr (by rw [hmore]; rfl)

theorem Cut.split (h : Cut c path back) :
    exists front b, c.requestText = front ++ b :: back ∧ Terminator b ∧
      (forall x, x ∈ front -> ¬ Terminator x) ∧
      idText c.id ++ path = (if b = NEWLINE then front else front ++ [b]) := by
  have hid (x : UInt8) (hx : x ∈ idText c.id) := c.no_terminator_idText hx
  cases h with
  | whole heof =>
      refine ⟨idText c.id ++ c.line, NEWLINE, by simp [requestText], Or.inl rfl, ?_, by simp⟩
      intro x hx
      rcases List.mem_append.mp hx with hx | hx
      · exact hid x hx
      · rintro (rfl | rfl)
        · exact c.no_newline hx
        · exact heof hx
  | @atEof front more hline hfront =>
      refine ⟨idText c.id ++ front, EOF, by simp [requestText, hline], Or.inr rfl, ?_,
        by simp [EOF, NEWLINE]⟩
      intro x hx
      rcases List.mem_append.mp hx with hx | hx
      · exact hid x hx
      · rintro (rfl | rfl)
        · exact c.no_newline (by rw [hline]; simp [hx])
        · exact hfront hx

theorem Cut.zero_not_mem (h : Cut c path back) : 0 ∉ path := by
  intro hzero
  cases h with
  | whole => exact c.no_nul hzero
  | atEof hline =>
      rcases List.mem_append.mp hzero with hzero | hzero
      · exact c.no_nul (by rw [hline]; simp [hzero])
      · cases List.mem_singleton.mp hzero

end Client

/-!
## One byte
-/

/-- The server reads a line while the requests `todo` are still to be handled; the newline of
a request that was cut at its last byte may be left over. -/
inductive Reading (s : ServiceState) (todo : List Client) : Prop where
  | line (front extra : List UInt8) :
      s.pc = ServerPc.readline front.length ->
      Contains s.buff 0 front ->
      (forall b, b ∈ front -> ¬ Terminator b) ->
      extra = [] ∨ extra = [NEWLINE] ->
      front ++ s.fifo.bytes = extra ++ todo.flatMap Client.requestText ->
      Reading s todo

def ServerPc.Away : ServerPc -> Prop
  | copying => True
  | blocked => True
  | _ => False

inductive Serves (opens : Opens) (s t : ServiceState) (c : Client) (rest : List Client) :
    List UInt8 -> Prop where
  | reads : (opens s.requests c.pid.val c.line).Returns -> Reading t rest ->
      Serves opens s t c rest c.line
  | leaves : ¬ (opens s.requests c.pid.val c.line).Returns -> t.pc.Away ->
      Serves opens s t c rest c.line
  | misreads {path : List UInt8} : path ≠ c.line -> Serves opens s t c rest path

section Steps

variable {opens : Opens} {s t : ServiceState} {o : ServiceEvent} {c : Client}
  {todo rest : List Client} {path back : List UInt8}

theorem serve_request {fifo : BytePipe} {buff : Mem} {n : Nat} (hn : n ≠ 0)
    (hhandle : exists buff' ptr last, handle buff n =
      some (Handled.request buff' c.id path ptr last))
    (hserve : serve opens s fifo buff n = some (t, o)) :
    o = ServiceEvent.handled c.pid.val path ∧ t.requests = s.requests + 1 ∧ t.fifo = fifo ∧
      (¬ (opens s.requests c.pid.val path).Returns ∧ t.pc.Away ∨
        (opens s.requests c.pid.val path).Returns ∧ t.pc = ServerPc.readline 0) := by
  rcases hhandle with ⟨buff', ptr, last, hhandle⟩
  unfold serve at hserve
  rw [if_neg hn, hhandle, c.id_cast, Option.map_some] at hserve
  simp only at hserve
  split at hserve
  · rename_i hopened
    cases hserve
    rw [hopened]
    exact ⟨rfl, rfl, rfl, Or.inr ⟨trivial, rfl⟩⟩
  · rename_i hopened
    cases hserve
    rw [hopened]
    exact ⟨rfl, rfl, rfl, Or.inl ⟨id, trivial⟩⟩
  · rename_i hopened
    cases hserve
    rw [hopened]
    exact ⟨rfl, rfl, rfl, Or.inl ⟨id, trivial⟩⟩

theorem front_length_lt {front bytes : List UInt8} (hfits : c.Fits)
    (hfront : forall b, b ∈ front -> ¬ Terminator b)
    (hbytes : front ++ bytes = c.requestText ++ back) : front.length < MAXLINE := by
  have hsplit : front ++ bytes = (idText c.id ++ c.line) ++ NEWLINE :: back := by
    rw [hbytes]
    simp [Client.requestText]
  have hle := length_le_of_cut (P := Terminator) hfront (Or.inl rfl) hsplit
  rw [List.length_append] at hle
  unfold Client.Fits at hfits
  lia

theorem handled_request {buff : Mem} {front : List UInt8} {b : UInt8}
    (hcut : c.Cut path back)
    (htext : idText c.id ++ path = (if b = NEWLINE then front else front ++ [b]))
    (hlength : front.length < MAXLINE) (hcontains : Contains buff 0 (front ++ [b])) :
    exists buff' ptr last, handle buff (front ++ [b]).length =
      some (Handled.request buff' c.id path ptr last) := by
  have hboth := contains_append.mp hcontains
  have hlast : buff (((front ++ [b]).length : Nat) - 1) = b := by
    have hcell := (contains_cons.mp hboth.2).1
    simpa using hcell
  have hfound : exists buff', handle buff (front ++ [b]).length =
      some (Handled.request buff' c.id path (idText c.id).length (idText c.id ++ path).length) ∧
        Contains buff' (idText c.id).length (path ++ [0]) := by
    apply handle_request c.id_lt hcut.zero_not_mem
    · rw [htext]
      split
      · exact hboth.1
      · exact hcontains
    · rw [htext]
      split
      · exact Nat.le_of_lt hlength
      · rw [List.length_append]
        exact hlength
    · rw [hlast, htext]
      split <;> simp
  rcases hfound with ⟨buff', hhandle, _⟩
  exact ⟨buff', _, _, hhandle⟩

/-- A line that is cut off goes on with what was left over, or with a request. -/
theorem leftover_cases {front bytes extra : List UInt8} {b : UInt8}
    (hclean : forall x, x ∈ front -> ¬ Terminator x) (hextra : extra = [] ∨ extra = [NEWLINE])
    (hbytes : front ++ b :: bytes = extra ++ todo.flatMap Client.requestText) :
    (front = [] ∧ b = NEWLINE ∧ bytes = todo.flatMap Client.requestText) ∨
      exists c rest, todo = c :: rest ∧
        front ++ b :: bytes = c.requestText ++ rest.flatMap Client.requestText := by
  rcases hextra with rfl | rfl
  · cases todo with
    | nil => simp at hbytes
    | cons c rest => exact Or.inr ⟨c, rest, rfl, hbytes⟩
  · cases front with
    | nil =>
        injection hbytes with hb hrest
        exact Or.inl ⟨rfl, hb, hrest⟩
    | cons x front =>
        injection hbytes with hx _
        exact absurd (Or.inl hx) (hclean x List.mem_cons_self)

theorem reading_returned {fifo : BytePipe} {buff : Mem} {front : List UInt8} {b : UInt8}
    (hfront : front.length < MAXLINE) (hb : Terminator b)
    (hclean : forall x, x ∈ front -> ¬ Terminator x)
    (hcontains : Contains buff 0 (front ++ [b]))
    (hbytes : front ++ b :: fifo.bytes = c.requestText ++ rest.flatMap Client.requestText)
    (hserve : serve opens s fifo buff (front ++ [b]).length = some (t, o)) :
    exists path back, c.Cut path back ∧ o = ServiceEvent.handled c.pid.val path ∧
      t.requests = s.requests + 1 ∧ t.fifo = fifo ∧ Serves opens s t c rest path := by
  rcases c.cut_exists with ⟨path, back, hcut⟩
  rcases hcut.split with ⟨front', b', htext, hb', hclean', hfound⟩
  rw [htext, List.append_assoc, List.cons_append] at hbytes
  rcases cut_unique hclean hclean' hb hb' hbytes with ⟨rfl, rfl, hrest⟩
  have hhandle := handled_request hcut hfound hfront hcontains
  rcases serve_request (by simp) hhandle hserve with ⟨ho, hrequests, hfifo, hnext⟩
  refine ⟨path, back, hcut, ho, hrequests, hfifo, ?_⟩
  by_cases hpath : path = c.line
  · subst hpath
    rcases hnext with ⟨hopened, hpc⟩ | ⟨hopened, hpc⟩
    · exact Serves.leaves hopened hpc
    · refine Serves.reads hopened (Reading.line [] back hpc rfl ?_ (hcut.back_eq rfl) ?_)
      · intro x hx
        cases hx
      · rw [hfifo]
        exact hrest
  · exact Serves.misreads hpath

theorem reading_read (h : Reading s todo) (hfits : forall c, c ∈ todo -> c.Fits)
    (hwriters : s.fifo.writers ≠ [])
    (hstep : serviceStep opens s ServiceAction.read = some (t, o)) :
    t.fifo.writers = s.fifo.writers ∧
      ((o = ServiceEvent.silent ∧ t.requests = s.requests ∧ Reading t todo) ∨
        exists c rest path back, todo = c :: rest ∧ c.Cut path back ∧
          o = ServiceEvent.handled c.pid.val path ∧ t.requests = s.requests + 1 ∧
          Serves opens s t c rest path) := by
  rcases h with ⟨front, extra, hpc, hcontains, hclean, hextra, hbytes⟩
  simp only [serviceStep, hpc] at hstep
  rcases Option.bind_eq_some_iff.mp hstep with ⟨⟨read, fifo⟩, hread, hnext⟩
  rcases BytePipe.read_one hwriters hread with ⟨b, rfl, hcons, hsame⟩
  rw [hcons] at hbytes
  simp only at hnext
  rcases leftover_cases hclean hextra hbytes with ⟨rfl, rfl, hrest⟩ | ⟨c, rest, rfl, htext⟩
  · -- the newline behind a byte that ended the line before it
    rcases readByte_ends hcontains (by decide) (Or.inl rfl) with ⟨buff, hbyte, hline⟩
    rcases handle_newline hline with ⟨buff', hhandle⟩
    rw [hbyte] at hnext
    simp only [serve, List.nil_append, List.length_singleton, hhandle] at hnext
    cases hnext
    refine ⟨hsame, Or.inl ⟨rfl, rfl, Reading.line [] [] rfl rfl ?_ (Or.inl rfl) ?_⟩⟩
    · intro x hx
      cases hx
    · exact hrest
  · have hfitsc := hfits c List.mem_cons_self
    have hfront := front_length_lt hfitsc hclean htext
    by_cases hb : Terminator b
    · rcases readByte_ends hcontains hfront hb with ⟨buff, hbyte, hline⟩
      rw [hbyte] at hnext
      rcases reading_returned hfront hb hclean hline htext hnext with
        ⟨path, back, hcut, ho, hrequests, hfifo, hserves⟩
      exact ⟨by rw [hfifo, hsame], Or.inr ⟨c, rest, path, back, rfl, hcut, ho, hrequests, hserves⟩⟩
    · rcases readByte_inside hcontains hfront hb with ⟨buff, hbyte, hline⟩
      rw [hbyte] at hnext
      cases hnext
      refine ⟨hsame, Or.inl ⟨rfl, rfl, Reading.line (front ++ [b]) [] rfl hline ?_ (Or.inl rfl) ?_⟩⟩
      · intro x hx
        rcases List.mem_append.mp hx with hx | hx
        · exact hclean x hx
        · rw [List.mem_singleton.mp hx]
          exact hb
      · rw [List.append_assoc]
        exact htext

theorem Reading.goes_on (opens : Opens) (h : Reading s todo)
    (hfits : forall c, c ∈ todo -> c.Fits) (hne : s.fifo.bytes ≠ []) :
    exists r, serviceStep opens s ServiceAction.read = some r := by
  rcases h with ⟨front, extra, hpc, hcontains, hclean, hextra, hbytes⟩
  cases hfifo : s.fifo.bytes with
  | nil => exact absurd hfifo hne
  | cons b bytes =>
      have hread : s.fifo.read 1 = some ([b], { s.fifo with bytes := bytes }) :=
        BytePipe.read_of_append hfifo (List.cons_ne_nil b [])
      rw [hfifo] at hbytes
      simp only [serviceStep, hpc, hread, Option.bind_some]
      rcases leftover_cases hclean hextra hbytes with ⟨rfl, rfl, _⟩ | ⟨c, rest, rfl, htext⟩
      · rcases readByte_ends hcontains (by decide) (Or.inl rfl) with ⟨buff, hbyte, hline⟩
        rcases handle_newline hline with ⟨buff', hhandle⟩
        rw [hbyte]
        simp only [serve, List.nil_append, List.length_singleton, hhandle]
        exact ⟨_, rfl⟩
      · have hfront := front_length_lt (hfits c List.mem_cons_self) hclean htext
        by_cases hb : Terminator b
        · rcases readByte_ends hcontains hfront hb with ⟨buff, hbyte, hline⟩
          rw [hbyte]
          rcases c.cut_exists with ⟨path, back, hcut⟩
          rcases hcut.split with ⟨front', b', hsplit, hb', hclean', hfound⟩
          rw [hsplit, List.append_assoc, List.cons_append] at htext
          rcases cut_unique hclean hclean' hb hb' htext with ⟨rfl, rfl, _⟩
          rcases handled_request hcut hfound hfront hline with ⟨buff', ptr, last, hhandle⟩
          simp only [serve, hhandle, Option.map_some]
          split <;> exact ⟨_, rfl⟩
        · rcases readByte_inside hcontains hfront hb with ⟨buff, hbyte, _⟩
          rw [hbyte]
          exact ⟨_, rfl⟩

theorem Reading.todo_nil (h : Reading s todo) (hempty : s.fifo.bytes = []) : todo = [] := by
  rcases h with ⟨front, extra, _, _, hclean, _, hbytes⟩
  cases todo with
  | nil => rfl
  | cons c rest =>
      rw [hempty, List.append_nil] at hbytes
      have hmem : NEWLINE ∈ front := by
        rw [hbytes]
        simp [Client.requestText]
      exact absurd (Or.inl rfl) (hclean NEWLINE hmem)

theorem Reading.write (h : Reading s todo) (hpc : t.pc = s.pc) (hbuff : t.buff = s.buff)
    (hbytes : t.fifo.bytes = s.fifo.bytes ++ c.requestText) : Reading t (todo ++ [c]) := by
  rcases h with ⟨front, extra, hs, hcontains, hclean, hextra, htext⟩
  refine Reading.line front extra (hpc.trans hs) (by rw [hbuff]; exact hcontains) hclean hextra ?_
  rw [hbytes, ← List.append_assoc, htext, List.append_assoc, List.flatMap_append,
    List.flatMap_singleton]

end Steps

/-!
## Whole runs
-/

def AtRest (opens : Opens) (s : ServiceState) : Prop :=
  serviceStep opens s ServiceAction.read = none

/-- The clients stay within their arrays, and the server handles one request for each, with
the client's process id and line; it goes on until it has handled all. -/
structure RoundTrip (opens : Opens) (tr : List ServiceTransition) (s : ServiceState) :
    Prop where
  in_bounds : forall e c, e ∈ tr -> e.event ≠ ServiceEvent.overrun c
  in_order : forall (k : Nat) (h : Int × List UInt8), (handled tr)[k]? = some h ->
    exists c : Client, (requested tr)[k]? = some c ∧ h = c.named
  complete : AtRest opens s -> (handled tr).length = (requested tr).length

/-- The condition on the clients: each request fits, no byte before the last of a line is
taken for `EOF`, and the server comes back from every pathname but the last. -/
structure Intact (opens : Opens) (clients : List Client) : Prop where
  fits : forall c, c ∈ clients -> c.Fits
  no_eof : forall c, c ∈ clients -> EOF ∉ c.line.dropLast
  elsewhere : forall (k : Nat) (c : Client), clients[k]? = some c -> k + 1 < clients.length ->
    (opens k c.pid.val c.line).Returns

inductive Broken (opens : Opens) (tr : List ServiceTransition) (s : ServiceState) : Prop where
  | overrun {e : ServiceTransition} {c : Client} :
      e ∈ tr -> e.event = ServiceEvent.overrun c -> c ∈ requested tr -> ¬ c.Fits ->
      Broken opens tr s
  | misread {k : Nat} {c : Client} {h : Int × List UInt8} :
      (requested tr)[k]? = some c -> (handled tr)[k]? = some h -> h ≠ c.named ->
      EOF ∈ c.line.dropLast ->
      Broken opens tr s
  | swallowed {k : Nat} {c : Client} :
      s.pc.Away -> (handled tr).length < (requested tr).length ->
      (requested tr)[k]? = some c -> k + 1 < (requested tr).length ->
      ¬ (opens k c.pid.val c.line).Returns ->
      Broken opens tr s

inductive Served (opens : Opens) (tr : List ServiceTransition) (s : ServiceState) : Prop where
  | reading (done todo : List Client) :
      requested tr = done ++ todo ->
      handled tr = done.map Client.named ->
      s.requests = done.length ->
      (forall e c, e ∈ tr -> e.event ≠ ServiceEvent.overrun c) ->
      (forall c, c ∈ done ++ todo -> c.Fits) ->
      (forall c, c ∈ done -> EOF ∉ c.line.dropLast) ->
      (forall (k : Nat) (c : Client), done[k]? = some c ->
        (opens k c.pid.val c.line).Returns) ->
      Reading s todo ->
      Served opens tr s
  | away (done : List Client) (last : Client) :
      requested tr = done ++ [last] ->
      handled tr = (done ++ [last]).map Client.named ->
      (forall e c, e ∈ tr -> e.event ≠ ServiceEvent.overrun c) ->
      Intact opens (requested tr) ->
      ¬ (opens done.length last.pid.val last.line).Returns ->
      s.pc.Away ->
      Served opens tr s
  | broken : Broken opens tr s -> Served opens tr s

section Runs

variable {opens : Opens} {tr : List ServiceTransition} {s t : ServiceState}

theorem Broken.not_intact (h : Broken opens tr s) : ¬ Intact opens (requested tr) := by
  intro hintact
  cases h with
  | overrun _ _ hmem hfits => exact hfits (hintact.fits _ hmem)
  | misread hc _ _ heof => exact hintact.no_eof _ (List.mem_of_getElem? hc) heof
  | swallowed _ _ hc hlast hopened => exact hopened (hintact.elsewhere _ _ hc hlast)

theorem Broken.not_roundTrip (h : Broken opens tr s) (hrest : AtRest opens s) :
    ¬ RoundTrip opens tr s := by
  intro htrip
  cases h with
  | overrun he hevent _ _ => exact htrip.in_bounds _ _ he hevent
  | misread hc hh hne _ =>
      rcases htrip.in_order _ _ hh with ⟨c', hc', heq⟩
      rw [hc] at hc'
      cases hc'
      exact hne heq
  | swallowed _ hlt _ _ _ => exact absurd (htrip.complete hrest) (Nat.ne_of_lt hlt)

theorem Served.intact (h : Served opens tr s) (hrest : AtRest opens s)
    (htrip : RoundTrip opens tr s) : Intact opens (requested tr) := by
  cases h with
  | reading done todo hrequested hhandled hcount hbounds hfits heof helsewhere hreading =>
      have hlength := htrip.complete hrest
      rw [hrequested, hhandled, List.length_map, List.length_append] at hlength
      have htodo : todo = [] := List.eq_nil_of_length_eq_zero (by lia)
      rw [hrequested, htodo, List.append_nil]
      rw [htodo, List.append_nil] at hfits
      exact ⟨hfits, heof, fun k c hc _ => helsewhere k c hc⟩
  | away _ _ _ _ _ hintact => exact hintact
  | broken hbroken => exact absurd htrip (hbroken.not_roundTrip hrest)

theorem Served.roundTrip (h : Served opens tr s) (hintact : Intact opens (requested tr)) :
    RoundTrip opens tr s := by
  cases h with
  | reading done todo hrequested hhandled _ hbounds hfits _ _ hreading =>
      refine ⟨hbounds, ?_, ?_⟩
      · intro k h hh
        rw [hhandled, List.getElem?_map] at hh
        rcases Option.map_eq_some_iff.mp hh with ⟨c, hc, rfl⟩
        have hk := (List.getElem?_eq_some_iff.mp hc).1
        refine ⟨c, ?_, rfl⟩
        rw [hrequested, List.getElem?_append_left hk]
        exact hc
      · intro hrest
        have hempty : s.fifo.bytes = [] := by
          by_contra hne
          rcases hreading.goes_on opens (fun c hc => hfits c (List.mem_append_right _ hc)) hne
            with ⟨r, hr⟩
          exact Option.some_ne_none r (hr.symm.trans hrest)
        rw [hhandled, hrequested, hreading.todo_nil hempty, List.length_map, List.append_nil]
  | away done last hrequested hhandled hbounds _ _ _ =>
      refine ⟨hbounds, ?_, ?_⟩
      · intro k h hh
        rw [hhandled, List.getElem?_map] at hh
        rcases Option.map_eq_some_iff.mp hh with ⟨c, hc, rfl⟩
        exact ⟨c, by rw [hrequested]; exact hc, rfl⟩
      · intro _
        rw [hhandled, hrequested, List.length_map]
  | broken hbroken => exact absurd hintact hbroken.not_intact

theorem requested_snoc (tr : List ServiceTransition) (e : ServiceTransition) :
    requested (tr ++ [e]) = requested tr ++ requested [e] :=
  List.filterMap_append

theorem handled_snoc (tr : List ServiceTransition) (e : ServiceTransition) :
    handled (tr ++ [e]) = handled tr ++ handled [e] :=
  List.filterMap_append

theorem getElem?_append_of_some {α : Type _} {xs : List α} {k : Nat} {x : α} (ys : List α)
    (h : xs[k]? = some x) : (xs ++ ys)[k]? = some x := by
  rw [List.getElem?_append_left (List.getElem?_eq_some_iff.mp h).1]
  exact h

theorem getElem?_snoc_cases {α : Type _} {xs : List α} {k : Nat} {x y : α}
    (h : (xs ++ [x])[k]? = some y) : xs[k]? = some y ∨ (k = xs.length ∧ y = x) := by
  rcases List.getElem?_eq_some_iff.mp h with ⟨hk, hget⟩
  rcases Nat.lt_or_ge k xs.length with hlt | hge
  · rw [List.getElem?_append_left hlt] at h
    exact Or.inl h
  · rw [List.length_append, List.length_singleton] at hk
    have heq : k = xs.length := by lia
    subst heq
    rw [List.getElem?_concat_length] at h
    exact Or.inr ⟨rfl, (Option.some.inj h).symm⟩

theorem away_step {a : ServiceAction} {o : ServiceEvent} (haway : s.pc.Away)
    (hwriters : s.fifo.writers ≠ []) (hstep : serviceStep opens s a = some (t, o)) :
    t.pc.Away ∧ handled [⟨s, a, o, t⟩] = [] ∧
      (a = ServiceAction.read -> o = ServiceEvent.silent) := by
  cases a with
  | request c =>
      simp only [serviceStep] at hstep
      split at hstep
      · cases hstep
        exact ⟨haway, rfl, fun hread => by cases hread⟩
      · rcases Option.map_eq_some_iff.mp hstep with ⟨fifo, _, hresult⟩
        cases hresult
        exact ⟨haway, rfl, fun hread => by cases hread⟩
  | read =>
      simp only [serviceStep] at hstep
      split at hstep
      · rename_i hpc
        rw [hpc] at haway
        cases haway
      · rcases Option.map_eq_some_iff.mp hstep with ⟨⟨bytes, fifo⟩, hread, hresult⟩
        rcases BytePipe.read_eq hread with ⟨hbytes, _, _, hempty⟩
        have hne : bytes ≠ [] := by
          intro hnil
          rw [hbytes] at hnil
          have hnone : s.fifo.bytes = [] := by simpa [MAXLINE] using hnil
          exact hwriters (hempty hnone)
        simp only [hne, if_false] at hresult
        cases hresult
        exact ⟨trivial, rfl, fun _ => rfl⟩
      · cases hstep
      · cases hstep

theorem Broken.step {a : ServiceAction} {o : ServiceEvent} (h : Broken opens tr s)
    (hwriters : s.fifo.writers ≠ []) (hstep : serviceStep opens s a = some (t, o)) :
    Broken opens (tr ++ [⟨s, a, o, t⟩]) t := by
  cases h with
  | overrun he hevent hmem hfits =>
      refine Broken.overrun (List.mem_append_left _ he) hevent ?_ hfits
      rw [requested_snoc]
      exact List.mem_append_left _ hmem
  | @misread k c h hc hh hne heof =>
      refine Broken.misread (k := k) ?_ ?_ hne heof
      · rw [requested_snoc]
        exact getElem?_append_of_some _ hc
      · rw [handled_snoc]
        exact getElem?_append_of_some _ hh
  | swallowed haway hlt hc hlast hopened =>
      rcases away_step haway hwriters hstep with ⟨haway', hnone, _⟩
      refine Broken.swallowed haway' ?_ ?_ ?_ hopened
      · rw [handled_snoc, requested_snoc, hnone, List.append_nil, List.length_append]
        exact Nat.lt_add_right _ hlt
      · rw [requested_snoc]
        exact getElem?_append_of_some _ hc
      · rw [requested_snoc, List.length_append]
        exact Nat.lt_add_right _ hlast

theorem request_cases {c : Client} {o : ServiceEvent}
    (hstep : serviceStep opens s (ServiceAction.request c) = some (t, o)) :
    (o = ServiceEvent.overrun c ∧ ¬ c.Fits ∧ t = s) ∨
      (o = ServiceEvent.written c ∧ c.Fits ∧ t.pc = s.pc ∧ t.buff = s.buff ∧
        t.requests = s.requests ∧ t.fifo.writers ≠ [] ∧
        t.fifo.bytes = s.fifo.bytes ++ c.requestText) := by
  simp only [serviceStep] at hstep
  by_cases hfits : c.Fits
  · rw [Client.request_eq hfits] at hstep
    rcases Option.map_eq_some_iff.mp hstep with ⟨fifo, hwrite, hresult⟩
    rcases BytePipe.write_eq hwrite with ⟨_, hbytes, hwriters⟩
    cases hresult
    refine Or.inr ⟨rfl, hfits, rfl, rfl, rfl, ?_, hbytes⟩
    rw [hwriters]
    exact List.cons_ne_nil _ _
  · rw [Client.request_overruns hfits] at hstep
    cases hstep
    exact Or.inl ⟨rfl, hfits, rfl⟩

theorem serve_fifo {fifo : BytePipe} {buff : Mem} {n : Nat} {o : ServiceEvent}
    (h : serve opens s fifo buff n = some (t, o)) : t.fifo = fifo := by
  unfold serve at h
  split at h
  · cases h
    rfl
  · rcases Option.map_eq_some_iff.mp h with ⟨handled, _, hresult⟩
    cases handled with
    | bogus =>
        cases hresult
        rfl
    | request =>
        simp only at hresult
        split at hresult <;> cases hresult <;> rfl

/-- The server's own descriptor keeps the FIFO open for writing. -/
theorem writers_step {a : ServiceAction} {o : ServiceEvent} (hwriters : s.fifo.writers ≠ [])
    (hstep : serviceStep opens s a = some (t, o)) : t.fifo.writers ≠ [] := by
  cases a with
  | request c =>
      rcases request_cases hstep with ⟨_, _, rfl⟩ | ⟨_, _, _, _, _, hopen, _⟩
      · exact hwriters
      · exact hopen
  | read =>
      simp only [serviceStep] at hstep
      split at hstep
      · rcases Option.bind_eq_some_iff.mp hstep with ⟨⟨bytes, fifo⟩, hread, hnext⟩
        have hsame := (BytePipe.read_eq hread).2.2.1
        rw [← hsame] at hwriters
        simp only at hnext
        split at hnext
        · rw [serve_fifo hnext]
          exact hwriters
        · split at hnext
          · cases hnext
            exact hwriters
          · rw [serve_fifo hnext]
            exact hwriters
      · rcases Option.map_eq_some_iff.mp hstep with ⟨⟨bytes, fifo⟩, hread, hresult⟩
        have hsame := (BytePipe.read_eq hread).2.2.1
        rw [← hsame] at hwriters
        cases hresult
        exact hwriters
      · cases hstep
      · cases hstep

theorem no_overrun_snoc {e : ServiceTransition}
    (h : forall d c, d ∈ tr -> d.event ≠ ServiceEvent.overrun c)
    (he : forall c, e.event ≠ ServiceEvent.overrun c) :
    forall d c, d ∈ tr ++ [e] -> d.event ≠ ServiceEvent.overrun c := by
  intro d c hd
  rcases List.mem_append.mp hd with hd | hd
  · exact h d c hd
  · rw [List.mem_singleton.mp hd]
    exact he c

theorem served_request {c : Client} {o : ServiceEvent} (h : Served opens tr s)
    (hwriters : s.fifo.writers ≠ [])
    (hstep : serviceStep opens s (ServiceAction.request c) = some (t, o)) :
    Served opens (tr ++ [⟨s, ServiceAction.request c, o, t⟩]) t := by
  rcases request_cases hstep with ⟨rfl, hfits, rfl⟩ |
    ⟨rfl, hfits, hpc, hbuff, hcount, _, hbytes⟩
  · refine Served.broken (Broken.overrun (List.mem_append_right _ (List.mem_singleton_self _))
      rfl ?_ hfits)
    rw [requested_snoc]
    exact List.mem_append_right _ (List.mem_singleton_self c)
  · have hquiet : forall d : Client, ServiceEvent.written c ≠ ServiceEvent.overrun d :=
      fun d => ServiceEvent.noConfusion
    cases h with
    | reading done todo hrequested hhandled hrequests hbounds hall heof helsewhere hreading =>
        refine Served.reading done (todo ++ [c]) ?_ ?_ (hcount.trans hrequests)
          (no_overrun_snoc hbounds hquiet) ?_ heof helsewhere (hreading.write hpc hbuff hbytes)
        · rw [requested_snoc, hrequested, List.append_assoc]
          rfl
        · rw [handled_snoc, hhandled]
          exact List.append_nil _
        · intro d hd
          rw [← List.append_assoc] at hd
          rcases List.mem_append.mp hd with hd | hd
          · exact hall d hd
          · rw [List.mem_singleton.mp hd]
            exact hfits
    | away done last hrequested hhandled hbounds hintact hopened haway =>
        have hsnoc : requested (tr ++ [⟨s, ServiceAction.request c, ServiceEvent.written c, t⟩]) =
            done ++ [last] ++ [c] := by
          rw [requested_snoc, hrequested]
          rfl
        refine Served.broken (Broken.swallowed (by rw [hpc]; exact haway) ?_ ?_ ?_ hopened)
        · rw [hsnoc, handled_snoc, hhandled]
          simp [handled]
        · rw [hsnoc]
          simp
        · rw [hsnoc]
          simp
    | broken hbroken => exact Served.broken (hbroken.step hwriters hstep)

theorem served_handled {done rest : List Client} {c : Client} {path back : List UInt8}
    (hrequested : requested tr = done ++ c :: rest)
    (hhandled : handled tr = done.map Client.named) (hrequests : s.requests = done.length)
    (hbounds : forall e d, e ∈ tr -> e.event ≠ ServiceEvent.overrun d)
    (hall : forall d, d ∈ done ++ c :: rest -> d.Fits)
    (heof : forall d, d ∈ done -> EOF ∉ d.line.dropLast)
    (helsewhere : forall (k : Nat) (d : Client), done[k]? = some d ->
      (opens k d.pid.val d.line).Returns)
    (hcut : c.Cut path back) (hcount : t.requests = s.requests + 1)
    (hserves : Serves opens s t c rest path) :
    Served opens (tr ++ [⟨s, ServiceAction.read, ServiceEvent.handled c.pid.val path, t⟩]) t := by
  have hbounds' := no_overrun_snoc (e := ⟨s, ServiceAction.read,
    ServiceEvent.handled c.pid.val path, t⟩) hbounds fun d => ServiceEvent.noConfusion
  have hsame : requested (tr ++ [⟨s, ServiceAction.read,
      ServiceEvent.handled c.pid.val path, t⟩]) = done ++ c :: rest := by
    rw [requested_snoc, hrequested]
    exact List.append_nil _
  have hone : handled (tr ++ [⟨s, ServiceAction.read,
      ServiceEvent.handled c.pid.val path, t⟩]) =
      done.map Client.named ++ [(c.pid.val, path)] := by
    rw [handled_snoc, hhandled]
    rfl
  have hk : (done ++ c :: rest)[done.length]? = some c := by simp
  cases hserves with
  | reads hopened hreading =>
      have hsplit : done ++ c :: rest = done ++ [c] ++ rest := by simp
      rw [hsplit] at hsame hall
      refine Served.reading (done ++ [c]) rest hsame ?_ ?_ hbounds' hall ?_ ?_ hreading
      · rw [hone, List.map_append]
        rfl
      · rw [hcount, hrequests, List.length_append, List.length_singleton]
      · intro d hd
        rcases List.mem_append.mp hd with hd | hd
        · exact heof d hd
        · rw [List.mem_singleton.mp hd]
          exact hcut.path_eq_iff.mp rfl
      · intro k d hd
        rcases getElem?_snoc_cases hd with hd | ⟨rfl, rfl⟩
        · exact helsewhere k d hd
        · rw [← hrequests]
          exact hopened
  | leaves hopened hpc =>
      rw [hrequests] at hopened
      cases rest with
      | nil =>
          refine Served.away done c hsame ?_ hbounds' ?_ hopened hpc
          · rw [hone, List.map_append]
            rfl
          · rw [hsame]
            refine ⟨hall, ?_, ?_⟩
            · intro d hd
              rcases List.mem_append.mp hd with hd | hd
              · exact heof d hd
              · rw [List.mem_singleton.mp hd]
                exact hcut.path_eq_iff.mp rfl
            · intro k d hd hlast
              rcases getElem?_snoc_cases hd with hd | ⟨rfl, rfl⟩
              · exact helsewhere k d hd
              · exact absurd hlast (by simp)
      | cons d rest =>
          refine Served.broken (Broken.swallowed (k := done.length) (c := c) hpc ?_ ?_ ?_ hopened)
          · rw [hone, hsame]
            simp
          · rw [hsame]
            exact hk
          · rw [hsame]
            simp
  | misreads hpath =>
      refine Served.broken (Broken.misread (k := done.length) (c := c) (h := (c.pid.val, path))
        ?_ ?_ ?_ ?_)
      · rw [hsame]
        exact hk
      · rw [hone]
        simp
      · intro heq
        exact hpath (congrArg Prod.snd heq)
      · by_contra hnone
        exact hpath (hcut.path_eq_iff.mpr hnone)

theorem served_read {o : ServiceEvent} (h : Served opens tr s) (hwriters : s.fifo.writers ≠ [])
    (hstep : serviceStep opens s ServiceAction.read = some (t, o)) :
    Served opens (tr ++ [⟨s, ServiceAction.read, o, t⟩]) t := by
  cases h with
  | reading done todo hrequested hhandled hrequests hbounds hall heof helsewhere hreading =>
      have hfits : forall c, c ∈ todo -> c.Fits := fun c hc => hall c (List.mem_append_right _ hc)
      rcases reading_read hreading hfits hwriters hstep with ⟨_, ⟨rfl, hcount, hreading'⟩ |
        ⟨c, rest, path, back, rfl, hcut, rfl, hcount, hserves⟩⟩
      · refine Served.reading done todo ?_ ?_ (hcount.trans hrequests)
          (no_overrun_snoc hbounds fun d => ServiceEvent.noConfusion) hall heof helsewhere hreading'
        · rw [requested_snoc, hrequested]
          exact List.append_nil _
        · rw [handled_snoc, hhandled]
          exact List.append_nil _
      · exact served_handled hrequested hhandled hrequests hbounds hall heof helsewhere hcut
          hcount hserves
  | away done last hrequested hhandled hbounds hintact hopened haway =>
      rcases away_step haway hwriters hstep with ⟨haway', hnone, hsilent⟩
      have ho := hsilent rfl
      subst ho
      have hsame : requested (tr ++ [⟨s, ServiceAction.read, ServiceEvent.silent, t⟩]) =
          requested tr := by
        rw [requested_snoc]
        exact List.append_nil _
      refine Served.away done last (hsame.trans hrequested) ?_
        (no_overrun_snoc hbounds fun d => ServiceEvent.noConfusion) ?_ hopened haway'
      · rw [handled_snoc, hnone, List.append_nil, hhandled]
      · rw [hsame]
        exact hintact
  | broken hbroken => exact Served.broken (hbroken.step hwriters hstep)

theorem served_run (h : Run ServiceInit (serviceStep opens) tr s) :
    s.fifo.writers ≠ [] ∧ Served opens tr s := by
  refine run_induction (I := fun tr s => s.fifo.writers ≠ [] ∧ Served opens tr s) ?_ ?_ h
  · rintro s ⟨hfifo, hpc, hrequests⟩
    refine ⟨by simp [hfifo], Served.reading [] [] rfl rfl hrequests ?_ ?_ ?_ ?_ ?_⟩
    · intro e c he
      cases he
    · intro c hc
      cases hc
    · intro c hc
      cases hc
    · intro k c hc
      cases hc
    · refine Reading.line [] [] hpc rfl ?_ (Or.inl rfl) ?_
      · intro b hb
        cases hb
      · rw [hfifo]
        rfl
  · rintro tr s a o t _ ⟨hwriters, hserved⟩ hstep
    refine ⟨writers_step hwriters hstep, ?_⟩
    cases a with
    | request c => exact served_request hserved hwriters hstep
    | read => exact served_read hserved hwriters hstep

theorem read_takes {o : ServiceEvent} (hwriters : s.fifo.writers ≠ [])
    (hstep : serviceStep opens s ServiceAction.read = some (t, o)) :
    t.fifo.bytes.length < s.fifo.bytes.length := by
  have htakes : forall {n : Nat} {bytes : List UInt8} {fifo : BytePipe}, 0 < n ->
      s.fifo.read n = some (bytes, fifo) -> fifo.bytes.length < s.fifo.bytes.length := by
    intro n bytes fifo hn hread
    rcases BytePipe.read_eq hread with ⟨_, hrest, _, hempty⟩
    have hpos : 0 < s.fifo.bytes.length :=
      List.length_pos_iff.mpr fun hnil => hwriters (hempty hnil)
    rw [hrest, List.length_drop]
    lia
  simp only [serviceStep] at hstep
  split at hstep
  · rcases Option.bind_eq_some_iff.mp hstep with ⟨⟨bytes, fifo⟩, hread, hnext⟩
    have hless := htakes Nat.one_pos hread
    simp only at hnext
    split at hnext
    · rw [serve_fifo hnext]
      exact hless
    · split at hnext
      · cases hnext
        exact hless
      · rw [serve_fifo hnext]
        exact hless
  · rcases Option.map_eq_some_iff.mp hstep with ⟨⟨bytes, fifo⟩, hread, hresult⟩
    have hless := htakes (by decide) hread
    cases hresult
    exact hless
  · cases hstep
  · cases hstep

/-- Every read takes a byte that a client has written. -/
theorem reads_bounded (h : Run ServiceInit (serviceStep opens) tr s) :
    reads tr + s.fifo.bytes.length ≤ ((requested tr).flatMap Client.requestText).length := by
  refine (run_induction (I := fun tr s => s.fifo.writers ≠ [] ∧
    reads tr + s.fifo.bytes.length ≤ ((requested tr).flatMap Client.requestText).length)
    ?_ ?_ h).2
  · rintro s ⟨hfifo, _, _⟩
    simp [hfifo, reads]
  · rintro tr s a o t _ ⟨hwriters, hle⟩ hstep
    refine ⟨writers_step hwriters hstep, ?_⟩
    rw [requested_snoc, List.flatMap_append, List.length_append]
    cases a with
    | read =>
        have hless := read_takes hwriters hstep
        have hcount : reads (tr ++ [⟨s, ServiceAction.read, o, t⟩]) = reads tr + 1 := by
          simp [reads]
        lia
    | request c =>
        have hcount : reads (tr ++ [⟨s, ServiceAction.request c, o, t⟩]) = reads tr := by
          simp [reads]
        rw [hcount]
        rcases request_cases hstep with ⟨rfl, _, rfl⟩ | ⟨rfl, _, _, _, _, _, hbytes⟩
        · exact Nat.le_trans hle (Nat.le_add_right _ _)
        · have hone : requested [⟨s, ServiceAction.request c, ServiceEvent.written c, t⟩] = [c] :=
            rfl
          rw [hone, hbytes, List.length_append, List.flatMap_singleton]
          lia

/-- The requests go round whole exactly when each fits, no line is cut and the server comes back
from every pathname but the last; what goes wrong shows at the latest when the server is at rest,
which it is after a bounded number of reads. -/
theorem fifo_request_roundtrip_iff (h : Run ServiceInit (serviceStep opens) tr s) :
    (Intact opens (requested tr) -> RoundTrip opens tr s) ∧
      (AtRest opens s -> (RoundTrip opens tr s <-> Intact opens (requested tr))) ∧
      reads tr + s.fifo.bytes.length ≤ ((requested tr).flatMap Client.requestText).length := by
  have hserved := (served_run h).2
  refine ⟨hserved.roundTrip, ?_, reads_bounded h⟩
  intro hrest
  exact ⟨hserved.intact hrest, hserved.roundTrip⟩

end Runs

def freshService : ServiceState where
  fifo := ⟨[], [0]⟩
  buff := fun _ => NUL
  pc := ServerPc.readline 0
  requests := 0

theorem init_freshService : ServiceInit freshService :=
  ⟨rfl, rfl, rfl⟩

def typesA (pid : Pid) (n : Nat) : Client where
  pid := pid
  buff := freshService.buff
  line := List.replicate n 97
  more := []
  no_nul := by
    intro h
    cases List.eq_of_mem_replicate h
  no_newline := by
    intro h
    cases List.eq_of_mem_replicate h

theorem seven_isPid : 0 < (7 : Int) ∧ (7 : Int) < 2 ^ 31 := by decide

def pid7 : Pid := ⟨7, seven_isPid⟩

def pid12 : Pid := ⟨12, by decide⟩

/-- The second request is written while the server reads the first. -/
theorem fifo_request_roundtrip_iff_twoClients :
    exists (opens : Opens) (tr : List ServiceTransition) (s : ServiceState),
      Run ServiceInit (serviceStep opens) tr s ∧ AtRest opens s ∧
        handled tr = [(7, [97]), (12, [97, 97])] ∧ reads tr = 10 ∧ RoundTrip opens tr s := by
  have hreplay : exists tr s,
      Run ServiceInit (serviceStep fun _ _ _ => Opened.replied freshService.buff) tr s ∧
        decide ((serviceStep (fun _ _ _ => Opened.replied freshService.buff) s
            ServiceAction.read).isNone = true ∧
          handled tr = [(7, [97]), (12, [97, 97])] ∧ reads tr = 10 ∧
          (forall c, c ∈ requested tr -> (idText c.id).length + c.line.length + 2 ≤ MAXLINE) ∧
          forall c, c ∈ requested tr -> EOF ∉ c.line.dropLast) = true :=
    run_of_replay
      ([ServiceAction.request (typesA pid7 1), ServiceAction.read, ServiceAction.read,
        ServiceAction.request (typesA pid12 2)] ++ List.replicate 8 ServiceAction.read)
      init_freshService (by decide +kernel)
  rcases hreplay with ⟨tr, s, hrun, htest⟩
  rcases of_decide_eq_true htest with ⟨hrest, hhandled, hreads, hfits, heof⟩
  have hintact : Intact (fun _ _ _ => Opened.replied freshService.buff) (requested tr) :=
    ⟨hfits, heof, fun _ _ _ _ => trivial⟩
  exact ⟨_, tr, s, hrun, Option.isNone_iff_eq_none.mp hrest, hhandled, hreads,
    (fifo_request_roundtrip_iff hrun).1 hintact⟩

/-- A line of 253 bytes behind the two bytes of the process id ends behind the array. -/
theorem overrun_line253 :
    exists (opens : Opens) (tr : List ServiceTransition) (s : ServiceState),
      Run ServiceInit (serviceStep opens) tr s ∧ AtRest opens s ∧ ¬ RoundTrip opens tr s := by
  have hreplay : exists tr s,
      Run ServiceInit (serviceStep fun _ _ _ => Opened.replied freshService.buff) tr s ∧
        decide ((serviceStep (fun _ _ _ => Opened.replied freshService.buff) s
            ServiceAction.read).isNone = true ∧ exists e, e ∈ tr ∧
          (match e.event with | ServiceEvent.overrun _ => true | _ => false) = true) = true :=
    run_of_replay [ServiceAction.request (typesA pid7 253)] init_freshService (by decide +kernel)
  rcases hreplay with ⟨tr, s, hrun, htest⟩
  rcases of_decide_eq_true htest with ⟨hrest, e, he, hevent⟩
  refine ⟨_, tr, s, hrun, Option.isNone_iff_eq_none.mp hrest, ?_⟩
  intro htrip
  split at hevent
  · rename_i c hoverrun
    exact htrip.in_bounds e c he hoverrun
  · cases hevent

end Fifoclieser
end InterprocessComm
