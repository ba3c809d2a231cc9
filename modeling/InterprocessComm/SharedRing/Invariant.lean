import InterprocessComm.SharedRing.Rounds

/-!
# The invariant of the ring

The tokens of the semaphores count the slots, and what has been posted and not read is in
its slot.
-/

namespace InterprocessComm
namespace SharedRing

open Verification

/-!
# The server and the memory
-/

namespace ServerPc

/-- The token of `nstored` whose message is not read yet. -/
def taking : ServerPc -> Nat
  | lock => 1
  | fetch => 1
  | print _ _ _ => 1
  | _ => 0

/-- The message that is read and whose slot is not given back yet. -/
def recycling : ServerPc -> Nat
  | unlock => 1
  | postEmpty => 1
  | _ => 0

def inMutex : ServerPc -> Nat
  | fetch => 1
  | print _ _ _ => 1
  | unlock => 1
  | _ => 0

def inOverflow : ServerPc -> Nat
  | readOverflow => 1
  | unlockOverflow _ => 1
  | _ => 0

def Prints {client : Type} (cl : Clients client) (h : History client) : ServerPc -> Prop
  | print offset k text =>
      exists m, h.reserved[h.texts.length]? = some m ∧ offset = slot h.texts.length ∧
        k ≤ (cl.text m).length ∧ text = (cl.text m).take k
  | _ => True

end ServerPc

section Ring

variable {client : Type}

structure Tokens (h : History client) (s : RingState client) : Prop where
  nempty : s.shm.nempty + h.accepted.length = NMESG + h.recycled
  nstored : s.shm.nstored + h.taken = h.posted.length
  nput : s.shm.nput = h.reserved.length % NMESG
  index : s.server.index = h.texts.length % NMESG
  taken : h.taken = h.texts.length + s.server.pc.taking
  recycled : h.texts.length = h.recycled + s.server.pc.recycling

/-- Everything read is the text of its reservation, and everything posted and not read is
in its slot. -/
structure Memory (cl : Clients client) (h : History client) (s : RingState client) :
    Prop where
  texts : h.texts = (h.reserved.take h.texts.length).map cl.text
  takenPosted : forall r, r < h.taken -> exists m, h.reserved[r]? = some m ∧ m ∈ h.posted
  stored : forall r m, h.texts.length ≤ r -> h.reserved[r]? = some m -> m ∈ h.posted ->
    Filled s.shm.msgdata (slot r) (cl.text m) ((cl.text m).length + 1)
  storing : forall c, (s.clients c).Stores (mesgText (cl.pid c)) h s.shm.msgdata c
  printing : s.server.pc.Prints cl h

variable {cl : Clients client} {h : History client} {s : RingState client}

theorem Messages.reserved_inj (hm : Messages h s.clients) {r r' : Nat} {m : client × Nat}
    (hr : h.reserved[r]? = some m) (hr' : h.reserved[r']? = some m) : r = r' := by
  rcases List.getElem?_eq_some_iff.mp hr with ⟨hlt, heq⟩
  rcases List.getElem?_eq_some_iff.mp hr' with ⟨hlt', heq'⟩
  exact (hm.reserved_nodup.getElem_inj_iff).mp (heq.trans heq'.symm)

theorem Messages.reserved_length (hm : Messages h s.clients) :
    h.reserved.length ≤ h.accepted.length :=
  (List.subperm_of_subset hm.reserved_nodup
    fun m hmem => (hm.accepted_iff m).mpr (Or.inl hmem)).length_le

theorem outstanding_window (ht : Tokens h s) (hm : Messages h s.clients)
    (hmem : Memory cl h s) {r : Nat} {m : client × Nat} (hout : Outstanding h r m) :
    h.texts.length ≤ r ∧ r < h.texts.length + NMESG := by
  rcases hout with ⟨hr, hopen⟩
  rcases List.getElem?_eq_some_iff.mp hr with ⟨hlt, _⟩
  have hlength := hm.reserved_length
  have hnempty := ht.nempty
  have hrecycled := ht.recycled
  have htaken := ht.taken
  constructor
  · rcases hopen with hunposted | hunread
    · by_contra hread
      rcases hmem.takenPosted r (by lia) with ⟨m', hm', hposted⟩
      rw [hr] at hm'
      cases hm'
      exact hunposted hposted
    · exact hunread
  · lia

theorem observe_rest {e : RingEvent client} {c : client}
    (he : e = RingEvent.silent ∨ exists i, e = RingEvent.refused c i) : h.observe e = h := by
  rcases he with rfl | ⟨i, rfl⟩ <;> rfl

section ClientSteps

variable {c : client} {shm' : Shmstruct} {pc' : ClientPc}
  {e : RingEvent client} {text : Nat -> List Char}

theorem ClientPc.Stores.mono {h' : History client} {data : Nat -> Option Char} {pc : ClientPc}
    (hs : pc.Stores text h data c)
    (hgrow : forall (r : Nat) m, h.reserved[r]? = some m -> h'.reserved[r]? = some m) :
    pc.Stores text h' data c := by
  cases pc with
  | unlock i offset =>
      rcases hs with ⟨r, hr, hoffset⟩
      exact ⟨r, hgrow r _ hr, hoffset⟩
  | copy i offset k =>
      rcases hs with ⟨r, hr, hrest⟩
      exact ⟨r, hgrow r _ hr, hrest⟩
  | postStored i =>
      rcases hs with ⟨r, hr, hfilled⟩
      exact ⟨r, hgrow r _ hr, hfilled⟩
  | _ => trivial

theorem ClientPc.Stores.outside {data : Nat -> Option Char} {pc : ClientPc} {address : Nat}
    {ch : Option Char} (hs : pc.Stores text h data c)
    (hlength : forall i, (text i).length < MESGSIZE)
    (hout : forall r i, pc.storing = some i -> h.reserved[r]? = some (c, i) ->
      address < slot r ∨ slot r + MESGSIZE ≤ address) :
    pc.Stores text h (Function.update data address ch) c := by
  cases pc with
  | copy i offset k =>
      rcases hs with ⟨r, hr, hoffset, hk, hfilled⟩
      have hlen := hlength i
      exact ⟨r, hr, hoffset, hk, hfilled.outside (by lia) (hout r i rfl hr)⟩
  | postStored i =>
      rcases hs with ⟨r, hr, hfilled⟩
      exact ⟨r, hr, hfilled.outside (hlength i) (hout r i rfl hr)⟩
  | unlock i offset => exact hs
  | _ => trivial

theorem ServerPc.Prints.mono {h' : History client} {pc : ServerPc} (hp : pc.Prints cl h)
    (htexts : h'.texts = h.texts)
    (hgrow : forall (r : Nat) m, h.reserved[r]? = some m -> h'.reserved[r]? = some m) :
    pc.Prints cl h' := by
  cases pc with
  | print offset k text =>
      rcases hp with ⟨m, hm, hrest⟩
      refine ⟨m, ?_, ?_⟩
      · rw [htexts]
        exact hgrow _ _ hm
      · rw [htexts]
        exact hrest
  | _ => trivial

theorem Memory.texts_le (hmem : Memory cl h s) : h.texts.length ≤ h.reserved.length := by
  have hlength := congrArg List.length hmem.texts
  rw [List.length_map, List.length_take] at hlength
  lia

/-- The law of writing: a client that copies writes into its own slot only. -/
theorem copy_slot (ht : Tokens h s) (hm : Messages h s.clients) (hmem : Memory cl h s)
    {i offset k : Nat} (hpc : s.clients c = ClientPc.copy i offset k) :
    SlotLaw cl h (RingEvent.wrote c i (offset + k)) := by
  have hs := hmem.storing c
  rw [hpc] at hs
  rcases hs with ⟨r, hr, hoffset, hk, _⟩
  have hlength : k < MESGSIZE := Nat.lt_of_le_of_lt hk (mesgText_length _ _)
  have hin : slot r ≤ offset + k ∧ offset + k < slot r + MESGSIZE := by lia
  have hopen : Outstanding h r (c, i) :=
    ⟨hr, Or.inl (hm.storing_new (c, i) (by rw [hpc]; rfl))⟩
  refine ⟨⟨r, hr, hin⟩, ?_⟩
  intro r' m hout hne
  have hrr : r ≠ r' := by
    rintro rfl
    have hsame := hout.1
    rw [hr] at hsame
    exact hne (Option.some.inj hsame).symm
  rcases outstanding_window ht hm hmem hopen with ⟨hlow, hhigh⟩
  rcases outstanding_window ht hm hmem hout with ⟨hlow', hhigh'⟩
  exact slot_disjoint hlow hlow' hhigh hhigh' hrr hin

variable [DecidableEq client]

abbrev afterClient (s : RingState client) (c : client) (shm' : Shmstruct) (pc' : ClientPc) :
    RingState client :=
  { s with shm := shm', clients := Function.update s.clients c pc' }

theorem Tokens.client_step (ht : Tokens h s)
    (hmove : ClientMove text c s.shm (s.clients c) e shm' pc') :
    Tokens (h.observe e) (afterClient s c shm' pc') := by
  rcases ht with ⟨hnempty, hnstored, hnput, hindex, htaken, hrecycled⟩
  generalize hpc : s.clients c = pc at hmove
  cases hmove with
  | rests h1 h2 h3 _ hevent _ _ _ _ =>
      rw [observe_rest hevent]
      exact ⟨by rw [h1, hnempty], by rw [h2, hnstored], by rw [h3, hnput], hindex, htaken,
        hrecycled⟩
  | accepts i hwait =>
      have hvalue := semWait_eq hwait
      refine ⟨?_, hnstored, hnput, hindex, htaken, hrecycled⟩
      simp only [History.observe, List.length_append, List.length_singleton]
      lia
  | reserves i =>
      refine ⟨hnempty, hnstored, ?_, hindex, htaken, hrecycled⟩
      simp only [History.observe, List.length_append, List.length_singleton, hnput]
      exact advance_mod _
  | writes i offset k => exact ⟨hnempty, hnstored, hnput, hindex, htaken, hrecycled⟩
  | posts i nloop =>
      refine ⟨hnempty, ?_, hnput, hindex, htaken, hrecycled⟩
      simp only [History.observe, List.length_append, List.length_singleton, semPost]
      lia

theorem Messages.client_step (hm : Messages h s.clients)
    (hmove : ClientMove text c s.shm (s.clients c) e shm' pc') :
    Messages (h.observe e) (Function.update s.clients c pc') := by
  generalize hpc : s.clients c = pc at hmove
  cases hmove with
  | rests _ _ _ _ hevent haccepting hstoring hround _ =>
      rw [observe_rest hevent]
      subst hpc
      exact hm.rest haccepting hstoring hround
  | accepts i _ => exact hm.accept hpc
  | reserves i => exact hm.reserve hpc
  | writes i offset k =>
      refine hm.rest ?_ ?_ ?_
      · rw [hpc]
        split <;> rfl
      · rw [hpc]
        split <;> rfl
      · rw [hpc]
        split <;> exact fun _ hj => hj
  | posts i nloop => exact hm.post hpc

theorem storing_after {h' : History client} {data : Nat -> Option Char}
    (hself : pc'.Stores (mesgText (cl.pid c)) h' data c)
    (hothers : forall d, d ≠ c -> (s.clients d).Stores (mesgText (cl.pid d)) h' data d) :
    forall d, (Function.update s.clients c pc' d).Stores (mesgText (cl.pid d)) h' data d :=
  (Function.forall_update_iff s.clients
    fun d pc => pc.Stores (mesgText (cl.pid d)) h' data d).mpr ⟨hself, hothers⟩

theorem Memory.write (ht : Tokens h s) (hm : Messages h s.clients) (hmem : Memory cl h s)
    {i offset k : Nat} (hpc : s.clients c = ClientPc.copy i offset k) :
    Memory cl h (afterClient s c
      { s.shm with
        msgdata := Function.update s.shm.msgdata (offset + k) (mesgText (cl.pid c) i)[k]? }
      (if k < (mesgText (cl.pid c) i).length then ClientPc.copy i offset (k + 1)
        else ClientPc.postStored i)) := by
  have hnew := hm.storing_new (c, i) (by rw [hpc]; rfl)
  have hout := (copy_slot ht hm hmem hpc).2
  constructor
  · exact hmem.texts
  · exact hmem.takenPosted
  · intro r m hr hres hposted
    apply (hmem.stored r m hr hres hposted).outside (mesgText_length _ _)
    exact hout r m ⟨hres, Or.inr hr⟩ fun heq => hnew (heq ▸ hposted)
  · refine storing_after ?_ ?_
    · have hs := hmem.storing c
      rw [hpc] at hs
      rcases hs with ⟨r, hr, hoffset, hk, hfilled⟩
      subst hoffset
      split
      · rename_i hlt
        exact ⟨r, hr, rfl, hlt, hfilled.put⟩
      · rename_i hge
        have hlast : k = (mesgText (cl.pid c) i).length := by lia
        refine ⟨r, hr, ?_⟩
        rw [<- hlast]
        exact hfilled.put
    · intro d hne
      apply (hmem.storing d).outside (fun j => mesgText_length _ _)
      intro r j hstoring hres
      refine hout r (d, j) ⟨hres, Or.inl (hm.storing_new (d, j) hstoring)⟩ ?_
      intro heq
      exact hne (congrArg Prod.fst heq)
  · exact hmem.printing

theorem Memory.reserve (ht : Tokens h s) (hm : Messages h s.clients) (hmem : Memory cl h s)
    {i : Nat} (hpc : s.clients c = ClientPc.reserve i) :
    Memory cl (h.observe (RingEvent.reserved c i)) (afterClient s c
      { s.shm with nput := advance s.shm.nput } (ClientPc.unlock i (msgoff s.shm.nput))) := by
  have hgrow : forall (r : Nat) m, h.reserved[r]? = some m ->
      (h.reserved ++ [(c, i)])[r]? = some m := by
    intro r m hr
    rcases List.getElem?_eq_some_iff.mp hr with ⟨hlt, _⟩
    rw [List.getElem?_append_left hlt]
    exact hr
  have hnew : (c, i) ∉ h.posted := fun hposted =>
    hm.accepting_new (c, i) (by rw [hpc]; rfl) ((hm.reserved_iff _).mpr (Or.inl hposted))
  constructor
  · show h.texts = ((h.reserved ++ [(c, i)]).take h.texts.length).map cl.text
    rw [List.take_append_of_le_length hmem.texts_le]
    exact hmem.texts
  · intro r hr
    rcases hmem.takenPosted r hr with ⟨m, hres, hposted⟩
    exact ⟨m, hgrow r m hres, hposted⟩
  · intro r m hr hres hposted
    rcases List.getElem?_eq_some_iff.mp hres with ⟨hlt, heq⟩
    rcases Nat.lt_or_ge r h.reserved.length with hold | hlast
    · refine hmem.stored r m hr ?_ hposted
      rw [<- hres]
      exact (List.getElem?_append_left hold).symm
    · simp only [History.observe] at heq
      rw [List.getElem_append_right hlast, List.getElem_singleton] at heq
      exact absurd (heq ▸ hposted) hnew
  · refine storing_after ?_ ?_
    · refine ⟨h.reserved.length, ?_, ?_⟩
      · simp [History.observe]
      · rw [ht.nput]
        rfl
    · intro d _
      exact (hmem.storing d).mono hgrow
  · exact hmem.printing.mono rfl hgrow

theorem Memory.post (hm : Messages h s.clients) (hmem : Memory cl h s) {i nloop : Nat}
    (hpc : s.clients c = ClientPc.postStored i) :
    Memory cl (h.observe (RingEvent.posted c i)) (afterClient s c
      { s.shm with nstored := semPost s.shm.nstored } (clientLoop nloop (i + 1))) := by
  constructor
  · exact hmem.texts
  · intro r hr
    rcases hmem.takenPosted r hr with ⟨m, hres, hposted⟩
    exact ⟨m, hres, List.mem_append.mpr (Or.inl hposted)⟩
  · intro r m hr hres hposted
    rcases List.mem_append.mp hposted with hold | hnow
    · exact hmem.stored r m hr hres hold
    · rw [List.mem_singleton] at hnow
      subst hnow
      have hs := hmem.storing c
      rw [hpc] at hs
      rcases hs with ⟨r', hr', hfilled⟩
      rw [hm.reserved_inj hres hr']
      exact hfilled
  · refine storing_after ?_ ?_
    · exact clientLoop_stores _ _ _ _ _ _
    · intro d _
      exact (hmem.storing d).mono fun _ _ hr => hr
  · exact hmem.printing.mono rfl fun _ _ hr => hr

theorem Memory.client_step (ht : Tokens h s) (hm : Messages h s.clients)
    (hmem : Memory cl h s)
    (hmove : ClientMove (mesgText (cl.pid c)) c s.shm (s.clients c) e shm' pc') :
    Memory cl (h.observe e) (afterClient s c shm' pc') ∧ SlotLaw cl h e := by
  generalize hpc : s.clients c = pc at hmove
  cases hmove with
  | rests _ _ _ hdata hevent _ _ _ hstores =>
      have hlaw : SlotLaw cl h e := by
        rcases hevent with rfl | ⟨i, rfl⟩ <;> trivial
      rw [observe_rest hevent]
      refine ⟨⟨hmem.texts, hmem.takenPosted, ?_, ?_, hmem.printing⟩, hlaw⟩
      · simp only [hdata]
        exact hmem.stored
      · simp only [hdata]
        refine storing_after ?_ ?_
        · apply hstores _ _
          rw [<- hpc]
          exact hmem.storing c
        · intro d _
          exact hmem.storing d
  | accepts i _ =>
      refine ⟨⟨hmem.texts, hmem.takenPosted, hmem.stored, ?_, ?_⟩, trivial⟩
      · refine storing_after trivial ?_
        intro d _
        exact (hmem.storing d).mono fun _ _ hr => hr
      · exact hmem.printing.mono rfl fun _ _ hr => hr
  | reserves i => exact ⟨hmem.reserve ht hm hpc, trivial⟩
  | writes i offset k => exact ⟨hmem.write ht hm hpc, copy_slot ht hm hmem hpc⟩
  | posts i nloop => exact ⟨hmem.post hm hpc, trivial⟩

end ClientSteps

/-!
# Steps of the server
-/

section ServerSteps

variable {shm' : Shmstruct} {v' : Server} {e : RingEvent client}

abbrev afterServer (s : RingState client) (shm' : Shmstruct) (v' : Server) :
    RingState client :=
  { s with shm := shm', server := v' }

theorem Messages.of_eq {h' : History client} {clients : client -> ClientPc}
    (hm : Messages h clients) (haccepted : h'.accepted = h.accepted)
    (hreserved : h'.reserved = h.reserved) (hposted : h'.posted = h.posted) :
    Messages h' clients := by
  rcases hm with ⟨h1, h2, h3, h4, h5, h6, h7⟩
  constructor
  · rwa [haccepted]
  · rwa [hreserved]
  · rwa [haccepted]
  · rwa [haccepted, hreserved]
  · rwa [hreserved, hposted]
  · rwa [hreserved]
  · rwa [hposted]

/-- The server keeps counters, messages and memory, if it takes a token only for a message
that is posted. -/
theorem server_step (ht : Tokens h s) (hm : Messages h s.clients) (hmem : Memory cl h s)
    (hguard : TakesPosted h e) (hstep : serverStep s.shm s.server = some (shm', v', e)) :
    Tokens (h.observe e) (afterServer s shm' v') ∧ Messages (h.observe e) s.clients ∧
      Memory cl (h.observe e) (afterServer s shm' v') ∧ SlotLaw cl h e := by
  rcases s with ⟨shm, clients, ⟨pc, index, last⟩⟩
  rcases ht with ⟨hnempty, hnstored, hnput, hindex, htaken, hrecycled⟩
  rcases hmem with ⟨htexts, htakenPosted, hstored, hstoring, hprinting⟩
  simp only at hnempty hnstored hnput hindex htaken hrecycled hm hstored hstoring hprinting hstep
  cases pc with
  | waitStored =>
      rcases Option.map_eq_some_iff.mp hstep with ⟨n, hwait, heq⟩
      cases heq
      have hvalue : shm.nstored = n + 1 := semWait_eq hwait
      simp only [ServerPc.taking] at htaken
      refine ⟨⟨hnempty, ?_, hnput, hindex, ?_, hrecycled⟩, hm.of_eq rfl rfl rfl, ?_, trivial⟩
      · simp only [History.observe]
        lia
      · simp only [History.observe, ServerPc.taking]
        lia
      · refine ⟨htexts, ?_, hstored, hstoring, trivial⟩
        intro r hr
        rcases Nat.lt_succ_iff_lt_or_eq.mp hr with hlt | heq
        · exact htakenPosted r hlt
        · rw [heq]
          exact hguard
  | lock =>
      rcases Option.map_eq_some_iff.mp hstep with ⟨n, hwait, heq⟩
      cases heq
      exact ⟨⟨hnempty, hnstored, hnput, hindex, htaken, hrecycled⟩, hm,
        ⟨htexts, htakenPosted, hstored, hstoring, trivial⟩, trivial⟩
  | fetch =>
      cases hstep
      refine ⟨⟨hnempty, hnstored, hnput, hindex, htaken, hrecycled⟩, hm,
        ⟨htexts, htakenPosted, hstored, hstoring, ?_⟩, trivial⟩
      simp only [ServerPc.taking] at htaken
      rcases htakenPosted h.texts.length (by lia) with ⟨m, hres, _⟩
      refine ⟨m, hres, ?_, Nat.zero_le _, rfl⟩
      rw [hindex]
      rfl
  | print offset k text =>
      rcases hprinting with ⟨m, hres, hoffset, hk, htext⟩
      simp only [ServerPc.taking, ServerPc.recycling] at htaken hrecycled
      rcases htakenPosted h.texts.length (by lia) with ⟨m', hres', hposted⟩
      rw [hres] at hres'
      cases hres'
      have hfilled := hstored h.texts.length m (Nat.le_refl _) hres hposted k (by lia)
      rw [<- hoffset] at hfilled
      simp only [serverStep] at hstep
      split at hstep
      · cases hchar : shm.msgdata (offset + k) with
        | some ch =>
            simp only [hchar, Option.some.injEq, Prod.mk.injEq] at hstep
            rcases hstep with ⟨rfl, rfl, rfl⟩
            rw [hchar] at hfilled
            rcases List.getElem?_eq_some_iff.mp hfilled.symm with ⟨hlt, _⟩
            refine ⟨⟨hnempty, hnstored, hnput, hindex, htaken, hrecycled⟩, hm,
              ⟨htexts, htakenPosted, hstored, hstoring, ?_⟩, trivial⟩
            refine ⟨m, hres, hoffset, hlt, ?_⟩
            rw [List.take_add_one, <- hfilled, htext]
            rfl
        | none =>
            simp only [hchar, Option.some.injEq, Prod.mk.injEq] at hstep
            rcases hstep with ⟨rfl, rfl, rfl⟩
            rw [hchar] at hfilled
            have hend := List.getElem?_eq_none_iff.mp hfilled.symm
            have hwhole : text = cl.text m := by rw [htext, List.take_of_length_le hend]
            refine ⟨⟨hnempty, hnstored, hnput, ?_, ?_, ?_⟩, hm.of_eq rfl rfl rfl,
              ⟨?_, htakenPosted, ?_, hstoring, trivial⟩, ⟨m, hres, hposted, hwhole⟩⟩
            · rw [hindex]
              simp only [History.observe, List.length_append, List.length_singleton]
              exact advance_mod _
            · simp only [History.observe, List.length_append, List.length_singleton,
                ServerPc.taking]
              lia
            · simp only [History.observe, List.length_append, List.length_singleton,
                ServerPc.recycling]
              lia
            · simp only [History.observe, List.length_append, List.length_singleton]
              rw [List.take_add_one, hres, List.map_append, <- htexts, hwhole]
              rfl
            · intro r m' hr
              simp only [History.observe, List.length_append, List.length_singleton] at hr
              exact hstored r m' (by lia)
      · cases hstep
  | unlock =>
      cases hstep
      exact ⟨⟨hnempty, hnstored, hnput, hindex, htaken, hrecycled⟩, hm,
        ⟨htexts, htakenPosted, hstored, hstoring, trivial⟩, trivial⟩
  | postEmpty =>
      cases hstep
      simp only [ServerPc.recycling] at hrecycled
      refine ⟨⟨?_, hnstored, hnput, hindex, htaken, ?_⟩, hm.of_eq rfl rfl rfl,
        ⟨htexts, htakenPosted, hstored, hstoring, trivial⟩, trivial⟩
      · simp only [History.observe, semPost]
        lia
      · simp only [History.observe, ServerPc.recycling]
        lia
  | lockOverflow =>
      rcases Option.map_eq_some_iff.mp hstep with ⟨n, hwait, heq⟩
      cases heq
      exact ⟨⟨hnempty, hnstored, hnput, hindex, htaken, hrecycled⟩, hm,
        ⟨htexts, htakenPosted, hstored, hstoring, trivial⟩, trivial⟩
  | readOverflow =>
      cases hstep
      exact ⟨⟨hnempty, hnstored, hnput, hindex, htaken, hrecycled⟩, hm,
        ⟨htexts, htakenPosted, hstored, hstoring, trivial⟩, trivial⟩
  | unlockOverflow temp =>
      cases hstep
      exact ⟨⟨hnempty, hnstored, hnput, hindex, htaken, hrecycled⟩, hm,
        ⟨htexts, htakenPosted, hstored, hstoring, trivial⟩, trivial⟩

end ServerSteps

end Ring

end SharedRing
end InterprocessComm
