import InterprocessComm.Opening.Protocol

/-!
# Safety of the open protocol

For every code that follows the stages: as long as no process is misled by a file
that has replaced the one it has open, whatever is returned is initialised.
-/

namespace InterprocessComm
namespace Opening

open Verification

/-!
## Stages under system calls
-/

theorem Stage.Holds.stays {fs : Fs} {v : Stage} {c : Syscall} (fault : Option Errno)
    (h : v.Holds fs) (hc : c.changes = none) : v.Holds (fs.exec c fault).1 := by
  have hfiles := exec_files fs c fault
  apply h.frame hfiles.1
  intro f hf _
  apply hfiles.2 f hf
  rw [hc]
  exact fun heq => by cases heq

theorem exec_eq_run {fs fs' : Fs} {c : Syscall} {fault : Option Errno} {r : SysResult}
    (h : fs.exec c fault = (fs', r)) (hr : r.Success) :
    fs.run c = (fs', r) := by
  rcases exec_failed_or_run fs c fault with ⟨e, hfailed⟩ | hrun
  · rw [hfailed] at h
    cases h
    exact absurd rfl (hr e)
  · rw [← hrun]
    exact h

theorem exec_openExcl {fs : Fs} {c : Syscall} {fault : Option Errno} {f : Nat}
    (hc : c = Syscall.openExcl) (h : (fs.exec c fault).2 = SysResult.opened f) :
    fs.next ≤ f := by
  have hexec : fs.exec c fault = ((fs.exec c fault).1, SysResult.opened f) := by rw [← h]
  have hrun := exec_eq_run hexec (by intro e he; cases he)
  subst hc
  cases hname : fs.name with
  | some g => simp [Fs.run, hname] at hrun
  | none =>
      simp only [Fs.run, hname, Prod.mk.injEq, SysResult.opened.injEq] at hrun
      exact Nat.le_of_eq hrun.2

/-- Each move keeps the stage right, if what `stat` says of the name is true of the open
file. -/
theorem Move.holds {sized : Bool} {v v' : Stage} {c : Syscall} {fault : Option Errno}
    {fs fs' : Fs} {r : SysResult} (hmove : Move sized v c r v')
    (hexec : fs.exec c fault = (fs', r)) (hinv : FsInv fs) (hholds : v.Holds fs)
    (htrust : forall f g, c = Syscall.stat -> v = Stage.opened f -> fs.name = some g ->
      (fs.files g).xusr = false -> (fs.files f).xusr = false ∧
        (sized = true -> (fs.files f).size = (fs.files g).size)) :
    v'.Holds fs' := by
  cases hmove with
  | forgets v c r => trivial
  | stays v r hc =>
      have h := hholds.stays fault hc
      rw [hexec] at h
      exact h
  | creates v f =>
      have hrun := exec_eq_run hexec (by intro e he; cases he)
      cases hname : fs.name with
      | some g => simp [Fs.run, hname] at hrun
      | none =>
          simp only [Fs.run, hname, Prod.mk.injEq, SysResult.opened.injEq] at hrun
          rcases hrun with ⟨rfl, rfl⟩
          simp [Stage.Holds, File.created]
  | writes f st mu co size n hr =>
      have hrun := exec_eq_run hexec hr
      cases hrun
      simp only [Stage.Holds, Fs.update, Function.update_self] at hholds ⊢
      rcases hholds with ⟨hf, hxusr, hstored, hmutex, hcond, _⟩
      exact ⟨hf, hxusr, hstored, hmutex, hcond, fun k hk => Option.some.inj hk⟩
  | stores f st mu co size r =>
      have hrun : fs.run (Syscall.store (some f)) = (fs', r) := by
        rw [<- hexec]
        cases fault <;> rfl
      cases hrun
      simp only [Stage.Holds, Fs.update, Function.update_self] at hholds ⊢
      exact ⟨hholds.1, hholds.2.1, fun _ => trivial, hholds.2.2.2⟩
  | mutex f st mu co size hr =>
      have hrun := exec_eq_run hexec hr
      cases hrun
      simp only [Stage.Holds, Fs.update, Function.update_self] at hholds ⊢
      exact ⟨hholds.1, hholds.2.1, hholds.2.2.1, fun _ => trivial, hholds.2.2.2.2⟩
  | cond f st mu co size hr =>
      have hrun := exec_eq_run hexec hr
      cases hrun
      simp only [Stage.Holds, Fs.update, Function.update_self] at hholds ⊢
      exact ⟨hholds.1, hholds.2.1, hholds.2.2.1, hholds.2.2.2.1, fun _ => trivial,
        hholds.2.2.2.2.2⟩
  | clears f size hr =>
      have hrun := exec_eq_run hexec hr
      cases hrun
      simp only [Stage.Holds, Fs.update, File.Complete, Function.update_self] at hholds ⊢
      rcases hholds with ⟨hf, _, hstored, hmutex, hcond, hsize⟩
      exact ⟨hf, ⟨trivial, hstored trivial, hmutex trivial, hcond trivial⟩, hsize⟩
  | opens v f =>
      have hrun := exec_eq_run hexec (by intro e he; cases he)
      cases hname : fs.name with
      | none => simp [Fs.run, hname] at hrun
      | some g =>
          simp only [Fs.run, hname, Prod.mk.injEq, SysResult.opened.injEq] at hrun
          rcases hrun with ⟨rfl, rfl⟩
          exact hinv.name g hname
  | trusts f n =>
      have hrun := exec_eq_run hexec (by intro e he; cases he)
      cases hname : fs.name with
      | none => simp [Fs.run, hname] at hrun
      | some g =>
          simp only [Fs.run, hname, Prod.mk.injEq, SysResult.status.injEq] at hrun
          rcases hrun with ⟨rfl, hxusr, hsize⟩
          rcases htrust f g rfl rfl hname hxusr with ⟨hclear, hsame⟩
          refine ⟨hholds, hinv.files f hholds hclear, ?_⟩
          intro k hk
          cases sized with
          | false => simp at hk
          | true =>
              have hnk : n = k := by simpa using hk
              rw [hsame rfl, hsize, hnk]

/-!
## Every process
-/

section Invariant

variable {proc args loc : Type} {code : OpenCode args loc} {sized : Bool}

/-- Every stage is right about the files, and no file has two creators. -/
structure ProtocolInv (follows : Follows code sized) (s : OpenState proc loc) : Prop where
  fs : FsInv s.fs
  calls : forall p l, s.calls p = some l ->
    follows.Ok l ∧ (follows.stage l).Holds s.fs
  creators : forall p q l m f, s.calls p = some l -> s.calls q = some m ->
    (follows.stage l).creator = some f -> (follows.stage m).creator = some f -> p = q

variable {follows : Follows code sized} {s : OpenState proc loc}

theorem ProtocolInv.init (h : OpenInit s) : ProtocolInv follows s := by
  constructor
  · exact ⟨h.name, fun f hf _ => h.files f hf⟩
  · intro p l hl
    rw [h.calls p] at hl
    cases hl
  · intro p q l m f hl
    rw [h.calls p] at hl
    cases hl

theorem ProtocolInv.others (h : ProtocolInv follows s) {p q : proc} {l m : loc}
    (hl : s.calls p = some l) (hm : s.calls q = some m) (hne : q ≠ p)
    (fault : Option Errno) :
    (follows.stage m).Holds (s.fs.exec (code.request l) fault).1 := by
  have hfiles := exec_files s.fs (code.request l) fault
  rcases h.calls p l hl with ⟨hok, hholds⟩
  apply (h.calls q m hm).2.frame hfiles.1
  intro f hf howned
  apply hfiles.2 f hf
  intro hchanges
  have hcreator := follows.changes l f hok hchanges
  rcases howned with hother | hclear
  · exact hne (h.creators q p m l f hm hl hother hcreator)
  · rw [hholds.creator_xusr hcreator] at hclear
    cases hclear

variable [DecidableEq proc]

theorem ProtocolInv.call (h : ProtocolInv follows s) (p : proc) (a : args) :
    ProtocolInv follows
      { s with calls := Function.update s.calls p (some (code.start a)) } := by
  rcases follows.start a with ⟨hok, hstage⟩
  constructor
  · exact h.fs
  · intro q l hl
    rcases eq_or_ne q p with rfl | hne
    · simp only [Function.update_self, Option.some.injEq] at hl
      subst hl
      rw [hstage]
      exact ⟨hok, trivial⟩
    · simp only [Function.update_of_ne hne] at hl
      exact h.calls q l hl
  · intro q r l m f hl hm hlf hmf
    rcases eq_or_ne q p with rfl | hq
    · simp only [Function.update_self, Option.some.injEq] at hl
      subst hl
      rw [hstage] at hlf
      cases hlf
    · rcases eq_or_ne r p with rfl | hr
      · simp only [Function.update_self, Option.some.injEq] at hm
        subst hm
        rw [hstage] at hmf
        cases hmf
      · simp only [Function.update_of_ne hq] at hl
        simp only [Function.update_of_ne hr] at hm
        exact h.creators q r l m f hl hm hlf hmf

omit [DecidableEq proc] in
theorem ProtocolInv.unlink (h : ProtocolInv follows s) :
    ProtocolInv follows { s with fs := { s.fs with name := none } } := by
  constructor
  · constructor
    · intro f hf
      cases hf
    · exact h.fs.files
  · intro p l hl
    rcases h.calls p l hl with ⟨hok, hholds⟩
    exact ⟨hok, hholds.frame (Nat.le_refl _) fun _ _ _ => rfl⟩
  · exact h.creators

theorem ProtocolInv.dies (h : ProtocolInv follows s) (p : proc) :
    ProtocolInv follows { s with calls := Function.update s.calls p none } := by
  have hleft : forall q l, Function.update s.calls p none q = some l -> s.calls q = some l := by
    intro q l hl
    rcases eq_or_ne q p with rfl | hne
    · simp only [Function.update_self] at hl
      cases hl
    · rw [Function.update_of_ne hne] at hl
      exact hl
  constructor
  · exact h.fs
  · intro q l hl
    exact h.calls q l (hleft q l hl)
  · intro q r l m f hl hm
    exact h.creators q r l m f (hleft q l hl) (hleft r m hm)

theorem ProtocolInv.syscall (h : ProtocolInv follows s) {p : proc} {l : loc}
    (hl : s.calls p = some l) (fault : Option Errno) (after : Option loc)
    (hafter : forall l', after = some l' ->
      follows.Ok l' ∧ (follows.stage l').Holds (s.fs.exec (code.request l) fault).1 ∧
        forall f, (follows.stage l').creator = some f ->
          (follows.stage l).creator = some f ∨ s.fs.next ≤ f) :
    ProtocolInv follows
      { fs := (s.fs.exec (code.request l) fault).1,
        calls := Function.update s.calls p after } := by
  rcases h.calls p l hl with ⟨hok, hholds⟩
  -- what the process creates afterwards, nobody else is creating
  have hsole : forall q m l' f, s.calls q = some m -> q ≠ p -> after = some l' ->
      (follows.stage l').creator = some f -> (follows.stage m).creator ≠ some f := by
    intro q m l' f hm hne hl' hf hmf
    rcases (hafter l' hl').2.2 f hf with hold | hfresh
    · exact hne (h.creators q p m l f hm hl hmf hold)
    · exact absurd ((h.calls q m hm).2.creator_lt hmf) (Nat.not_lt.mpr hfresh)
  constructor
  · exact exec_fsInv h.fs hholds (fun f hf => follows.changes l f hok hf)
      (fun f hf => follows.clears l f hok hf)
  · intro q m hm
    rcases eq_or_ne q p with rfl | hne
    · simp only [Function.update_self] at hm
      rcases hafter m hm with ⟨hok', hholds', _⟩
      exact ⟨hok', hholds'⟩
    · simp only [Function.update_of_ne hne] at hm
      exact ⟨(h.calls q m hm).1, h.others hl hm hne fault⟩
  · intro q r m n f hm hn hmf hnf
    rcases eq_or_ne q p with rfl | hq
    · rcases eq_or_ne r q with rfl | hr
      · rfl
      · simp only [Function.update_self] at hm
        simp only [Function.update_of_ne hr] at hn
        exact absurd hnf (hsole r n m f hn hr hm hmf)
    · simp only [Function.update_of_ne hq] at hm
      rcases eq_or_ne r p with rfl | hr
      · simp only [Function.update_self] at hn
        exact absurd hmf (hsole q m n f hm hq hn hnf)
      · simp only [Function.update_of_ne hr] at hn
        exact h.creators q r m n f hm hn hmf hnf

end Invariant

/-!
## Runs
-/

section Safety

variable {proc args loc : Type} [DecidableEq proc] {code : OpenCode args loc} {sized : Bool}

omit [DecidableEq proc] in
theorem ProtocolInv.moves {follows : Follows code sized} {s t : OpenState proc loc}
    {p : proc} {fault : Option Errno} {o : Option (Except Errno Descriptor)} {l l' : loc}
    (h : ProtocolInv follows s) (hl : s.calls p = some l)
    (htrusted : StatTrusted code sized
      (⟨s, OpenAction.syscall p fault, o, t⟩ : OpenTransition proc args loc))
    (hnext : code.next l (s.fs.exec (code.request l) fault).2 = After.goes l') :
    follows.Ok l' ∧ (follows.stage l').Holds (s.fs.exec (code.request l) fault).1 ∧
      forall f, (follows.stage l').creator = some f ->
        (follows.stage l).creator = some f ∨ s.fs.next ≤ f := by
  rcases h.calls p l hl with ⟨hok, hholds⟩
  rcases follows.moves l _ l' hok hnext with ⟨hok', hmove⟩
  refine ⟨hok', ?_, ?_⟩
  · apply hmove.holds rfl h.fs hholds
    intro f g hstat hopened hname hclear
    rcases follows.asks l hok hstat with ⟨k, hfd, hstage⟩
    rw [hopened] at hstage
    cases hstage
    rcases eq_or_ne g f with rfl | hne
    · exact ⟨hclear, fun _ => rfl⟩
    · exact htrusted (f, g) (by simp [statFiles, hl, hstat, hfd, hname]) hne hclear
  · intro f hf
    rcases hmove.creator hf with hold | ⟨hopen, hopened⟩
    · exact Or.inl hold
    · exact Or.inr (exec_openExcl hopen hopened)

theorem protocolInv_step (follows : Follows code sized) {s t : OpenState proc loc}
    {a : OpenAction proc args} {o : Option (Except Errno Descriptor)}
    (h : ProtocolInv follows s) (htrusted : StatTrusted code sized ⟨s, a, o, t⟩)
    (hstep : openStep code s a = some (t, o)) :
    ProtocolInv follows t ∧ DescriptorGood sized ⟨s, a, o, t⟩ := by
  cases a with
  | call p arg =>
      cases hl : s.calls p with
      | some l => simp [openStep, hl] at hstep
      | none =>
          simp only [openStep, hl, Option.some.injEq, Prod.mk.injEq] at hstep
          rcases hstep with ⟨rfl, rfl⟩
          exact ⟨h.call p arg, fun d hd => by cases hd⟩
  | unlink =>
      simp only [openStep, Option.some.injEq, Prod.mk.injEq] at hstep
      rcases hstep with ⟨rfl, rfl⟩
      exact ⟨h.unlink, fun d hd => by cases hd⟩
  | syscall p fault =>
      cases hl : s.calls p with
      | none => simp [openStep, hl] at hstep
      | some l =>
          rcases h.calls p l hl with ⟨hok, hholds⟩
          simp only [openStep, hl] at hstep
          split at hstep
          · simp only [Option.some.injEq, Prod.mk.injEq] at hstep
            rcases hstep with ⟨rfl, rfl⟩
            exact ⟨h.dies p, fun d hd => by cases hd⟩
          · split at hstep
            · rename_i l' hnext
              simp only [Option.some.injEq, Prod.mk.injEq] at hstep
              rcases hstep with ⟨rfl, rfl⟩
              refine ⟨h.syscall hl fault (some l') ?_, fun d hd => by cases hd⟩
              intro k hk
              cases hk
              exact h.moves hl htrusted hnext
            · rename_i ret hnext
              simp only [Option.some.injEq, Prod.mk.injEq] at hstep
              rcases hstep with ⟨rfl, rfl⟩
              refine ⟨h.syscall hl fault none (fun l' hl' => by cases hl'), ?_⟩
              intro d hd
              cases hd
              rcases follows.returns l _ d hok hnext with ⟨hc, f, size, hfile, hstage, hlength⟩
              have hafter := hholds.stays fault hc
              rw [hstage] at hafter
              exact ⟨f, hfile, hafter.2.1, fun hsized => (hafter.2.2 _ (hlength hsized)).symm⟩

/-- In a run in which no process is misled, everything that is returned is
initialised. -/
theorem descriptors_good (follows : Follows code sized)
    {tr : List (OpenTransition proc args loc)} {s : OpenState proc loc}
    (h : Run OpenInit (openStep code) tr s)
    (htrusted : forall e, e ∈ tr -> StatTrusted code sized e) :
    forall e, e ∈ tr -> DescriptorGood sized e := by
  rcases h with ⟨s0, hinit, hpath⟩
  exact (path_guarded (I := ProtocolInv follows)
    (fun s a o t hs hguard hstep => protocolInv_step follows hs hguard hstep)
    hpath (ProtocolInv.init hinit) htrusted).2

end Safety

end Opening
end InterprocessComm
