import InterprocessComm.Lib.Ranking
import InterprocessComm.Lib.Threads
import InterprocessComm.LockReg.Operations
import Mathlib.Logic.Function.Basic

/-!
# What the tests announce

`test2` and `test3` lock the whole file in three processes that print what they do.  They look at
no result of a lock, so a message may say what is not so.
-/

namespace InterprocessComm
namespace LockReg

open Verification

inductive Meaning where
  | tries
  | has (t : LockType)
  | releases
deriving DecidableEq

/-- A lock is about the whole file; `sleep` does nothing here. -/
inductive Instr (proc : Type) where
  | lock_reg (cmd : Cmd) (type : LType)
  | debugPrintf (text : String) (m : Meaning)
  | fork (child : proc)
  | exit
deriving DecidableEq

def Instr.child {proc : Type} : Instr proc -> Option proc
  | fork c => some c
  | _ => none

/-- The process has the locks that the message says it has. -/
def Meaning.Holds (held : LockType -> Nat -> Prop) : Meaning -> Prop
  | tries => True
  | has t => forall b, held t b
  | releases => forall t b, ¬ held t b

/-- How far a process is with its lock. -/
inductive Stage where
  | idle
  | locked (t : LockType)
  | released
deriving DecidableEq

def Stage.allows : Stage -> Meaning -> Bool
  | _, Meaning.tries => true
  | locked t, Meaning.has u => t = u
  | released, Meaning.releases => true
  | _, _ => false

/-- One lock is taken, announced, given up and announced; children come after the lock. -/
def wellOrdered {proc : Type} : Stage -> List (Instr proc) -> Bool
  | _, [] => false
  | _, Instr.exit :: rest => rest.isEmpty
  | st, Instr.fork _ :: rest => st ≠ Stage.idle && wellOrdered st rest
  | st, Instr.debugPrintf _ m :: rest => st.allows m && wellOrdered st rest
  | Stage.idle, Instr.lock_reg _ LType.F_RDLCK :: rest =>
      wellOrdered (Stage.locked LockType.read) rest
  | Stage.idle, Instr.lock_reg _ LType.F_WRLCK :: rest =>
      wellOrdered (Stage.locked LockType.write) rest
  | Stage.locked _, Instr.lock_reg _ LType.F_UNLCK :: rest => wellOrdered Stage.released rest
  | _, Instr.lock_reg _ _ :: _ => false

/-- The processes of a program, of which one is there from the start and forks the others. -/
structure Program (proc : Type) where
  parent : proc
  code : proc -> List (Instr proc)
  ordered : forall p, wellOrdered Stage.idle (code p) = true
  forks : forall p c, Instr.fork c ∈ code p -> p = parent ∧ c ≠ parent
  once : ((code parent).filterMap Instr.child).Nodup

structure State (proc : Type) where
  locks : List (RecordLock proc)
  /-- What is left of each process that has been forked, nothing after its end. -/
  rest : proc -> Option (List (Instr proc))

structure Action (proc : Type) where
  actor : proc
  fault : Option Errno

inductive Event (proc : Type) where
  | silent
  | called (p : proc) (type : LType) (r : Except Errno Unit)
  | printed (p : proc) (text : String) (m : Meaning)

section Step

variable {proc : Type} [DecidableEq proc]

def State.goes (s : State proc) (p : proc) (rest : List (Instr proc)) : State proc :=
  { s with rest := Function.update s.rest p (some rest) }

def step (prog : Program proc) (pos : Position) (s : State proc) (a : Action proc) :
    Option (State proc × Event proc) :=
  match s.rest a.actor with
  | some (Instr.lock_reg cmd type :: rest) =>
      let outcome := match a.fault with
        | some e => Outcome.error e
        | none => LockReg.lock_reg s.locks a.actor pos cmd type 0 Whence.SEEK_SET 0
      match outcome with
      | Outcome.waits => none
      | Outcome.error e =>
          some (s.goes a.actor rest, Event.called a.actor type (Except.error e))
      | Outcome.ok locks =>
          some ({ s.goes a.actor rest with locks := locks },
            Event.called a.actor type (Except.ok ()))
  | some (Instr.debugPrintf text m :: rest) =>
      some (s.goes a.actor rest, Event.printed a.actor text m)
  | some (Instr.fork c :: rest) =>
      match a.fault with
      | some _ => some (s.goes a.actor rest, Event.silent)
      | none => some ((s.goes a.actor rest).goes c (prog.code c), Event.silent)
  | some (Instr.exit :: _) =>
      some ({ s.goes a.actor [] with locks := releaseAll s.locks a.actor }, Event.silent)
  | some [] => none
  | none => none

structure Init (prog : Program proc) (s : State proc) : Prop where
  locks : s.locks = []
  rest : s.rest = Function.update (fun _ => none) prog.parent (some (prog.code prog.parent))

def LType.asked : LType -> Option LockType
  | F_RDLCK => some LockType.read
  | F_WRLCK => some LockType.write
  | F_UNLCK => none

inductive Stepped (prog : Program proc) (s : State proc) (p : proc) (fault : Option Errno) :
    Event proc -> State proc -> Prop where
  | fail {cmd : Cmd} {type : LType} {rest : List (Instr proc)} {e : Errno}
      (hrest : s.rest p = some (Instr.lock_reg cmd type :: rest))
      (hrefused : fault = none -> e = Errno.EAGAIN ∧ cmd = Cmd.F_SETLK ∧
        exists t, type.asked = some t ∧ refused s.locks p t ByteRange.whole = true) :
      Stepped prog s p fault (Event.called p type (Except.error e)) (s.goes p rest)
  | lock {cmd : Cmd} {type : LType} {t : LockType} {rest : List (Instr proc)}
      (hrest : s.rest p = some (Instr.lock_reg cmd type :: rest)) (hasked : type.asked = some t)
      (hfree : refused s.locks p t ByteRange.whole = false) :
      Stepped prog s p fault (Event.called p type (Except.ok ()))
        { s.goes p rest with locks := acquire s.locks p t ByteRange.whole }
  | unlock {cmd : Cmd} {rest : List (Instr proc)}
      (hrest : s.rest p = some (Instr.lock_reg cmd LType.F_UNLCK :: rest)) :
      Stepped prog s p fault (Event.called p LType.F_UNLCK (Except.ok ()))
        { s.goes p rest with locks := release s.locks p ByteRange.whole }
  | print {text : String} {m : Meaning} {rest : List (Instr proc)}
      (hrest : s.rest p = some (Instr.debugPrintf text m :: rest)) :
      Stepped prog s p fault (Event.printed p text m) (s.goes p rest)
  | childless {c : proc} {rest : List (Instr proc)}
      (hrest : s.rest p = some (Instr.fork c :: rest)) :
      Stepped prog s p fault Event.silent (s.goes p rest)
  | fork {c : proc} {rest : List (Instr proc)} (hrest : s.rest p = some (Instr.fork c :: rest)) :
      Stepped prog s p fault Event.silent ((s.goes p rest).goes c (prog.code c))
  | exit {rest : List (Instr proc)} (hrest : s.rest p = some (Instr.exit :: rest)) :
      Stepped prog s p fault Event.silent
        { s.goes p [] with locks := releaseAll s.locks p }

theorem lock_reg_whole (locks : List (RecordLock proc)) (p : proc) (pos : Position) (cmd : Cmd)
    (type : LType) :
    LockReg.lock_reg locks p pos cmd type 0 Whence.SEEK_SET 0 =
      match type.asked with
      | some t => setlk locks p cmd t ByteRange.whole
      | none => Outcome.ok (release locks p ByteRange.whole) := by
  cases type <;> rfl

theorem asked_eq_none {type : LType} (h : type.asked = none) : type = LType.F_UNLCK := by
  cases type with
  | F_UNLCK => rfl
  | F_RDLCK => cases h
  | F_WRLCK => cases h

theorem stepped_of_step {prog : Program proc} {pos : Position} {s t : State proc}
    {a : Action proc} {o : Event proc} (hstep : step prog pos s a = some (t, o)) :
    Stepped prog s a.actor a.fault o t := by
  rcases a with ⟨p, fault⟩
  simp only [step] at hstep
  split at hstep
  · rename_i cmd type rest hrest
    cases fault with
    | some e =>
        cases hstep
        exact Stepped.fail hrest fun h => by cases h
    | none =>
        simp only [lock_reg_whole] at hstep
        cases hasked : type.asked with
        | none =>
            rw [hasked] at hstep
            cases asked_eq_none hasked
            cases hstep
            exact Stepped.unlock hrest
        | some u =>
            simp only [hasked, setlk] at hstep
            cases hrefused : refused s.locks p u ByteRange.whole with
            | false =>
                rw [hrefused] at hstep
                cases hstep
                exact Stepped.lock hrest hasked hrefused
            | true =>
                rw [hrefused] at hstep
                cases cmd with
                | F_SETLK =>
                    cases hstep
                    exact Stepped.fail hrest fun _ => ⟨rfl, rfl, u, hasked, hrefused⟩
                | F_SETLKW => cases hstep
  · rename_i text m rest hrest
    cases hstep
    exact Stepped.print hrest
  · rename_i c rest hrest
    cases fault with
    | some e =>
        cases hstep
        exact Stepped.childless hrest
    | none =>
        cases hstep
        exact Stepped.fork hrest
  · rename_i rest hrest
    cases hstep
    exact Stepped.exit hrest
  · cases hstep
  · cases hstep

end Step

/-!
# The invariant
-/

section Invariant

variable {proc : Type}

abbrev LastCall := Option (LType × Except Errno Unit)

/-- What the last call and the locks of a process are at a stage. -/
inductive Fits (held : LockType -> Nat -> Prop) : Stage -> LastCall -> Prop where
  | idle (hnone : forall t b, ¬ held t b) : Fits held Stage.idle none
  | locked {type : LType} {t : LockType} (hasked : type.asked = some t)
      (hheld : forall u b, held u b <-> u = t) :
      Fits held (Stage.locked t) (some (type, Except.ok ()))
  | refused {type : LType} {t : LockType} {e : Errno} (hasked : type.asked = some t)
      (hnone : forall t b, ¬ held t b) :
      Fits held (Stage.locked t) (some (type, Except.error e))
  | released (hnone : forall t b, ¬ held t b) :
      Fits held Stage.released (some (LType.F_UNLCK, Except.ok ()))
  | unreleased {e : Errno} : Fits held Stage.released (some (LType.F_UNLCK, Except.error e))

inductive Placed (prog : Program proc) (p : proc) (held : LockType -> Nat -> Prop) :
    LastCall -> Option (List (Instr proc)) -> Prop where
  | absent (hnone : forall t b, ¬ held t b) : Placed prog p held none none
  | ended {r : LastCall} (hnone : forall t b, ¬ held t b) : Placed prog p held r (some [])
  | runs {r : LastCall} {st : Stage} {rest : List (Instr proc)}
      (hordered : wellOrdered st rest = true) (hfits : Fits held st r)
      (hsuffix : rest <:+ prog.code p) : Placed prog p held r (some rest)

structure Inv (prog : Program proc) (last : proc -> LastCall) (s : State proc) : Prop where
  exclusive : Exclusive s.locks
  placed : forall p, Placed prog p (Held s.locks p) (last p) (s.rest p)
  children : forall p, p ≠ prog.parent -> s.rest p ≠ none -> last prog.parent ≠ none
  unforked : forall rest c, s.rest prog.parent = some rest -> Instr.fork c ∈ rest ->
    s.rest c = none

variable {prog : Program proc} {last last' : proc -> LastCall} {s t : State proc} {p q : proc}

theorem Inv.runs (h : Inv prog last s) {i : Instr proc} {rest : List (Instr proc)}
    (hrest : s.rest p = some (i :: rest)) :
    exists st, wellOrdered st (i :: rest) = true ∧ Fits (Held s.locks p) st (last p) ∧
      (i :: rest) <:+ prog.code p := by
  have hplaced := h.placed p
  rw [hrest] at hplaced
  generalize last p = r at hplaced ⊢
  cases hplaced with
  | @runs _ st _ hordered hfits hsuffix => exact ⟨st, hordered, hfits, hsuffix⟩

theorem ordered_print {st : Stage} {text : String} {m : Meaning} {rest : List (Instr proc)}
    (h : wellOrdered st (Instr.debugPrintf text m :: rest) = true) :
    st.allows m = true ∧ wellOrdered st rest = true :=
  Bool.and_eq_true_iff.mp h

theorem ordered_fork {st : Stage} {c : proc} {rest : List (Instr proc)}
    (h : wellOrdered st (Instr.fork c :: rest) = true) :
    st ≠ Stage.idle ∧ wellOrdered st rest = true := by
  rcases Bool.and_eq_true_iff.mp h with ⟨hne, hrest⟩
  exact ⟨of_decide_eq_true hne, hrest⟩

theorem idle_of_asked {st : Stage} {cmd : Cmd} {type : LType} {rest : List (Instr proc)}
    {u : LockType} (hordered : wellOrdered st (Instr.lock_reg cmd type :: rest) = true)
    (hasked : type.asked = some u) :
    st = Stage.idle ∧ wellOrdered (Stage.locked u) rest = true := by
  cases type with
  | F_UNLCK => cases hasked
  | F_RDLCK =>
      cases hasked
      cases st with
      | idle => exact ⟨rfl, hordered⟩
      | locked _ => cases hordered
      | released => cases hordered
  | F_WRLCK =>
      cases hasked
      cases st with
      | idle => exact ⟨rfl, hordered⟩
      | locked _ => cases hordered
      | released => cases hordered

theorem released_of_unlock {st : Stage} {cmd : Cmd} {rest : List (Instr proc)}
    (hordered : wellOrdered st (Instr.lock_reg cmd LType.F_UNLCK :: rest) = true) :
    wellOrdered Stage.released rest = true := by
  cases st with
  | idle => cases hordered
  | locked _ => exact hordered
  | released => cases hordered

theorem suffix_of_cons {i : Instr proc} {rest code : List (Instr proc)}
    (h : (i :: rest) <:+ code) : rest <:+ code :=
  (List.suffix_cons i rest).trans h

theorem Fits.called {held : LockType -> Nat -> Prop} {st : Stage} {r : LastCall}
    (h : Fits held st r) (hst : st ≠ Stage.idle) : r ≠ none := by
  cases h with
  | idle _ => exact absurd rfl hst
  | _ => simp

variable [DecidableEq proc]

theorem goes_self (s : State proc) (p : proc) (rest : List (Instr proc)) :
    (s.goes p rest).rest p = some rest :=
  Function.update_self ..

theorem goes_of_ne (s : State proc) (rest : List (Instr proc)) (h : q ≠ p) :
    (s.goes p rest).rest q = s.rest q :=
  Function.update_of_ne h ..

theorem Inv.goes (h : Inv prog last s) {i : Instr proc} {rest rest' : List (Instr proc)}
    {locks : List (RecordLock proc)} (hrest : s.rest p = some (i :: rest))
    (hexclusive : Exclusive locks)
    (hothers : forall q, q ≠ p -> Held locks q = Held s.locks q ∧ last' q = last q)
    (hcalled : last p ≠ none -> last' p ≠ none) (hsub : forall j, j ∈ rest' -> j ∈ rest)
    (hplaced : Placed prog p (Held locks p) (last' p) (some rest')) :
    Inv prog last' { s.goes p rest' with locks := locks } := by
  have hstays : forall q, q ≠ p -> (s.goes p rest').rest q = s.rest q := fun q hne =>
    goes_of_ne s rest' hne
  constructor
  · exact hexclusive
  · intro q
    show Placed prog q (Held locks q) (last' q) ((s.goes p rest').rest q)
    rcases eq_or_ne q p with rfl | hne
    · rw [goes_self]
      exact hplaced
    · rw [hstays q hne, (hothers q hne).1, (hothers q hne).2]
      exact h.placed q
  · intro q hchild hq
    change (s.goes p rest').rest q ≠ none at hq
    have hold : s.rest q ≠ none := by
      rcases eq_or_ne q p with rfl | hne
      · rw [hrest]
        simp
      · rwa [hstays q hne] at hq
    have hlast := h.children q hchild hold
    rcases eq_or_ne prog.parent p with heq | hne
    · rw [heq] at hlast ⊢
      exact hcalled hlast
    · rw [(hothers _ hne).2]
      exact hlast
  · intro code c hcode hc
    change (s.goes p rest').rest prog.parent = some code at hcode
    show (s.goes p rest').rest c = none
    have hnone : s.rest c = none := by
      rcases eq_or_ne prog.parent p with heq | hne
      · rw [← heq, goes_self] at hcode
        cases hcode
        rw [← heq] at hrest
        exact h.unforked _ c hrest (List.mem_cons_of_mem i (hsub _ hc))
      · rw [hstays _ hne] at hcode
        exact h.unforked code c hcode hc
    have hne : c ≠ p := by
      rintro rfl
      rw [hrest] at hnone
      cases hnone
    rw [hstays c hne]
    exact hnone

theorem Inv.forks (h : Inv prog last s) {c : proc} (hc : s.rest c = none)
    (hchild : c ≠ prog.parent) (hcalled : last prog.parent ≠ none)
    (honce : forall rest, s.rest prog.parent = some rest -> Instr.fork c ∉ rest) :
    Inv prog last (s.goes c (prog.code c)) := by
  have hplaced := h.placed c
  rw [hc] at hplaced
  constructor
  · exact h.exclusive
  · intro q
    show Placed prog q (Held s.locks q) (last q) ((s.goes c (prog.code c)).rest q)
    rcases eq_or_ne q c with rfl | hne
    · rw [goes_self]
      generalize hlast : last q = r at hplaced
      cases hplaced with
      | absent hnone =>
          exact Placed.runs (prog.ordered q) (Fits.idle hnone) (List.suffix_refl _)
    · rw [goes_of_ne s _ hne]
      exact h.placed q
  · intro q _ _
    exact hcalled
  · intro rest d hrest hd
    rw [goes_of_ne s _ hchild.symm] at hrest
    have hne : d ≠ c := by
      rintro rfl
      exact honce rest hrest hd
    rw [goes_of_ne s _ hne]
    exact h.unforked rest d hrest hd

/-!
# Steps
-/

def observeCalls (last : proc -> LastCall) : Event proc -> proc -> LastCall
  | Event.called p type r => Function.update last p (some (type, r))
  | _ => last

theorem Inv.silent (h : Inv prog last s) {i : Instr proc} {rest : List (Instr proc)} {st : Stage}
    (hrest : s.rest p = some (i :: rest)) (hordered : wellOrdered st rest = true)
    (hfits : Fits (Held s.locks p) st (last p)) (hsuffix : rest <:+ prog.code p) :
    Inv prog last (s.goes p rest) :=
  h.goes hrest h.exclusive (fun _ _ => ⟨rfl, rfl⟩) id (fun _ hj => hj)
    (Placed.runs hordered hfits hsuffix)

theorem Inv.calls (h : Inv prog last s) {i : Instr proc} {rest : List (Instr proc)} {st : Stage}
    {type : LType} {r : Except Errno Unit} {locks : List (RecordLock proc)}
    (hrest : s.rest p = some (i :: rest)) (hexclusive : Exclusive locks)
    (hothers : forall q, q ≠ p -> Held locks q = Held s.locks q)
    (hordered : wellOrdered st rest = true) (hfits : Fits (Held locks p) st (some (type, r)))
    (hsuffix : rest <:+ prog.code p) :
    Inv prog (observeCalls last (Event.called p type r)) { s.goes p rest with locks := locks } := by
  refine h.goes hrest hexclusive ?_ ?_ (fun _ hj => hj) ?_
  · intro q hne
    exact ⟨hothers q hne, Function.update_of_ne hne ..⟩
  · intro _
    simp [observeCalls]
  · rw [observeCalls, Function.update_self]
    exact Placed.runs hordered hfits hsuffix

theorem Inv.step {pos : Position} {a : Action proc} {o : Event proc} (h : Inv prog last s)
    (hstep : step prog pos s a = some (t, o)) : Inv prog (observeCalls last o) t := by
  generalize hp : a.actor = p
  have hmove := stepped_of_step hstep
  rw [hp] at hmove
  cases hmove with
  | @fail cmd type rest e hrest _ =>
      rcases h.runs hrest with ⟨st, hordered, hfits, hsuffix⟩
      cases hasked : type.asked with
      | none =>
          cases asked_eq_none hasked
          exact h.calls hrest h.exclusive (fun _ _ => rfl) (released_of_unlock hordered)
            Fits.unreleased (suffix_of_cons hsuffix)
      | some u =>
          rcases idle_of_asked hordered hasked with ⟨rfl, hnext⟩
          generalize hlast : last p = r at hfits
          cases hfits with
          | idle hnone =>
              exact h.calls hrest h.exclusive (fun _ _ => rfl) hnext (Fits.refused hasked hnone)
                (suffix_of_cons hsuffix)
  | @lock cmd type u rest hrest hasked hfree =>
      rcases h.runs hrest with ⟨st, hordered, _, hsuffix⟩
      rcases idle_of_asked hordered hasked with ⟨rfl, hnext⟩
      exact h.calls hrest (h.exclusive.acquire hfree) (fun _ hne => held_acquire_of_ne hne) hnext
        (Fits.locked hasked fun _ _ => held_acquire_whole) (suffix_of_cons hsuffix)
  | unlock hrest =>
      rcases h.runs hrest with ⟨st, hordered, _, hsuffix⟩
      exact h.calls hrest (h.exclusive.release p _) (fun _ hne => held_release_of_ne hne)
        (released_of_unlock hordered) (Fits.released fun _ _ => not_held_release_whole)
        (suffix_of_cons hsuffix)
  | print hrest =>
      rcases h.runs hrest with ⟨st, hordered, hfits, hsuffix⟩
      exact h.silent hrest (ordered_print hordered).2 hfits (suffix_of_cons hsuffix)
  | childless hrest =>
      rcases h.runs hrest with ⟨st, hordered, hfits, hsuffix⟩
      exact h.silent hrest (ordered_fork hordered).2 hfits (suffix_of_cons hsuffix)
  | @fork c rest hrest =>
      rcases h.runs hrest with ⟨st, hordered, hfits, hsuffix⟩
      rcases ordered_fork hordered with ⟨hst, hnext⟩
      have hparent := h.silent hrest hnext hfits (suffix_of_cons hsuffix)
      rcases prog.forks p c (hsuffix.subset List.mem_cons_self) with ⟨rfl, hchild⟩
      have hfresh : s.rest c = none := h.unforked _ c hrest List.mem_cons_self
      refine hparent.forks ?_ hchild (hfits.called hst) ?_
      · rwa [goes_of_ne s rest hchild]
      · intro code hcode hc
        rw [goes_self] at hcode
        cases hcode
        have hnodup := (hsuffix.sublist.filterMap Instr.child).nodup prog.once
        rw [List.filterMap_cons] at hnodup
        refine (List.nodup_cons.mp hnodup).1 ?_
        exact List.mem_filterMap.mpr ⟨_, hc, rfl⟩
  | exit hrest =>
      refine h.goes hrest (h.exclusive.releaseAll p)
        (fun _ hne => ⟨held_releaseAll_of_ne hne, rfl⟩) id (fun _ hj => by cases hj) ?_
      exact Placed.ended fun _ _ => not_held_releaseAll

/-!
# What is announced
-/

def Meaning.about : Meaning -> LType -> Prop
  | tries, _ => False
  | has t, type => type.asked = some t
  | releases, type => type = LType.F_UNLCK

/-- A message about a lock is right where the call succeeded; where it failed the process has not
the lock that it announces. -/
def Told (r : LastCall) (held : LockType -> Nat -> Prop) (m : Meaning) : Prop :=
  m = Meaning.tries ∨ exists type, m.about type ∧
    (r = some (type, Except.ok ()) ∧ m.Holds held ∨
      (exists e, r = some (type, Except.error e)) ∧ forall t, m = Meaning.has t -> ¬ m.Holds held)

omit [DecidableEq proc] in
theorem Fits.told {held : LockType -> Nat -> Prop} {st : Stage} {r : LastCall} {m : Meaning}
    (h : Fits held st r) (hallows : st.allows m = true) : Told r held m := by
  cases m with
  | tries => exact Or.inl rfl
  | has u =>
      right
      cases h with
      | @locked type t hasked hheld =>
          cases of_decide_eq_true hallows
          exact ⟨type, hasked, Or.inl ⟨rfl, fun b => (hheld u b).mpr rfl⟩⟩
      | @refused type t e hasked hnone =>
          cases of_decide_eq_true hallows
          exact ⟨type, hasked, Or.inr ⟨⟨e, rfl⟩, fun _ _ hholds => hnone u 0 (hholds 0)⟩⟩
      | _ => cases hallows
  | releases =>
      right
      cases h with
      | released hnone => exact ⟨_, rfl, Or.inl ⟨rfl, hnone⟩⟩
      | unreleased => exact ⟨_, rfl, Or.inr ⟨⟨_, rfl⟩, fun _ hne => by cases hne⟩⟩
      | _ => cases hallows

/-- A call that does not fail for a reason of its own fails in a child, for a lock that it does not
wait for and that another process has. -/
def Refused (prog : Program proc) (s : State proc) (p : proc) (type : LType) (e : Errno) : Prop :=
  e = Errno.EAGAIN ∧ p ≠ prog.parent ∧ type ≠ LType.F_UNLCK ∧
    Instr.lock_reg Cmd.F_SETLK type ∈ prog.code p ∧ exists q t b, q ≠ p ∧ Held s.locks q t b

theorem Inv.refused (h : Inv prog last s) {rest : List (Instr proc)} {type : LType}
    {u : LockType} (hrest : s.rest p = some (Instr.lock_reg Cmd.F_SETLK type :: rest))
    (hasked : type.asked = some u)
    (hrefused : Verification.refused s.locks p u ByteRange.whole = true) :
    Refused prog s p type Errno.EAGAIN := by
  rcases refused_iff.mp hrefused with ⟨q, t, b, hne, _, hheld, _⟩
  rcases h.runs hrest with ⟨st, hordered, hfits, hsuffix⟩
  rcases idle_of_asked hordered hasked with ⟨rfl, _⟩
  have hnone : last p = none := by
    generalize last p = r at hfits
    cases hfits
    rfl
  refine ⟨rfl, ?_, ?_, hsuffix.subset List.mem_cons_self, q, t, b, hne, hheld⟩
  · -- beside the parent in front of its lock nobody is there
    intro heq
    have habsent : s.rest q = none := by
      by_contra hthere
      refine h.children q (fun hq => hne (hq.trans heq.symm)) hthere ?_
      rw [← heq]
      exact hnone
    have hplaced := h.placed q
    rw [habsent] at hplaced
    generalize last q = r at hplaced
    cases hplaced with
    | absent hnothing => exact hnothing t b hheld
  · rintro rfl
    cases hasked

/-- What one step keeps, and what its event tells. -/
theorem Inv.step_told {pos : Position} {a : Action proc} {o : Event proc} (h : Inv prog last s)
    (hstep : LockReg.step prog pos s a = some (t, o)) :
    Inv prog (observeCalls last o) t ∧
      (forall p text m, o = Event.printed p text m -> Told (last p) (Held s.locks p) m) ∧
      forall p type e, a.fault = none -> o = Event.called p type (Except.error e) ->
        Refused prog s p type e := by
  refine ⟨h.step hstep, ?_, ?_⟩
  · rintro p text m rfl
    generalize hp : a.actor = p'
    have hmove := stepped_of_step hstep
    rw [hp] at hmove
    cases hmove with
    | print hrest =>
        rcases h.runs hrest with ⟨st, hordered, hfits, _⟩
        exact hfits.told (ordered_print hordered).1
  · rintro p type e hfault rfl
    generalize hp : a.actor = p'
    have hmove := stepped_of_step hstep
    rw [hp] at hmove
    cases hmove with
    | fail hrest hrefused =>
        rcases hrefused hfault with ⟨rfl, rfl, u, hasked, htest⟩
        exact h.refused hrest hasked htest

end Invariant

end LockReg
end InterprocessComm
