import InterprocessComm.Lib.Ledger
import InterprocessComm.Opening.Protocol

/-!
# The account of a call

One call of an open function, whatever its system calls answer, and the account
of what it has opened, mapped and allocated and not yet given back.
-/

namespace InterprocessComm
namespace Opening

open Verification

def callStep {args loc : Type} (code : OpenCode args loc) :
    After loc -> SysResult -> Option (After loc × (Syscall × SysResult))
  | After.goes l, r => some (code.next l r, (code.request l, r))
  | After.returns _, _ => none

theorem callStep_goes {args loc : Type} {code : OpenCode args loc} {l : loc} {r : SysResult}
    {t : After loc} {o : Syscall × SysResult}
    (h : callStep code (After.goes l) r = some (t, o)) :
    code.next l r = t ∧ o = (code.request l, r) := by
  cases h
  exact ⟨rfl, rfl⟩

def Calls {args loc : Type} (code : OpenCode args loc) (a : args) (s : After loc) : Prop :=
  s = After.goes (code.start a)

abbrev CallTransition (loc : Type) : Type :=
  Transition (After loc) SysResult (Syscall × SysResult)

def isStep {loc : Type} (P : loc -> SysResult -> Bool) (e : CallTransition loc) : Bool :=
  match e.source with
  | After.goes l => P l e.action
  | After.returns _ => false

/-!
## Accounts
-/

/-- The descriptors, mappings and `mq_info` a call has, and whether it created the file and
called `unlink`. -/
structure Account where
  descriptors : Ledger Nat
  mappings : Ledger Nat
  infos : Ledger Unit
  created : Bool
  unlinked : Bool
deriving DecidableEq

namespace Account

def empty : Account :=
  { descriptors := Ledger.holding none, mappings := Ledger.holding none,
    infos := Ledger.holding none, created := false, unlinked := false }

/-- `close(-1)` closes nothing. -/
def record (g : Account) : Syscall × SysResult -> Account
  | (Syscall.openExcl, SysResult.opened f) =>
      { g with descriptors := g.descriptors.take f, created := true }
  | (Syscall.openRdwr, SysResult.opened f) => { g with descriptors := g.descriptors.take f }
  | (Syscall.close (some f), _) => { g with descriptors := g.descriptors.giveBack f }
  | (Syscall.mmap _ _, SysResult.failed _) => g
  | (Syscall.mmap (some f) _, _) => { g with mappings := g.mappings.take f }
  | (Syscall.munmap (some f) _, _) => { g with mappings := g.mappings.giveBack f }
  | (Syscall.malloc, SysResult.failed _) => g
  | (Syscall.malloc, _) => { g with infos := g.infos.take () }
  | (Syscall.free, _) => { g with infos := g.infos.giveBack () }
  | (Syscall.unlink, _) => { g with unlinked := true }
  | _ => g

/-- A failing return has given everything back, and called `unlink` exactly if it created the
file; a successful one keeps the mapping it returns, and an `mq_info` where it allocates
one. -/
def Settles (info : Bool) (g : Account) : Except Errno Descriptor -> Prop
  | Except.error _ =>
      g.descriptors = Ledger.holding none ∧ g.mappings = Ledger.holding none ∧
        g.infos = Ledger.holding none ∧ (g.unlinked = true <-> g.created = true)
  | Except.ok d =>
      g.descriptors = Ledger.holding none ∧
        (exists f, d.file = some f ∧ g.mappings = Ledger.holding (some f)) ∧
        g.infos = Ledger.holding (if info then some () else none)

end Account

namespace Account

theorem record_openExcl {r : SysResult} (hr : forall f, r ≠ SysResult.opened f) (g : Account) :
    g.record (Syscall.openExcl, r) = g := by
  cases r with
  | opened f => exact absurd rfl (hr f)
  | ok => rfl
  | status xusr size => rfl
  | failed e => rfl

theorem record_mmap {r : SysResult} (hr : r.Success) (g : Account) (f : Nat) (n : Int) :
    g.record (Syscall.mmap (some f) n, r) = { g with mappings := g.mappings.take f } := by
  cases r with
  | failed e => exact absurd rfl (hr e)
  | ok => rfl
  | opened f => rfl
  | status xusr size => rfl

theorem record_malloc {r : SysResult} (hr : r.Success) (g : Account) :
    g.record (Syscall.malloc, r) = { g with infos := g.infos.take () } := by
  cases r with
  | failed e => exact absurd rfl (hr e)
  | ok => rfl
  | opened f => rfl
  | status xusr size => rfl

theorem record_close {g : Account} {fd : Option Nat} (h : g.descriptors = Ledger.holding fd)
    (r : SysResult) :
    g.record (Syscall.close fd, r) = { g with descriptors := Ledger.holding none } := by
  cases fd with
  | none =>
      rcases g with ⟨descriptors, mappings, infos, created, unlinked⟩
      cases h
      rfl
  | some f => simp only [record, h, Ledger.giveBack_holding_some]

theorem record_munmap {g : Account} {fd : Option Nat} {rest : List Nat}
    (h : g.mappings.held = fd.toList ++ rest) (n : Int) (r : SysResult) :
    g.record (Syscall.munmap fd n, r) =
      { g with mappings := { g.mappings with held := rest } } := by
  rcases g with ⟨descriptors, ⟨held, astray⟩, infos, created, unlinked⟩
  cases fd with
  | none =>
      cases h
      rfl
  | some f =>
      cases h
      exact congrArg (fun m => (⟨descriptors, m, infos, created, unlinked⟩ : Account))
        (Ledger.giveBack_cons f rest astray)

theorem record_munmap_descriptors (g : Account) (fd : Option Nat) (n : Int) (r : SysResult) :
    (g.record (Syscall.munmap fd n, r)).descriptors = g.descriptors := by
  cases fd <;> rfl

/-- What was not held has been given back: nothing can settle the account any more. -/
theorem not_settles_of_astray {g : Account} (h : g.descriptors.astray = true) (info : Bool)
    (ret : Except Errno Descriptor) : ¬ g.Settles info ret := by
  intro hsettled
  have hnone : g.descriptors = Ledger.holding none := by
    cases ret with
    | error e => exact hsettled.1
    | ok d => exact hsettled.1
  rw [hnone] at h
  cases h

end Account

def account {loc : Type} (tr : List (CallTransition loc)) : Account :=
  observed Account.record Account.empty tr

def hasReturned {loc : Type} (ret : Except Errno Descriptor) : After loc -> Bool
  | After.returns last => last = ret
  | After.goes _ => false

theorem call_of_replay {args loc : Type} {code : OpenCode args loc} {a : args}
    {test : List (CallTransition loc) -> Bool} (results : List SysResult)
    (ret : Except Errno Descriptor)
    (h : (replay (callStep code) (After.goes (code.start a)) results).any
      (fun done => hasReturned ret done.2 && test done.1) = true) :
    exists tr, Run (Calls code a) (callStep code) tr (After.returns ret) ∧ test tr = true := by
  have hreplayed : exists tr s, Run (Calls code a) (callStep code) tr s ∧
      (hasReturned ret s && test tr) = true :=
    run_of_replay results rfl h
  rcases hreplayed with ⟨tr, s, hrun, hdone⟩
  rcases Bool.and_eq_true_iff.mp hdone with ⟨hends, htest⟩
  cases s with
  | goes l => cases hends
  | returns last =>
      cases of_decide_eq_true hends
      exact ⟨tr, hrun, htest⟩

/-!
## Calls that a known step spoils
-/

/-- The account of a call is fine until a step that spoils it, and cannot be settled
after it. -/
structure Bookkeeping {args loc : Type} (code : OpenCode args loc) (info : Bool)
    (spoils : loc -> SysResult -> Bool) where
  Fine : Account -> loc -> Prop
  Spoilt : Account -> loc -> Prop
  start : forall a, Fine Account.empty (code.start a)
  fine_goes : forall g l r l', Fine g l -> code.next l r = After.goes l' -> spoils l r = false ->
    Fine (g.record (code.request l, r)) l'
  fine_returns : forall g l r ret, Fine g l -> code.next l r = After.returns ret ->
    spoils l r = false -> (g.record (code.request l, r)).Settles info ret
  spoils_goes : forall g l r l', Fine g l -> code.next l r = After.goes l' -> spoils l r = true ->
    Spoilt (g.record (code.request l, r)) l'
  spoils_returns : forall g l r ret, Fine g l -> code.next l r = After.returns ret ->
    spoils l r = true -> ¬ (g.record (code.request l, r)).Settles info ret
  spoilt_goes : forall g l r l', Spoilt g l -> code.next l r = After.goes l' ->
    Spoilt (g.record (code.request l, r)) l'
  spoilt_returns : forall g l r ret, Spoilt g l -> code.next l r = After.returns ret ->
    ¬ (g.record (code.request l, r)).Settles info ret

namespace Bookkeeping

variable {args loc : Type} {code : OpenCode args loc} {info : Bool}
  {spoils : loc -> SysResult -> Bool}

def FineAt (b : Bookkeeping code info spoils) (g : Account) : After loc -> Prop
  | After.goes l => b.Fine g l
  | After.returns ret => g.Settles info ret

def SpoiltAt (b : Bookkeeping code info spoils) (g : Account) : After loc -> Prop
  | After.goes l => b.Spoilt g l
  | After.returns ret => ¬ g.Settles info ret

theorem starts_fine (b : Bookkeeping code info spoils) {a : args} (s : After loc)
    (h : Calls code a s) : b.FineAt Account.empty s := by
  cases h
  exact b.start a

theorem step_fine (b : Bookkeeping code info spoils) (g : Account) (s : After loc)
    (r : SysResult) (o : Syscall × SysResult) (t : After loc) (hfine : b.FineAt g s)
    (hstep : callStep code s r = some (t, o)) (hnot : ¬ isStep spoils ⟨s, r, o, t⟩ = true) :
    b.FineAt (g.record o) t := by
  cases s with
  | returns ret => cases hstep
  | goes l =>
      rcases callStep_goes hstep with ⟨hnext, rfl⟩
      have hspoils : spoils l r = false := Bool.eq_false_iff.mpr hnot
      cases t with
      | goes l' => exact b.fine_goes g l r l' hfine hnext hspoils
      | returns ret => exact b.fine_returns g l r ret hfine hnext hspoils

theorem step_spoils (b : Bookkeeping code info spoils) (g : Account) (s : After loc)
    (r : SysResult) (o : Syscall × SysResult) (t : After loc) (hfine : b.FineAt g s)
    (hstep : callStep code s r = some (t, o)) (hspoils : isStep spoils ⟨s, r, o, t⟩ = true) :
    b.SpoiltAt (g.record o) t := by
  cases s with
  | returns ret => cases hstep
  | goes l =>
      rcases callStep_goes hstep with ⟨hnext, rfl⟩
      cases t with
      | goes l' => exact b.spoils_goes g l r l' hfine hnext hspoils
      | returns ret => exact b.spoils_returns g l r ret hfine hnext hspoils

theorem step_spoilt (b : Bookkeeping code info spoils) (g : Account) (s : After loc)
    (r : SysResult) (o : Syscall × SysResult) (t : After loc) (hspoilt : b.SpoiltAt g s)
    (hstep : callStep code s r = some (t, o)) : b.SpoiltAt (g.record o) t := by
  cases s with
  | returns ret => cases hstep
  | goes l =>
      rcases callStep_goes hstep with ⟨hnext, rfl⟩
      cases t with
      | goes l' => exact b.spoilt_goes g l r l' hspoilt hnext
      | returns ret => exact b.spoilt_returns g l r ret hspoilt hnext

/-- The account of a call that has returned is settled exactly if no step spoilt it. -/
theorem settles_iff (b : Bookkeeping code info spoils) {a : args}
    {tr : List (CallTransition loc)} {ret : Except Errno Descriptor}
    (hrun : Run (Calls code a) (callStep code) tr (After.returns ret)) :
    (account tr).Settles info ret <-> forall e, e ∈ tr -> isStep spoils e = false := by
  have hends : (forall e, e ∈ tr -> ¬ isStep spoils e = true) ∧
        b.FineAt (account tr) (After.returns ret) ∨
      (exists e, e ∈ tr ∧ isStep spoils e = true) ∧
        b.SpoiltAt (account tr) (After.returns ret) :=
    run_fine_or_spoilt b.starts_fine b.step_fine b.step_spoils b.step_spoilt hrun
  rcases hends with ⟨hnone, hsettled⟩ | ⟨⟨e, he, hspoils⟩, hunsettled⟩
  · exact iff_of_true hsettled fun e he => Bool.eq_false_iff.mpr (hnone e he)
  · refine iff_of_false hunsettled fun hall => ?_
    rw [hall e he] at hspoils
    cases hspoils

end Bookkeeping

end Opening
end InterprocessComm
