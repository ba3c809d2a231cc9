import Mathlib.Algebra.Group.Int.Defs
import Mathlib.Algebra.Group.Nat.Defs

/-!
# System interface

Names of the system interface that several programs of the collection share.
-/

namespace InterprocessComm

/-- The error numbers the programs set or test; the others carry their value. -/
inductive Errno where
  | EACCES
  | EAGAIN
  | EBADF
  | EBUSY
  | EEXIST
  | EINVAL
  | EMSGSIZE
  | ENOENT
  | ESRCH
  | ETIMEDOUT
  | other (n : Nat)
deriving DecidableEq

/-- Process ids are positive values of the `int` type `pid_t`. -/
def Pid : Type :=
  { p : Int // 0 < p ∧ p < 2 ^ 31 }

instance : DecidableEq Pid :=
  inferInstanceAs (DecidableEq { p : Int // 0 < p ∧ p < 2 ^ 31 })

def Pid.val (p : Pid) : Int := p.1

theorem Pid.toNat_lt (p : Pid) : p.val.toNat < 2 ^ 31 := by
  rcases p with ⟨n, hpos, hlt⟩
  show n.toNat < 2 ^ 31
  lia

theorem Pid.toNat_cast (p : Pid) : (p.val.toNat : Int) = p.val :=
  Int.toNat_of_nonneg (Int.le_of_lt p.2.1)

def INT_MAX : Int := 2 ^ 31 - 1

/-- What `sysconf(_SC_SEM_VALUE_MAX)` returns on Linux. -/
def SEM_VALUE_MAX : Int := INT_MAX

/-- `n++` on an `int`, which has no defined result beyond `INT_MAX`. -/
def increment (n : Int) : Option Int :=
  if n < INT_MAX then some (n + 1) else none

theorem increment_eq {n k : Int} (h : increment n = some k) : k = n + 1 := by
  unfold increment at h
  split at h
  · exact (Option.some.inj h).symm
  · cases h

/-- The value of a semaphore after `sem_wait` or a successful `sem_trywait`; there is none
while the value is zero. -/
def semWait (value : Nat) : Option Nat :=
  if 0 < value then some (value - 1) else none

/-- The value of a semaphore after `sem_post`. -/
def semPost (value : Nat) : Nat := value + 1

theorem semWait_eq {value rest : Nat} (h : semWait value = some rest) : value = rest + 1 := by
  unfold semWait at h
  split at h
  · cases h
    lia
  · cases h

theorem semWait_eq_none {value : Nat} : semWait value = none <-> value = 0 := by
  unfold semWait
  split <;> simp <;> lia

/-- The bit of `O_NONBLOCK` among the open flags. -/
def O_NONBLOCK : UInt32 := 2048

end InterprocessComm
