import Mathlib.Data.List.Basic

/-!
# Byte pipes

A pipe or FIFO holds the bytes that have been written and not yet read.  A write of at most
`atomic` bytes goes in as one piece; a read returns as many of the bytes it asks for as are
there, waits while the pipe is empty and someone may still write, and returns nothing when
nobody can.
-/

namespace Verification

structure BytePipe where
  bytes : List UInt8
  writers : List Nat
deriving DecidableEq

namespace BytePipe

variable {p q : BytePipe} {atomic n : Nat} {bs rest : List UInt8}

def empty : BytePipe := ⟨[], []⟩

def openWrite (p : BytePipe) (w : Nat) : BytePipe := { p with writers := w :: p.writers }

def closeWrite (p : BytePipe) (w : Nat) : BytePipe := { p with writers := p.writers.erase w }

def write (p : BytePipe) (atomic w : Nat) (bs : List UInt8) : Option BytePipe :=
  if w ∈ p.writers ∧ bs.length ≤ atomic then
    some { p with bytes := p.bytes ++ bs }
  else
    none

/-- What `read` returns when `n` bytes are asked for, if it does not wait. -/
def read (p : BytePipe) (n : Nat) : Option (List UInt8 × BytePipe) :=
  if p.bytes = [] ∧ p.writers ≠ [] then
    none
  else
    some (p.bytes.take n, { p with bytes := p.bytes.drop n })

@[simp] theorem openWrite_bytes (p : BytePipe) (w : Nat) : (p.openWrite w).bytes = p.bytes := rfl

@[simp] theorem closeWrite_bytes (p : BytePipe) (w : Nat) : (p.closeWrite w).bytes = p.bytes := rfl

theorem write_eq {w : Nat} (h : p.write atomic w bs = some q) :
    w ∈ p.writers ∧ q.bytes = p.bytes ++ bs ∧ q.writers = p.writers := by
  unfold write at h
  split at h
  · rename_i hopen
    cases h
    exact ⟨hopen.1, rfl, rfl⟩
  · cases h

theorem read_eq (h : p.read n = some (bs, q)) :
    bs = p.bytes.take n ∧ q.bytes = p.bytes.drop n ∧ q.writers = p.writers ∧
      (p.bytes = [] -> p.writers = []) := by
  unfold read at h
  split at h
  · cases h
  · rename_i hwait
    cases h
    refine ⟨rfl, rfl, rfl, ?_⟩
    intro hempty
    by_contra hwriters
    exact hwait ⟨hempty, hwriters⟩

theorem read_waits (h : p.read n = none) : p.bytes = [] ∧ p.writers ≠ [] := by
  by_contra hready
  unfold read at h
  rw [if_neg hready] at h
  cases h

theorem read_closed (hclosed : p.writers = []) (n : Nat) :
    p.read n = some (p.bytes.take n, { p with bytes := p.bytes.drop n }) := by
  unfold read
  rw [if_neg (by simp [hclosed])]

theorem read_of_append (hbytes : p.bytes = bs ++ rest) (hne : bs ≠ []) :
    p.read bs.length = some (bs, { p with bytes := rest }) := by
  unfold read
  rw [if_neg (by simp [hbytes, hne]), hbytes, List.take_left, List.drop_left]

theorem read_one (hwriters : p.writers ≠ []) (h : p.read 1 = some (bs, q)) :
    exists b, bs = [b] ∧ p.bytes = b :: q.bytes ∧ q.writers = p.writers := by
  rcases read_eq h with ⟨hbs, hrest, hsame, hempty⟩
  cases hbytes : p.bytes with
  | nil => exact absurd (hempty hbytes) hwriters
  | cons b rest =>
      rw [hbytes] at hbs hrest
      exact ⟨b, hbs, congrArg (b :: ·) hrest.symm, hsame⟩

theorem read_append (h : p.read n = some (bs, q)) : p.bytes = bs ++ q.bytes := by
  rcases read_eq h with ⟨rfl, hrest, _⟩
  rw [hrest, List.take_append_drop]

end BytePipe

end Verification
