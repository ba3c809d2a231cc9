import Mathlib.Data.List.GetD
import Mathlib.Tactic.Linarith
import Mathlib.Tactic.Ring

/-!
# Byte-addressed memory

A memory maps addresses to bytes.  Integers of a fixed width are stored in
little-endian order.  What a load returns after a store is decided by whether
the two ranges are equal or disjoint; no other overlap is ever needed.
-/

namespace Verification

abbrev Mem := Int -> UInt8

abbrev InRange (a : Int) (n : Nat) (x : Int) : Prop :=
  a ≤ x ∧ x < a + n

abbrev DisjointRanges (a : Int) (n : Nat) (b : Int) (k : Nat) : Prop :=
  a + n ≤ b ∨ b + k ≤ a

/-!
# Blocks of bytes
-/

def readBytes (m : Mem) (a : Int) (n : Nat) : List UInt8 :=
  (List.range n).map fun (i : Nat) => m (a + i)

def writeBytes (m : Mem) (a : Int) (bs : List UInt8) : Mem :=
  fun x => if InRange a bs.length x then bs.getD (x - a).toNat 0 else m x

@[simp] theorem readBytes_length (m : Mem) (a : Int) (n : Nat) :
    (readBytes m a n).length = n := by
  simp [readBytes]

theorem writeBytes_outside {m : Mem} {a x : Int} {bs : List UInt8}
    (h : ¬ InRange a bs.length x) : writeBytes m a bs x = m x := by
  simp [writeBytes, h]

theorem readBytes_congr {m m' : Mem} {a : Int} {n : Nat}
    (h : forall x, InRange a n x -> m' x = m x) :
    readBytes m' a n = readBytes m a n := by
  apply List.map_congr_left
  intro i hi
  have hlt : i < n := List.mem_range.mp hi
  exact h _ ⟨by lia, by lia⟩

theorem eq_of_readBytes {m m' : Mem} {a x : Int} {n : Nat}
    (h : readBytes m' a n = readBytes m a n) (hx : InRange a n x) : m' x = m x := by
  have hmem : (x - a).toNat ∈ List.range n := List.mem_range.mpr (by lia)
  have hcell := List.map_inj_left.mp h _ hmem
  rwa [show a + ((x - a).toNat : Int) = x by lia] at hcell

theorem readBytes_writeBytes_disjoint {m : Mem} {a b : Int} {n : Nat} {bs : List UInt8}
    (h : DisjointRanges a n b bs.length) :
    readBytes (writeBytes m b bs) a n = readBytes m a n := by
  apply readBytes_congr
  intro x hx
  apply writeBytes_outside
  lia

theorem readBytes_writeBytes (m : Mem) (a : Int) (bs : List UInt8) :
    readBytes (writeBytes m a bs) a bs.length = bs := by
  apply List.ext_getElem
  · simp
  · intro i h₁ h₂
    have hin : InRange a bs.length (a + i) := ⟨by lia, by lia⟩
    have hsub : (a + (i : Int) - a).toNat = i := by lia
    simp [readBytes, writeBytes, hin, List.getElem?_eq_getElem h₂]

/-!
# Little-endian integers
-/

def encodeLE : Nat -> Nat -> List UInt8
  | 0, _ => []
  | w + 1, v => UInt8.ofNat (v % 256) :: encodeLE w (v / 256)

def decodeLE : List UInt8 -> Nat
  | [] => 0
  | b :: bs => b.toNat + 256 * decodeLE bs

@[simp] theorem encodeLE_length (w v : Nat) : (encodeLE w v).length = w := by
  induction w generalizing v with
  | zero => rfl
  | succ w ih => simp [encodeLE, ih]

theorem decodeLE_encodeLE (w v : Nat) : decodeLE (encodeLE w v) = v % 256 ^ w := by
  induction w generalizing v with
  | zero =>
      rw [pow_zero, Nat.mod_one]
      rfl
  | succ w ih =>
      have hbyte : (UInt8.ofNat (v % 256)).toNat = v % 256 := by
        rw [UInt8.toNat_ofNat']
        exact Nat.mod_eq_of_lt (Nat.mod_lt v (by decide))
      show (UInt8.ofNat (v % 256)).toNat + 256 * decodeLE (encodeLE w (v / 256)) = _
      rw [hbyte, ih, pow_succ', Nat.mod_mul]

theorem decodeLE_lt (bs : List UInt8) : decodeLE bs < 256 ^ bs.length := by
  induction bs with
  | nil => exact Nat.one_pos
  | cons b bs ih =>
      have hb := b.toNat_lt
      rw [decodeLE, List.length_cons, pow_succ']
      lia

/-- The unsigned integer stored in the `w` bytes at `a`. -/
def loadNat (w : Nat) (m : Mem) (a : Int) : Nat :=
  decodeLE (readBytes m a w)

theorem loadNat_lt (w : Nat) (m : Mem) (a : Int) : loadNat w m a < 256 ^ w := by
  have hlt := decodeLE_lt (readBytes m a w)
  rwa [readBytes_length] at hlt

/-- The two's complement integer stored in the `w` bytes at `a`. -/
def loadInt (w : Nat) (m : Mem) (a : Int) : Int :=
  Int.bmod (loadNat w m a) (256 ^ w)

/-- Store the low `w` bytes of an integer at `a`. -/
def storeInt (w : Nat) (m : Mem) (a : Int) (v : Int) : Mem :=
  writeBytes m a (encodeLE w (v % 256 ^ w).toNat)

abbrev FitsInt (w : Nat) (v : Int) : Prop :=
  -(256 ^ w) ≤ 2 * v ∧ 2 * v < 256 ^ w

theorem storeInt_outside {w : Nat} {m : Mem} {a v x : Int}
    (h : ¬ InRange a w x) : storeInt w m a v x = m x :=
  writeBytes_outside (by simpa using h)

theorem readBytes_storeInt_disjoint {w n : Nat} {m : Mem} {a b v : Int}
    (h : DisjointRanges a n b w) :
    readBytes (storeInt w m b v) a n = readBytes m a n :=
  readBytes_writeBytes_disjoint (by simpa using h)

theorem loadNat_congr {w : Nat} {m m' : Mem} {a : Int}
    (h : forall x, InRange a w x -> m' x = m x) : loadNat w m' a = loadNat w m a := by
  unfold loadNat
  rw [readBytes_congr h]

theorem loadInt_congr {w : Nat} {m m' : Mem} {a : Int}
    (h : forall x, InRange a w x -> m' x = m x) : loadInt w m' a = loadInt w m a := by
  unfold loadInt
  rw [loadNat_congr h]

theorem loadNat_storeInt_disjoint {w n : Nat} {m : Mem} {a b v : Int}
    (h : DisjointRanges a n b w) : loadNat n (storeInt w m b v) a = loadNat n m a := by
  unfold loadNat
  rw [readBytes_storeInt_disjoint h]

theorem loadInt_storeInt_disjoint {w n : Nat} {m : Mem} {a b v : Int}
    (h : DisjointRanges a n b w) : loadInt n (storeInt w m b v) a = loadInt n m a := by
  unfold loadInt
  rw [loadNat_storeInt_disjoint h]

theorem loadInt_of_nonneg {w : Nat} {m : Mem} {a : Int} (h : 0 ≤ loadInt w m a) :
    loadInt w m a = loadNat w m a := by
  have hlt : (loadNat w m a : Int) < (256 ^ w : Nat) := by exact_mod_cast loadNat_lt w m a
  have hmod : (loadNat w m a : Int) % (256 ^ w : Nat) = loadNat w m a :=
    Int.emod_eq_of_lt (Int.natCast_nonneg _) hlt
  unfold loadInt at *
  rw [Int.bmod_def, hmod] at h ⊢
  split
  · rfl
  · rename_i hlarge
    rw [if_neg hlarge] at h
    lia

theorem loadNat_storeInt (w : Nat) (m : Mem) (a v : Int) :
    (loadNat w (storeInt w m a v) a : Int) = v % 256 ^ w := by
  have hpos : (0 : Int) < 256 ^ w := by positivity
  have hnonneg : 0 ≤ v % 256 ^ w := Int.emod_nonneg v (by lia)
  have hread := readBytes_writeBytes m a (encodeLE w (v % 256 ^ w).toNat)
  rw [encodeLE_length] at hread
  unfold loadNat storeInt
  rw [hread, decodeLE_encodeLE]
  push_cast
  rw [Int.toNat_of_nonneg hnonneg, Int.emod_emod_of_dvd v (dvd_refl _)]

theorem loadInt_storeInt {w : Nat} {m : Mem} {a v : Int} (h : FitsInt w v) :
    loadInt w (storeInt w m a v) a = v := by
  have hmod := loadNat_storeInt w m a v
  unfold loadInt
  rw [hmod]
  have hcast : ((256 ^ w : Nat) : Int) = 256 ^ w := by push_cast; rfl
  rw [← hcast, Int.emod_bmod]
  apply Int.bmod_eq_of_le_mul_two
  · rw [hcast]
    have := h.left
    lia
  · rw [hcast]
    have := h.right
    lia

theorem loadInt_fits (w : Nat) (m : Mem) (a : Int) : FitsInt w (loadInt w m a) := by
  have hpos : 0 < 256 ^ w := by positivity
  have hlower := Int.le_bmod (x := (loadNat w m a : Int)) hpos
  have hupper := Int.bmod_lt (x := (loadNat w m a : Int)) hpos
  have hcast : ((256 ^ w : Nat) : Int) = 256 ^ w := by push_cast; rfl
  rw [hcast] at hlower hupper
  unfold FitsInt loadInt
  constructor
  · lia
  · lia

end Verification
