import Mathlib.Tactic.Common
import Mathlib.Algebra.Order.Ring.Int

/-!
# Bytes at addresses

A memory that is written and read in windows, and unsigned numbers in it, least significant byte first.
Nothing here mentions a particular program.
-/

namespace GrooveIp.Lib

/-- Write bytes from an offset on. -/
def store (mem : Nat → UInt8) (off : Nat) (bytes : List UInt8) : Nat → UInt8 := fun i =>
  if off ≤ i then bytes[i - off]?.getD (mem i) else mem i

/-- The `n` bytes from an offset on. -/
def load (mem : Nat → UInt8) (off n : Nat) : List UInt8 := (List.range n).map fun i => mem (off + i)

/-- A number in `k` bytes. -/
def leBytes : Nat → Nat → List UInt8
  | 0, _ => []
  | k + 1, n => UInt8.ofNat n :: leBytes k (n / 256)

/-- The number that bytes stand for. -/
def leNat : List UInt8 → Nat
  | [] => 0
  | b :: bytes => b.toNat + 256 * leNat bytes

variable {bytes : List UInt8}

/-- A write leaves the bytes outside it. -/
theorem store_of_outside (mem : Nat → UInt8) {off i : Nat} (h : i < off ∨ off + bytes.length ≤ i) :
    store mem off bytes i = mem i := by
  unfold store
  split
  · rw [List.getElem?_eq_none (by omega)]
    rfl
  · rfl

theorem store_of_inside (mem : Nat → UInt8) {off i : Nat} (h : i < bytes.length) :
    store mem off bytes (off + i) = bytes[i] := by
  have hsub : off + i - off = i := by omega
  simp [store, hsub, h]

/-- A window has the length it is asked for. -/
@[simp] theorem length_load (mem : Nat → UInt8) (off n : Nat) : (load mem off n).length = n := by
  simp [load]

/-- Memories that agree on a window have the same window. -/
theorem load_congr {mem mem' : Nat → UInt8} {off n : Nat}
    (h : ∀ i, off ≤ i → i < off + n → mem i = mem' i) : load mem off n = load mem' off n := by
  refine List.map_congr_left fun i hi => ?_
  rw [List.mem_range] at hi
  exact h (off + i) (by omega) (by omega)

/-- What was written is read back. -/
theorem load_store_self (mem : Nat → UInt8) (off : Nat) (bytes : List UInt8) :
    load (store mem off bytes) off bytes.length = bytes := by
  refine List.ext_getElem (by simp) fun i _ hi => ?_
  simp [load, store_of_inside mem hi]

/-- A window that a write misses stays. -/
theorem load_store_of_disjoint (mem : Nat → UInt8) {off n start : Nat}
    (h : off + n ≤ start ∨ start + bytes.length ≤ off) :
    load (store mem start bytes) off n = load mem off n :=
  load_congr fun i hl hu => store_of_outside mem (by omega)

/-- A number takes the bytes that it is given. -/
@[simp] theorem length_leBytes (k n : Nat) : (leBytes k n).length = k := by
  induction k generalizing n with
  | zero => rfl
  | succ k ih => simp [leBytes, ih]

/-- A number that fits is read back. -/
theorem leNat_leBytes {k n : Nat} (h : n < 256 ^ k) : leNat (leBytes k n) = n := by
  induction k generalizing n with
  | zero =>
    simp only [Nat.pow_zero, Nat.lt_one_iff] at h
    simp [leBytes, leNat, h]
  | succ k ih =>
    have hrest : n / 256 < 256 ^ k := by
      omega
    simp only [leBytes, leNat, ih hrest, UInt8.toNat_ofNat']
    omega

end GrooveIp.Lib
