import Mathlib.Algebra.Order.Ring.Int
/-!
# Checked reads of a byte region

A C function that reads a buffer is modelled as a program that may fault: the
region is a list of bytes, a read names an offset and a count, and a read that
leaves the region stops the program with the reason. Nothing here mentions a
particular program; a reader of another byte format can use it unchanged.
-/

namespace GrooveIp.Lib

/-- Every index literal of an array of three takes this instance. -/
instance (priority := 2000) neZero_three : NeZero 3 := ⟨by decide⟩

/-- Why a C program stopped being defined: `diverged` is fuel that ran out, `abort` the program's
own fatal error. -/
inductive Fault where
  | outOfBounds
  | nullDereference
  | diverged
  | abort
  deriving DecidableEq, Repr

/-- Read `n` bytes at `off`; reading no byte is allowed anywhere. -/
def readBytes (mem : List UInt8) (off n : Nat) : Except Fault (List UInt8) :=
  if n = 0 then .ok []
  else if off + n ≤ mem.length then .ok ((mem.drop off).take n)
  else .error .outOfBounds

/-- A read inside the region returns the window it names. -/
theorem readBytes_of_le {mem : List UInt8} {off n : Nat} (h : off + n ≤ mem.length) :
    readBytes mem off n = .ok ((mem.drop off).take n) := by
  unfold readBytes
  split
  · next hn => simp [hn]
  · rfl

/-- A read of at least one byte that leaves the region faults. -/
theorem readBytes_of_lt {mem : List UInt8} {off n : Nat} (hn : 0 < n)
    (h : mem.length < off + n) : readBytes mem off n = .error .outOfBounds := by
  have hz : n ≠ 0 := by omega
  have hl : ¬ off + n ≤ mem.length := by omega
  simp [readBytes, hz, hl]

/-- Big-endian value of a byte string. -/
def beNat (bs : List UInt8) : Nat := bs.foldl (fun acc b => acc * 256 + b.toNat) 0

/-- The bytes of a C string: those before the first NUL. -/
def cString (bs : List UInt8) : List UInt8 := bs.takeWhile (· ≠ 0)

/-- Two's-complement value of a 32-bit `int` after a conversion from a wider integer. -/
def toInt32 (z : Int) : Int := (z + 2 ^ 31) % 2 ^ 32 - 2 ^ 31

/-- The conversion keeps every value an `int` can hold. -/
theorem toInt32_of_range {z : Int} (hl : -(2 ^ 31) ≤ z) (hu : z < 2 ^ 31) : toInt32 z = z := by
  unfold toInt32
  omega

end GrooveIp.Lib
