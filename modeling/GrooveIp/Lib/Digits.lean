import GrooveIp.Lib.Printed
import Mathlib.Data.List.Induction

/-!
# Numbers of a fixed width

A number that is written with a fixed count of digits, zeros in front included. It is read by
`strtol` and its kin, and printing its value to the same width gives the digits back.
-/

namespace GrooveIp.Lib

open List

/-- A number of `n` digits. -/
structure Digits (n : Nat) where
  chars : List Char
  length_eq : chars.length = n
  isDigit : ∀ c ∈ chars, c.isDigit = true

/-- The number that is written. -/
def Digits.value {n : Nat} (ds : Digits n) : Nat := Nat.ofDigitChars 10 ds.chars 0

/-- The number at the right end of a field that is filled up with zeros. -/
def printPadded (width : Nat) (z : Int) : List Char :=
  List.replicate (width - (printInt z).length) '0' ++ printInt z

theorem toNat_of_isDigit {c : Char} (h : c.isDigit = true) : 48 ≤ c.toNat ∧ c.toNat ≤ 57 := by
  simp only [Char.isDigit, Bool.and_eq_true, decide_eq_true_eq, ge_iff_le] at h
  exact h

theorem digitChar_of_isDigit {c : Char} (h : c.isDigit = true) :
    Nat.digitChar (c.toNat - '0'.toNat) = c := by
  obtain ⟨hlow, hhigh⟩ := toNat_of_isDigit h
  have hzero : '0'.toNat = 48 := rfl
  apply Char.toNat_inj.mp
  rw [Nat.toNat_digitChar_of_lt_ten (by omega)]
  omega

theorem ofDigitChars_concat (ds : List Char) (c : Char) : Nat.ofDigitChars 10 (ds ++ [c]) 0 =
      10 * Nat.ofDigitChars 10 ds 0 + (c.toNat - '0'.toNat) := by
  rw [Nat.ofDigitChars_append, Nat.ofDigitChars_cons, Nat.ofDigitChars_nil]

variable {ds : List Char}

theorem ofDigitChars_lt (h : ∀ c ∈ ds, c.isDigit = true) :
    Nat.ofDigitChars 10 ds 0 < 10 ^ ds.length := by
  induction ds using List.reverseRecOn with
  | nil => simp
  | append_singleton ds c ih =>
    have hds : ∀ c ∈ ds, c.isDigit = true := fun c hc => h c (mem_append_left _ hc)
    obtain ⟨hlow, hhigh⟩ := toNat_of_isDigit (h c (by simp))
    have hzero : '0'.toNat = 48 := rfl
    have hprev := ih hds
    rw [ofDigitChars_concat, length_append, length_singleton, Nat.pow_succ]
    omega

theorem Digits.value_lt {n : Nat} (ds : Digits n) : ds.value < 10 ^ n := by
  have h := ofDigitChars_lt ds.isDigit
  rw [ds.length_eq] at h
  exact h

theorem replicate_append_printNat (h : ∀ c ∈ ds, c.isDigit = true) (hne : ds ≠ []) :
    List.replicate (ds.length - (printNat (Nat.ofDigitChars 10 ds 0)).length) '0' ++
      printNat (Nat.ofDigitChars 10 ds 0) = ds := by
  induction ds using List.reverseRecOn with
  | nil => exact absurd rfl hne
  | append_singleton ds c ih =>
    have hds : ∀ c ∈ ds, c.isDigit = true := fun c hc => h c (mem_append_left _ hc)
    have hc : c.isDigit = true := h c (by simp)
    have hzero : '0'.toNat = 48 := rfl
    have hlt : c.toNat - '0'.toNat < 10 := by
      have := toNat_of_isDigit hc
      omega
    have hlast : printNat (c.toNat - '0'.toNat) = [c] := by
      rw [printNat, Nat.toDigits_of_lt_base hlt, digitChar_of_isDigit hc]
    rw [ofDigitChars_concat, length_append, length_singleton]
    cases ds with
    | nil =>
      rw [Nat.ofDigitChars_nil, Nat.mul_zero, Nat.zero_add, hlast]
      rfl
    | cons d ds =>
      have hprev := ih hds (cons_ne_nil d ds)
      generalize hv : Nat.ofDigitChars 10 (d :: ds) 0 = v at hprev ⊢
      rcases Nat.eq_zero_or_pos v with rfl | hpos
      · have hone : printNat 0 = ['0'] := rfl
        rw [hone] at hprev
        rw [Nat.mul_zero, Nat.zero_add, hlast, length_singleton, Nat.add_sub_cancel]
        have hreplicate : List.replicate (d :: ds).length '0' = d :: ds := by
          rw [← hprev, ← replicate_succ', length_replicate]
        rw [hreplicate]
      · have happend : printNat (10 * v + (c.toNat - '0'.toNat)) = printNat v ++ [c] := by
          rw [← hlast]
          exact (Nat.toDigits_append_toDigits (by decide) hpos hlt).symm
        rw [happend, length_append, length_singleton, Nat.add_sub_add_right, ← append_assoc, hprev]

/-- Printing the value of a number to its width gives its digits back. -/
theorem printPadded_value {n : Nat} (hn : 0 < n) (ds : Digits n) :
    printPadded n ds.value = ds.chars := by
  have hne : ds.chars ≠ [] := by
    intro h
    have := ds.length_eq
    rw [h, length_nil] at this
    omega
  have hpad := replicate_append_printNat ds.isDigit hne
  rw [ds.length_eq] at hpad
  exact hpad

theorem readDigits_digits (h : ∀ c ∈ ds, c.isDigit = true) (hne : ds ≠ []) :
    readDigits 10 ds = some (Nat.ofDigitChars 10 ds 0, []) := by
  have hbase : ∀ c ∈ ds, isDigitOf 10 c = true := fun c hc => by rw [isDigitOf_ten, h c hc]
  have htake : ds.takeWhile (isDigitOf 10) = ds := by
    have h : (ds ++ []).takeWhile (isDigitOf 10) = ds ++ [].takeWhile (isDigitOf 10) :=
      takeWhile_append_of_pos hbase
    simpa using h
  have hdrop : ds.dropWhile (isDigitOf 10) = [] := by
    have h : (ds ++ []).dropWhile (isDigitOf 10) = [].dropWhile (isDigitOf 10) :=
      dropWhile_append_of_pos hbase
    simpa using h
  have hvalue : ds.foldl (fun acc c => 10 * acc + (digitValue c).getD 0) 0 =
      Nat.ofDigitChars 10 ds 0 := by
    apply foldl_ext
    intro acc c hc
    rw [digitValue, if_pos (h c hc), Option.getD_some]
  simp only [readDigits]
  rw [htake, hdrop, if_neg hne, hvalue]

theorem readSign_digits (h : ∀ c ∈ ds, c.isDigit = true) :
    readSign (ds.dropWhile isSpace) = (false, ds) := by
  cases ds with
  | nil => rfl
  | cons c ds =>
    have hc : c.isDigit = true := h c mem_cons_self
    rw [dropWhile_cons_of_neg (by simp [isSpace_of_isDigit hc])]
    unfold readSign
    split
    · next heq =>
      cases heq
      exact absurd hc (by decide)
    · next heq =>
      cases heq
      exact absurd hc (by decide)
    · rfl

/-- `atoi` of a number of nine digits at most is its value. -/
theorem atoi_digits {n : Nat} (hn : 0 < n) (hle : n ≤ 9) (ds : Digits n) :
    atoi ds.chars = ds.value := by
  have hne : ds.chars ≠ [] := by
    intro h
    have := ds.length_eq
    rw [h, length_nil] at this
    omega
  have hlt : ds.value < 10 ^ 9 :=
    Nat.lt_of_lt_of_le ds.value_lt (Nat.pow_le_pow_right (by decide) hle)
  have hdigits : readDigits 10 ds.chars = some (ds.value, []) := readDigits_digits ds.isDigit hne
  unfold atoi readNumber
  rw [readSign_digits ds.isDigit]
  simp only [readMagnitude, hdigits, Option.map_some, Option.getD_some, numberValue,
    Bool.false_eq_true, if_false]
  rw [Int.min_eq_right (by omega), Int.max_eq_right (by omega)]
  exact toInt32_of_range (by omega) (by omega)

end GrooveIp.Lib
