import GrooveIp.Lib.Scanf

/-!
# C strings in a character array

An array is the part of it that was written, with zeros behind. A C string in it ends at the first
NUL; one that has none inside the array is read out of bounds. `strstr` gives the place of the
first occurrence, and `strtol` is the one of base sixteen.
-/

namespace GrooveIp.Lib

open List List

/-- The terminator of a C string. -/
def nul : Char := '\x00'

/-! ### Arrays -/

variable (buff : List Char)

/-- `n` characters of an array from `off` on. -/
def window (off n : Nat) : List Char := (buff.drop off).takeD n nul

/-- The array after some characters were written at `off`. -/
def writeAt (off : Nat) (bytes : List Char) : List Char :=
  buff.takeD off nul ++ bytes ++ buff.drop (off + bytes.length)

/-- The C string at `off` of an array of `size` characters. -/
def cStringAt (size : Nat) (buff : List Char) (off : Nat) : Except Fault (List Char) :=
  let s := (buff.drop off).takeWhile (· ≠ nul)
  if off + s.length < size then .ok s else .error .outOfBounds

/-- Character `i` of an array. -/
def charAt (i : Nat) : Char := buff[i]?.getD nul

@[simp] theorem length_window (off n : Nat) : (window buff off n).length = n := by
  rw [window, takeD_length]

theorem getElem?_takeD (n : Nat) (l : List Char) (i : Nat) :
    (l.takeD n nul)[i]? = if i < n then some (charAt l i) else none := by
  induction n generalizing l i with
  | zero => simp [takeD]
  | succ n ih =>
    cases i with
    | zero => cases l <;> simp [takeD, charAt]
    | succ i =>
      rw [takeD, getElem?_cons_succ, ih]
      cases l with
      | nil => simp [charAt]
      | cons c l => simp [charAt]

/-- A window shows the characters of the array. -/
theorem getElem?_window (off n i : Nat) :
    (window buff off n)[i]? = if i < n then some (charAt buff (off + i)) else none := by
  simp [window, getElem?_takeD, charAt]

theorem charAt_writeAt (off : Nat) (bytes : List Char) (i : Nat) :
    charAt (writeAt buff off bytes) i = if i < off then charAt buff i
      else (bytes[i - off]?).getD (charAt buff i) := by
  have hl : (buff.takeD off nul).length = off := takeD_length ..
  unfold writeAt charAt
  rw [append_assoc]
  by_cases hi : i < off
  · rw [getElem?_append_left (by omega), getElem?_takeD, if_pos hi, if_pos hi]
    rfl
  · rw [getElem?_append_right (by omega), hl, if_neg hi]
    by_cases hb : i - off < bytes.length
    · rw [getElem?_append_left hb, getElem?_eq_getElem hb]
      rfl
    · have hnone : bytes[i - off]? = none := getElem?_eq_none (by omega)
      have hat : off + bytes.length + (i - off - bytes.length) = i := by omega
      rw [getElem?_append_right (by omega), getElem?_drop, hnone, hat]
      rfl

variable {k : Nat}

/-- The front of a window is a shorter window. -/
theorem take_window {buff : List Char} {off n : Nat} (hk : k ≤ n) :
    (window buff off n).take k = window buff off k := by
  apply ext_getElem?
  intro i
  rw [getElem?_take, getElem?_window, getElem?_window]
  grind

/-- The back of a window is a window further on. -/
theorem drop_window {buff : List Char} {off n : Nat} :
    (window buff off n).drop k = window buff (off + k) (n - k) := by
  apply ext_getElem?
  intro i
  rw [getElem?_drop, getElem?_window, getElem?_window, Nat.add_assoc]
  grind

/-- Writing at the end of a window extends it. -/
theorem window_writeAt_end (bytes tail : List Char) (off n : Nat) :
    window (writeAt buff (off + n) (bytes ++ tail)) off (n + bytes.length) =
      window buff off n ++ bytes := by
  apply ext_getElem?
  intro i
  rw [getElem?_append, length_window, getElem?_window, getElem?_window, charAt_writeAt]
  by_cases hi : i < n
  · simp [hi, Nat.lt_add_right]
  · have hoff : ¬ off + i < off + n := by omega
    have hsub : off + i - (off + n) = i - n := by omega
    rw [if_neg hoff, hsub, if_neg hi]
    by_cases hb : i - n < bytes.length
    · have hlt : i < n + bytes.length := by omega
      simp [hb, hlt, getElem?_append_left]
    · have hlt : ¬ i < n + bytes.length := by omega
      simp [hlt]
      omega

/-- What was written is read back. -/
theorem window_writeAt_self (bytes tail : List Char) (off : Nat) :
    window (writeAt buff off (bytes ++ tail)) off bytes.length = bytes := by
  simpa [window, takeD] using window_writeAt_end buff bytes tail off 0

/-- The character behind what was written. -/
theorem charAt_writeAt_end (bytes : List Char) (off : Nat) (c : Char) :
    charAt (writeAt buff off (bytes ++ [c])) (off + bytes.length) = c := by
  rw [charAt_writeAt, if_neg (by omega)]
  simp

variable {s : List Char}

theorem takeWhile_takeD {n : Nat} (hnul : charAt s n = nul) :
    (s.takeD n nul).takeWhile (· ≠ nul) = s.takeWhile (· ≠ nul) := by
  induction n generalizing s with
  | zero =>
    cases s with
    | nil => rfl
    | cons c s =>
      have hc : c = nul := hnul
      simp [takeD, hc]
  | succ n ih =>
    cases s with
    | nil => simp [takeD]
    | cons c s =>
      have hnul' : charAt s n = nul := by simpa [charAt] using hnul
      change (c :: s.takeD n nul).takeWhile (· ≠ nul) = _
      rw [takeWhile_cons, takeWhile_cons, ih hnul']

/-- A terminator at the end of a window ends the string at its front at the latest. -/
theorem cStringAt_eq {size off n : Nat} {buff : List Char} (hsize : off + n < size)
    (hnul : charAt buff (off + n) = nul) :
    cStringAt size buff off = .ok ((window buff off n).takeWhile (· ≠ nul)) := by
  have hdrop : charAt (buff.drop off) n = nul := by
    rw [← hnul, charAt, charAt, getElem?_drop]
  have hview := takeWhile_takeD hdrop
  have hlen : ((buff.drop off).takeWhile (· ≠ nul)).length ≤ n := by
    rw [← hview]
    exact Nat.le_trans ( takeWhile_prefix _).length_le (Nat.le_of_eq (length_window buff off n))
  rw [cStringAt, if_pos (by omega), ← hview]
  rfl

/-! ### Searching -/

/-- `strstr`: the place of the first occurrence. -/
def strstr (pat : List Char) : List Char → Option Nat
  | [] => if pat = [] then some 0 else none
  | c :: s => if pat.isPrefixOf (c :: s) then some 0 else (strstr pat s).map (· + 1)

variable {pat : List Char}

/-- What is found is an occurrence, and the first one. -/
theorem strstr_eq_some_iff : strstr pat s = some k ↔
      k ≤ s.length ∧ pat <+: s.drop k ∧ ∀ j < k, ¬ pat <+: s.drop j := by
  induction s generalizing k with
  | nil =>
    cases pat with
    | nil =>
      simp only [strstr, if_true, Option.some.injEq, length_nil, Nat.le_zero_eq]
      constructor
      · rintro rfl
        simp
      · exact fun h => h.1.symm
    | cons => simp [strstr]
  | cons c s ih =>
    rw [strstr]
    by_cases hp : pat <+: c :: s
    · rw [if_pos (by simpa using hp)]
      constructor
      · intro h
        cases h
        exact ⟨Nat.zero_le _, hp, by omega⟩
      · rintro ⟨-, -, hfirst⟩
        cases k with
        | zero => rfl
        | succ k => exact absurd hp (hfirst 0 (Nat.zero_lt_succ k))
    · rw [if_neg (by simpa using hp)]
      cases k with
      | zero =>
        simp
        exact fun h => absurd h hp
      | succ k =>
        rw [Option.map_eq_some_iff]
        constructor
        · rintro ⟨k', hk', he⟩
          obtain rfl : k' = k := by omega
          obtain ⟨hle, hocc, hfirst⟩ := ih.mp hk'
          refine ⟨Nat.succ_le_succ hle, hocc, fun j hj => ?_⟩
          cases j with
          | zero => exact hp
          | succ j => exact hfirst j (by omega)
        · rintro ⟨hle, hocc, hfirst⟩
          have hle' : k ≤ s.length := Nat.le_of_succ_le_succ hle
          have hfirst' : ∀ j < k, ¬ pat <+: s.drop j := fun j hj => hfirst (j + 1) (by omega)
          exact ⟨k, ih.mpr ⟨hle', hocc, hfirst'⟩, rfl⟩

/-- Nothing is found exactly where there is no occurrence. -/
theorem strstr_eq_none_iff : strstr pat s = none ↔ ∀ k ≤ s.length, ¬ pat <+: s.drop k := by
  induction s with
  | nil => cases pat <;> simp [strstr]
  | cons c s ih =>
    rw [strstr]
    by_cases hp : pat <+: c :: s
    · rw [if_pos (by simpa using hp)]
      simp only [reduceCtorEq, false_iff]
      exact fun h => h 0 (Nat.zero_le _) hp
    · rw [if_neg (by simpa using hp), Option.map_eq_none_iff, ih]
      constructor
      · intro h k hk
        cases k with
        | zero => exact hp
        | succ k => exact h k (Nat.le_of_succ_le_succ hk)
      · intro h k hk
        exact h (k + 1) (Nat.succ_le_succ hk)

/-- An occurrence lies in the text. -/
theorem strstr_le (h : strstr pat s = some k) : k + pat.length ≤ s.length := by
  obtain ⟨hle, hocc, -⟩ := strstr_eq_some_iff.mp h
  have hlen := hocc.length_le
  rw [length_drop] at hlen
  omega

/-- More text behind the first occurrence does not move it. -/
theorem strstr_append (h : strstr pat s = some k) (t : List Char) :
    strstr pat (s ++ t) = some k := by
  have hlen := strstr_le h
  obtain ⟨hle, hocc, hfirst⟩ := strstr_eq_some_iff.mp h
  have hdrop : ∀ j ≤ k, (s ++ t).drop j = s.drop j ++ t := fun j hj =>
    drop_append_of_le_length (by omega)
  rw [strstr_eq_some_iff, hdrop k (Nat.le_refl k)]
  refine ⟨by simp; omega, hocc.trans (prefix_append _ _), fun j hj hp => ?_⟩
  rw [hdrop j (by omega)] at hp
  have hshort : pat.length ≤ (s.drop j).length := by
    rw [length_drop]
    omega
  exact hfirst j hj (prefix_of_prefix_length_le hp (prefix_append _ _) hshort)

/-- A front that ends before the first occurrence does has none. -/
theorem strstr_prefix {p : List Char} (h : strstr pat s = some k) (hp : p <+: s)
    (hlen : p.length < k + pat.length) : strstr pat p = none := by
  obtain ⟨t, rfl⟩ := hp
  cases hs : strstr pat p with
  | none => rfl
  | some j =>
    have hj := strstr_append hs t
    rw [h] at hj
    cases hj
    have := strstr_le hs
    omega

theorem prefix_of_prefix_append_cons {u : List Char} {c : Char} (hc : c ∉ pat)
    (h : pat <+: s ++ c :: u) : pat <+: s := by
  refine prefix_of_prefix_length_le h (prefix_append _ _) ?_
  by_contra hlong
  obtain ⟨t, ht⟩ := h
  have hat : (s ++ c :: u)[s.length]? = some c := by simp
  rw [← ht, getElem?_append_left (by omega)] at hat
  exact hc (mem_of_getElem? hat)

/-- Text that ends in a character that is not in the pattern, and has no occurrence, is skipped. -/
theorem strstr_append_cons {t : List Char} {c : Char} (hpat : pat ≠ []) (hc : c ∉ pat)
    (ht : strstr pat t = none) (u : List Char) :
    strstr pat (t ++ c :: u) = (strstr pat u).map (· + (t.length + 1)) := by
  induction t with
  | nil =>
    have hnot : ¬ pat <+: c :: u := fun h =>
      hpat (prefix_nil.mp (prefix_of_prefix_append_cons (s := []) hc h))
    rw [nil_append, strstr, if_neg (by simpa using hnot)]
    rfl
  | cons x t ih =>
    have hnone := strstr_eq_none_iff.mp ht
    have hnot : ¬ pat <+: x :: (t ++ c :: u) := fun h =>
      hnone 0 (Nat.zero_le _) (prefix_of_prefix_append_cons (s := x :: t) hc h)
    have hrest : strstr pat t = none :=
      strstr_eq_none_iff.mpr fun k hk => hnone (k + 1) (Nat.succ_le_succ hk)
    rw [cons_append, strstr, if_neg (by simpa using hnot), ih hrest, Option.map_map]
    congr 1

/-- Text without the first character of the pattern is skipped. -/
theorem strstr_append_of_not_mem {c : Char} (pat : List Char) {l : List Char} (hc : c ∉ l) (s : List Char) :
    strstr (c :: pat) (l ++ s) = (strstr (c :: pat) s).map (· + l.length) := by
  induction l with
  | nil => simp
  | cons x l ih =>
    obtain ⟨hx, hl⟩ := not_or.mp (fun h => hc (mem_cons.mpr h))
    have hnot : ¬ (c :: pat) <+: x :: (l ++ s) := fun h => hx (cons_prefix_cons.mp h).1
    rw [cons_append, strstr, if_neg (by simpa using hnot), ih hl, Option.map_map]
    congr 1

/-- `LONG_MAX`. -/
def longMax : Int := 2 ^ 63 - 1

/-- `strtol` in base sixteen: zero where there is no number, and saturated. -/
def strtol16 (s : List Char) : Int :=
  let (neg, s) := readSign (s.dropWhile isSpace)
  let digits := match s with
    | '0' :: x :: s' => if (x = 'x' ∨ x = 'X') ∧ (readDigits 16 s').isSome then s' else s
    | _ => s
  let n : Int := ((readDigits 16 digits).map Prod.fst).getD 0
  max (-(2 ^ 63)) (min longMax (if neg then -n else n))

end GrooveIp.Lib
