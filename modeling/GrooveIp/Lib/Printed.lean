import GrooveIp.Lib.Scanf

/-!
# Reading back what was printed

A text that `printf` put together from words and numbers is taken apart by `sscanf` with the
matching format. Each lemma reads one piece and leaves the rest of the text to the rest of the
format.
-/

namespace GrooveIp.Lib

open List Directive

/-! ### Printed numbers -/

/-- A word: not empty and without white space. -/
structure IsWord (w : List Char) : Prop where
  ne_nil : w ≠ []
  no_space : ∀ c ∈ w, isSpace c = false

instance (w : List Char) : Decidable (IsWord w) :=
  decidable_of_iff (w ≠ [] ∧ (w.all fun c => !isSpace c) = true)
    ⟨fun h => ⟨h.1, by simpa using h.2⟩, fun h => ⟨h.ne_nil, by simpa using h.no_space⟩⟩

/-- The text ends here or goes on with white space. -/
def WordEnd (s : List Char) : Prop := ∀ c ∈ s.head?, isSpace c = true

/-- The text does not go on with white space. -/
def NoSpace (s : List Char) : Prop := ∀ c ∈ s.head?, isSpace c = false

/-- The decimal digits are those of the base ten. -/
theorem isDigitOf_ten (c : Char) : isDigitOf 10 c = c.isDigit := by
  unfold isDigitOf digitValue
  by_cases hd : c.isDigit = true
  · have hlt : c.toNat - '0'.toNat < 10 := by
      simp only [Char.isDigit, Bool.and_eq_true, decide_eq_true_eq, ge_iff_le] at hd
      have h2 : c.toNat ≤ 57 := hd.2
      show c.toNat - 48 < 10
      omega
    simp only [hd, if_true, Option.any_some]
    exact decide_eq_true hlt
  · simp only [hd, Bool.false_eq_true, if_false]
    split
    · simp
    · split
      · simp
      · rfl

variable {n : Nat}

/-- A digit is no white space. -/
theorem isSpace_of_isDigit {c : Char} (h : c.isDigit = true) : isSpace c = false := by
  simp only [Char.isDigit, Bool.and_eq_true, decide_eq_true_eq, ge_iff_le] at h
  have hlow : 48 ≤ c.toNat := h.1
  have hne (d : Char) (hd : d.toNat < 48) : (c == d) = false := by
    apply beq_eq_false_iff_ne.mpr
    rintro rfl
    omega
  simp [isSpace, hne ' ' (by decide), hne '\t' (by decide), hne '\n' (by decide), hne '\x0b' (by decide), hne '\x0c' (by decide), hne '\r' (by decide)]

/-- A printed number is not empty. -/
theorem printNat_ne_nil (n : Nat) : printNat n ≠ [] := Nat.toDigits_ne_nil

variable {z : Int}

variable {rest : List Char}

variable {s : List Char}

variable {total : Nat} {fmt : List Directive} {vs : List Scanned}

variable {w : List Char} {width : Option Nat}

/-- A word that ends here is read whole. -/
theorem nextWord_append (hw : IsWord w) (hs : WordEnd s) (hwidth : ∀ n ∈ width, w.length ≤ n) :
    nextWord width (w ++ s) = w ∧ (w ++ s).dropWhile isSpace = w ++ s := by
  have hdrop : (w ++ s).dropWhile isSpace = w ++ s := by
    cases w with
    | nil => exact absurd rfl hw.ne_nil
    | cons c w =>
      exact dropWhile_cons_of_neg (by simp [hw.no_space c mem_cons_self])
  have htake : (w ++ s).takeWhile (fun c => !isSpace c) = w := by
    rw [takeWhile_append_of_pos fun c hc => by simp [hw.no_space c hc]]
    cases s with
    | nil => simp
    | cons c s =>
      rw [takeWhile_cons_of_neg (by simp [hs c rfl]), append_nil]
  refine ⟨?_, hdrop⟩
  unfold nextWord
  rw [hdrop, htake]
  cases width with
  | none => rfl
  | some n => exact take_of_length_le (hwidth n rfl)

end GrooveIp.Lib
