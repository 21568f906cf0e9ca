import GrooveIp.Lib.Printed

/-!
# The country code of a number

`DialPlan::lookupCccFromE164` (`dial-plan.cpp:344–371`) reads one more digit of the number at a
time until a single row of the table of dial plans is left whose code agrees with what was read. So
it does not find a code that several rows share, nor one that another code extends.
-/

namespace GrooveIp.DialPlan

open GrooveIp.Lib List

/-- The codes of the rows of `DialPlanPrivate::DialPlans` (`dial-plan.cpp:38–267`), as numbers. -/
def dialPlans : List Nat :=
  [93, 355, 213, 1, 376, 244, 1, 1, 54, 374, 297, 61, 43, 994, 1, 973, 880, 1, 375, 32, 501, 229,
    1, 975, 591, 387, 267, 55, 673, 359, 226, 257, 855, 237, 1, 238, 1, 236, 235, 56, 86, 57, 269,
    242, 243, 682, 506, 225, 385, 53, 357, 420, 45, 253, 1, 1, 593, 20, 503, 240, 291, 372, 251,
    500, 298, 679, 358, 33, 594, 689, 241, 220, 995, 49, 233, 350, 30, 299, 1, 590, 1, 502, 224,
    245, 592, 509, 504, 852, 36, 354, 91, 62, 98, 964, 353, 972, 39, 1, 81, 962, 7, 254, 686, 850,
    82, 965, 996, 856, 371, 961, 266, 231, 218, 423, 370, 352, 853, 389, 261, 265, 60, 960, 223,
    356, 692, 596, 222, 230, 262, 52, 521, 691, 373, 377, 976, 382, 664, 212, 258, 95, 264, 674,
    43, 31, 687, 64, 505, 227, 234, 683, 672, 1, 47, 968, 92, 680, 970, 507, 675, 595, 51, 63, 48,
    351, 1, 974, 262, 40, 7, 250, 290, 1, 1, 508, 1, 685, 378, 239, 966, 221, 381, 248, 232, 65,
    421, 386, 677, 252, 27, 34, 94, 249, 597, 268, 46, 41, 963, 886, 992, 255, 66, 228, 690, 676,
    1, 216, 90, 993, 1, 688, 256, 380, 971, 44, 1, 598, 998, 678, 58, 84, 681, 967, 260, 263]

/-- The rows with `strncmp(ccc, number, i) == 0`, for a number without NUL. -/
def found (number : List Char) (i : Nat) : List Nat :=
  dialPlans.filter fun ccc => (printNat ccc).take i = number.take i

/-- The loop over the digits (`dial-plan.cpp:356–365`); `i` is an `unsigned int`. -/
def electLoop (number : List Char) : Nat → Nat → Option Int
  | 0, _ => none
  | fuel + 1, i =>
    let i := (i + 1) % 2 ^ 32
    match found number i with
    | [electedDialPlan] => some electedDialPlan
    | _ => if i < number.length then electLoop number fuel i else some (-1)

/-- `DialPlan::lookupCccFromE164` (`dial-plan.cpp:344`), where it returns with that much fuel. -/
def lookupCccFromE164 (fuel : Nat) (e164 : List Char) : Option Int :=
  if e164.head? ≠ some '+' then some (-1)
  else if e164.tail.head? = some '1' then some 1
  else electLoop e164.tail fuel 0

/-- The number begins with a code of the table, and with no longer one. -/
def LongestCode (number : List Char) (ccc : Nat) : Prop :=
  ccc ∈ dialPlans ∧ printNat ccc <+: number ∧ ∀ other ∈ dialPlans, printNat other <+: number →
      (printNat other).length ≤ (printNat ccc).length

/-- The number begins with no code of the table. -/
def NoCode (number : List Char) : Prop := ∀ ccc ∈ dialPlans, ¬printNat ccc <+: number

/-- What is to be answered: the longest code that the number begins with, or -1 without one. -/
def Answers (number : List Char) (r : Int) : Prop :=
  (∃ ccc : Nat, r = ccc ∧ LongestCode number ccc) ∨ r = -1 ∧ NoCode number

/-- No other row has a code that begins like the one of this row. -/
def OnlyRow (ccc : Nat) : Prop :=
  dialPlans.filter (fun other => printNat ccc <+: printNat other) = [ccc]

instance (ccc : Nat) : Decidable (OnlyRow ccc) := inferInstanceAs (Decidable (_ = _))

theorem code_one : ∀ ccc ∈ dialPlans, (printNat ccc).head? = some '1' → ccc = 1 := by
  decide +kernel

theorem exists_other : ∀ ccc ∈ dialPlans, ∀ i < (printNat ccc).length,
    ∃ other ∈ dialPlans, other ≠ ccc ∧ (printNat other).take i = (printNat ccc).take i := by
  decide +kernel

theorem length_code : ∀ ccc ∈ dialPlans, (printNat ccc).length < 2 ^ 32 := by
  decide +kernel

variable {number : List Char} {ccc i : Nat}

theorem mem_found :
    ccc ∈ found number i ↔ ccc ∈ dialPlans ∧ (printNat ccc).take i = number.take i := by
  simp [found]

/-- A round that leaves a single row has read its whole code. -/
theorem code_of_found (h : found number i = [ccc]) :
    ccc ∈ dialPlans ∧ printNat ccc = number.take i := by
  obtain ⟨hccc, htake⟩ := mem_found.mp (h ▸ mem_singleton_self ccc)
  refine ⟨hccc, ?_⟩
  by_contra hne
  have hlt : i < (printNat ccc).length := by
    by_contra hge
    exact hne (htake ▸ (take_of_length_le (by omega)).symm)
  obtain ⟨other, hother, hdiff, hsame⟩ := exists_other ccc hccc i hlt
  have hmem : other ∈ found number i := mem_found.mpr ⟨hother, hsame.trans htake⟩
  rw [h, mem_singleton] at hmem
  exact hdiff hmem

theorem found_code (hfront : printNat ccc <+: number) : found number (printNat ccc).length =
      dialPlans.filter (fun other => printNat ccc <+: printNat other) := by
  apply filter_congr
  intro other _
  rw [decide_eq_decide, ← prefix_iff_eq_take.mp hfront, prefix_iff_eq_take]
  exact eq_comm

/-- A round that leaves a single row has found the longest code, and no other row begins so. -/
theorem longestCode_of_found (hi : i ≤ max 1 number.length) (h : found number i = [ccc]) :
    LongestCode number ccc ∧ OnlyRow ccc := by
  obtain ⟨hccc, hcode⟩ := code_of_found h
  have hfront : printNat ccc <+: number := hcode ▸ take_prefix i number
  have hpos := length_pos_iff.mpr (printNat_ne_nil ccc)
  have hlength : (printNat ccc).length = i := by
    have hle := hfront.length_le
    rw [hcode, length_take]
    omega
  have honly : OnlyRow ccc := by rw [OnlyRow, ← found_code hfront, hlength, h]
  refine ⟨⟨hccc, hfront, fun other hother hlonger => ?_⟩, honly⟩
  by_contra hlt
  have hmem : other ∈ dialPlans.filter (fun other => printNat ccc <+: printNat other) := by
    simpa [hother] using prefix_of_prefix_length_le hfront hlonger (by omega)
  rw [honly, mem_singleton] at hmem
  exact hlt (hmem ▸ Nat.le_refl _)

theorem electLoop_some {fuel : Nat} {r : Int} (hi : i < max 1 number.length)
    (h : electLoop number fuel i = some r) :
    (∃ ccc : Nat, r = ccc ∧ ∃ j ≤ max 1 number.length, found number j = [ccc]) ∨
      r = -1 ∧ number.length < 2 ^ 32 := by
  induction fuel generalizing i with
  | zero => cases h
  | succ fuel ih =>
    rw [electLoop] at h
    have hround : (i + 1) % 2 ^ 32 ≤ max 1 number.length :=
      Nat.le_trans (Nat.mod_le _ _) (by omega)
    split at h
    · next ccc hfound => exact .inl ⟨ccc, (Option.some.inj h).symm, _, hround, hfound⟩
    · split at h
      · exact ih (by omega) h
      · exact .inr ⟨(Option.some.inj h).symm, by omega⟩

theorem electLoop_skip {n fuel : Nat} (hquiet : ∀ j ≤ n, ∀ ccc, found number j ≠ [ccc])
    (hlong : n ≤ number.length - 1) (hfit : n < 2 ^ 32) :
    electLoop number (n + fuel) 0 = electLoop number fuel n := by
  induction n generalizing fuel with
  | zero => rw [Nat.zero_add]
  | succ n ih =>
    have hround : electLoop number (fuel + 1) n = electLoop number fuel (n + 1) := by
      rw [electLoop, Nat.mod_eq_of_lt hfit]
      split
      · next ccc hfound => exact absurd hfound (hquiet _ (Nat.le_refl _) ccc)
      · rw [if_pos (by omega)]
    rw [Nat.add_assoc, Nat.add_comm 1, ih (fun j hj => hquiet j (by omega)) (by omega) (by omega),
      hround]

theorem electLoop_elects (hlongest : LongestCode number ccc) (honly : OnlyRow ccc) :
    electLoop number (printNat ccc).length 0 = some (ccc : Int) := by
  obtain ⟨hccc, hfront, -⟩ := hlongest
  have hle := hfront.length_le
  have hfit := length_code ccc hccc
  obtain ⟨n, hn⟩ := Nat.exists_eq_add_one.mpr (length_pos_iff.mpr (printNat_ne_nil ccc))
  have hquiet : ∀ j ≤ n, ∀ other, found number j ≠ [other] := by
    intro j hj other hfound
    have hmem : ccc ∈ found number j := by
      refine mem_found.mpr ⟨hccc, ?_⟩
      rw [prefix_iff_eq_take.mp hfront, take_take, Nat.min_eq_left (by omega)]
    rw [hfound, mem_singleton] at hmem
    have hcode := congrArg length (hmem ▸ (code_of_found hfound).2 : printNat ccc = number.take j)
    rw [length_take] at hcode
    omega
  rw [hn, electLoop_skip hquiet (by omega) (by omega), electLoop, Nat.mod_eq_of_lt (by omega), ← hn,
    found_code hfront, honly]

theorem electLoop_none (hnone : NoCode number) (hfit : number.length < 2 ^ 32) :
    electLoop number (number.length - 1 + 1) 0 = some (-1) := by
  have hquiet (j ccc : Nat) : found number j ≠ [ccc] := by
    intro hfound
    obtain ⟨hccc, hcode⟩ := code_of_found hfound
    exact hnone ccc hccc (hcode ▸ take_prefix j number)
  rw [electLoop_skip (fun j _ => hquiet j) (Nat.le_refl _) (by omega), electLoop,
    Nat.mod_eq_of_lt (by omega)]
  split
  · next ccc hfound => exact absurd hfound (hquiet _ ccc)
  · rw [if_neg (by omega)]

theorem answers_only {fuel : Nat} {r : Int}
    (h : lookupCccFromE164 fuel ('+' :: number) = some r) (hr : Answers number r) :
    number.head? = some '1' ∨ (∃ ccc, LongestCode number ccc ∧ OnlyRow ccc) ∨
      NoCode number ∧ number.length < 2 ^ 32 := by
  rw [lookupCccFromE164, if_neg (by simp)] at h
  split at h
  · next hone => exact .inl hone
  · right
    rcases electLoop_some (by omega) h with ⟨ccc, -, j, hj, hfound⟩ | ⟨rfl, hfit⟩
    · exact .inl ⟨ccc, longestCode_of_found hj hfound⟩
    · rcases hr with ⟨ccc, hccc, -⟩ | ⟨-, hnone⟩
      · omega
      · exact .inr ⟨hnone, hfit⟩

/-- A number in international form is answered with its longest code, or with -1 if it has none,
exactly if it begins with 1, or its longest code is that of one row and not extended by another,
or it has no code and fewer than `2 ^ 32` digits. -/
theorem lookupCccFromE164_longest_iff (number : List Char) :
    (∃ fuel r, lookupCccFromE164 fuel ('+' :: number) = some r ∧ Answers number r) ↔
      number.head? = some '1' ∨ (∃ ccc, LongestCode number ccc ∧ OnlyRow ccc) ∨
        NoCode number ∧ number.length < 2 ^ 32 := by
  constructor
  · rintro ⟨fuel, r, h, hr⟩
    exact answers_only h hr
  · intro h
    by_cases hone : number.head? = some '1'
    · obtain ⟨rest, rfl⟩ := head?_eq_some_iff.mp hone
      refine ⟨0, 1, by simp [lookupCccFromE164], .inl ⟨1, rfl, by decide, prefix_append _ rest, ?_⟩⟩
      intro other hother hfront
      rcases prefix_cons_iff.mp hfront with hnil | ⟨tail, htail, -⟩
      · exact absurd hnil (printNat_ne_nil other)
      · have hone := code_one other hother (by rw [htail]; rfl)
        exact Nat.le_of_eq (by rw [hone])
    · have hloop (fuel : Nat) :
          lookupCccFromE164 fuel ('+' :: number) = electLoop number fuel 0 := by
        simp [lookupCccFromE164, hone]
      rcases h with h | ⟨ccc, hlongest, honly⟩ | ⟨hnone, hfit⟩
      · exact absurd h hone
      · exact ⟨_, ccc, (hloop _).trans (electLoop_elects hlongest honly), .inl ⟨ccc, rfl, hlongest⟩⟩
      · exact ⟨_, -1, (hloop _).trans (electLoop_none hnone hfit), .inr ⟨rfl, hnone⟩⟩

/-- A number of Russia: Kazakhstan has the same code, and none is found. -/
theorem lookupCccFromE164_shared : let number := "79161234567".toList
    LongestCode number 7 ∧ lookupCccFromE164 11 ('+' :: number) = some (-1) ∧
      ¬∃ fuel r, lookupCccFromE164 fuel ('+' :: number) = some r ∧ Answers number r := by
  have hshared : ∀ ccc ∈ dialPlans, printNat ccc <+: "79161234567".toList → ¬OnlyRow ccc := by
    decide +kernel
  have hcode : ¬NoCode "79161234567".toList := fun h => h 7 (by decide) (by decide)
  refine ⟨⟨by decide, by decide, by decide +kernel⟩, by decide +kernel, ?_⟩
  rintro ⟨fuel, r, h, hr⟩
  rcases answers_only h hr with hone | ⟨ccc, ⟨hccc, hfront, -⟩, honly⟩ | ⟨hnone, -⟩
  · exact absurd hone (by decide)
  · exact hshared ccc hccc hfront honly
  · exact hcode hnone

end GrooveIp.DialPlan
