import GrooveIp.Lib.Memory

/-!
# Quoted strings

Display names are quoted with a backslash in front of every quotation mark and backslash
(`belle_sip_utils.c:589–618`). What is quoted is read back. The loop that reads it steps over a
backslash without looking for the NUL behind it, so that a string which ends in a backslash of its
own is read beyond its end.
-/

namespace GrooveIp.Sip

open Lib List

/-- The character `\`. -/
def backslash : UInt8 := 0x5C

/-- The character `"`. -/
def quotationMark : UInt8 := 0x22

/-! ### The two functions -/

/-- `buff[i]`: the bytes of a C string, and its NUL. -/
def readByte (buff : List UInt8) (i : Nat) : Except Fault UInt8 :=
  if h : i < buff.length then .ok buff[i]
  else if i = buff.length then .ok 0
  else .error .outOfBounds

/-- `output_buff[out_buff_index++] = c`, in a buffer of `size` bytes. -/
def pushByte (size : Nat) (output : List UInt8) (c : UInt8) : Except Fault (List UInt8) :=
  if output.length < size then .ok (output ++ [c]) else .error .outOfBounds

/-- The loop of `belle_sip_string_to_backslash_less_unescaped_string`. -/
def backslashLessLoop (buff : List UInt8) : Nat → Nat → List UInt8 → Except Fault (List UInt8)
  | 0, _, _ => .error .diverged
  | fuel + 1, i, output => do
    let c ← readByte buff i
    if c = 0 then
      return output
    -- the backslash is skipped, whatever comes behind it
    let i := if c = backslash then i + 1 else i
    let c ← readByte buff i
    let output ← pushByte (buff.length + 1) output c
    backslashLessLoop buff fuel (i + 1) output

/-- `belle_sip_string_to_backslash_less_unescaped_string` (`belle_sip_utils.c:589–603`): what is
written to the buffer of `strlen + 1` bytes, the NUL at its end included. Each turn steps over a
byte, so the length of the string is fuel enough. -/
def belleSipStringToBackslashLessUnescapedString (buff : List UInt8) :
    Except Fault (List UInt8) := do
  let output ← backslashLessLoop buff (buff.length + 2) 0 []
  pushByte (buff.length + 1) output 0

/-- `BELLE_SIP_MAX_TO_STRING_SIZE` (`belle_sip_internal.h:1015`). -/
def belleSipMaxToStringSize : Nat := 2048

/-- The loop of `belle_sip_display_name_to_backslashed_escaped_string`. -/
def backslashedLoop : List UInt8 → List UInt8 → Except Fault (List UInt8)
  | [], output => .ok output
  | c :: buff, output =>
    if output.length < belleSipMaxToStringSize - 2 then do
      let output ←
        if c = quotationMark ∨ c = backslash then pushByte belleSipMaxToStringSize output backslash
        else .ok output
      let output ← pushByte belleSipMaxToStringSize output c
      backslashedLoop buff output
    else .ok output

/-- `belle_sip_display_name_to_backslashed_escaped_string` (`belle_sip_utils.c:604–618`), as the C
string that is in the buffer. -/
def belleSipDisplayNameToBackslashedEscapedString (buff : List UInt8) :
    Except Fault (List UInt8) := do
  let output ← backslashedLoop buff []
  let output ← pushByte belleSipMaxToStringSize output 0
  return cString output

/-! ### Reading a quoted string -/

/-- The bytes that a quoted string stands for, if no backslash is left at its end. -/
def unquoted : List UInt8 → Option (List UInt8)
  | [] => some []
  | [c] => if c = backslash then none else some [c]
  | c :: d :: text =>
    if c = backslash then (unquoted text).map (d :: ·) else (unquoted (d :: text)).map (c :: ·)

theorem unquoted_cons {c : UInt8} (hc : c ≠ backslash) (text : List UInt8) :
    unquoted (c :: text) = (unquoted text).map (c :: ·) := by
  cases text with
  | nil => simp [unquoted, hc]
  | cons d text => rw [unquoted, if_neg hc]

theorem unquoted_backslash (d : UInt8) (text : List UInt8) :
    unquoted (backslash :: d :: text) = (unquoted text).map (d :: ·) := by
  rw [unquoted, if_pos rfl]

theorem length_unquoted_le {text bytes : List UInt8} (h : unquoted text = some bytes) :
    bytes.length ≤ text.length := by
  induction text using unquoted.induct generalizing bytes with
  | case1 => obtain rfl := Option.some.inj h; omega
  | case2 => simp [unquoted] at h
  | case3 c hc =>
    rw [unquoted_cons hc] at h
    cases h
    exact Nat.le_refl 1
  | case4 d text ih =>
    rw [unquoted_backslash, Option.map_eq_some_iff] at h
    obtain ⟨bytes, h, rfl⟩ := h
    exact Nat.le_trans (Nat.succ_le_succ (ih h)) (Nat.le_succ _)
  | case5 c d text hc ih =>
    rw [unquoted_cons hc, Option.map_eq_some_iff] at h
    obtain ⟨bytes, h, rfl⟩ := h
    exact Nat.succ_le_succ (ih h)

variable {buff : List UInt8}

theorem readByte_drop {rest : List UInt8} {i : Nat} {c : UInt8} (h : buff.drop i = c :: rest) :
    readByte buff i = .ok c ∧ i < buff.length ∧ buff.drop (i + 1) = rest := by
  have hlength := congrArg List.length h
  rw [length_drop, length_cons] at hlength
  have hi : i < buff.length := by omega
  have heq := (drop_eq_getElem_cons hi).symm.trans h
  obtain ⟨hc, hrest⟩ := List.cons.inj heq
  exact ⟨by rw [readByte, dif_pos hi, hc], hi, hrest⟩

theorem readByte_length (buff : List UInt8) : readByte buff buff.length = .ok 0 := by
  rw [readByte, dif_neg (Nat.lt_irrefl _), if_pos rfl]

theorem backslashLessLoop_eq (hnul : 0 ∉ buff) (fuel : Nat) {i : Nat}
    {output : List UInt8} (hi : i ≤ buff.length) (hfuel : (buff.drop i).length < fuel)
    (houtput : output.length ≤ i) : backslashLessLoop buff fuel i output =
      match unquoted (buff.drop i) with
      | some bytes => .ok (output ++ bytes)
      | none => .error .outOfBounds := by
  have hpush {k : Nat} (hk : k ≤ buff.length) {output : List UInt8} (h : output.length ≤ k)
      (c : UInt8) : pushByte (buff.length + 1) output c = .ok (output ++ [c]) :=
    if_pos (by omega)
  induction fuel generalizing i output with
  | zero => omega
  | succ fuel ih =>
    cases hdrop : buff.drop i with
    | nil =>
      have hend : i = buff.length := Nat.le_antisymm hi (drop_eq_nil_iff.mp hdrop)
      rw [backslashLessLoop, hend, readByte_length, unquoted]
      exact congrArg Except.ok (append_nil output).symm
    | cons c rest =>
      obtain ⟨hread, hlt, hrest⟩ := readByte_drop hdrop
      have hc : c ≠ 0 := by
        rintro rfl
        exact hnul (mem_of_mem_drop (hdrop ▸ mem_cons_self))
      rw [hdrop, length_cons] at hfuel
      rw [backslashLessLoop, hread]
      simp only [bind, Except.bind, if_neg hc]
      by_cases hback : c = backslash
      · subst hback
        simp only [if_pos]
        cases rest with
        | nil =>
          -- the NUL is written, and the loop goes on behind it
          have hend : i + 1 = buff.length := Nat.le_antisymm hlt (drop_eq_nil_iff.mp hrest)
          obtain ⟨fuel, rfl⟩ : ∃ n, fuel = n + 1 := ⟨fuel - 1, by omega⟩
          rw [hend, readByte_length]
          simp only [hpush hi houtput, backslashLessLoop]
          have hbehind : readByte buff (buff.length + 1) = .error .outOfBounds := by
            rw [readByte, dif_neg (by omega), if_neg (by omega)]
          rw [hbehind]
          simp [unquoted, bind, Except.bind]
        | cons d rest =>
          obtain ⟨hread', hlt', hrest'⟩ := readByte_drop hrest
          rw [hread', unquoted_backslash]
          simp only [hpush hi houtput]
          have hlength := congrArg List.length hrest'
          rw [length_cons] at hfuel
          rw [ih (i := i + 1 + 1) hlt' (by omega)
            (by rw [length_append]; exact Nat.succ_le_succ (Nat.le_succ_of_le houtput)), hrest']
          cases unquoted rest <;> simp
      · simp only [if_neg hback, hread, hpush hi houtput]
        have hlength := congrArg List.length hrest
        rw [ih (i := i + 1) hlt (by omega)
          (by rw [length_append]; exact Nat.succ_le_succ houtput), hrest, unquoted_cons hback]
        cases unquoted rest <;> simp

/-- The backslashes at the end of a string. -/
def trailingBackslashes (text : List UInt8) : Nat :=
  (text.reverse.takeWhile (· == backslash)).length

theorem trailingBackslashes_cons (c : UInt8) (text : List UInt8) :
    trailingBackslashes (c :: text) = if c = backslash ∧ trailingBackslashes text = text.length then
      text.length + 1 else trailingBackslashes text := by
  unfold trailingBackslashes
  rw [reverse_cons, takeWhile_append, length_reverse]
  by_cases hall : (text.reverse.takeWhile (· == backslash)).length = text.length
  · by_cases hc : c = backslash <;> simp [hall, hc]
  · simp [hall]

theorem unquoted_isSome_iff (text : List UInt8) :
    (unquoted text).isSome ↔ trailingBackslashes text % 2 = 0 := by
  induction text using unquoted.induct with
  | case1 => exact iff_of_true rfl rfl
  | case2 => exact iff_of_false (by simp [unquoted]) (by decide)
  | case3 c hc => 
    rw [unquoted_cons hc, trailingBackslashes_cons, if_neg fun h => hc h.1]
    exact iff_of_true rfl rfl
  | case4 d text ih =>
    rw [unquoted_backslash, Option.isSome_map, ih, trailingBackslashes_cons,
      trailingBackslashes_cons d, length_cons]
    have hle : trailingBackslashes text ≤ text.length := by
      have h := (takeWhile_sublist (· == backslash) (l := text.reverse)).length_le
      rwa [length_reverse] at h
    by_cases hall : d = backslash ∧ trailingBackslashes text = text.length
    · rw [if_pos hall, if_pos ⟨rfl, rfl⟩, hall.2]
      omega
    · rw [if_neg hall, if_neg fun h => by omega]
  | case5 c d text hc ih =>
    rw [unquoted_cons hc, Option.isSome_map, ih, trailingBackslashes_cons c, if_neg fun h => hc h.1]

theorem belleSipStringToBackslashLessUnescapedString_eq (hnul : 0 ∉ buff) :
    belleSipStringToBackslashLessUnescapedString buff = match unquoted buff with
      | some bytes => .ok (bytes ++ [0])
      | none => .error .outOfBounds := by
  have hloop := backslashLessLoop_eq hnul (buff.length + 2) (Nat.zero_le buff.length)
    (by rw [drop_zero]; omega) (Nat.le_refl ([] : List UInt8).length)
  rw [drop_zero] at hloop
  rw [belleSipStringToBackslashLessUnescapedString, hloop]
  cases hunquoted : unquoted buff with
  | none => rfl
  | some bytes =>
    have hle := length_unquoted_le hunquoted
    exact if_pos (by rw [nil_append]; omega)

theorem belleSipStringToBackslashLessUnescapedString_iff (hnul : 0 ∉ buff) :
    (∃ output, belleSipStringToBackslashLessUnescapedString buff = .ok output ∧
      output.length ≤ buff.length + 1) ↔ trailingBackslashes buff % 2 = 0 := by
  rw [← unquoted_isSome_iff, belleSipStringToBackslashLessUnescapedString_eq hnul]
  cases hunquoted : unquoted buff with
  | none => exact iff_of_false nofun Bool.false_ne_true
  | some bytes =>
    refine iff_of_true ⟨bytes ++ [0], rfl, ?_⟩ rfl
    rw [length_append]
    exact Nat.succ_le_succ (length_unquoted_le hunquoted)

/-! ### Quoting -/

/-- A byte in a quoted string. -/
def quoteByte (c : UInt8) : List UInt8 :=
  if c = quotationMark ∨ c = backslash then [backslash, c] else [c]

theorem unquoted_quoted (name : List UInt8) : unquoted (name.flatMap quoteByte) = some name := by
  induction name with
  | nil => rfl
  | cons c name ih =>
    rw [flatMap_cons, quoteByte]
    split
    · rw [cons_append, singleton_append, unquoted_backslash, ih]
      rfl
    · next hc =>
      rw [singleton_append, unquoted_cons (not_or.mp hc).2, ih]
      rfl

variable {name : List UInt8}

theorem backslashedLoop_eq {output : List UInt8}
    (h : output.length + 2 * name.length < belleSipMaxToStringSize) :
    backslashedLoop name output = .ok (output ++ name.flatMap quoteByte) ∧
      (output ++ name.flatMap quoteByte).length < belleSipMaxToStringSize := by
  induction name generalizing output with
  | nil =>
    rw [flatMap_nil, append_nil]
    exact ⟨rfl, h⟩
  | cons c name ih =>
    unfold belleSipMaxToStringSize at h
    rw [length_cons] at h
    have hpush {bytes : List UInt8} (hbytes : bytes.length < 2048) (d : UInt8) :
        pushByte belleSipMaxToStringSize bytes d = .ok (bytes ++ [d]) := if_pos hbytes
    have hroom : output.length < belleSipMaxToStringSize - 2 := by
      unfold belleSipMaxToStringSize
      omega
    have hstep : backslashedLoop (c :: name) output =
        backslashedLoop name (output ++ quoteByte c) := by
      rw [backslashedLoop, if_pos hroom, quoteByte]
      split
      · rw [hpush (by omega)]
        simp only [bind, Except.bind]
        rw [hpush (by rw [length_append, length_singleton]; omega), append_assoc]
        rfl
      · simp only [bind, Except.bind]
        rw [hpush (by omega)]
    have hlength : (quoteByte c).length ≤ 2 := by
      unfold quoteByte
      split
      · exact Nat.le_refl 2
      · exact Nat.le_succ 1
    rw [hstep, flatMap_cons, ← append_assoc]
    refine ih ?_
    unfold belleSipMaxToStringSize
    rw [length_append]
    omega

theorem cString_terminated {text : List UInt8} (hnul : 0 ∉ text) :
    cString (text ++ [0]) = text := by
  rw [cString, takeWhile_append_of_pos]
  · exact append_nil text
  · exact fun c hc => decide_eq_true fun h => hnul (h ▸ hc)

theorem zero_not_mem_quoted (hnul : 0 ∉ name) : 0 ∉ name.flatMap quoteByte := by
  intro hmem
  obtain ⟨c, hc, hquote⟩ := mem_flatMap.mp hmem
  unfold quoteByte at hquote
  split at hquote
  · rcases mem_cons.mp hquote with hzero | hzero
    · exact absurd hzero (by decide)
    · exact hnul (mem_singleton.mp hzero ▸ hc)
  · exact hnul (mem_singleton.mp hquote ▸ hc)

theorem displayName_roundTrips (hnul : 0 ∉ name)
    (hlength : 2 * name.length < belleSipMaxToStringSize) :
    ∃ quoted output, belleSipDisplayNameToBackslashedEscapedString name = .ok quoted ∧
      belleSipStringToBackslashLessUnescapedString quoted = .ok output ∧ cString output = name := by
  have hquoted := zero_not_mem_quoted hnul
  have hstart : ([] : List UInt8).length + 2 * name.length < belleSipMaxToStringSize := by
    rwa [length_nil, Nat.zero_add]
  obtain ⟨hloop, hroom⟩ := backslashedLoop_eq hstart
  rw [nil_append] at hloop hroom
  refine ⟨name.flatMap quoteByte, name ++ [0], ?_, ?_, cString_terminated hnul⟩
  · have hpush : pushByte belleSipMaxToStringSize (name.flatMap quoteByte) 0 =
        .ok (name.flatMap quoteByte ++ [0]) := if_pos hroom
    rw [belleSipDisplayNameToBackslashedEscapedString, hloop]
    simp only [bind, Except.bind, hpush]
    exact congrArg Except.ok (cString_terminated hquoted)
  · rw [belleSipStringToBackslashLessUnescapedString_eq hquoted, unquoted_quoted]

/-- Every display name that is shorter than half of the buffer comes back, and a string is unescaped
within its bounds exactly if the number of backslashes at its end is even. -/
theorem quotedStrings_iff (name buff : List UInt8) :
    (0 ∉ name → 2 * name.length < belleSipMaxToStringSize →
      ∃ quoted output, belleSipDisplayNameToBackslashedEscapedString name = .ok quoted ∧
        belleSipStringToBackslashLessUnescapedString quoted = .ok output ∧ cString output = name) ∧
    (0 ∉ buff → ((∃ output, belleSipStringToBackslashLessUnescapedString buff = .ok output ∧
      output.length ≤ buff.length + 1) ↔ trailingBackslashes buff % 2 = 0)) :=
  ⟨displayName_roundTrips, belleSipStringToBackslashLessUnescapedString_iff⟩

/-- Two backslashes are read as one, within bounds. -/
theorem quotedStrings_two :
    ∃ output, belleSipStringToBackslashLessUnescapedString [backslash, backslash] = .ok output ∧
      output.length ≤ 2 + 1 :=
  ((quotedStrings_iff [] [backslash, backslash]).2 (by decide)).mpr (by decide)

/-- The string `\` is read behind its NUL. -/
theorem backslash_read_behind : ¬ ∀ buff : List UInt8, 0 ∉ buff → ∃ output,
      belleSipStringToBackslashLessUnescapedString buff = .ok output ∧
        output.length ≤ buff.length + 1 := by
  intro h
  obtain ⟨output, hread, -⟩ := h [backslash] (by decide)
  cases hread

end GrooveIp.Sip
