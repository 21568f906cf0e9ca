import GrooveIp.Lib.Memory
import GrooveIp.Zrtp.Algorithms

/-!
# Algorithm lists in their arrays

`bzrtp_addMandatoryCryptoTypesIfNeeded` (`bzrtp/src/cryptoUtils.c:601–641`) works in the array of
seven that it is given: the kept types move to the front while the loop reads on behind them, and
the missing types are written after the last one kept. The array model refines the list model, so
nothing is written behind the array; the list model says which types are dropped.
-/

namespace GrooveIp.Zrtp

open Lib MandatoryScan

/-! ## The array -/

/-- `uint8_t algoTypes[7]`. -/
abbrev TypeArray := Vector UInt8 7

/-- `algoTypes[i]`. -/
def TypeArray.read (algoTypes : TypeArray) (i : Nat) : Except Fault UInt8 :=
  if h : i < 7 then .ok (algoTypes.get ⟨i, h⟩) else .error .outOfBounds

/-- `algoTypes[i] = algo`. -/
def TypeArray.write (algoTypes : TypeArray) (i : Nat) (algo : UInt8) : Except Fault TypeArray :=
  if h : i < 7 then .ok (algoTypes.set i algo) else .error .outOfBounds

/-- The first `count` entries. -/
def TypeArray.front (algoTypes : TypeArray) (count : Nat) : List UInt8 :=
  algoTypes.toList.take count

/-- The variables of the first loop. -/
structure InPlaceScan where
  algoTypes : TypeArray
  j : Nat
  algosBitmask : Bitmask256
  missingBitmask : Bitmask256
  missingTypesCount : Nat

/-- The variables before the first loop. -/
def InPlaceScan.start (algoTypes : TypeArray) (mandatoryTypes : List UInt8) : InPlaceScan where
  algoTypes := algoTypes
  j := 0
  algosBitmask := Bitmask256.zero
  missingBitmask := Bitmask256.zero.setAll mandatoryTypes
  missingTypesCount := mandatoryTypes.length

/-- The body of the first loop. -/
def InPlaceScan.step (scan : InPlaceScan) (i : Nat) : Except Fault InPlaceScan := do
  let algo ← scan.algoTypes.read i
  if (scan.j + scan.missingTypesCount < 7 || scan.missingBitmask.check algo) &&
      !scan.algosBitmask.check algo then
    let algoTypes ← scan.algoTypes.write scan.j algo
    -- the entry is read again behind the write
    let algo ← algoTypes.read i
    return {
      algoTypes := algoTypes
      j := scan.j + 1
      algosBitmask := scan.algosBitmask.set algo
      missingBitmask :=
        if scan.missingBitmask.check algo then scan.missingBitmask.unset algo
        else scan.missingBitmask
      missingTypesCount :=
        if scan.missingBitmask.check algo then scan.missingTypesCount - 1
        else scan.missingTypesCount }
  else return scan

/-- The first loop, over the indices that are left. -/
def InPlaceScan.run (scan : InPlaceScan) : List Nat → Except Fault InPlaceScan
  | [] => .ok scan
  | i :: indices =>
    if scan.j < 7 then do
      let scan ← scan.step i
      scan.run indices
    else .ok scan

/-- The second loop, over the mandatory types that are left. -/
def addMissingInPlace (missingBitmask : Bitmask256) : Nat → TypeArray → Nat → List UInt8 →
    Except Fault (TypeArray × Nat)
  | 0, algoTypes, j, _ => .ok (algoTypes, j)
  | _, algoTypes, j, [] => .ok (algoTypes, j)
  | count + 1, algoTypes, j, mandatory :: mandatoryTypes =>
    if missingBitmask.check mandatory then do
      let algoTypes ← algoTypes.write j mandatory
      addMissingInPlace missingBitmask count algoTypes (j + 1) mandatoryTypes
    else addMissingInPlace missingBitmask (count + 1) algoTypes j mandatoryTypes

/-- `bzrtp_addMandatoryCryptoTypesIfNeeded`, in place: the array and its count. -/
def addMandatoryCryptoTypesInPlace (algoFamily : AlgoFamily) (algoTypes : TypeArray)
    (algoTypesCount : Nat) : Except Fault (TypeArray × Nat) := do
  let mandatoryTypes := bzrtpUtilsGetMandatoryCryptoTypes algoFamily
  let scan ← (InPlaceScan.start algoTypes mandatoryTypes).run (List.range algoTypesCount)
  addMissingInPlace scan.missingBitmask scan.missingTypesCount scan.algoTypes scan.j mandatoryTypes

/-! ## The array refines the list -/

variable {rest : List UInt8}

theorem TypeArray.read_eq {algoTypes : TypeArray} {i : Nat} {algo : UInt8}
    (h : algoTypes.toList.drop i = algo :: rest) : algoTypes.read i = .ok algo := by
  have hlength := congrArg List.length h
  simp only [List.length_drop, Vector.length_toList, List.length_cons] at hlength
  have hi : i < 7 := by omega
  have hget : algoTypes.toList[i]? = some algo := by
    rw [← Nat.add_zero i, ← List.getElem?_drop, h]
    rfl
  rw [TypeArray.read, dif_pos hi]
  simpa [hi, Vector.get] using hget

theorem TypeArray.write_eq (algoTypes : TypeArray) {j : Nat} (h : j < 7) (algo : UInt8) :
    ∃ written, algoTypes.write j algo = .ok written ∧
      written.front (j + 1) = algoTypes.front j ++ [algo] ∧
      (∀ i, j < i → written.toList.drop i = algoTypes.toList.drop i) ∧
      written.toList.drop j = algo :: algoTypes.toList.drop (j + 1) := by
  have hlength : j < (algoTypes.toList.set j algo).length := by simpa using h
  refine ⟨algoTypes.set j algo, dif_pos h, ?_, fun i hi => ?_, ?_⟩
  · rw [front, Vector.toList_set, List.take_succ_eq_append_getElem hlength,
      List.take_set_of_le (Nat.le_refl j), List.getElem_set_self, front]
  · rw [Vector.toList_set, List.drop_set_of_lt hi]
  · rw [Vector.toList_set, List.drop_eq_getElem_cons hlength, List.getElem_set_self,
      List.drop_set_of_lt (by omega)]

/-- The variables in the array are those of the list loop: the front is what is kept, and `rest`
is not read yet. -/
structure InPlaceScan.Refines (inPlace : InPlaceScan) (scan : MandatoryScan) (i : Nat)
    (rest : List UInt8) : Prop where
  kept : inPlace.algoTypes.front inPlace.j = scan.kept
  length : inPlace.j = scan.kept.length
  behind : inPlace.j ≤ i
  unread : inPlace.algoTypes.toList.drop i = rest
  algos : inPlace.algosBitmask = scan.algosBitmask
  missing : inPlace.missingBitmask = scan.missingBitmask
  count : inPlace.missingTypesCount = scan.missingTypesCount

theorem InPlaceScan.Refines.step {inPlace : InPlaceScan} {scan : MandatoryScan} {i : Nat}
    {algo : UInt8} (h : inPlace.Refines scan i (algo :: rest)) :
    ∃ inPlace', inPlace.step i = .ok inPlace' ∧ inPlace'.Refines (scan.step algo) (i + 1) rest := by
  have hlength := congrArg List.length h.unread
  simp only [List.length_drop, Vector.length_toList, List.length_cons] at hlength
  have hrest : inPlace.algoTypes.toList.drop (i + 1) = rest := by
    rw [← List.drop_drop, h.unread]
    rfl
  have hbehind := h.behind
  rw [InPlaceScan.step, TypeArray.read_eq h.unread, MandatoryScan.step]
  simp only [bind, Except.bind, h.length, h.algos, h.missing, h.count]
  split
  · obtain ⟨written, hwrite, hfront, hunread, hself⟩ :=
      inPlace.algoTypes.write_eq (j := inPlace.j) (by omega) algo
    have hread : written.read i = .ok algo := by
      rcases Nat.lt_or_eq_of_le hbehind with hlt | heq
      · exact TypeArray.read_eq ((hunread i hlt).trans h.unread)
      · exact TypeArray.read_eq (heq ▸ hself)
    rw [← h.length, hwrite]
    simp only [hread]
    refine ⟨_, rfl, ?_, ?_, Nat.succ_le_succ hbehind, ?_, rfl, rfl, rfl⟩
    · rw [hfront, h.kept]
    · simp [h.length]
    · exact (hunread (i + 1) (by omega)).trans hrest
  · exact ⟨inPlace, rfl, h.kept, h.length, Nat.le_succ_of_le hbehind, hrest, h.algos, h.missing,
      h.count⟩

variable {scan : MandatoryScan}

theorem InPlaceScan.Refines.run {inPlace : InPlaceScan} {i n : Nat}
    (h : inPlace.Refines scan i rest) (hn : n ≤ rest.length) :
    ∃ inPlace' i' rest', inPlace.run (List.range' i n) = .ok inPlace' ∧
      inPlace'.Refines (scan.run (rest.take n)) i' rest' := by
  induction n generalizing inPlace scan i rest with
  | zero => exact ⟨inPlace, i, rest, rfl, h⟩
  | succ n ih =>
    cases rest with
    | nil => exact absurd hn (Nat.not_succ_le_zero n)
    | cons algo rest =>
      rw [List.range'_succ, InPlaceScan.run, List.take_succ_cons, MandatoryScan.run, h.length]
      split
      · obtain ⟨inPlace', hstep, h'⟩ := h.step
        rw [hstep]
        exact ih h' (Nat.le_of_succ_le_succ hn)
      · exact ⟨inPlace, i, _, rfl, h⟩

theorem addMissingInPlace_eq (mask : Bitmask256) (count : Nat) (algoTypes : TypeArray) (j : Nat)
    (mandatoryTypes : List UInt8) (hroom : j + count ≤ 7) :
    ∃ algoTypes' j', addMissingInPlace mask count algoTypes j mandatoryTypes =
        .ok (algoTypes', j') ∧ j' ≤ 7 ∧
      algoTypes'.front j' = addMissing mask count (algoTypes.front j) mandatoryTypes := by
  induction mandatoryTypes generalizing count algoTypes j with
  | nil => cases count <;> exact ⟨algoTypes, j, rfl, by omega, rfl⟩
  | cons mandatory mandatoryTypes ih =>
    cases count with
    | zero => exact ⟨algoTypes, j, rfl, hroom, rfl⟩
    | succ count =>
      rw [addMissingInPlace, addMissing]
      split
      · obtain ⟨written, hwrite, hfront, -⟩ := algoTypes.write_eq (j := j) (by omega) mandatory
        rw [hwrite, ← hfront]
        exact ih count written (j + 1) (by omega)
      · exact ih (count + 1) algoTypes j hroom

theorem addMandatoryCryptoTypesInPlace_eq (family : AlgoFamily) (algoTypes : TypeArray)
    {count : Nat} (hcount : count ≤ 7) :
    ∃ algoTypes' count', addMandatoryCryptoTypesInPlace family algoTypes count =
        .ok (algoTypes', count') ∧ count' ≤ 7 ∧ algoTypes'.front count' =
        bzrtpAddMandatoryCryptoTypesIfNeeded family (algoTypes.front count) := by
  have hstart : (InPlaceScan.start algoTypes (bzrtpUtilsGetMandatoryCryptoTypes family)).Refines
      (start (bzrtpUtilsGetMandatoryCryptoTypes family)) 0 algoTypes.toList :=
    ⟨rfl, rfl, Nat.le_refl 0, rfl, rfl, rfl, rfl⟩
  obtain ⟨inPlace, i, rest, hrun, h⟩ := hstart.run (n := count) (by simpa using hcount)
  obtain ⟨hsound, -⟩ := bzrtpAddMandatoryCryptoTypesIfNeeded_eq family (algoTypes.front count)
  have hroom : inPlace.j + inPlace.missingTypesCount ≤ 7 := by
    rw [h.length, h.count]
    exact hsound.room
  obtain ⟨algoTypes', count', hadd, hle, hfront⟩ := addMissingInPlace_eq inPlace.missingBitmask
    inPlace.missingTypesCount inPlace.algoTypes inPlace.j (bzrtpUtilsGetMandatoryCryptoTypes family)
    hroom
  refine ⟨algoTypes', count', ?_, hle, ?_⟩
  · rw [addMandatoryCryptoTypesInPlace, List.range_eq_range', hrun]
    exact hadd
  · rw [hfront, h.kept, h.missing, h.count]
    rfl

/-! ## What the first loop drops -/

theorem MandatoryScan.run_full (h : 7 ≤ scan.kept.length) (algoTypes : List UInt8) :
    scan.run algoTypes = scan := by
  cases algoTypes with
  | nil => rfl
  | cons algo algoTypes => rw [MandatoryScan.run, if_neg (Nat.not_lt.mpr h)]

theorem MandatoryScan.run_append (scan : MandatoryScan) (before after : List UInt8) :
    scan.run (before ++ after) = (scan.run before).run after := by
  induction before generalizing scan with
  | nil => rfl
  | cons algo before ih =>
    rw [List.cons_append, MandatoryScan.run, MandatoryScan.run]
    split
    · exact ih (scan.step algo)
    · next hfull => exact (run_full (by omega) after).symm

theorem MandatoryScan.step_kept (scan : MandatoryScan) (algo : UInt8) :
    (scan.step algo).kept = scan.kept ∨ (scan.step algo).kept = scan.kept ++ [algo] := by
  unfold MandatoryScan.step
  split
  · exact .inr rfl
  · exact .inl rfl

theorem MandatoryScan.run_kept (scan : MandatoryScan) (algoTypes : List UInt8) :
    ∃ added, (scan.run algoTypes).kept = scan.kept ++ added ∧ added.Sublist algoTypes := by
  induction algoTypes generalizing scan with
  | nil => exact ⟨[], (List.append_nil _).symm, List.Sublist.refl _⟩
  | cons algo algoTypes ih =>
    rw [MandatoryScan.run]
    split
    · obtain ⟨added, hkept, hsub⟩ := ih (scan.step algo)
      rcases scan.step_kept algo with hstep | hstep
      · exact ⟨added, by rw [hkept, hstep], hsub.cons algo⟩
      · exact ⟨algo :: added, by rw [hkept, hstep, List.append_assoc]; rfl, hsub.cons_cons algo⟩
    · exact ⟨[], (List.append_nil _).symm, List.nil_sublist _⟩

variable {after : List UInt8}

theorem MandatoryScan.Sound.dropped {mandatoryTypes : List UInt8}
    (h : scan.Sound mandatoryTypes) {algo : UInt8}
    (hdropped : algo ∉ (scan.run (algo :: after)).kept) :
    scan.kept.length + scan.missingTypesCount = 7 ∧ algo ∉ mandatoryTypes := by
  have hfresh : algo ∉ scan.kept := by
    obtain ⟨added, hkept, -⟩ := scan.run_kept (algo :: after)
    rw [hkept] at hdropped
    exact fun hmem => hdropped (List.mem_append_left added hmem)
  have hroom := h.room
  have hmissing (hmandatory : algo ∈ mandatoryTypes) : 0 < scan.missingTypesCount := by
    rw [h.count]
    exact List.length_pos_of_mem (List.mem_filter.mpr ⟨hmandatory, by simpa using hfresh⟩)
  rw [MandatoryScan.run] at hdropped
  split at hdropped
  · next hlt =>
    have hskipped : ¬ ((scan.kept.length + scan.missingTypesCount < 7 ||
        scan.missingBitmask.check algo) && !scan.algosBitmask.check algo) = true := by
      intro hcond
      obtain ⟨added, hkept, -⟩ := (scan.step algo).run_kept after
      rw [hkept, MandatoryScan.step, if_pos hcond] at hdropped
      exact hdropped (by simp)
    simp only [h.algos, h.missing, hfresh, decide_false, Bool.not_false, Bool.and_true,
      not_false_eq_true, and_true, Bool.or_eq_true, decide_eq_true_eq, not_or] at hskipped
    exact ⟨by omega, hskipped.2⟩
  · next hfull =>
    refine ⟨by omega, fun hmandatory => ?_⟩
    have hpos := hmissing hmandatory
    omega

variable {given : List UInt8}

theorem filter_mem_of_sublist {kept : List UInt8} (hsub : kept.Sublist given)
    (hnodup : given.Nodup) : given.filter (· ∈ kept) = kept := by
  have hkept : kept.Sublist (given.filter (· ∈ kept)) := by
    have hself : kept.filter (· ∈ kept) = kept := List.filter_eq_self.mpr (by simp)
    rw [← hself]
    exact (hsub.filter _).trans (by rw [hself])
  have hperm : kept.Perm (given.filter (· ∈ kept)) :=
    (List.perm_ext_iff_of_nodup (hsub.nodup hnodup) (hnodup.filter _)).mpr fun v => by
      simpa using fun hmem => hsub.mem hmem
  exact (hkept.eq_of_length hperm.length_eq).symm

/-! ## The completed list -/

/-- A list of types completed with the mandatory ones: every given type stays, in its place among
the given ones, but for those that come when seven places are taken or needed. -/
structure Completes (mandatoryTypes given completed : List UInt8) : Prop where
  length : completed.length ≤ 7
  nodup : completed.Nodup
  mandatory : ∀ v ∈ mandatoryTypes, v ∈ completed
  known : ∀ v ∈ completed, v ∈ given ∨ v ∈ mandatoryTypes
  order : completed.filter (· ∈ given) = given.filter (· ∈ completed)
  dropped : ∀ before v after, given = before ++ v :: after → v ∉ completed →
    (before.filter (· ∈ completed)).length +
      (mandatoryTypes.filter (· ∉ before.filter (· ∈ completed))).length = 7

/-- The types that the first loop keeps. -/
def keptTypes (family : AlgoFamily) (given : List UInt8) : List UInt8 :=
  ((start (bzrtpUtilsGetMandatoryCryptoTypes family)).run given).kept

theorem sound_start_family (family : AlgoFamily) :
    (start (bzrtpUtilsGetMandatoryCryptoTypes family)).Sound
      (bzrtpUtilsGetMandatoryCryptoTypes family) :=
  sound_start (bzrtpUtilsGetMandatoryCryptoTypes_nodup family).2

theorem keptTypes_sublist (family : AlgoFamily) (given : List UInt8) :
    (keptTypes family given).Sublist given := by
  obtain ⟨added, hkept, hsub⟩ :=
    (start (bzrtpUtilsGetMandatoryCryptoTypes family)).run_kept given
  rw [keptTypes, hkept]
  exact hsub

variable {family : AlgoFamily}

theorem keptTypes_dropped {before : List UInt8} {v : UInt8}
    (hv : v ∉ keptTypes family (before ++ v :: after)) :
    (keptTypes family before).length + ((bzrtpUtilsGetMandatoryCryptoTypes family).filter
        (· ∉ keptTypes family before)).length = 7 ∧
      v ∉ bzrtpUtilsGetMandatoryCryptoTypes family := by
  have hsound := (sound_start_family family).run
    (bzrtpUtilsGetMandatoryCryptoTypes_nodup family).1 before
  rw [keptTypes, run_append] at hv
  obtain ⟨hroom, hmandatory⟩ := hsound.dropped hv
  exact ⟨by rw [hsound.count] at hroom; exact hroom, hmandatory⟩

theorem mem_given_iff_kept {v : UInt8} (hv : v ∈ given) :
    v ∈ bzrtpAddMandatoryCryptoTypesIfNeeded family given ↔ v ∈ keptTypes family given := by
  rw [(bzrtpAddMandatoryCryptoTypesIfNeeded_eq family given).2, List.mem_append, List.mem_filter,
    decide_eq_true_eq]
  refine ⟨fun h => h.elim id fun ⟨hmandatory, hnot⟩ => ?_, .inl⟩
  obtain ⟨before, after, rfl⟩ := List.append_of_mem hv
  exact absurd hmandatory (keptTypes_dropped hnot).2

theorem filter_kept_before {before : List UInt8} (hnodup : (before ++ after).Nodup) :
    before.filter (· ∈ keptTypes family (before ++ after)) = keptTypes family before := by
  obtain ⟨hbefore, -, hdisjoint⟩ := List.nodup_append.mp hnodup
  obtain ⟨added, hkept, hsub⟩ :=
    ((start (bzrtpUtilsGetMandatoryCryptoTypes family)).run before).run_kept after
  rw [← run_append] at hkept
  refine (List.filter_congr fun v hv => ?_).trans
    (filter_mem_of_sublist (keptTypes_sublist family before) hbefore)
  have hnot : v ∉ added := fun hadded => hdisjoint v hv v (hsub.mem hadded) rfl
  refine decide_eq_decide.mpr ?_
  rw [keptTypes, hkept, List.mem_append, or_iff_left hnot]
  rfl

theorem bzrtpAddMandatoryCryptoTypesIfNeeded_completes (family : AlgoFamily)
    (hnodup : given.Nodup) : Completes (bzrtpUtilsGetMandatoryCryptoTypes family) given
      (bzrtpAddMandatoryCryptoTypesIfNeeded family given) where
  length := bzrtpAddMandatoryCryptoTypesIfNeeded_length family given
  nodup := bzrtpAddMandatoryCryptoTypesIfNeeded_nodup family given
  mandatory _ := mandatory_mem_bzrtpAddMandatoryCryptoTypesIfNeeded family given
  known _ := mem_bzrtpAddMandatoryCryptoTypesIfNeeded
  order := by
    have hgiven : given.filter (· ∈ bzrtpAddMandatoryCryptoTypesIfNeeded family given) =
        keptTypes family given := by
      have hall : given.filter (· ∈ keptTypes family (given ++ [])) = keptTypes family given :=
        filter_kept_before (by simpa using hnodup)
      rw [List.append_nil] at hall
      refine (List.filter_congr fun v hv => ?_).trans hall
      exact decide_eq_decide.mpr (mem_given_iff_kept hv)
    have hmissing : ((bzrtpUtilsGetMandatoryCryptoTypes family).filter
        (· ∉ keptTypes family given)).filter (· ∈ given) = [] := by
      refine List.filter_eq_nil_iff.mpr fun v hv hmem => ?_
      obtain ⟨hmandatory, hnot⟩ := List.mem_filter.mp hv
      exact absurd ((mem_given_iff_kept (of_decide_eq_true hmem)).mp
        (mandatory_mem_bzrtpAddMandatoryCryptoTypesIfNeeded family given hmandatory))
        (of_decide_eq_true hnot)
    have hkept : (keptTypes family given).filter (· ∈ given) = keptTypes family given :=
      List.filter_eq_self.mpr fun v hv => decide_eq_true ((keptTypes_sublist family given).mem hv)
    rw [hgiven, (bzrtpAddMandatoryCryptoTypesIfNeeded_eq family given).2, List.filter_append]
    exact (congrArg₂ _ hkept hmissing).trans (List.append_nil _)
  dropped := by
    rintro before v after rfl hv
    have hbefore : before.filter (· ∈ bzrtpAddMandatoryCryptoTypesIfNeeded family
        (before ++ v :: after)) = keptTypes family before := by
      rw [← filter_kept_before hnodup]
      exact List.filter_congr fun w hw => decide_eq_decide.mpr
        (mem_given_iff_kept (List.mem_append_left _ hw))
    rw [mem_given_iff_kept (by simp)] at hv
    rw [hbefore]
    exact (keptTypes_dropped hv).1

/-! ## The common types -/

theorem selectCommonLoop_eq {mask : Bitmask256} {common : List UInt8} (master : List UInt8)
    (hcommon : common.length < 7) : selectCommonLoop mask common master =
      common ++ ((master.filter mask.check).eraseDups).take (7 - common.length) := by
  induction master generalizing mask common with
  | nil => simp [selectCommonLoop]
  | cons algo master ih =>
    rw [selectCommonLoop]
    split
    · next hcheck =>
      have hroom : 7 - common.length = (7 - (common ++ [algo]).length) + 1 := by
        rw [List.length_append, List.length_singleton]
        omega
      have hrest : master.filter (mask.unset algo).check =
          (master.filter mask.check).filter fun v => !v == algo := by
        rw [List.filter_filter]
        refine List.filter_congr fun v _ => ?_
        rw [Bitmask256.check_unset, Bool.and_comm]
        rfl
      rw [List.filter_cons_of_pos hcheck, List.eraseDups_cons, hroom, List.take_succ_cons, ← hrest]
      split
      · next hseven => rw [hseven]; rfl
      · next hless =>
        rw [ih (by rw [List.length_append, List.length_singleton] at hless ⊢; omega), List.append_assoc]
        rfl
    · next hcheck => rw [List.filter_cons_of_neg hcheck, ih hcommon]

theorem selectCommonAlgo_eq (master slave : List UInt8) :
    selectCommonAlgo master slave = ((master.filter (· ∈ slave)).eraseDups).take 7 := by
  have hcheck : (Bitmask256.zero.setAll slave).check = fun v => decide (v ∈ slave) := by
    funext v
    simp
  rw [selectCommonAlgo, selectCommonLoop_eq master (by decide), hcheck]
  rfl

/-- Completing a list in its array stays in the array and gives a completed list, and the common
types of two lists are those of the first that the second has. -/
theorem typeLists_completed :
    (∀ (family : AlgoFamily) (algoTypes : TypeArray) (count : Nat), count ≤ 7 →
      (algoTypes.front count).Nodup →
      ∃ algoTypes' count', addMandatoryCryptoTypesInPlace family algoTypes count =
          .ok (algoTypes', count') ∧ count' ≤ 7 ∧
        Completes (bzrtpUtilsGetMandatoryCryptoTypes family) (algoTypes.front count)
          (algoTypes'.front count')) ∧ ∀ master slave : List UInt8,
      selectCommonAlgo master slave = ((master.filter (· ∈ slave)).eraseDups).take 7 := by
  refine ⟨fun family algoTypes count hcount hnodup => ?_, selectCommonAlgo_eq⟩
  obtain ⟨algoTypes', count', hrun, hle, hfront⟩ :=
    addMandatoryCryptoTypesInPlace_eq family algoTypes hcount
  exact ⟨algoTypes', count', hrun, hle,
    hfront ▸ bzrtpAddMandatoryCryptoTypesIfNeeded_completes family hnodup⟩

/-- Seven foreign types with one of the two mandatory ones among them: the last gives way. -/
theorem typeLists_completed_override : ∃ algoTypes' count', addMandatoryCryptoTypesInPlace .authTag
        #v[0x33, 0x32, 0x34, 0x41, 0x42, 0x43, 0x44] 7 = .ok (algoTypes', count') ∧ count' ≤ 7 ∧
      Completes [0x31, 0x32] [0x33, 0x32, 0x34, 0x41, 0x42, 0x43, 0x44] (algoTypes'.front count') :=
  typeLists_completed.1 .authTag #v[0x33, 0x32, 0x34, 0x41, 0x42, 0x43, 0x44] 7 (by decide)
    (by decide)

end GrooveIp.Zrtp
