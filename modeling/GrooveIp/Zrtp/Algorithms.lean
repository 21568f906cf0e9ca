import Mathlib.Data.List.Nodup
import Mathlib.Data.List.Perm.Subperm
import Mathlib.Tactic.ByContra
import Mathlib.Tactic.Tauto

/-!
# ZRTP algorithm types

The numbers of `bzrtp.h:46–90`, the tables of `bzrtp/src/cryptoUtils.c:30–120`, the two list
operations of `cryptoUtils.c:543–641` and the four-byte names of `cryptoUtils.c:643–815`.
The first `count` slots of an array of seven are a list; its length is the count.
-/

namespace GrooveIp.Zrtp

open List

/-- `ZRTP_HASH_TYPE` to `ZRTP_SAS_TYPE` (`bzrtp.h:48`). -/
inductive AlgoFamily where
  | hash
  | cipherBlock
  | authTag
  | keyAgreement
  | sas
  deriving DecidableEq, Repr

/-- `ZRTP_UNSET_ALGO`. -/
def zrtpUnsetAlgo : UInt8 := 0x00

/-- `ZRTP_HASH_S256`. -/
def zrtpHashS256 : UInt8 := 0x11
/-- `ZRTP_HASH_S384`. -/
def zrtpHashS384 : UInt8 := 0x12
/-- `ZRTP_HASH_N256`. -/
def zrtpHashN256 : UInt8 := 0x13
/-- `ZRTP_HASH_N384`. -/
def zrtpHashN384 : UInt8 := 0x14

/-- `ZRTP_CIPHER_AES1`. -/
def zrtpCipherAES1 : UInt8 := 0x21
/-- `ZRTP_CIPHER_AES2`. -/
def zrtpCipherAES2 : UInt8 := 0x22
/-- `ZRTP_CIPHER_AES3`. -/
def zrtpCipherAES3 : UInt8 := 0x23
/-- `ZRTP_CIPHER_2FS1`. -/
def zrtpCipher2FS1 : UInt8 := 0x24
/-- `ZRTP_CIPHER_2FS2`. -/
def zrtpCipher2FS2 : UInt8 := 0x25
/-- `ZRTP_CIPHER_2FS3`. -/
def zrtpCipher2FS3 : UInt8 := 0x26

/-- `ZRTP_AUTHTAG_HS32`. -/
def zrtpAuthTagHS32 : UInt8 := 0x31
/-- `ZRTP_AUTHTAG_HS80`. -/
def zrtpAuthTagHS80 : UInt8 := 0x32
/-- `ZRTP_AUTHTAG_SK32`. -/
def zrtpAuthTagSK32 : UInt8 := 0x33
/-- `ZRTP_AUTHTAG_SK64`. -/
def zrtpAuthTagSK64 : UInt8 := 0x34

/-- `ZRTP_KEYAGREEMENT_DH2k`, the first of the Diffie-Hellman types: they go from the
fastest to the slowest. -/
def zrtpKeyAgreementDH2k : UInt8 := 0x41
/-- `ZRTP_KEYAGREEMENT_X255`. -/
def zrtpKeyAgreementX255 : UInt8 := 0x42
/-- `ZRTP_KEYAGREEMENT_EC25`. -/
def zrtpKeyAgreementEC25 : UInt8 := 0x43
/-- `ZRTP_KEYAGREEMENT_X448`. -/
def zrtpKeyAgreementX448 : UInt8 := 0x44
/-- `ZRTP_KEYAGREEMENT_DH3k`. -/
def zrtpKeyAgreementDH3k : UInt8 := 0x45
/-- `ZRTP_KEYAGREEMENT_EC38`. -/
def zrtpKeyAgreementEC38 : UInt8 := 0x46
/-- `ZRTP_KEYAGREEMENT_EC52`. -/
def zrtpKeyAgreementEC52 : UInt8 := 0x47
/-- `ZRTP_KEYAGREEMENT_Prsh`. -/
def zrtpKeyAgreementPrsh : UInt8 := 0x4e
/-- `ZRTP_KEYAGREEMENT_Mult`. -/
def zrtpKeyAgreementMult : UInt8 := 0x4f

/-- `ZRTP_SAS_B32`. -/
def zrtpSasB32 : UInt8 := 0x51
/-- `ZRTP_SAS_B256`. -/
def zrtpSasB256 : UInt8 := 0x52

/-! ## Available and mandatory types -/

/-- What `bctbx_key_agreement_algo_list` says of the curves a build has. -/
structure KeyAgreementAlgoList where
  ecdhX25519 : Bool
  ecdhX448 : Bool
  deriving DecidableEq, Repr

/-- `bzrtpUtils_getAvailableCryptoTypes`. The test for `DH2k` is
`available_key_agreements|BCTBX_DHM_2048`, which no build fails. -/
def bzrtpUtilsGetAvailableCryptoTypes (build : KeyAgreementAlgoList) : AlgoFamily → List UInt8
  | .hash => [zrtpHashS256, zrtpHashS384]
  | .cipherBlock => [zrtpCipherAES1, zrtpCipherAES3]
  | .authTag => [zrtpAuthTagHS32, zrtpAuthTagHS80]
  | .keyAgreement =>
    (if build.ecdhX25519 then [zrtpKeyAgreementX255] else []) ++
      (if build.ecdhX448 then [zrtpKeyAgreementX448] else []) ++
      [zrtpKeyAgreementDH3k, zrtpKeyAgreementDH2k, zrtpKeyAgreementMult]
  | .sas => [zrtpSasB32, zrtpSasB256]

/-- `bzrtpUtils_getMandatoryCryptoTypes`. -/
def bzrtpUtilsGetMandatoryCryptoTypes : AlgoFamily → List UInt8
  | .hash => [zrtpHashS256]
  | .cipherBlock => [zrtpCipherAES1]
  | .authTag => [zrtpAuthTagHS32, zrtpAuthTagHS80]
  | .keyAgreement => [zrtpKeyAgreementDH3k, zrtpKeyAgreementMult]
  | .sas => [zrtpSasB32]

/-! ## The 256-bit mask

`BITS_PRO_INT` is written `8*sizeof(int)` without parentheses, so `value/BITS_PRO_INT` is
`value/8*4`: the mask is spread over 128 words of which every fourth is used, and in such a
word over every fourth bit. -/

variable (bitmask : Bitmask256) (value : UInt8)

/-- `value/BITS_PRO_INT`, an index into the words of the mask. -/
def bitmaskWord : Fin 128 :=
  ⟨value.toNat / 8 * 4, by have := value.toNat_lt; omega⟩

/-- `value % BITS_PRO_INT`, the bit within the word. -/
def bitmaskBit : Fin 32 :=
  ⟨value.toNat % 8 * 4, by omega⟩

/-- `int bitmask[BITMASK_256_SIZE]`, bit by bit. -/
abbrev Bitmask256 := Fin 128 → Fin 32 → Bool

/-- `BITMASK_256_SET_ZERO`. -/
def Bitmask256.zero : Bitmask256 := fun _ _ => false

/-- `BITMASK_256_SET`. -/
def Bitmask256.set : Bitmask256 := fun word bit =>
  bitmask word bit || (word == bitmaskWord value && bit == bitmaskBit value)

/-- `BITMASK_256_UNSET`. -/
def Bitmask256.unset : Bitmask256 := fun word bit =>
  bitmask word bit && !(word == bitmaskWord value && bit == bitmaskBit value)

/-- `BITMASK_256_CHECK`. -/
def Bitmask256.check : Bool :=
  bitmask (bitmaskWord value) (bitmaskBit value)

theorem bitmaskSlot_inj (v w : UInt8) :
    (bitmaskWord v == bitmaskWord w && bitmaskBit v == bitmaskBit w) = decide (v = w) := by
  rw [Bool.eq_iff_iff]
  simp only [bitmaskWord, bitmaskBit, Bool.and_eq_true, beq_iff_eq, Fin.mk.injEq, decide_eq_true_eq]
  constructor
  · intro h
    apply UInt8.toNat_inj.mp
    omega
  · intro h
    simp [h]

@[simp] theorem Bitmask256.check_zero (v : UInt8) : Bitmask256.zero.check v = false := rfl

variable (m : Bitmask256) {scan : MandatoryScan}

@[simp] theorem Bitmask256.check_set (v w : UInt8) :
    (m.set v).check w = (m.check w || decide (w = v)) := by
  simp only [check, set, bitmaskSlot_inj]

@[simp] theorem Bitmask256.check_unset (v w : UInt8) :
    (m.unset v).check w = (m.check w && !decide (w = v)) := by
  simp only [check, unset, bitmaskSlot_inj]

/-- The loops that set every value of an array in a mask. -/
def Bitmask256.setAll (values : List UInt8) : Bitmask256 :=
  values.foldl Bitmask256.set bitmask

@[simp] theorem Bitmask256.check_setAll (values : List UInt8) (v : UInt8) :
    (m.setAll values).check v = (m.check v || decide (v ∈ values)) := by
  induction values generalizing m with
  | nil => simp [setAll]
  | cons w values ih =>
    have step : (m.setAll (w :: values)) = (m.set w).setAll values := rfl
    rw [step, ih, check_set]
    by_cases h : v = w <;> simp [h]

/-! ## Common algorithms -/

/-- The second loop of `selectCommonAlgo`. -/
def selectCommonLoop (algosBitmap : Bitmask256) (commonArray : List UInt8) : List UInt8 → List UInt8
  | [] => commonArray
  | algo :: masterArray =>
    if algosBitmap.check algo then
      if (commonArray ++ [algo]).length = 7 then
        commonArray ++ [algo]
      else
        selectCommonLoop (algosBitmap.unset algo) (commonArray ++ [algo]) masterArray
    else
      selectCommonLoop algosBitmap commonArray masterArray

/-- `selectCommonAlgo`. -/
def selectCommonAlgo (masterArray slaveArray : List UInt8) : List UInt8 :=
  selectCommonLoop (Bitmask256.zero.setAll slaveArray) [] masterArray

variable {v : UInt8}

theorem selectCommonLoop_sound {mask : Bitmask256} {common master : List UInt8}
    (h : v ∈ selectCommonLoop mask common master) :
    v ∈ common ∨ (v ∈ master ∧ mask.check v = true) := by
  induction master generalizing mask common with
  | nil => exact .inl h
  | cons algo master ih =>
    by_cases hc : mask.check algo = true
    · by_cases hl : (common ++ [algo]).length = 7
      · simp only [selectCommonLoop, hc, hl, ↓reduceIte, mem_append, mem_singleton] at h
        cases h with
        | inl h => exact .inl h
        | inr h => simp [h, hc]
      · simp only [selectCommonLoop, hc, hl, ↓reduceIte] at h
        cases ih h with
        | inl h =>
          rcases mem_append.mp h with h | h
          · exact .inl h
          · simp only [mem_singleton] at h
            simp [h, hc]
        | inr h =>
          simp only [Bitmask256.check_unset, Bool.and_eq_true] at h
          exact .inr ⟨mem_cons_of_mem _ h.1, h.2.1⟩
    · simp only [selectCommonLoop, hc, Bool.false_eq_true, ↓reduceIte] at h
      exact (ih h).imp_right fun h => ⟨mem_cons_of_mem _ h.1, h.2⟩

theorem selectCommonLoop_prefix (mask : Bitmask256) (common master : List UInt8) :
    ∃ rest, selectCommonLoop mask common master = common ++ rest := by
  induction master generalizing mask common with
  | nil => exact ⟨[], by simp [selectCommonLoop]⟩
  | cons algo master ih =>
    by_cases hc : mask.check algo = true
    · by_cases hl : (common ++ [algo]).length = 7
      · exact ⟨[algo], by simp only [selectCommonLoop, hc, hl, ↓reduceIte]⟩
      · obtain ⟨rest, hrest⟩ := ih (mask.unset algo) (common ++ [algo])
        refine ⟨algo :: rest, ?_⟩
        simp only [selectCommonLoop, hc, hl, ↓reduceIte, hrest, append_assoc, singleton_append]
    · obtain ⟨rest, hrest⟩ := ih mask common
      exact ⟨rest, by simp only [selectCommonLoop, hc, Bool.false_eq_true, ↓reduceIte, hrest]⟩

/-- A common algorithm is in both arrays. -/
theorem selectCommonAlgo_sound {master slave : List UInt8} (h : v ∈ selectCommonAlgo master slave) :
    v ∈ master ∧ v ∈ slave := by
  have := selectCommonLoop_sound h
  simpa using this

/-- The preferred common algorithm is the first of the master array that the slave array has. -/
theorem selectCommonAlgo_head (master slave : List UInt8) :
    (selectCommonAlgo master slave).head? = master.find? (fun v => decide (v ∈ slave)) := by
  have check : ∀ v, (Bitmask256.zero.setAll slave).check v = decide (v ∈ slave) := by simp
  unfold selectCommonAlgo
  generalize Bitmask256.zero.setAll slave = mask at check
  induction master with
  | nil => rfl
  | cons algo master ih =>
    by_cases hc : algo ∈ slave
    · obtain ⟨rest, hrest⟩ := selectCommonLoop_prefix (mask.unset algo) [algo] master
      simp [selectCommonLoop, check, hc, hrest]
    · simp [selectCommonLoop, check, hc, ih]

/-! ## Mandatory algorithms -/

/-- The state of the first loop of `bzrtp_addMandatoryCryptoTypesIfNeeded`; `kept` are the
first `j` slots. -/
structure MandatoryScan where
  kept : List UInt8
  algosBitmask : Bitmask256
  missingBitmask : Bitmask256
  missingTypesCount : Nat

open MandatoryScan

/-- The two masks and the count before the first loop. -/
def MandatoryScan.start (mandatoryTypes : List UInt8) : MandatoryScan where
  kept := []
  algosBitmask := Bitmask256.zero
  missingBitmask := Bitmask256.zero.setAll mandatoryTypes
  missingTypesCount := mandatoryTypes.length

/-- The body of the first loop, for one more of the given types. -/
def MandatoryScan.step (scan : MandatoryScan) (algo : UInt8) : MandatoryScan :=
  if (scan.kept.length + scan.missingTypesCount < 7 || scan.missingBitmask.check algo) &&
      !scan.algosBitmask.check algo then
    { kept := scan.kept ++ [algo]
      algosBitmask := scan.algosBitmask.set algo
      missingBitmask :=
        if scan.missingBitmask.check algo then scan.missingBitmask.unset algo
        else scan.missingBitmask
      missingTypesCount :=
        if scan.missingBitmask.check algo then scan.missingTypesCount - 1
        else scan.missingTypesCount }
  else scan

/-- The first loop: it stops at seven kept types. -/
def MandatoryScan.run (scan : MandatoryScan) : List UInt8 → MandatoryScan
  | [] => scan
  | algo :: algoTypes => if scan.kept.length < 7 then (scan.step algo).run algoTypes else scan

/-- The second loop: it stops when nothing is missing any more. -/
def addMissing (missingBitmask : Bitmask256) : Nat → List UInt8 → List UInt8 → List UInt8
  | 0, algoTypes, _ => algoTypes
  | _, algoTypes, [] => algoTypes
  | count + 1, algoTypes, mandatory :: mandatoryTypes =>
    if missingBitmask.check mandatory then
      addMissing missingBitmask count (algoTypes ++ [mandatory]) mandatoryTypes
    else addMissing missingBitmask (count + 1) algoTypes mandatoryTypes

/-- `bzrtp_addMandatoryCryptoTypesIfNeeded`. -/
def bzrtpAddMandatoryCryptoTypesIfNeeded (algoFamily : AlgoFamily) (algoTypes : List UInt8) :
    List UInt8 :=
  let mandatoryTypes := bzrtpUtilsGetMandatoryCryptoTypes algoFamily
  let scan := (start mandatoryTypes).run algoTypes
  addMissing scan.missingBitmask scan.missingTypesCount scan.kept mandatoryTypes

/-- What the first loop keeps true: the masks say what is kept and what is still missing, and
there is room for all that is missing. -/
structure MandatoryScan.Sound (mandatoryTypes : List UInt8) (scan : MandatoryScan) : Prop where
  nodup : scan.kept.Nodup
  algos : ∀ v, scan.algosBitmask.check v = decide (v ∈ scan.kept)
  missing : ∀ v, scan.missingBitmask.check v = decide (v ∈ mandatoryTypes ∧ v ∉ scan.kept)
  count : scan.missingTypesCount = (mandatoryTypes.filter (fun v => v ∉ scan.kept)).length
  room : scan.kept.length + scan.missingTypesCount ≤ 7

theorem missing_append (mandatoryTypes kept : List UInt8) (algo : UInt8)
    (hn : mandatoryTypes.Nodup) : mandatoryTypes.filter (fun v => v ∉ kept ++ [algo]) =
      (mandatoryTypes.filter (fun v => v ∉ kept)).erase algo := by
  rw [(hn.filter _).erase_eq_filter, filter_filter]
  apply filter_congr
  intro v _
  by_cases hv : v = algo <;> simp [hv]

theorem MandatoryScan.Sound.step {mandatoryTypes : List UInt8}
    (hn : mandatoryTypes.Nodup) (h : scan.Sound mandatoryTypes) (algo : UInt8) :
    (scan.step algo).Sound mandatoryTypes := by
  unfold MandatoryScan.step
  split
  · next hc =>
    simp only [Bool.and_eq_true, Bool.or_eq_true, decide_eq_true_eq, h.algos, h.missing,
      Bool.not_eq_true', decide_eq_false_iff_not] at hc
    obtain ⟨hroom, hfresh⟩ := hc
    have hcount := missing_append mandatoryTypes scan.kept algo hn
    by_cases hm : algo ∈ mandatoryTypes
    · have hmem : algo ∈ mandatoryTypes.filter (fun v => v ∉ scan.kept) := by simp [hm, hfresh]
      have hpos := length_pos_of_mem hmem
      have herase := length_erase_of_mem hmem
      have hcheck : scan.missingBitmask.check algo = true := by simp [h.missing, hm, hfresh]
      simp only [hcheck, ↓reduceIte]
      constructor
      · simp [nodup_append, h.nodup]
        exact fun v hv he => hfresh (he ▸ hv)
      · intro v
        simp [h.algos]
      · intro v
        by_cases hv : v = algo <;> simp [h.missing, hv]
      · rw [hcount, herase, h.count]
      · have hr := h.room
        rw [h.count] at hr ⊢
        simp only [length_append, length_singleton]
        omega
    · have hcheck : scan.missingBitmask.check algo = false := by simp [h.missing, hm]
      have herase : (mandatoryTypes.filter (fun v => v ∉ scan.kept)).erase algo =
          mandatoryTypes.filter (fun v => v ∉ scan.kept) := by
        apply erase_of_not_mem
        simp [hm]
      simp only [hcheck, Bool.false_eq_true, ↓reduceIte]
      constructor
      · simp [nodup_append, h.nodup]
        exact fun v hv he => hfresh (he ▸ hv)
      · intro v
        simp [h.algos]
      · intro v
        by_cases hv : v = algo <;> simp [h.missing, hv, hm]
      · rw [hcount, herase, h.count]
      · simp only [hm, false_and, or_false] at hroom
        simp only [length_append, length_singleton]
        omega
  · exact h

variable {mandatoryTypes : List UInt8}

/-- So does the loop. -/
theorem MandatoryScan.Sound.run (hn : mandatoryTypes.Nodup)
    (h : scan.Sound mandatoryTypes) (algoTypes : List UInt8) :
    (scan.run algoTypes).Sound mandatoryTypes := by
  induction algoTypes generalizing scan with
  | nil => exact h
  | cons algo algoTypes ih =>
    unfold MandatoryScan.run
    split
    · exact ih (h.step hn algo)
    · exact h

theorem MandatoryScan.mem_run {algoTypes : List UInt8}
    (h : v ∈ (scan.run algoTypes).kept) : v ∈ scan.kept ∨ v ∈ algoTypes := by
  induction algoTypes generalizing scan with
  | nil => exact .inl h
  | cons algo algoTypes ih =>
    unfold MandatoryScan.run at h
    split at h
    · rcases ih h with h | h
      · unfold MandatoryScan.step at h
        split at h
        · simp only [mem_append, mem_singleton] at h
          simp only [mem_cons]
          tauto
        · exact .inl h
      · exact .inr (mem_cons_of_mem _ h)
    · exact .inl h

theorem addMissing_eq (mask : Bitmask256) (kept mandatoryTypes : List UInt8) :
    addMissing mask (mandatoryTypes.filter mask.check).length kept mandatoryTypes =
      kept ++ mandatoryTypes.filter mask.check := by
  induction mandatoryTypes generalizing kept with
  | nil => simp [addMissing]
  | cons mandatory mandatoryTypes ih =>
    by_cases hc : mask.check mandatory = true
    · simp [hc, addMissing, ih]
    · have hf : (mandatory :: mandatoryTypes).filter mask.check =
          mandatoryTypes.filter mask.check := by simp [hc]
      rw [hf]
      cases hl : (mandatoryTypes.filter mask.check).length with
      | zero => simp [addMissing, length_eq_zero_iff.mp hl]
      | succ n =>
        rw [hl] at ih
        simp [addMissing, hc, ih]

/-- The scan the function starts from. -/
theorem MandatoryScan.sound_start (hl : mandatoryTypes.length ≤ 7) :
    (start mandatoryTypes).Sound mandatoryTypes := by
  constructor <;> simp [start, hl]

/-- The mandatory types of a family are different, and few. -/
theorem bzrtpUtilsGetMandatoryCryptoTypes_nodup (family : AlgoFamily) :
    (bzrtpUtilsGetMandatoryCryptoTypes family).Nodup ∧
      (bzrtpUtilsGetMandatoryCryptoTypes family).length ≤ 7 := by
  cases family <;> decide +kernel

/-- The result: the kept types, then the mandatory ones that are not among them. -/
theorem bzrtpAddMandatoryCryptoTypesIfNeeded_eq (family : AlgoFamily) (types : List UInt8) :
    let mandatoryTypes := bzrtpUtilsGetMandatoryCryptoTypes family
    let scan := (start mandatoryTypes).run types
    scan.Sound mandatoryTypes ∧ bzrtpAddMandatoryCryptoTypesIfNeeded family types =
      scan.kept ++ mandatoryTypes.filter (fun v => v ∉ scan.kept) := by
  intro mandatoryTypes scan
  obtain ⟨hn, hl⟩ := bzrtpUtilsGetMandatoryCryptoTypes_nodup family
  have hs : scan.Sound mandatoryTypes := (sound_start hl).run hn types
  have hf : mandatoryTypes.filter (fun v => v ∉ scan.kept) =
      mandatoryTypes.filter scan.missingBitmask.check := by
    apply filter_congr
    intro v hv
    simp [hs.missing, hv]
  have hadd := addMissing_eq scan.missingBitmask scan.kept mandatoryTypes
  rw [← hf, ← hs.count] at hadd
  exact ⟨hs, hadd⟩

variable {family : AlgoFamily}

/-- Nothing is added but mandatory types. -/
theorem mem_bzrtpAddMandatoryCryptoTypesIfNeeded {types : List UInt8}
    (h : v ∈ bzrtpAddMandatoryCryptoTypesIfNeeded family types) :
    v ∈ types ∨ v ∈ bzrtpUtilsGetMandatoryCryptoTypes family := by
  rw [(bzrtpAddMandatoryCryptoTypesIfNeeded_eq family types).2, mem_append] at h
  rcases h with h | h
  · left
    simpa [start] using mem_run h
  · exact .inr (mem_of_mem_filter h)

/-- Every mandatory type is in the result, whatever was given. -/
theorem mandatory_mem_bzrtpAddMandatoryCryptoTypesIfNeeded (family : AlgoFamily)
    (types : List UInt8) (h : v ∈ bzrtpUtilsGetMandatoryCryptoTypes family) :
    v ∈ bzrtpAddMandatoryCryptoTypesIfNeeded family types := by
  rw [(bzrtpAddMandatoryCryptoTypesIfNeeded_eq family types).2]
  simp only [mem_append, mem_filter, decide_eq_true_eq]
  tauto

/-- The result fits in the seven slots. -/
theorem bzrtpAddMandatoryCryptoTypesIfNeeded_length (family : AlgoFamily) (types : List UInt8) :
    (bzrtpAddMandatoryCryptoTypesIfNeeded family types).length ≤ 7 := by
  obtain ⟨hs, heq⟩ := bzrtpAddMandatoryCryptoTypesIfNeeded_eq family types
  rw [heq, length_append, ← hs.count]
  exact hs.room

/-- No type stands twice in the result. -/
theorem bzrtpAddMandatoryCryptoTypesIfNeeded_nodup (family : AlgoFamily) (types : List UInt8) :
    (bzrtpAddMandatoryCryptoTypesIfNeeded family types).Nodup := by
  obtain ⟨hs, heq⟩ := bzrtpAddMandatoryCryptoTypesIfNeeded_eq family types
  obtain ⟨hn, -⟩ := bzrtpUtilsGetMandatoryCryptoTypes_nodup family
  rw [heq, nodup_append]
  refine ⟨hs.nodup, hn.filter _, fun a ha b hb hab => ?_⟩
  simp only [mem_filter, decide_eq_true_eq] at hb
  exact hb.2 (hab ▸ ha)

/-- A list with all mandatory types, none of them twice, is kept whole by the first loop:
where there is just room for the missing types, the types left are the missing ones. -/
theorem MandatoryScan.run_complete (hn : mandatoryTypes.Nodup) (rest : List UInt8)
    (scan : MandatoryScan) (h : scan.Sound mandatoryTypes) (hnodup : (scan.kept ++ rest).Nodup)
    (hlength : (scan.kept ++ rest).length ≤ 7)
    (hall : ∀ v ∈ mandatoryTypes, v ∈ scan.kept ++ rest) :
    (scan.run rest).kept = scan.kept ++ rest := by
  induction rest generalizing scan with
  | nil => simp [MandatoryScan.run]
  | cons algo rest ih =>
    have hfresh : algo ∉ scan.kept := by
      intro hmem
      exact (nodup_append.mp hnodup).2.2 algo hmem algo (by simp) rfl
    simp only [length_append, length_cons] at hlength
    have hroom : scan.kept.length + scan.missingTypesCount < 7 ∨
        (algo ∈ mandatoryTypes ∧ algo ∉ scan.kept) := by
      by_contra hcon
      simp only [not_or, Nat.not_lt, not_and, not_not] at hcon
      have hsub : mandatoryTypes.filter (fun v => v ∉ scan.kept) ⊆ rest := by
        intro v hv
        simp only [mem_filter, decide_eq_true_eq] at hv
        have hv' := hall v hv.1
        simp only [mem_append, mem_cons] at hv'
        rcases hv' with hv' | hv' | hv'
        · exact absurd hv' hv.2
        · exact absurd (hcon.2 (hv' ▸ hv.1)) hfresh
        · exact hv'
      have hle := ((hn.filter (fun v => v ∉ scan.kept)).subperm hsub).length_le
      have := h.count
      omega
    have hkept : (scan.step algo).kept = scan.kept ++ [algo] := by
      have hc : ((scan.kept.length + scan.missingTypesCount < 7 ||
          scan.missingBitmask.check algo) && !scan.algosBitmask.check algo) = true := by
        simpa [h.missing, h.algos, hfresh] using hroom
      simp [MandatoryScan.step, hc]
    have hlt : scan.kept.length < 7 := by omega
    have happ : scan.kept ++ [algo] ++ rest = scan.kept ++ algo :: rest := by simp
    rw [MandatoryScan.run, if_pos hlt, ih (scan.step algo) (h.step hn algo), hkept, happ]
    · rw [hkept, happ]
      exact hnodup
    · rw [hkept, happ]
      simpa using hlength
    · rw [hkept, happ]
      exact hall

/-- A list that has every mandatory type already is returned as it is. -/
theorem bzrtpAddMandatoryCryptoTypesIfNeeded_id {types : List UInt8} (hnodup : types.Nodup)
    (hlength : types.length ≤ 7)
    (hall : ∀ v ∈ bzrtpUtilsGetMandatoryCryptoTypes family, v ∈ types) :
    bzrtpAddMandatoryCryptoTypesIfNeeded family types = types := by
  obtain ⟨hn, hl⟩ := bzrtpUtilsGetMandatoryCryptoTypes_nodup family
  have hkept := run_complete hn types _ (sound_start hl)
    (by simpa [start]) (by simpa [start])
    (by simpa [start])
  rw [(bzrtpAddMandatoryCryptoTypesIfNeeded_eq family types).2, hkept]
  have hnone : (bzrtpUtilsGetMandatoryCryptoTypes family).filter
      (fun v => v ∉ (start (bzrtpUtilsGetMandatoryCryptoTypes family)).kept ++ types)
      = [] := by
    rw [filter_eq_nil_iff]
    intro v hv
    simp [hall v hv]
  rw [hnone]
  simp [start]

/-! ## Names on the wire -/

/-- The bytes of a four-letter name. -/
def algoName (name : String) : List UInt8 := name.toList.map fun c => c.toNat.toUInt8

/-- The comparisons of `bzrtp_cryptoAlgoTypeStringToInt` for one family, in their order. -/
def algoNames : AlgoFamily → List (String × UInt8)
  | .hash => [("S256", zrtpHashS256), ("S384", zrtpHashS384), ("N256", zrtpHashN256),
      ("N384", zrtpHashN384)]
  | .cipherBlock => [("AES1", zrtpCipherAES1), ("AES2", zrtpCipherAES2), ("AES3", zrtpCipherAES3),
      ("2FS1", zrtpCipher2FS1), ("2FS2", zrtpCipher2FS2), ("2FS3", zrtpCipher2FS3)]
  | .authTag => [("HS32", zrtpAuthTagHS32), ("HS80", zrtpAuthTagHS80), ("SK32", zrtpAuthTagSK32),
      ("SK64", zrtpAuthTagSK64)]
  | .keyAgreement => [("DH3k", zrtpKeyAgreementDH3k), ("DH2k", zrtpKeyAgreementDH2k),
      ("X255", zrtpKeyAgreementX255), ("EC25", zrtpKeyAgreementEC25),
      ("X448", zrtpKeyAgreementX448), ("EC38", zrtpKeyAgreementEC38),
      ("EC52", zrtpKeyAgreementEC52), ("Prsh", zrtpKeyAgreementPrsh),
      ("Mult", zrtpKeyAgreementMult)]
  | .sas => [("B32 ", zrtpSasB32), ("B256", zrtpSasB256)]

/-- `bzrtp_cryptoAlgoTypeStringToInt`. -/
def bzrtpCryptoAlgoTypeStringToInt (algoType : List UInt8) (family : AlgoFamily) : UInt8 :=
  match (algoNames family).find? fun entry => algoType == algoName entry.1 with
  | some entry => entry.2
  | none => zrtpUnsetAlgo

/-- The cases of `bzrtp_cryptoAlgoTypeIntToString`. -/
def allAlgoNames : List (String × UInt8) :=
  algoNames .hash ++ algoNames .cipherBlock ++ algoNames .authTag ++ algoNames .keyAgreement ++
    algoNames .sas

/-- `bzrtp_cryptoAlgoTypeIntToString`. -/
def bzrtpCryptoAlgoTypeIntToString (algoTypeInt : UInt8) : List UInt8 :=
  match allAlgoNames.find? fun entry => algoTypeInt == entry.2 with
  | some entry => algoName entry.1
  | none => algoName "NSET"

/-- The name of a type is read back in its own family. -/
theorem bzrtpCryptoAlgoTypeStringToInt_intToString {algo : UInt8}
    (h : algo ∈ (algoNames family).map Prod.snd) :
    bzrtpCryptoAlgoTypeStringToInt (bzrtpCryptoAlgoTypeIntToString algo) family = algo := by
  revert algo
  cases family <;> decide +kernel

/-- A type that is available has a name in its family. -/
theorem available_named {build : KeyAgreementAlgoList} {algo : UInt8}
    (h : algo ∈ bzrtpUtilsGetAvailableCryptoTypes build family) :
    algo ∈ (algoNames family).map Prod.snd := by
  revert algo
  obtain ⟨x255, x448⟩ := build
  cases family <;> cases x255 <;> cases x448 <;> decide +kernel

end GrooveIp.Zrtp
