import GrooveIp.Vp8.FrameCheck

/-!
# The bounds of a frame header

The boolean decoder never reads behind the first partition. What `parse_frame_header` concludes from
it is right as long as the end of the sizes is a number of 16 bits.
-/

namespace GrooveIp.Vp8

open Lib Ortp List

/-- The decoder has bits, or room for a fill; what is decoded is as it should be. -/
def Decodes {α : Type} (x : Decode α) (post : α → Prop) : Prop :=
  ∀ br : BoolDecoder, -8 ≤ br.count → ∃ a br', x br = .ok (a, br') ∧ -8 ≤ br'.count ∧ post a

namespace Decodes

variable {α β : Type} {x : Decode α} {f : α → Decode β} {p : α → Prop} {q : β → Prop}

theorem pure {a : α} (h : p a) : Decodes (pure a) p := fun br hbr => ⟨a, br, rfl, hbr, h⟩

theorem bind (h : Decodes x p) (hf : ∀ a, p a → Decodes (f a) q) : Decodes (x >>= f) q := by
  intro br hbr
  obtain ⟨a, br', hx, hbr', ha⟩ := h br hbr
  obtain ⟨b, br'', hfa, hbr'', hb⟩ := hf a ha br' hbr'
  refine ⟨b, br'', ?_, hbr'', hb⟩
  change (x br).bind (fun r => f r.1 r.2) = _
  rw [hx]
  exact hfa

end Decodes

/-- The loop finds the bytes that it takes. -/
theorem fillLoop_ok {range : Nat} {loopEnd shift : Int} {bufptr : List UInt8}
    (h : shift - loopEnd < 8 * bufptr.length) (value : UInt64) (count : Int) :
    ∃ br, fillLoop range loopEnd bufptr value count shift = .ok br ∧ count ≤ br.count ∧
      (loopEnd = 0 → count + shift < br.count + 8) := by
  induction bufptr generalizing shift value count with
  | nil =>
    have hstop : ¬loopEnd ≤ shift := by
      rw [length_nil] at h
      omega
    exact ⟨_, by rw [fillLoop, if_neg hstop], Int.le_refl _, fun _ => by dsimp only; omega⟩
  | cons octet bufptr ih =>
    rw [length_cons] at h
    unfold fillLoop
    split
    · obtain ⟨br, hloop, hcount, hfull⟩ := @ih (shift - 8) (by omega)
        (value ||| octet.toUInt64 <<< UInt64.ofNat shift.toNat) (count + 8)
      exact ⟨br, hloop, by omega, fun hend => by have := hfull hend; omega⟩
    · exact ⟨_, rfl, Int.le_refl _, fun _ => by dsimp only; omega⟩

theorem BoolDecoder.fill_ok {br : BoolDecoder} (hlow : -8 ≤ br.count) (hhigh : br.count < 0) :
    ∃ br', br.fill = .ok br' ∧ 0 ≤ br'.count := by
  unfold BoolDecoder.fill
  extract_lets shift bitsLeft x count
  have hshift : shift = 48 - br.count := by omega
  have hbits : bitsLeft = br.userBuffer.length * 8 := rfl
  have hx : x = (shift + 8 - bitsLeft + 2 ^ 31) % 2 ^ 32 - 2 ^ 31 := rfl
  have hcount : count = if 0 ≤ x then br.count + 0x40000000 else br.count := rfl
  clear_value shift bitsLeft x count
  split
  · obtain ⟨br', hloop, hmore, hfull⟩ := @fillLoop_ok br.range (max x 0) shift br.userBuffer
      (by omega) br.value count
    refine ⟨br', hloop, ?_⟩
    split at hcount
    · omega
    · have := hfull (by omega)
      omega
  · exact ⟨_, rfl, by dsimp only; omega⟩

theorem decodeBool_decodes (probability : Nat) : Decodes (decodeBool probability) fun _ => True := by
  have hnorm : ∀ range, vp8Norm.getD range 0 ≤ 7 := by
    intro range
    rcases Nat.lt_or_ge range vp8Norm.length with hlt | hge
    · rw [getD_eq_getElem _ _ hlt]
      have hall : ∀ shift ∈ vp8Norm, shift ≤ 7 := by decide +kernel
      exact hall _ (getElem_mem hlt)
    · rw [getD_eq_default _ _ hge]
      exact Nat.zero_le 7
  have hshift (br : BoolDecoder) (hbr : 0 ≤ br.count) (range : Nat) :
      -8 ≤ br.count - vp8Norm.getD range 0 := by
    have := hnorm range
    omega
  intro br hbr
  unfold decodeBool
  by_cases hneg : br.count < 0
  · obtain ⟨br', hfill, hcount⟩ := br.fill_ok hbr hneg
    simp only [if_pos hneg, hfill]
    exact ⟨_, _, rfl, hshift br' hcount _, trivial⟩
  · simp only [if_neg hneg]
    exact ⟨_, _, rfl, hshift br (Int.not_lt.mp hneg) _, trivial⟩

theorem decodeValue_decodes (bits : Nat) : Decodes (decodeValue bits) (· < 2 ^ bits) := by
  induction bits with
  | zero => exact .pure Nat.one_pos
  | succ bits ih =>
    refine (decodeBool_decodes _).bind fun bit _ => ih.bind fun rest hrest => .pure ?_
    have hbit : bit.toNat * 2 ^ bits ≤ 1 * 2 ^ bits := Nat.mul_le_mul_right _ (Bool.toNat_le bit)
    rw [Nat.pow_succ]
    omega

theorem times_decodes {x : Decode Unit} (h : Decodes x fun _ => True) (n : Nat) :
    Decodes (times x n) fun _ => True := by
  induction n with
  | zero => exact .pure trivial
  | succ n ih => exact h.bind fun _ _ => ih

theorem Decodes.ite {α : Type} {p : α → Prop} {c : Prop} [Decidable c] {x y : Decode α}
    (hx : Decodes x p) (hy : Decodes y p) : Decodes (if c then x else y) p := by
  split
  · exact hx
  · exact hy

/-- The number of the partitions is read without a fault. -/
theorem decodePartitions_decodes (keyframe : Bool) :
    Decodes (decodePartitions keyframe) fun nb => 1 ≤ nb ∧ nb ≤ 8 := by
  have hbit : Decodes readBit fun _ => True := decodeBool_decodes 128
  have hdone : Decodes (Pure.pure ()) fun _ => True := .pure trivial
  have hsigned (bits : Nat) : Decodes (skipSigned bits) fun _ => True :=
    hbit.bind fun _ _ => .ite ((decodeValue_decodes bits).bind fun _ _ => hbit.bind fun _ _ => hdone)
      hdone
  have hprobability : Decodes skipProbability fun _ => True :=
    hbit.bind fun _ _ => .ite ((decodeValue_decodes 8).bind fun _ _ => hdone) hdone
  have hsegmentation : Decodes skipSegmentation fun _ => True :=
    hbit.bind fun updateMap _ => hbit.bind fun _ _ => by
      have hmap : Decodes (if updateMap then times skipProbability 3 else Pure.pure ())
          fun _ => True := .ite (times_decodes hprobability 3) hdone
      exact .ite (hbit.bind fun _ _ => (times_decodes (hsigned 7) 4).bind fun _ _ =>
        (times_decodes (hsigned 6) 4).bind fun _ _ => hmap) hmap
  have hnumber : Decodes (do return 2 ^ (← decodeValue 2)) fun nb => 1 ≤ nb ∧ nb ≤ 8 :=
    (decodeValue_decodes 2).bind fun value hvalue => .pure
      ⟨Nat.one_le_two_pow, Nat.pow_le_pow_right Nat.two_pos (Nat.le_of_lt_succ hvalue)⟩
  have hfilter : Decodes (do
      let _ ← readBit
      let _ ← decodeValue 6
      let _ ← decodeValue 3
      if ← readBit then
        if ← readBit then times (skipSigned 6) 8
      return 2 ^ (← decodeValue 2)) fun nb => 1 ≤ nb ∧ nb ≤ 8 :=
    hbit.bind fun _ _ => (decodeValue_decodes 6).bind fun _ _ => (decodeValue_decodes 3).bind
      fun _ _ => hbit.bind fun _ _ => .ite (hbit.bind fun _ _ => .ite
        ((times_decodes (hsigned 6) 8).bind fun _ _ => hnumber) hnumber) hnumber
  have hsegments := hbit.bind fun b _ => Decodes.ite (c := b = true)
    (hsegmentation.bind fun _ _ => hfilter) hfilter
  exact .ite (hbit.bind fun _ _ => hbit.bind fun _ _ => hsegments) hsegments

/-! ## The header -/

/-- The tag of a keyframe. -/
def isKeyframe (data : List UInt8) : Bool := (data.getD 0 0) &&& 1 = 0

/-- Where the sizes of so many partitions end. -/
def sizesEnd (data : List UInt8) (nb : Nat) : Nat :=
  headerSkip data + firstPartitionLength data + 3 * (nb - 1)

/-- A header is parsed without a fault; where it is accepted, the first partition and the sizes are
in the data, and their end is the first of the sizes. -/
def HeaderInBounds (frame : Frame) (data : List UInt8) : Prop :=
  ∃ ok frame', parseFrameHeader frame data = .ok (ok, frame') ∧ (ok = true →
    let info := frame'.partitionsInfo
    1 ≤ info.nbPartitions ∧ info.nbPartitions ≤ 8 ∧
      sizesEnd data info.nbPartitions ≤ data.length ∧
      info.partitionSizes.head? = some (sizesEnd data info.nbPartitions))

/-- The data is too short for a header, or the sizes end where a number of 16 bits tells, or where
one tells that the data is too short. -/
def EndFits (data : List UInt8) : Prop :=
  data.length < 3 ∨ isKeyframe data = true ∧ data.length < 10 ∨
    ∀ nb br, decodePartitions (isKeyframe data) { userBuffer := data.drop (headerSkip data) } =
      .ok (nb, br) → sizesEnd data nb < 2 ^ 16 ∨ data.length < sizesEnd data nb % 2 ^ 16

/-- Headers are parsed within bounds exactly when the end of the sizes fits. -/
theorem headerInBounds_iff (frame : Frame) (data : List UInt8) :
    HeaderInBounds frame data ↔ EndFits data := by
  by_cases hshort : data.length < 3
  · refine iff_of_true ⟨false, frame, ?_, fun h => by cases h⟩ (.inl hshort)
    simp only [parseFrameHeader, if_pos hshort]
    rfl
  by_cases hkeyShort : isKeyframe data = true ∧ data.length < 10
  · refine iff_of_true ⟨false, { frame with keyframe := isKeyframe data }, ?_, fun h => by cases h⟩
      (.inr (.inl hkeyShort))
    unfold isKeyframe at *
    simp only [parseFrameHeader, if_neg hshort, if_pos hkeyShort]
    rfl
  obtain ⟨nb, br, hdecode, -, hone, height⟩ := decodePartitions_decodes (isKeyframe data)
    { userBuffer := data.drop (headerSkip data) } (Int.le_refl _)
  have hfits : EndFits data ↔ sizesEnd data nb < 2 ^ 16 ∨ data.length < sizesEnd data nb % 2 ^ 16 := by
    simp only [EndFits, hshort, hkeyShort, false_or, hdecode, Except.ok.injEq, Prod.mk.injEq]
    exact ⟨fun h => h nb br ⟨rfl, rfl⟩, fun h _ _ heq => heq.1 ▸ h⟩
  have hparse : parseFrameHeader frame data =
      if data.length < sizesEnd data nb % 2 ^ 16 then .ok (false, { frame with
        keyframe := isKeyframe data
        partitionsInfo := { frame.partitionsInfo with nbPartitions := nb } })
      else ((List.range' 1 (nb - 1)).mapM (partitionSizeAt data)).map fun sizes =>
        (true, { frame with
          keyframe := isKeyframe data
          partitionsInfo := ⟨sizesEnd data nb % 2 ^ 16 :: sizes, nb⟩ }) := by
    unfold isKeyframe sizesEnd at *
    simp only [parseFrameHeader, if_neg hshort, if_neg hkeyShort, hdecode, bind, Except.bind,
      if_neg (Nat.not_lt.mpr height)]
    split
    · rfl
    · cases (List.range' 1 (nb - 1)).mapM (partitionSizeAt data) <;> rfl
  rw [HeaderInBounds, hparse, hfits]
  by_cases hsize : data.length < sizesEnd data nb % 2 ^ 16
  · rw [if_pos hsize]
    exact iff_of_true ⟨false, _, rfl, fun h => by cases h⟩ (.inr hsize)
  rw [if_neg hsize]
  constructor
  · rintro ⟨ok, frame', hok, hbounds⟩
    cases hsizes : (List.range' 1 (nb - 1)).mapM (partitionSizeAt data) with
    | error fault =>
      rw [hsizes] at hok
      cases hok
    | ok sizes =>
      rw [hsizes] at hok
      cases hok
      obtain ⟨-, -, -, hhead⟩ := hbounds rfl
      have hsame : sizesEnd data nb % 2 ^ 16 = sizesEnd data nb := Option.some.inj hhead
      omega
  · intro hend
    have hend : sizesEnd data nb < 2 ^ 16 := hend.resolve_right hsize
    rw [Nat.mod_eq_of_lt hend] at hsize ⊢
    obtain ⟨sizes, hsizes⟩ : ∃ sizes,
        (List.range' 1 (nb - 1)).mapM (partitionSizeAt data) = .ok sizes := by
      refine exists_mapM_eq_ok fun i hi => ?_
      obtain ⟨hpos, hlt⟩ := mem_range'_1.mp hi
      have hread : readBytes data (headerSkip data + firstPartitionLength data + (i - 1) * 3) 3 =
          .ok _ := readBytes_of_le (by
        unfold sizesEnd at hsize
        omega)
      exact ⟨_, by simp only [partitionSizeAt, hread, bind, Except.bind]; rfl⟩
    rw [hsizes]
    exact ⟨true, _, rfl, fun _ => ⟨hone, height, Nat.not_lt.mp hsize, rfl⟩⟩

/-- Three bytes declare a first partition whose end is 2^16, and are accepted. -/
theorem headerInBounds_wraps : ¬HeaderInBounds {} [0xA1, 0xFF, 0x1F] := by
  rintro ⟨ok, frame', hok, hbounds⟩
  have htaken : (parseFrameHeader {} [0xA1, 0xFF, 0x1F]).toOption.map Prod.fst = some true := by
    decide +kernel
  rw [hok] at htaken
  cases htaken
  have hstart : 2 ^ 16 ≤ headerSkip [0xA1, 0xFF, 0x1F] + firstPartitionLength [0xA1, 0xFF, 0x1F] := by
    decide
  have hend := (Nat.le_add_right ..).trans (hbounds rfl).2.2.1
  exact absurd (hstart.trans hend) (by decide)

end GrooveIp.Vp8
