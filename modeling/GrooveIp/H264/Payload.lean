import GrooveIp.H264.Rfc3984

/-!
# Payloads and the NALUs they carry

What a payload of `rfc3984.c` means, apart from blocks and pointers: a NALU, several
NALUs, or a fragment of one. `Assembly` is the receiver's store of NALUs with the one it is
rebuilding; `Packed` describes the payload streams a packer may send for a list of
NALUs, and absorbing such a stream gives the list back.
-/

namespace GrooveIp.H264

open Lib Ortp List
open UInt8 (ofNat ofNat_toNat)

/-! ### NALU headers -/

theorem forall_uint8 {p : UInt8 → Prop} (h : ∀ n < 256, p (ofNat n)) (b : UInt8) : p b := by
  have hb := h b.toNat b.toNat_lt
  rwa [ofNat_toNat] at hb

/-- The type written into a header is read back. -/
theorem nalHeaderGetType_init (nri type : UInt8) :
    nalHeaderGetType (nalHeaderInit nri type) = nalHeaderGetType type := by
  have h : ∀ n < 4, ∀ t < 32,
      ((ofNat n <<< 5) ||| ofNat t) &&& 0x1F = ofNat t := by decide +kernel
  have hn : (nri &&& 0x3).toNat < 4 := by
    exact Nat.lt_of_le_of_lt Nat.and_le_right (by decide)
  have ht : (type &&& 0x1F).toNat < 32 := by
    exact Nat.lt_of_le_of_lt Nat.and_le_right (by decide)
  have hb := h _ hn _ ht
  rwa [ofNat_toNat, ofNat_toNat] at hb

/-- A header rebuilt from its own fields loses the forbidden bit and nothing else. -/
theorem nalHeaderInit_get (h : UInt8) :
    nalHeaderInit (nalHeaderGetNri h) (nalHeaderGetType h) = h &&& 0x7F := by
  revert h
  exact forall_uint8 (by decide +kernel)

/-- The priority written into a header is read back. -/
theorem nalHeaderGetNri_init (h type : UInt8) :
    nalHeaderGetNri (nalHeaderInit (nalHeaderGetNri h) type) = nalHeaderGetNri h := by
  have ht : ∀ n < 4, ∀ t < 32, nalHeaderGetNri
      (((ofNat n &&& 0x3) <<< 5) ||| ofNat t) = ofNat n := by decide +kernel
  have hn : (nalHeaderGetNri h).toNat < 4 := by
    exact Nat.lt_of_le_of_lt Nat.and_le_right (by decide)
  have hty : (type &&& 0x1F).toNat < 32 := by
    exact Nat.lt_of_le_of_lt Nat.and_le_right (by decide)
  have hb := ht _ hn _ hty
  rwa [ofNat_toNat, ofNat_toNat] at hb

/-- The header byte of a fragment (`rfc3984.c:113–114`). -/
def fuHeader (start last : Bool) (type : UInt8) : UInt8 :=
  (if start then 0x80 else 0) ||| (if last then 0x40 else 0) ||| type

/-- The three fields of a fragment header are read back. -/
theorem fuHeader_fields (start last : Bool) (h : UInt8) :
    nalHeaderGetType (fuHeader start last (nalHeaderGetType h)) = nalHeaderGetType h ∧
      decide (fuHeader start last (nalHeaderGetType h) >>> 7 ≠ 0) = start ∧
      decide ((fuHeader start last (nalHeaderGetType h) >>> 6) &&& 0x1 ≠ 0) = last := by
  revert h
  cases start <;> cases last <;> exact forall_uint8 (by decide +kernel)

/-! ### Payloads -/

/-- The content of one RTP payload. -/
inductive Payload where
  | single (nal : List UInt8)
  | aggregate (nals : List (List UInt8))
  | fragment (start last : Bool) (header : UInt8) (body : List UInt8)

/-- How a payload's content is laid out in bytes. Sizes are the ones the `uint16_t` of a
STAP-A entry and the `int` of `msgpullup` can hold. -/
inductive Encodes : List UInt8 → Payload → Prop where
  | single {h : UInt8} {t : List UInt8} (ha : nalHeaderGetType h ≠ typeStapA)
      (hf : nalHeaderGetType h ≠ typeFuA) : Encodes (h :: t) (.single (h :: t))
  | aggregate {h : UInt8} {nals : List (List UInt8)} (ha : nalHeaderGetType h = typeStapA)
      (hs : ∀ n ∈ nals, n.length < 65536) :
      Encodes (h :: nals.flatMap fun n => putNalSize n.length ++ n) (.aggregate nals)
  | fragment {h fu : UInt8} {body : List UInt8} (hf : nalHeaderGetType h = typeFuA)
      (hs : body.length + 2 < 2 ^ 31) : Encodes (h :: fu :: body)
        (.fragment (decide (fu >>> 7 ≠ 0)) (decide ((fu >>> 6) &&& 0x1 ≠ 0))
          (nalHeaderInit (nalHeaderGetNri h) (nalHeaderGetType fu)) body)

/-! ### Reassembly -/

/-- The NALUs received for the current frame and the NALU being rebuilt. -/
structure Assembly where
  nals : List (List UInt8)
  pending : Option (List UInt8)

namespace Assembly

/-- What one payload does to the store. A single NALU purges an unfinished one, an
aggregate leaves it. -/
def absorb (a : Assembly) : Payload → Assembly
  | .single nal => ⟨a.nals ++ [nal], none⟩
  | .aggregate nals => ⟨a.nals ++ nals, a.pending⟩
  | .fragment start last header body =>
    let pending := if start then some (header :: body) else a.pending.map (· ++ body)
    match pending with
    | some nal => if last then ⟨a.nals ++ [nal], none⟩ else ⟨a.nals, some nal⟩
    | none => ⟨a.nals, none⟩

/-- A stream of payloads, one after the other. -/
def absorbAll (a : Assembly) (ps : List Payload) : Assembly := ps.foldl absorb a

/-- Absorbing is compositional. -/
theorem absorbAll_append (a : Assembly) (ps qs : List Payload) :
    a.absorbAll (ps ++ qs) = (a.absorbAll ps).absorbAll qs := foldl_append

end Assembly

/-! ### Well-formed streams -/

/-- Payloads that finish a NALU already begun: `body` cut into pieces, the last one marked. -/
inductive Continues (header : UInt8) : List UInt8 → List Payload → Prop where
  | last (body : List UInt8) : Continues header body [.fragment false true header body]
  | more (piece : List UInt8) {body : List UInt8} {ps : List Payload}
      (h : Continues header body ps) :
      Continues header (piece ++ body) (.fragment false false header piece :: ps)

variable {ps : List Payload}

theorem Continues.absorbAll {header : UInt8} {body : List UInt8}
    (h : Continues header body ps) (nals : List (List UInt8)) (begun : List UInt8) :
    Assembly.absorbAll ⟨nals, some begun⟩ ps = ⟨nals ++ [begun ++ body], none⟩ := by
  induction h generalizing begun with
  | last body => rfl
  | more piece h ih =>
    have hih := ih (begun ++ piece)
    rw [append_assoc] at hih
    exact hih

/-- The payload streams that carry a list of NALUs in order. -/
inductive Packed : List (List UInt8) → List Payload → Prop where
  | nil : Packed [] []
  | single (nal : List UInt8) {nals : List (List UInt8)} {ps : List Payload}
      (h : Packed nals ps) : Packed (nal :: nals) (.single nal :: ps)
  | aggregate (group : List (List UInt8)) {nals : List (List UInt8)} {ps : List Payload}
      (h : Packed nals ps) : Packed (group ++ nals) (.aggregate group :: ps)
  | fragments (header : UInt8) (piece : List UInt8) {body : List UInt8} {fs : List Payload}
      {nals : List (List UInt8)} {ps : List Payload} (hf : Continues header body fs)
      (h : Packed nals ps) : Packed ((header :: (piece ++ body)) :: nals)
        (.fragment true false header piece :: (fs ++ ps))

/-- A well-formed stream gives back its NALUs, whatever NALU was unfinished before it. -/
theorem Packed.absorbAll {nals : List (List UInt8)} (h : Packed nals ps) (a : Assembly) :
    (a.absorbAll ps).nals = a.nals ++ nals := by
  induction h generalizing a with
  | nil => exact (append_nil _).symm
  | single nal h ih =>
    exact (ih _).trans (append_assoc ..)
  | aggregate group h ih =>
    exact (ih _).trans (append_assoc ..)
  | fragments header piece hf h ih =>
    show ((Assembly.mk a.nals (some (header :: piece))).absorbAll _).nals = _
    rw [Assembly.absorbAll_append, hf.absorbAll, ih]
    simp

/-- Streams follow each other. -/
theorem Packed.append {ns ms : List (List UInt8)} {qs : List Payload} (h : Packed ns ps)
    (h' : Packed ms qs) : Packed (ns ++ ms) (ps ++ qs) := by
  induction h with
  | nil => exact h'
  | single nal _ ih => exact .single nal ih
  | aggregate group _ ih =>
    rw [append_assoc]
    exact .aggregate group ih
  | fragments header piece hf _ ih =>
    rw [cons_append, cons_append, append_assoc]
    exact .fragments header piece hf ih

end GrooveIp.H264
