import GrooveIp.Ortp.Mblk
import Mathlib.Data.Nat.Bitwise

/-!
# The VP8 payload descriptor

The descriptor in front of every RTP payload of a VP8 stream: how
`packer_process_frame_part` (`vp8rtpfmt.c:982–1049`) writes it and how
`parse_payload_descriptor` (`vp8rtpfmt.c:842–907`) reads it. Every field comes back but `tid`,
which the writer masks where it should shift.
-/

namespace GrooveIp.Vp8

open List

/-- `Vp8RtpFmtErrorCode`, without the success of value 0 (`vp8rtpfmt.h:39–44`). -/
inductive ErrorCode where
  | invalidPayloadDescriptor
  | incompleteFrame
  | invalidFrame
  deriving DecidableEq, Repr

/-- `Vp8RtpFmtPayloadDescriptor` (`vp8rtpfmt.h:46–60`). -/
@[ext] structure PayloadDescriptor where
  pictureid : UInt16 := 0
  pid : UInt8 := 0
  tl0picidx : UInt8 := 0
  tid : UInt8 := 0
  keyidx : UInt8 := 0
  extendedControlBitsPresent : Bool := false
  nonReferenceFrame : Bool := false
  startOfPartition : Bool := false
  pictureidPresent : Bool := false
  tl0picidxPresent : Bool := false
  tidPresent : Bool := false
  keyidxPresent : Bool := false
  layerSync : Bool := false
  deriving DecidableEq, Repr

/-! ## Writing -/

/-- `1 << n` when the flag is set. -/
def flag (b : Bool) (n : UInt8) : UInt8 := if b then 1 <<< n else 0

namespace PayloadDescriptor

/-- The size the packer allocates (`vp8rtpfmt.c:995–1002`). -/
def size (pd : PayloadDescriptor) : Nat :=
  1 + pd.extendedControlBitsPresent.toNat +
    (if pd.pictureidPresent then 1 + (pd.pictureid &&& 0x8000 != 0).toNat else 0) +
    pd.tl0picidxPresent.toNat + (pd.tidPresent || pd.keyidxPresent).toNat

/-- The mandatory octet; only the first packet starts the partition (`vp8rtpfmt.c:1012–1018`). -/
def mandatoryOctet (pd : PayloadDescriptor) (first : Bool) : UInt8 :=
  flag pd.extendedControlBitsPresent 7 ||| flag pd.nonReferenceFrame 5 |||
    flag (pd.startOfPartition && first) 4 ||| (pd.pid &&& 0x07)

/-- The extension bit field (`vp8rtpfmt.c:1020–1026`). -/
def extensionOctets (pd : PayloadDescriptor) : List UInt8 :=
  if pd.extendedControlBitsPresent then
    [flag pd.pictureidPresent 7 ||| flag pd.tl0picidxPresent 6 ||| flag pd.tidPresent 5 |||
      flag pd.keyidxPresent 4]
  else []

/-- The picture identifier of 7 or 15 bits (`vp8rtpfmt.c:1028–1035`). -/
def pictureidOctets (pd : PayloadDescriptor) : List UInt8 :=
  if pd.pictureidPresent then
    if pd.pictureid &&& 0x8000 != 0 then
      [((pd.pictureid >>> 8) &&& 0xFF).toUInt8, (pd.pictureid &&& 0xFF).toUInt8]
    else [(pd.pictureid &&& 0xFF).toUInt8]
  else []

/-- The `TL0PICIDX` octet (`vp8rtpfmt.c:1037–1040`). -/
def tl0picidxOctets (pd : PayloadDescriptor) : List UInt8 :=
  if pd.tl0picidxPresent then [pd.tl0picidx] else []

/-- The octet the temporal layer and the key frame index share. The layer is masked with the bits
it should be shifted to (`vp8rtpfmt.c:1041–1050`). -/
def tidKeyidxOctets (pd : PayloadDescriptor) : List UInt8 :=
  if pd.tidPresent || pd.keyidxPresent then
    [(if pd.tidPresent then (pd.tid &&& 0xC0) ||| flag pd.layerSync 5 else 0) |||
      (if pd.keyidxPresent then pd.keyidx &&& 0x1F else 0)]
  else []

/-- The descriptor as the packer writes it. -/
def octets (pd : PayloadDescriptor) (first : Bool) : List UInt8 :=
  pd.mandatoryOctet first :: (pd.extensionOctets ++ (pd.pictureidOctets ++
    (pd.tl0picidxOctets ++ pd.tidKeyidxOctets)))

/-- The packer allocates what it writes. -/
theorem length_octets (pd : PayloadDescriptor) (first : Bool) :
    (pd.octets first).length = pd.size := by
  have hext : pd.extensionOctets.length = pd.extendedControlBitsPresent.toNat := by
    unfold extensionOctets
    cases pd.extendedControlBitsPresent <;> rfl
  have hpic : pd.pictureidOctets.length =
      if pd.pictureidPresent then 1 + (pd.pictureid &&& 0x8000 != 0).toNat else 0 := by
    unfold pictureidOctets
    cases pd.pictureidPresent <;> cases pd.pictureid &&& 0x8000 != 0 <;> rfl
  have htl0 : pd.tl0picidxOctets.length = pd.tl0picidxPresent.toNat := by
    unfold tl0picidxOctets
    cases pd.tl0picidxPresent <;> rfl
  have htid : pd.tidKeyidxOctets.length = (pd.tidPresent || pd.keyidxPresent).toNat := by
    unfold tidKeyidxOctets
    cases pd.tidPresent || pd.keyidxPresent <;> rfl
  simp only [octets, size, length_cons, length_append, hext, hpic, htl0, htid]
  omega

end PayloadDescriptor

/-! ## Reading -/

/-- `h[offset] & (1 << n)`. -/
def bit (octet n : UInt8) : Bool := octet &&& (1 <<< n) != 0

/-- `offset++` and the check behind it: the octet that is left behind and what follows it, which
must not be empty. -/
def advance : List UInt8 → Except ErrorCode (UInt8 × List UInt8)
  | octet :: next :: h => .ok (octet, next :: h)
  | _ => .error .invalidPayloadDescriptor

theorem advance_cons (octet : UInt8) {h : List UInt8} (hh : h ≠ []) :
    advance (octet :: h) = .ok (octet, h) := by
  cases h with
  | nil => exact absurd rfl hh
  | cons next h => rfl

/-- The mandatory octet (`vp8rtpfmt.c:852–857`). -/
def parseMandatory (h : List UInt8) : Except ErrorCode (PayloadDescriptor × List UInt8) := do
  let (octet, h) ← advance h
  return ({
    extendedControlBitsPresent := bit octet 7
    nonReferenceFrame := bit octet 5
    startOfPartition := bit octet 4
    pid := octet &&& 0x07 }, h)

/-- The extension bit field (`vp8rtpfmt.c:859–870`). -/
def parseExtension (pd : PayloadDescriptor) (h : List UInt8) :
    Except ErrorCode (PayloadDescriptor × List UInt8) := do
  if pd.extendedControlBitsPresent then
    let (octet, h) ← advance h
    if bit octet 6 && !bit octet 5 then throw .invalidPayloadDescriptor
    return ({ pd with
      pictureidPresent := bit octet 7
      tl0picidxPresent := bit octet 6
      tidPresent := bit octet 5
      keyidxPresent := bit octet 4 }, h)
  else return (pd, h)

/-- The picture identifier, of 16 bits when its first one is set (`vp8rtpfmt.c:872–884`). -/
def parsePictureid (pd : PayloadDescriptor) (h : List UInt8) :
    Except ErrorCode (PayloadDescriptor × List UInt8) := do
  if pd.pictureidPresent then
    let (octet, h) ← advance h
    if bit octet 7 then
      let (low, h) ← advance h
      return ({ pd with pictureid := octet.toUInt16 <<< 8 ||| low.toUInt16 }, h)
    else return ({ pd with pictureid := octet.toUInt16 }, h)
  else return (pd, h)

/-- The `TL0PICIDX` octet (`vp8rtpfmt.c:886–890`). -/
def parseTl0picidx (pd : PayloadDescriptor) (h : List UInt8) :
    Except ErrorCode (PayloadDescriptor × List UInt8) := do
  if pd.tl0picidxPresent then
    let (octet, h) ← advance h
    return ({ pd with tl0picidx := octet }, h)
  else return (pd, h)

/-- The octet of the temporal layer and the key frame index (`vp8rtpfmt.c:892–902`). -/
def parseTidKeyidx (pd : PayloadDescriptor) (h : List UInt8) :
    Except ErrorCode (PayloadDescriptor × List UInt8) := do
  if pd.tidPresent || pd.keyidxPresent then
    let (octet, h) ← advance h
    return ({ pd with
      tid := if pd.tidPresent then (octet &&& 0xC0) >>> 6 else pd.tid
      layerSync := pd.tidPresent && bit octet 5
      keyidx := if pd.keyidxPresent then octet &&& 0x1F else pd.keyidx }, h)
  else return (pd, h)

/-- `parse_payload_descriptor` on the bytes of a packet (`vp8rtpfmt.c:842–907`): the descriptor
and the bytes behind it, of which there is one at least. -/
def parsePayloadDescriptor (h : List UInt8) :
    Except ErrorCode (PayloadDescriptor × List UInt8) := do
  let (pd, h) ← parseMandatory h
  let (pd, h) ← parseExtension pd h
  let (pd, h) ← parsePictureid pd h
  let (pd, h) ← parseTl0picidx pd h
  parseTidKeyidx pd h

/-! ## Reading what was written -/

theorem exists_ofNat_of_lt {octet : UInt8} {n : Nat} (h : octet.toNat < n) :
    ∃ k < n, UInt8.ofNat k = octet := ⟨octet.toNat, h, UInt8.ofNat_toNat⟩

theorem mandatory_bits (extended nonReference start : Bool) {pid : UInt8} (h : pid.toNat < 8) :
    let octet := flag extended 7 ||| flag nonReference 5 ||| flag start 4 ||| (pid &&& 0x07)
    bit octet 7 = extended ∧ bit octet 5 = nonReference ∧ bit octet 4 = start ∧
      octet &&& 0x07 = pid := by
  obtain ⟨k, hk, rfl⟩ := exists_ofNat_of_lt h
  revert k
  cases extended <;> cases nonReference <;> cases start <;> decide

theorem extension_bits (pictureid tl0picidx tid keyidx : Bool) :
    let octet := flag pictureid 7 ||| flag tl0picidx 6 ||| flag tid 5 ||| flag keyidx 4
    bit octet 7 = pictureid ∧ bit octet 6 = tl0picidx ∧ bit octet 5 = tid ∧
      bit octet 4 = keyidx := by
  cases pictureid <;> cases tl0picidx <;> cases tid <;> cases keyidx <;> decide

theorem masked_tid {tid : UInt8} (h : tid.toNat < 4) : tid &&& 0xC0 = 0 := by
  obtain ⟨k, hk, rfl⟩ := exists_ofNat_of_lt h
  revert k
  decide

theorem tidKeyidx_bits (layerSync : Bool) {keyidx : UInt8} (h : keyidx.toNat < 32) :
    let octet := flag layerSync 5 ||| (keyidx &&& 0x1F)
    (octet &&& 0xC0) >>> 6 = 0 ∧ bit octet 5 = layerSync ∧ octet &&& 0x1F = keyidx := by
  obtain ⟨k, hk, rfl⟩ := exists_ofNat_of_lt h
  revert k
  cases layerSync <;> decide

theorem octet_and_ne_zero (octet mask : UInt8) {i : Nat} (h : mask.toNat = 2 ^ i) :
    (octet &&& mask != 0) = octet.toNat.testBit i := by
  have hz : octet &&& mask = 0 ↔ octet.toNat.testBit i = false := by
    rw [← UInt8.toNat_inj, UInt8.toNat_and, h, Nat.and_two_pow]
    cases octet.toNat.testBit i <;> simp
  cases hb : octet.toNat.testBit i <;> simp [bne_iff_ne, hz, hb]

theorem short_and_ne_zero (short mask : UInt16) {i : Nat} (h : mask.toNat = 2 ^ i) :
    (short &&& mask != 0) = short.toNat.testBit i := by
  have hz : short &&& mask = 0 ↔ short.toNat.testBit i = false := by
    rw [← UInt16.toNat_inj, UInt16.toNat_and, h, Nat.and_two_pow]
    cases short.toNat.testBit i <;> simp
  cases hb : short.toNat.testBit i <;> simp [bne_iff_ne, hz, hb]

theorem and_octet (n : Nat) : n &&& 255 = n % 256 := Nat.and_two_pow_sub_one_eq_mod _ 8

section Pictureid

variable (pictureid : UInt16)

theorem toNat_high : ((pictureid >>> 8) &&& 0xFF).toUInt8.toNat = pictureid.toNat / 256 := by
  have hlt := pictureid.toNat_lt
  show ((pictureid.toNat >>> 8) &&& 255) % 256 = _
  rw [and_octet, Nat.shiftRight_eq_div_pow]
  omega

theorem toNat_low : (pictureid &&& 0xFF).toUInt8.toNat = pictureid.toNat % 256 := by
  show (pictureid.toNat &&& 255) % 256 = _
  rw [and_octet, Nat.mod_mod]

theorem pictureid_octets : ((pictureid >>> 8) &&& 0xFF).toUInt8.toUInt16 <<< 8 |||
      (pictureid &&& 0xFF).toUInt8.toUInt16 = pictureid := by
  have hlt := pictureid.toNat_lt
  have hshift : (pictureid.toNat / 256) <<< 8 = 256 * (pictureid.toNat / 256) := by
    rw [Nat.shiftLeft_eq, Nat.mul_comm]
  apply UInt16.toNat_inj.mp
  rw [UInt16.toNat_or, UInt16.toNat_shiftLeft, UInt8.toNat_toUInt16, UInt8.toNat_toUInt16,
    toNat_high, toNat_low]
  show (pictureid.toNat / 256) <<< 8 % 65536 ||| pictureid.toNat % 256 = pictureid.toNat
  rw [Nat.mod_eq_of_lt (by omega), ← Nat.shiftLeft_add_eq_or_of_lt (by omega), hshift]
  omega

theorem bit_high : bit ((pictureid >>> 8) &&& 0xFF).toUInt8 7 = (pictureid &&& 0x8000 != 0) := by
  have hmask : ((1 : UInt8) <<< 7).toNat = 2 ^ 7 := rfl
  rw [bit, octet_and_ne_zero _ _ hmask, toNat_high, show 256 = 2 ^ 8 from rfl,
    Nat.testBit_div_two_pow, short_and_ne_zero _ 0x8000 (i := 15) rfl]

end Pictureid

theorem pictureid_short {pictureid : UInt16} (h : pictureid < 0x80) :
    bit (pictureid &&& 0xFF).toUInt8 7 = false ∧
      (pictureid &&& 0xFF).toUInt8.toUInt16 = pictureid := by
  obtain ⟨n, hn, rfl⟩ : ∃ n < 128, UInt16.ofNat n = pictureid :=
    ⟨pictureid.toNat, h, UInt16.ofNat_toNat⟩
  revert n
  decide

/-- A descriptor as the encoder fills it in: the extension bit says whether there is an
extension, the numbers fit their fields, and what is absent is zero. -/
structure PayloadDescriptor.WellFormed (pd : PayloadDescriptor) : Prop where
  extended : pd.extendedControlBitsPresent =
    (pd.pictureidPresent || pd.tl0picidxPresent || pd.tidPresent || pd.keyidxPresent)
  pictureid : pd.pictureid < 0x80 ∨ pd.pictureid &&& 0x8000 ≠ 0
  tl0picidx_tid : pd.tl0picidxPresent = true → pd.tidPresent = true
  tid_lt : pd.tid.toNat < 4
  keyidx_lt : pd.keyidx.toNat < 32
  pid_lt : pd.pid.toNat < 8
  pictureid_absent : pd.pictureidPresent = false → pd.pictureid = 0
  tl0picidx_absent : pd.tl0picidxPresent = false → pd.tl0picidx = 0
  tid_absent : pd.tidPresent = false → pd.tid = 0 ∧ pd.layerSync = false
  keyidx_absent : pd.keyidxPresent = false → pd.keyidx = 0

open PayloadDescriptor

section RoundTrip

variable {pd : PayloadDescriptor} {h : List UInt8}

theorem parseMandatory_octet (hwf : pd.WellFormed) (first : Bool) (hh : h ≠ []) :
    parseMandatory (pd.mandatoryOctet first :: h) = .ok ({
        extendedControlBitsPresent := pd.extendedControlBitsPresent
        nonReferenceFrame := pd.nonReferenceFrame
        startOfPartition := pd.startOfPartition && first
        pid := pd.pid }, h) := by
  obtain ⟨hext, hnon, hstart, hpid⟩ := mandatory_bits pd.extendedControlBitsPresent
    pd.nonReferenceFrame (pd.startOfPartition && first) hwf.pid_lt
  simp only [parseMandatory, advance_cons _ hh, mandatoryOctet, bind,
    Except.bind, hext, hnon, hstart, hpid]
  rfl

variable {pd₀ : PayloadDescriptor}

theorem parseExtension_octets (hwf : pd.WellFormed) (hh : h ≠ [])
    (hext : pd₀.extendedControlBitsPresent = pd.extendedControlBitsPresent)
    (hpic : pd₀.pictureidPresent = false) (htl0 : pd₀.tl0picidxPresent = false)
    (htid : pd₀.tidPresent = false) (hkey : pd₀.keyidxPresent = false) :
    parseExtension pd₀ (pd.extensionOctets ++ h) = .ok ({ pd₀ with
        pictureidPresent := pd.pictureidPresent
        tl0picidxPresent := pd.tl0picidxPresent
        tidPresent := pd.tidPresent
        keyidxPresent := pd.keyidxPresent }, h) := by
  have hflags := hwf.extended
  unfold parseExtension extensionOctets
  rw [hext]
  cases he : pd.extendedControlBitsPresent with
  | true =>
    obtain ⟨h7, h6, h5, h4⟩ := extension_bits pd.pictureidPresent pd.tl0picidxPresent
      pd.tidPresent pd.keyidxPresent
    have hvalid : (pd.tl0picidxPresent && !pd.tidPresent) = false := by
      cases htl : pd.tl0picidxPresent with
      | true => rw [hwf.tl0picidx_tid htl]; rfl
      | false => rfl
    simp only [if_true, cons_append, nil_append, advance_cons _ hh, bind, Except.bind,
      h7, h6, h5, h4, hvalid]
    rfl
  | false =>
    rw [he] at hflags
    simp only [Eq.comm (a := false), Bool.or_eq_false_iff] at hflags
    obtain ⟨⟨⟨hp, ht⟩, hi⟩, hk⟩ := hflags
    have hsame : ({ pd₀ with
        extendedControlBitsPresent := false
        pictureidPresent := false
        tl0picidxPresent := false
        tidPresent := false
        keyidxPresent := false } : PayloadDescriptor) = pd₀ := by
      ext <;> simp only [hext, he, hpic, htl0, htid, hkey]
    rw [hp, ht, hi, hk, hsame]
    rfl

theorem parsePictureid_octets (hwf : pd.WellFormed) (hh : h ≠ [])
    (hpic : pd₀.pictureidPresent = pd.pictureidPresent) (hzero : pd₀.pictureid = 0) :
    parsePictureid pd₀ (pd.pictureidOctets ++ h) =
      .ok ({ pd₀ with pictureid := pd.pictureid }, h) := by
  unfold parsePictureid pictureidOctets
  rw [hpic]
  cases hp : pd.pictureidPresent with
  | false =>
    have hsame : ({ pd₀ with pictureidPresent := false, pictureid := 0 } : PayloadDescriptor) =
        pd₀ := by
      ext <;> simp only [hpic, hp, hzero]
    rw [hwf.pictureid_absent hp, hsame]
    rfl
  | true =>
    cases hlong : pd.pictureid &&& 0x8000 != 0 with
    | true =>
      have hne : (pd.pictureid &&& 0xFF).toUInt8 :: h ≠ [] := cons_ne_nil _ _
      simp only [if_true, cons_append, nil_append, advance_cons _ hne,
        advance_cons _ hh, bind, Except.bind, bit_high, hlong, pictureid_octets]
      rfl
    | false =>
      have hshort : pd.pictureid < 0x80 :=
        hwf.pictureid.resolve_right (by simpa [bne_eq_false_iff_eq] using hlong)
      obtain ⟨hbit, hval⟩ := pictureid_short hshort
      simp only [if_true, Bool.false_eq_true, if_false, cons_append, nil_append,
        advance_cons _ hh, bind, Except.bind, hbit, hval]
      rfl

theorem parseTl0picidx_octets (hwf : pd.WellFormed) (hh : h ≠ [])
    (htl0 : pd₀.tl0picidxPresent = pd.tl0picidxPresent) (hzero : pd₀.tl0picidx = 0) :
    parseTl0picidx pd₀ (pd.tl0picidxOctets ++ h) =
      .ok ({ pd₀ with tl0picidx := pd.tl0picidx }, h) := by
  unfold parseTl0picidx tl0picidxOctets
  rw [htl0]
  cases ht : pd.tl0picidxPresent with
  | false =>
    have hsame : ({ pd₀ with tl0picidxPresent := false, tl0picidx := 0 } : PayloadDescriptor) =
        pd₀ := by
      ext <;> simp only [htl0, ht, hzero]
    rw [hwf.tl0picidx_absent ht, hsame]
    rfl
  | true =>
    simp only [if_true, cons_append, nil_append, advance_cons _ hh, bind, Except.bind]
    rfl

theorem parseTidKeyidx_octets (hwf : pd.WellFormed) (hh : h ≠ [])
    (htid : pd₀.tidPresent = pd.tidPresent) (hkey : pd₀.keyidxPresent = pd.keyidxPresent)
    (hzt : pd₀.tid = 0) (hzl : pd₀.layerSync = false) (hzk : pd₀.keyidx = 0) :
    parseTidKeyidx pd₀ (pd.tidKeyidxOctets ++ h) =
      .ok ({ pd₀ with tid := 0, layerSync := pd.layerSync, keyidx := pd.keyidx }, h) := by
  unfold parseTidKeyidx tidKeyidxOctets
  rw [htid, hkey, hzt, hzk]
  cases ht : pd.tidPresent <;> cases hk : pd.keyidxPresent
  · have hsame : ({ pd₀ with
        tidPresent := false
        keyidxPresent := false
        tid := 0
        layerSync := false
        keyidx := 0 } : PayloadDescriptor) = pd₀ := by
      ext <;> simp only [htid, ht, hkey, hk, hzt, hzl, hzk]
    rw [(hwf.tid_absent ht).2, hwf.keyidx_absent hk, hsame]
    rfl
  · obtain ⟨-, -, hkeyidx⟩ := tidKeyidx_bits false hwf.keyidx_lt
    have hzero : (0 : UInt8) ||| (pd.keyidx &&& 0x1F) = flag false 5 ||| (pd.keyidx &&& 0x1F) := rfl
    simp only [Bool.or_true, Bool.false_eq_true, if_true, if_false, cons_append, nil_append,
      advance_cons _ hh, bind, Except.bind, hzero, hkeyidx, Bool.false_and, (hwf.tid_absent ht).2]
    rfl
  · obtain ⟨htid, hsync, -⟩ := tidKeyidx_bits pd.layerSync (show (0 : UInt8).toNat < 32 by decide)
    have hzero : (pd.tid &&& 0xC0) ||| flag pd.layerSync 5 ||| 0 =
        flag pd.layerSync 5 ||| (0 &&& 0x1F) := by
      rw [masked_tid hwf.tid_lt, UInt8.zero_or]
      rfl
    simp only [Bool.or_false, Bool.false_eq_true, if_true, if_false, cons_append, nil_append,
      advance_cons _ hh, bind, Except.bind, hzero, htid, hsync, Bool.true_and, hwf.keyidx_absent hk]
    rfl
  · obtain ⟨htid, hsync, hkeyidx⟩ := tidKeyidx_bits pd.layerSync hwf.keyidx_lt
    have hzero : (pd.tid &&& 0xC0) ||| flag pd.layerSync 5 ||| (pd.keyidx &&& 0x1F) =
        flag pd.layerSync 5 ||| (pd.keyidx &&& 0x1F) := by
      rw [masked_tid hwf.tid_lt, UInt8.zero_or]
    simp only [Bool.or_true, if_true, cons_append, nil_append,
      advance_cons _ hh, bind, Except.bind, hzero, htid, hsync, hkeyidx, Bool.true_and]
    rfl

/-- What the packer wrote is read, up to the temporal layer. -/
theorem parse_octets (hwf : pd.WellFormed) (first : Bool) (hh : h ≠ []) :
    parsePayloadDescriptor (pd.octets first ++ h) =
      .ok ({ pd with startOfPartition := pd.startOfPartition && first, tid := 0 }, h) := by
  have htid := append_ne_nil_of_right_ne_nil pd.tidKeyidxOctets hh
  have htl0 := append_ne_nil_of_right_ne_nil pd.tl0picidxOctets htid
  have hpic := append_ne_nil_of_right_ne_nil pd.pictureidOctets htl0
  have hext := append_ne_nil_of_right_ne_nil pd.extensionOctets hpic
  simp only [parsePayloadDescriptor, octets, cons_append,
    append_assoc, bind, Except.bind]
  rw [parseMandatory_octet hwf first hext]
  dsimp only
  rw [parseExtension_octets hwf hpic]
  dsimp only
  rw [parsePictureid_octets hwf htl0]
  dsimp only
  rw [parseTl0picidx_octets hwf htid]
  dsimp only
  rw [parseTidKeyidx_octets hwf hh]
  all_goals rfl

end RoundTrip

end GrooveIp.Vp8
