import GrooveIp.Stun.Framing

/-!
# Which datagrams the STUN parser survives

The attribute loop (`stun.c:746–877`) bounds a value by the bytes left but not the four
header bytes in front of it nor the padding behind it, and it compares the integrity value
before looking at the error flag. `WellFramed` is the class of datagrams on which none
of these reads goes wrong; the parser is total on exactly that class.
-/

namespace GrooveIp.Stun

open Lib StunMessageDecoder List
open UInt16 (ofNat)

/-! ### One attribute record -/

variable (bs : List UInt8)

/-- The type field of the record at the front of `bs`. -/
def attributeType : UInt16 := ofNat (beNat (bs.take 2))

/-- The length field of the record at the front of `bs`. -/
def attributeLength : UInt16 := ofNat (beNat ((bs.drop 2).take 2))

/-- The effect of a whole record: header, value and padding (`stun.c:747–876`). -/
def recordEffect : Effect :=
  if bs.length < 4 then .faults
  else
    let value := bs.drop 4
    let length := attributeLength bs
    if value.length < length.toNat then .refuses
    else
      match attributeEffect (.ofType (attributeType bs)) length value with
      | .consumes n =>
        if n + attributePadding length ≤ value.length then
          .consumes (4 + n + attributePadding length)
        else .faults
      | effect => effect

variable {d : StunMessageDecoder}

theorem decodeAttributeHeader_of_le (h : d.Synced) (h4 : 4 ≤ d.rest.length) :
    decodeAttributeHeader d =
      .ok ((attributeType d.rest, attributeLength d.rest), d.advance 4) := by
  have h2 : 2 ≤ d.rest.length := by omega
  have h2' : 2 ≤ (d.advance 2).rest.length := by rw [rest_advance, length_drop]; omega
  show ((decodeBytes 2 d >>= _) >>= _) = _
  rw [decodeBytes_of_le h h2]
  show ((decodeBytes 2 (d.advance 2) >>= _) >>= _) = _
  rw [decodeBytes_of_le (h.advance h2) h2', advance_advance d 2 2 h (by omega), rest_advance]
  rfl

/-- One turn of the attribute loop: the header that the switch is given, the message and the decoder
behind the padding; `none` is `goto error`. -/
def decodeRecord (decoder : StunMessageDecoder) (msg : MSStunMessage) :
    Except Fault (Option ((UInt16 × UInt16) × MSStunMessage × StunMessageDecoder)) := do
  let ((type, length), decoder) ← decodeAttributeHeader decoder
  if (length.toNat : Int) > decoder.remaining ∨ decoder.error then
    return none
  let (msg?, decoder) ← decodeAttribute (.ofType type) length msg decoder
  let some msg := msg? | return none
  if decoder.error then
    return none
  let ((), decoder) ← decodePadding (attributePadding length) decoder
  if decoder.error then
    return none
  return some ((type, length), msg, decoder)

/-- The loop goes on behind the record. -/
theorem decodeAttributes_succ (fuel : Nat) (d : StunMessageDecoder) (msg : MSStunMessage)
    (hpos : d.remaining > 0) : decodeAttributes (fuel + 1) d msg = (do
      match ← decodeRecord d msg with
      | none => return none
      | some (_, msg, d) => decodeAttributes fuel d msg) := by
  rw [decodeAttributes, if_pos hpos]
  unfold decodeRecord
  cases decodeAttributeHeader d with
  | error fault => rfl
  | ok header =>
    simp only [bind, Except.bind]
    split
    · rfl
    cases decodeAttribute _ _ msg header.2 with
    | error fault => rfl
    | ok value =>
      obtain ⟨msg?, d'⟩ := value
      cases msg? with
      | none => rfl
      | some msg' =>
        simp only
        split
        · rfl
        cases decodePadding _ d' with
        | error fault => rfl
        | ok padded =>
          simp only
          split <;> rfl

/-- One turn of the loop, by the effect of the record in front of the cursor. -/
theorem decodeRecord_exhibits (h : d.Synced) (msg : MSStunMessage) : match recordEffect d.rest with
    | .consumes n => 4 ≤ n ∧ n ≤ d.rest.length ∧ ∃ msg', decodeRecord d msg =
        .ok (some ((attributeType d.rest, attributeLength d.rest), msg', d.advance n))
    | .refuses => decodeRecord d msg = .ok none
    | .faults => decodeRecord d msg = .error .outOfBounds ∨
        decodeRecord d msg = .error .nullDereference := by
  unfold decodeRecord
  rcases Nat.lt_or_ge d.rest.length 4 with hshort | h4
  · rw [recordEffect, if_pos hshort, (reads_decodeAttributeHeader d h).2 hshort]
    exact .inl rfl
  rw [decodeAttributeHeader_of_le h h4]
  have hs := h.advance h4
  have hv : (d.advance 4).rest = d.rest.drop 4 := rest_advance d 4
  have hadv (n : Nat) (hn : n ≤ (d.rest.drop 4).length) :
      (d.advance 4).advance n = d.advance (4 + n) :=
    advance_advance d 4 n h (by rw [length_drop] at hn; omega)
  simp only [recordEffect, if_neg (Nat.not_lt.mpr h4)]
  generalize hlen : attributeLength d.rest = length
  generalize hattr : MSStunAttr.ofType (attributeType d.rest) = attr
  by_cases hl : (d.rest.drop 4).length < length.toNat
  · have hover : ((length.toNat : Int) > (d.advance 4).remaining ∨ (d.advance 4).error = true) :=
      .inl (by rw [hs.remaining_eq, hv]; omega)
    simp only [if_pos hl, hattr, bind, Except.bind, if_pos hover]
    rfl
  have hfit : ¬ ((length.toNat : Int) > (d.advance 4).remaining ∨ (d.advance 4).error = true) := by
    rw [hs.remaining_eq, hs.error_eq, hv]
    simp only [Bool.false_eq_true, or_false]
    omega
  have heff := decodeAttribute_exhibits hs attr (hv ▸ Nat.not_lt.mp hl) msg
  rw [hv] at heff
  simp only [if_neg hl, bind, Except.bind, hattr, if_neg hfit]
  cases he : attributeEffect attr length (d.rest.drop 4) with
  | refuses =>
    rw [he] at heff
    obtain ⟨msg?, d', hr, rfl | hd⟩ := heff
    · rw [hr]; rfl
    · rw [hr]
      cases msg? with
      | none => rfl
      | some msg' => simp only [hd, if_true]; rfl
  | faults =>
    rw [he] at heff
    rcases heff with hr | hr
    · rw [hr]; exact .inl rfl
    · rw [hr]; exact .inr rfl
  | consumes n =>
    rw [he] at heff
    obtain ⟨hn, msg', hr⟩ := heff
    have hn' : n ≤ (d.rest.drop 4).length := hv ▸ hn
    have hsn := hs.advance hn
    have hrest : ((d.advance 4).advance n).rest.length = (d.rest.drop 4).length - n := by
      rw [rest_advance, length_drop, hv]
    have hpad := reads_decodePadding (attributePadding length) _ hsn
    rw [hr]
    simp only [hsn.error_eq, Bool.false_eq_true, if_false]
    by_cases hp : n + attributePadding length ≤ (d.rest.drop 4).length
    · obtain ⟨u, hu⟩ := hpad.1 (by omega)
      have hspad := hsn.advance (n := attributePadding length) (by omega)
      simp only [if_pos hp, hu, hspad.error_eq, Bool.false_eq_true, if_false]
      rw [hadv n hn', advance_advance d _ _ h (by rw [length_drop] at hp; omega)]
      refine ⟨by omega, by rw [length_drop] at hp; omega, msg', rfl⟩
    · have hfault := hpad.2 (by omega)
      simp only [if_neg hp]
      rw [hfault]
      exact .inl rfl

theorem decodeAttributes_step (h : d.Synced) (hne : d.rest ≠ []) (fuel : Nat)
    (msg : MSStunMessage) : match recordEffect d.rest with
    | .consumes n => 4 ≤ n ∧ n ≤ d.rest.length ∧
        ∃ msg', decodeAttributes (fuel + 1) d msg = decodeAttributes fuel (d.advance n) msg'
    | .refuses => decodeAttributes (fuel + 1) d msg = .ok none
    | .faults => decodeAttributes (fuel + 1) d msg = .error .outOfBounds ∨
        decodeAttributes (fuel + 1) d msg = .error .nullDereference := by
  have hpos : d.remaining > 0 := by
    have := length_pos_iff.mpr hne
    rw [h.remaining_eq]
    omega
  have hrecord := decodeRecord_exhibits h msg
  rw [decodeAttributes_succ fuel d msg hpos]
  cases he : recordEffect d.rest with
  | consumes n =>
    rw [he] at hrecord
    obtain ⟨h4, hn, msg', hr⟩ := hrecord
    rw [hr]
    exact ⟨h4, hn, msg', rfl⟩
  | refuses =>
    rw [he] at hrecord
    rw [show decodeRecord d msg = .ok none from hrecord]
    rfl
  | faults =>
    rw [he] at hrecord
    rcases hrecord with hr | hr
    · rw [hr]
      exact .inl rfl
    · rw [hr]
      exact .inr rfl

/-! ### Whole datagrams -/

/-- The records from the front of `bs` on are either all there with their padding, or the
parser refuses one of them before anything is missing. -/
inductive AttributesFramed : List UInt8 → Prop where
  | done : AttributesFramed []
  | refused {bs : List UInt8} (hne : bs ≠ []) (he : recordEffect bs = .refuses) :
      AttributesFramed bs
  | next {bs : List UInt8} {n : Nat} (hne : bs ≠ []) (he : recordEffect bs = .consumes n)
      (hrest : AttributesFramed (bs.drop n)) : AttributesFramed bs

theorem not_attributesFramed_of_faults {bs : List UInt8} (hne : bs ≠ [])
    (he : recordEffect bs = .faults) : ¬ AttributesFramed bs := by
  intro h
  cases h with
  | done => exact hne rfl
  | refused _ he' => rw [he] at he'; cases he'
  | next _ he' _ => rw [he] at he'; cases he'

theorem AttributesFramed.of_consumes {bs : List UInt8} {n : Nat} (h : AttributesFramed bs)
    (hne : bs ≠ []) (he : recordEffect bs = .consumes n) : AttributesFramed (bs.drop n) := by
  cases h with
  | done => exact absurd rfl hne
  | refused _ he' => rw [he] at he'; cases he'
  | next _ he' hrest => rw [he] at he'; cases he'; exact hrest

/-- With fuel for every record the loop is total exactly on framed records, and otherwise
it leaves the buffer or follows a NULL pointer: it never runs out of fuel. -/
theorem decodeAttributes_total (fuel : Nat) (d : StunMessageDecoder) (h : d.Synced)
    (hf : d.rest.length < fuel) (msg : MSStunMessage) :
    (AttributesFramed d.rest ∧ ∃ r, decodeAttributes fuel d msg = .ok r) ∨
    (¬ AttributesFramed d.rest ∧ (decodeAttributes fuel d msg = .error .outOfBounds ∨
      decodeAttributes fuel d msg = .error .nullDereference)) := by
  induction fuel generalizing d msg with
  | zero => omega
  | succ fuel ih =>
    by_cases hne : d.rest = []
    · have hz : ¬ d.remaining > 0 := by rw [h.remaining_eq, hne]; simp
      rw [decodeAttributes, if_neg hz, hne]
      exact .inl ⟨.done, _, rfl⟩
    · have hstep := decodeAttributes_step h hne fuel msg
      cases he : recordEffect d.rest with
      | refuses =>
        rw [he] at hstep
        exact .inl ⟨.refused hne he, _, hstep⟩
      | faults =>
        rw [he] at hstep
        exact .inr ⟨not_attributesFramed_of_faults hne he, hstep⟩
      | consumes n =>
        rw [he] at hstep
        obtain ⟨h4, hn, msg', hrun⟩ := hstep
        have hlen : (d.advance n).rest.length = d.rest.length - n := by
          rw [rest_advance, length_drop]
        have ih := ih (d.advance n) (h.advance hn) (by omega) msg'
        rw [hrun]
        rw [rest_advance] at ih
        rcases ih with ⟨hfr, hok⟩ | ⟨hfr, hbad⟩
        · exact .inl ⟨.next hne he hfr, hok⟩
        · exact .inr ⟨fun hall => hfr (hall.of_consumes hne he), hbad⟩

variable (buf : List UInt8)

/-- The cookie field of a message (`stun.c:386`). -/
def headerCookie : UInt32 := UInt32.ofNat (beNat ((buf.drop 4).take 4))

/-- The cookie stands at offset 4 and the length field counts the bytes after the header
(`stun.c:378–394, 738–742`). -/
def headerAccepted : Bool :=
  headerCookie buf == msStunMagicCookie &&
    (attributeLength buf).toNat + stunMessageHeaderLength == buf.length

/-- A datagram the parser gets through: it is too short, its header is refused, or its
attributes are framed. -/
def WellFramed : Prop :=
  buf.length < stunMessageHeaderLength ∨ headerAccepted buf = false ∨
    AttributesFramed (buf.drop stunMessageHeaderLength)

/-- The header of a datagram of at least twenty bytes is read without a fault; a wrong
cookie sets the error flag. -/
theorem decodeMessageHeader_init {buf : List UInt8} (h20 : stunMessageHeaderLength ≤ buf.length) :
    ∃ msg d, decodeMessageHeader {} (stunMessageDecoderInit buf) = .ok (msg, d) ∧
      msg.length = attributeLength buf ∧ (headerCookie buf = msStunMagicCookie →
        d = (stunMessageDecoderInit buf).advance stunMessageHeaderLength) ∧
      (headerCookie buf ≠ msStunMagicCookie → d.error = true) := by
  have h := synced_init buf
  have hrest := rest_init buf
  generalize stunMessageDecoderInit buf = d at h hrest
  subst hrest
  unfold stunMessageHeaderLength at h20 ⊢
  have hlen (n : Nat) : (d.advance n).rest.length = d.rest.length - n := by
    rw [rest_advance, length_drop]
  have h2 : 2 ≤ d.rest.length := by omega
  have h4 : 2 ≤ (d.advance 2).rest.length := by rw [hlen]; omega
  have h8 : 4 ≤ (d.advance 4).rest.length := by rw [hlen]; omega
  have hrun : decodeMessageHeader {} d = (if headerCookie d.rest ≠ msStunMagicCookie then do
        setError
        return { type := ofNat (beNat (d.rest.take 2)) &&& 0x0110
                 method := ofNat (beNat (d.rest.take 2)) &&& 0x3EEF
                 length := attributeLength d.rest }
      else do
        let trId ← decodeBytes 12
        return { type := ofNat (beNat (d.rest.take 2)) &&& 0x0110
                 method := ofNat (beNat (d.rest.take 2)) &&& 0x3EEF
                 length := attributeLength d.rest
                 trId := trId } : DecodeM MSStunMessage) (d.advance 8) := by
    show ((decodeBytes 2 d >>= _) >>= _) = _
    rw [decodeBytes_of_le h h2]
    show ((decodeBytes 2 (d.advance 2) >>= _) >>= _) = _
    rw [decodeBytes_of_le (h.advance h2) h4, advance_advance d 2 2 h (by omega), rest_advance]
    show ((decodeBytes 4 (d.advance 4) >>= _) >>= _) = _
    rw [decodeBytes_of_le (h.advance (by omega)) h8, advance_advance d 4 4 h (by omega),
      rest_advance]
    rfl
  rw [hrun]
  by_cases hc : headerCookie d.rest = msStunMagicCookie
  · have h12 : 12 ≤ (d.advance 8).rest.length := by rw [hlen]; omega
    rw [if_neg (not_not_intro hc)]
    show ∃ msg d', (decodeBytes 12 (d.advance 8) >>= _) = _ ∧ _
    rw [decodeBytes_of_le (h.advance (by omega)) h12, advance_advance d 8 12 h (by omega)]
    exact ⟨_, _, rfl, rfl, fun _ => rfl, fun hn => absurd hc hn⟩
  · rw [if_pos hc]
    exact ⟨_, _, rfl, rfl, fun hn => absurd hn hc, fun _ => rfl⟩

theorem parsing_total :
    (WellFramed buf ∧ ∃ r, msStunMessageCreateFromBufferParsing buf = .ok r) ∨ (¬ WellFramed buf ∧
      (msStunMessageCreateFromBufferParsing buf = .error .outOfBounds ∨
        msStunMessageCreateFromBufferParsing buf = .error .nullDereference)) := by
  unfold msStunMessageCreateFromBufferParsing
  by_cases hshort : buf.length < stunMessageHeaderLength
  · rw [if_pos hshort]
    exact .inl ⟨.inl hshort, _, rfl⟩
  obtain ⟨msg, d, hhead, hlen, hok, hbad⟩ := decodeMessageHeader_init (Nat.not_lt.mp hshort)
  simp only [if_neg hshort, hhead, bind, Except.bind]
  by_cases hc : headerCookie buf ≠ msStunMagicCookie
  · rw [if_pos (hbad hc)]
    refine .inl ⟨.inr (.inl ?_), _, rfl⟩
    simp [headerAccepted, hc]
  rw [ne_eq, not_not] at hc
  have hs : d.Synced := hok hc ▸ (synced_init buf).advance (Nat.not_lt.mp hshort)
  have hrest : d.rest = buf.drop stunMessageHeaderLength := by rw [hok hc, rest_advance, rest_init]
  rw [if_neg (by rw [hs.error_eq]; exact Bool.false_ne_true), hlen]
  by_cases hl : (attributeLength buf).toNat + stunMessageHeaderLength ≠ buf.length
  · rw [if_pos hl]
    refine .inl ⟨.inr (.inl ?_), _, rfl⟩
    simp [headerAccepted, hl]
  rw [if_neg hl]
  have hframed : WellFramed buf ↔ AttributesFramed d.rest := by
    simp [WellFramed, hshort, headerAccepted, hc, hl, hrest]
  rw [hframed]
  exact decodeAttributes_total _ d hs (by rw [hrest, length_drop]; omega) msg

/-- The parser terminates, stays inside the datagram, follows no NULL pointer and returns
NULL or a message exactly when the datagram is well framed. -/
theorem msStunMessageCreateFromBufferParsing_safe_iff :
    (∃ msg, msStunMessageCreateFromBufferParsing buf = .ok msg) ↔ WellFramed buf := by
  rcases parsing_total buf with ⟨hw, hok⟩ | ⟨hw, hbad⟩
  · exact ⟨fun _ => hw, fun _ => hok⟩
  · refine ⟨fun ⟨_, hok⟩ => ?_, fun h => absurd h hw⟩
    rcases hbad with hbad | hbad <;> rw [hok] at hbad <;> cases hbad

/-- A binding request whose only attribute is a MESSAGE-INTEGRITY of length zero. -/
def emptyIntegrityRequest : List UInt8 :=
  [0x00, 0x01, 0x00, 0x04, 0x21, 0x12, 0xA4, 0x42] ++ List.replicate 12 0 ++
    [0x00, 0x08, 0x00, 0x00]

/-- The empty integrity value is compared through a NULL pointer. -/
theorem msStunMessageCreateFromBufferParsing_emptyIntegrity :
    ¬ ∀ buf, ∃ msg, msStunMessageCreateFromBufferParsing buf = .ok msg := by
  intro h
  obtain ⟨msg, hm⟩ := h emptyIntegrityRequest
  cases hm

end GrooveIp.Stun
