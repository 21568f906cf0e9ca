import GrooveIp.Stun.Safety

/-!
# Where the STUN parser finds attributes

An attribute of a declared length takes its four header bytes and the value rounded up to a multiple
of four. The attribute loop (`stun.c:746–875`) moves on by what a decoder has read and by the padding
of the declared length, so it finds the next attribute at its own offset only if both lengths agree:
a flag has no value, and the family of an address has the size that is declared.
-/

namespace GrooveIp.Stun

open Lib StunMessageDecoder List

/-! ### The framing -/

/-- An attribute: where it stands, its type and its declared length. -/
structure AttributeFrame where
  offset : Nat
  type : UInt16
  length : UInt16
  deriving DecidableEq, Repr

/-- The bytes an attribute of a declared length takes. -/
def attributeSize (length : UInt16) : Nat := 4 + (length.toNat + 3) / 4 * 4

/-- The attributes of a declared length that fill some bytes from an offset on. -/
inductive Frames : Nat → List UInt8 → List AttributeFrame → Prop where
  | done (offset : Nat) : Frames offset [] []
  | next {offset : Nat} {bs : List UInt8} {frames : List AttributeFrame} (h4 : 4 ≤ bs.length)
      (hfits : attributeSize (attributeLength bs) ≤ bs.length)
      (hrest : Frames (offset + attributeSize (attributeLength bs))
        (bs.drop (attributeSize (attributeLength bs))) frames) :
      Frames offset bs (⟨offset, attributeType bs, attributeLength bs⟩ :: frames)

/-- A message with the attributes it is made of: its length field counts the bytes behind the
header, which they fill. -/
structure FramedMessage (buf : List UInt8) (frames : List AttributeFrame) : Prop where
  header : stunMessageHeaderLength ≤ buf.length
  length : (attributeLength buf).toNat + stunMessageHeaderLength = buf.length
  attributes : Frames stunMessageHeaderLength (buf.drop stunMessageHeaderLength) frames

/-- What a decoder reads of the value of an attribute is what is declared. -/
def AttributeFrame.Agrees (buf : List UInt8) (frame : AttributeFrame) : Prop :=
  match MSStunAttr.ofType frame.type with
  | .useCandidate => frame.length = 0
  | .mappedAddress | .responseAddress | .sourceAddress | .changedAddress
  | .xorMappedAddress | .xorPeerAddress | .xorRelayedAddress =>
    frame.length.toNat = addressSize (buf.drop (frame.offset + 4))
  | _ => True

theorem attributeSize_eq (length : UInt16) :
    attributeSize length = 4 + length.toNat + attributePadding length := by
  unfold attributeSize attributePadding
  split <;> omega

/-! ### The switch -/

/-- The headers that the switch is given, with their offsets, as long as the loop goes on. -/
def switchedOn : Nat → StunMessageDecoder → MSStunMessage → List AttributeFrame
  | 0, _, _ => []
  | fuel + 1, decoder, msg =>
    if decoder.remaining > 0 then
      match decodeRecord decoder msg with
      | .ok (some ((type, length), msg, decoder')) =>
        ⟨decoder.ptr, type, length⟩ :: switchedOn fuel decoder' msg
      | _ => []
    else []

/-- The headers that the switch is given for a message. -/
def dispatched (buf : List UInt8) : List AttributeFrame :=
  match decodeMessageHeader {} (stunMessageDecoderInit buf) with
  | .ok (msg, decoder) => switchedOn (buf.length + 1) decoder msg
  | .error _ => []

/-! ### What a decoder reads -/

/-- What the value of an attribute of a case of the switch has to be for both lengths to agree. -/
def ValueAgrees (attr : MSStunAttr) (length : UInt16) (value : List UInt8) : Prop :=
  match attr with
  | .useCandidate => length = 0
  | .mappedAddress | .responseAddress | .sourceAddress | .changedAddress
  | .xorMappedAddress | .xorPeerAddress | .xorRelayedAddress => length.toNat = addressSize value
  | _ => True

theorem agrees_iff_valueAgrees {buf bs : List UInt8} {frame : AttributeFrame}
    (hbs : bs = buf.drop frame.offset) :
    frame.Agrees buf ↔ ValueAgrees (.ofType frame.type) frame.length (bs.drop 4) := by
  rw [hbs, drop_drop]
  rfl

theorem attributeEffect_consumes {attr : MSStunAttr} {length : UInt16} {value : List UInt8} {k : Nat}
    (heffect : attributeEffect attr length value = .consumes k) :
    ValueAgrees attr length value ↔ k = length.toNat := by
  cases attr
  case useCandidate =>
    obtain rfl := Effect.consumes.inj heffect
    show length = 0 ↔ _
    rw [← UInt16.toNat_inj]
    exact eq_comm
  case mappedAddress | responseAddress | sourceAddress | changedAddress | xorMappedAddress |
      xorPeerAddress | xorRelayedAddress =>
    simp only [attributeEffect] at heffect
    split at heffect
    · cases heffect
    split at heffect
    · obtain rfl := Effect.consumes.inj heffect
      exact eq_comm
    · cases heffect
  all_goals
    refine iff_of_true trivial ?_
    simp only [attributeEffect] at heffect
    first
      | obtain rfl := Effect.consumes.inj heffect
        rfl
      | split at heffect
        · cases heffect
        · next hlength =>
          obtain rfl := Effect.consumes.inj heffect
          first
            | rfl
            | rw [Classical.not_not.mp hlength]
              rfl

theorem agrees_of_consumes {buf bs : List UInt8} {frame : AttributeFrame} {n : Nat}
    (hbs : bs = buf.drop frame.offset) (htype : frame.type = attributeType bs)
    (hlength : frame.length = attributeLength bs) (hrecord : recordEffect bs = .consumes n) :
    frame.Agrees buf ↔ n = attributeSize frame.length := by
  rw [agrees_iff_valueAgrees hbs, htype, hlength, attributeSize_eq]
  simp only [recordEffect] at hrecord
  split at hrecord
  · cases hrecord
  split at hrecord
  · cases hrecord
  split at hrecord
  · next k heffect =>
    rw [attributeEffect_consumes heffect]
    split at hrecord
    · have hn := Effect.consumes.inj hrecord
      omega
    · cases hrecord
  · next hother => exact absurd hrecord (hother n)

/-! ### Along the loop -/

variable {fuel : Nat} {d : StunMessageDecoder} {msg accepted : MSStunMessage}

theorem switchedOn_step (h : d.Synced) (hne : d.rest ≠ [])
    (haccepted : decodeAttributes (fuel + 1) d msg = .ok (some accepted)) :
    ∃ n msg', recordEffect d.rest = .consumes n ∧ n ≤ d.rest.length ∧
      decodeAttributes fuel (d.advance n) msg' = .ok (some accepted) ∧
      switchedOn (fuel + 1) d msg = ⟨d.ptr, attributeType d.rest, attributeLength d.rest⟩ ::
        switchedOn fuel (d.advance n) msg' := by
  have hpos : d.remaining > 0 := by
    have hlength := length_pos_iff.mpr hne
    rw [h.remaining_eq]
    omega
  have hrecord := decodeRecord_exhibits h msg
  rw [decodeAttributes_succ fuel d msg hpos] at haccepted
  rw [switchedOn, if_pos hpos]
  cases heffect : recordEffect d.rest with
  | consumes n =>
    rw [heffect] at hrecord
    obtain ⟨-, hn, msg', hdecoded⟩ := hrecord
    rw [hdecoded] at haccepted
    exact ⟨n, msg', rfl, hn, haccepted, by rw [hdecoded]⟩
  | refuses =>
    rw [heffect] at hrecord
    rw [show decodeRecord d msg = .ok none from hrecord] at haccepted
    cases haccepted
  | faults =>
    rw [heffect] at hrecord
    rcases hrecord with hdecoded | hdecoded <;> rw [hdecoded] at haccepted <;> cases haccepted

theorem switchedOn_nil (h : d.Synced) (hnil : d.rest = []) : switchedOn fuel d msg = [] := by
  cases fuel with
  | zero => rfl
  | succ fuel =>
    have hend : ¬ d.remaining > 0 := by rw [h.remaining_eq, hnil]; simp
    rw [switchedOn, if_neg hend]

theorem switchedOn_start (h : d.Synced)
    (haccepted : decodeAttributes fuel d msg = .ok (some accepted)) :
    ((switchedOn fuel d msg).head?.map AttributeFrame.offset).getD d.buffer.length = d.ptr := by
  cases fuel with
  | zero => cases haccepted
  | succ fuel =>
    by_cases hnil : d.rest = []
    · rw [switchedOn_nil h hnil]
      have hlength : d.buffer.length - d.ptr = 0 := by
        rw [← length_drop]
        exact length_eq_zero_iff.mpr hnil
      exact Nat.le_antisymm (Nat.sub_eq_zero_iff_le.mp hlength) h.ptr_le
    · obtain ⟨n, msg', -, -, -, heq⟩ := switchedOn_step h hnil haccepted
      rw [heq]
      rfl

variable {frames : List AttributeFrame}

theorem Frames.start {offset : Nat} {bs : List UInt8} (hframes : Frames offset bs frames) :
    (frames.head?.map AttributeFrame.offset).getD (offset + bs.length) = offset := by
  cases hframes <;> rfl

theorem switchedOn_iff {buf : List UInt8}
    (hbuf : d.buffer = buf) (h : d.Synced) (hframes : Frames d.ptr d.rest frames)
    (haccepted : decodeAttributes fuel d msg = .ok (some accepted)) :
    switchedOn fuel d msg = frames ↔ ∀ frame ∈ frames, frame.Agrees buf := by
  induction fuel generalizing d msg frames with
  | zero => cases haccepted
  | succ fuel ih =>
    generalize hbs : d.rest = bs at hframes
    cases hframes with
    | done => exact iff_of_true (switchedOn_nil h hbs) (fun _ hmem => absurd hmem not_mem_nil)
    | @next _ _ frames h4 hfits hrest =>
      have hne : d.rest ≠ [] := by
        rintro hnil
        rw [← hbs, hnil] at h4
        exact absurd h4 (by decide)
      obtain ⟨n, msg', heffect, hn, hgoes, heq⟩ := switchedOn_step h hne haccepted
      have hs := h.advance hn
      have hagrees : (AttributeFrame.mk d.ptr (attributeType bs) (attributeLength bs)).Agrees buf ↔
          n = attributeSize (attributeLength bs) :=
        agrees_of_consumes (by rw [← hbs, ← hbuf]; rfl) rfl rfl (hbs ▸ heffect)
      have hgo (hsize : n = attributeSize (attributeLength bs)) :
          switchedOn fuel (d.advance n) msg' = frames ↔ ∀ frame ∈ frames, frame.Agrees buf := by
        refine ih (d := d.advance n) hbuf hs ?_ hgoes
        rw [rest_advance, hbs, hsize]
        exact hrest
      rw [heq, hbs, forall_mem_cons, List.cons.injEq, eq_self, true_and, hagrees]
      constructor
      · intro hswitched
        have hend : (d.advance n).buffer.length = d.ptr + attributeSize (attributeLength bs) +
            (bs.drop (attributeSize (attributeLength bs))).length := by
          have hlength : bs.length = d.buffer.length - d.ptr := by rw [← hbs]; exact length_drop
          have hadvance : (d.advance n).buffer = d.buffer := rfl
          rw [length_drop, hadvance]
          omega
        -- the next header stands where the framing has it
        have hstart := switchedOn_start hs hgoes
        rw [hswitched, hend, hrest.start] at hstart
        have hsize : n = attributeSize (attributeLength bs) := Nat.add_left_cancel hstart.symm
        exact ⟨hsize, (hgo hsize).mp hswitched⟩
      · rintro ⟨hsize, hall⟩
        exact (hgo hsize).mpr hall

/-- In an accepted message the parser finds every attribute at its own offset, and no other, exactly
when both lengths of every attribute agree. -/
theorem dispatched_iff {buf : List UInt8} {msg : MSStunMessage} (hframed : FramedMessage buf frames)
    (haccepted : msStunMessageCreateFromBufferParsing buf = .ok (some msg)) :
    dispatched buf = frames ↔ ∀ frame ∈ frames, frame.Agrees buf := by
  have h20 : ¬ buf.length < stunMessageHeaderLength := Nat.not_lt.mpr hframed.header
  obtain ⟨header, d, hheader, hlength, hcookie, hbad⟩ := decodeMessageHeader_init hframed.header
  rw [msStunMessageCreateFromBufferParsing, if_neg h20] at haccepted
  simp only [hheader, bind, Except.bind] at haccepted
  split at haccepted
  · cases haccepted
  next herror =>
  have hd := hcookie (Classical.byContradiction fun hne => herror (hbad hne))
  split at haccepted
  · cases haccepted
  have hs : d.Synced := hd ▸ (synced_init buf).advance hframed.header
  have hptr : d.ptr = stunMessageHeaderLength := by rw [hd]; rfl
  have hrest : d.rest = buf.drop stunMessageHeaderLength := by rw [hd, rest_advance, rest_init]
  rw [dispatched, hheader]
  refine switchedOn_iff (by rw [hd]; rfl) hs ?_ haccepted
  rw [hptr, hrest]
  exact hframed.attributes

/-- The header of a binding request whose attributes take `length` bytes. -/
def requestHeader (length : UInt8) : List UInt8 :=
  [0x00, 0x01, 0x00, length, 0x21, 0x12, 0xA4, 0x42] ++ List.replicate 12 0

/-- A check that nominates its pair: a priority and the flag. -/
def nominatingCheck : List UInt8 :=
  requestHeader 12 ++ [0x00, 0x24, 0x00, 0x04, 0x00, 0x00, 0x00, 0x01] ++ [0x00, 0x25, 0x00, 0x00]

theorem nominatingCheck_framed : FramedMessage nominatingCheck [⟨20, 0x24, 4⟩, ⟨28, 0x25, 0⟩]
    where
  header := by decide
  length := by decide
  attributes := .next (by decide) (by decide) (.next (by decide) (by decide) (.done 32))

/-- The parser finds both attributes of a check that nominates its pair. -/
theorem dispatched_nominatingCheck :
    dispatched nominatingCheck = [⟨20, 0x24, 4⟩, ⟨28, 0x25, 0⟩] := by
  obtain ⟨msg, hmsg⟩ : ∃ msg, msStunMessageCreateFromBufferParsing nominatingCheck =
    .ok (some msg) := ⟨_, rfl⟩
  exact (dispatched_iff nominatingCheck_framed hmsg).mpr
    (by simp [AttributeFrame.Agrees, MSStunAttr.ofType])

/-- A check with a flag of eight bytes, which read as a priority. -/
def priorityInFlag : List UInt8 :=
  requestHeader 12 ++ [0x00, 0x25, 0x00, 0x08] ++ [0x00, 0x24, 0x00, 0x04, 0x00, 0x00, 0x00, 0x01]

/-- The value of a flag is taken for another attribute. -/
theorem priorityInFlag_dispatched : ¬ ∀ buf frames msg, FramedMessage buf frames →
      msStunMessageCreateFromBufferParsing buf = .ok (some msg) → dispatched buf = frames := by
  intro h
  have hframed : FramedMessage priorityInFlag [⟨20, 0x25, 8⟩] :=
    ⟨by decide, by decide, .next (by decide) (by decide) (.done 32)⟩
  obtain ⟨msg, hmsg⟩ : ∃ msg, msStunMessageCreateFromBufferParsing priorityInFlag =
    .ok (some msg) := ⟨_, rfl⟩
  have hsame := h _ _ msg hframed hmsg
  cases hsame

end GrooveIp.Stun
