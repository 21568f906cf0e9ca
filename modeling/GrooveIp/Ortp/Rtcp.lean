import GrooveIp.Ortp.Mblk

/-!
# RTCP packets

How message blocks are filled (`str_utils.c:94, 309`), the common header that every RTCP packet
starts with (`rtcp.h:56–88`, `rtcp.c:178`) and how a receiver goes from packet to packet of a
compound one (`rtcpparse.c:24–58`). Data blocks start at an address that is a multiple of four, so
the offset of a pointer tells how it is aligned.
-/

namespace GrooveIp.Ortp

open Lib List

/-! ## Filling blocks -/

variable (n : Nat) (type : RtcpType)

/-- Two bytes in network order. -/
def htons : List UInt8 := [UInt8.ofNat (n / 2 ^ 8), UInt8.ofNat n]

/-- Four bytes in network order. -/
def htonl : List UInt8 := htons (n / 2 ^ 16) ++ htons n

@[simp] theorem length_htons : (htons n).length = 2 := rfl

@[simp] theorem length_htonl : (htonl n).length = 4 := rfl

theorem beNat_htons : beNat (htons n) = n % 2 ^ 16 := by
  simp only [beNat, htons, foldl_cons, foldl_nil, UInt8.toNat_ofNat']
  omega

/-- And four. -/
theorem beNat_htonl : beNat (htonl n) = n % 2 ^ 32 := by
  simp only [beNat, htonl, htons, cons_append, nil_append, foldl_cons,
    foldl_nil, UInt8.toNat_ofNat']
  omega

namespace Block

variable (size : Nat)

/-- `allocb` (`str_utils.c:96`). What `malloc` leaves in the data block is never read. -/
def alloc : Block := ⟨List.replicate size 0, 0, 0⟩

/-- Bytes written at `b_wptr`, which goes behind them. -/
def append (b : Block) (bs : List UInt8) : Except Fault Block :=
  if b.wptr + bs.length ≤ b.datap.length then
    .ok { b with
      datap := b.datap.take b.wptr ++ bs ++ b.datap.drop (b.wptr + bs.length)
      wptr := b.wptr + bs.length }
  else .error .outOfBounds

/-- `appendb` (`str_utils.c:309`): the block, and the one behind it where it had no room. -/
def appendb (b : Block) (data : List UInt8) (pad : Bool) : Except Fault (Block × Option Block) :=
  let padcnt := if pad then (4 - (b.wptr + data.length) % 4) % 4 else 0
  if b.wptr + data.length + padcnt > b.datap.length then do
    let new ← (alloc (max b.datap.length data.length)).append (data ++ List.replicate padcnt 0)
    return (b, some new)
  else do
    let b ← b.append (data ++ List.replicate padcnt 0)
    return (b, none)

/-- A block with more bytes at its end. -/
structure Appended (b : Block) (bs : List UInt8) (b' : Block) : Prop where
  wf : b'.WF
  bytes : b'.bytes = b.bytes ++ bs
  rptr : b'.rptr = b.rptr
  wptr : b'.wptr = b.wptr + bs.length
  capacity : b'.datap.length = b.datap.length

theorem wf_alloc : (alloc size).WF := ⟨Nat.le_refl _, Nat.zero_le _⟩

@[simp] theorem bytes_alloc : (alloc size).bytes = [] := rfl

@[simp] theorem capacity_alloc : (alloc size).datap.length = size :=
  length_replicate

/-- Where there is room the bytes go to the end. -/
theorem WF.append {b : Block} (h : b.WF) {bs : List UInt8}
    (room : b.wptr + bs.length ≤ b.datap.length) :
      ∃ b', b.append bs = .ok b' ∧ Appended b bs b' := by
  have hr := h.rptr_le
  have hw := h.wptr_le
  have htake : (b.datap.take b.wptr).length = b.wptr := length_take_of_le hw
  have capacity : (b.datap.take b.wptr ++ bs ++ b.datap.drop (b.wptr + bs.length)).length =
      b.datap.length := by
    simp only [length_append, htake, length_drop]
    omega
  refine ⟨_, if_pos room, ⟨by dsimp only; omega, by dsimp only; omega⟩, ?_, rfl, rfl, capacity⟩
  have hold : (b.datap.take b.wptr).drop b.rptr = b.bytes := drop_take
  have hlength : b.bytes.length = b.wptr - b.rptr := by
    rw [← hold, length_drop, htake]
  have hall : b.wptr + bs.length - b.rptr = (b.bytes ++ bs).length := by
    rw [length_append, hlength]
    omega
  change ((_ ++ bs ++ _).drop b.rptr).take (b.wptr + bs.length - b.rptr) = _
  rw [append_assoc, drop_append_of_le_length (by omega), hold, ← append_assoc, hall, take_left]

/-- A fresh block with room for the bytes. -/
theorem append_alloc {size : Nat} {bs : List UInt8} (room : bs.length ≤ size) :
    ∃ b, (alloc size).append bs = .ok b ∧ Appended (alloc size) bs b :=
  (wf_alloc size).append (by simpa [alloc] using room)

end Block

/-! ## The common header -/

/-- `rtcp_type_t` (`rtcp.h:39`). -/
inductive RtcpType where
  | sr
  | rr
  | sdes
  | bye
  | app
  | rtpfb
  | psfb
  | xr
  deriving DecidableEq, Repr

/-- The numbers of the types. -/
def RtcpType.code : RtcpType → UInt8
  | .sr => 200
  | .rr => 201
  | .sdes => 202
  | .bye => 203
  | .app => 204
  | .rtpfb => 205
  | .psfb => 206
  | .xr => 207

/-- `rtcp_common_header_init` (`rtcp.c:178`): version 2, five bits of `rc`, and the length field. -/
def rtcpCommonHeaderInit (rc bytesLen : Nat) : List UInt8 :=
  [UInt8.ofNat (2 * 2 ^ 6 + rc % 2 ^ 5), type.code] ++ htons (bytesLen / 4 - 1)

/-- `rtcp_common_header_get_rc`. -/
def rtcpRc (packet : List UInt8) : Nat := (packet.getD 0 0).toNat % 2 ^ 5

/-- `rtcp_common_header_get_packet_type`. -/
def rtcpPacketType (packet : List UInt8) : UInt8 := packet.getD 1 0

/-- `rtcp_common_header_get_length`. -/
def rtcpLength (packet : List UInt8) : Nat := beNat ((packet.drop 2).take 2)

/-- `rtcp_get_size` (`rtcpparse.c:24`) of what is between `b_rptr` and `b_wptr`. -/
def rtcpGetSize (packet : List UInt8) : Nat :=
  if packet.length < 4 then 0 else (1 + rtcpLength packet) * 4

/-- `rtcp_next_packet` (`rtcpparse.c:32`): what is between the pointers afterwards. -/
def rtcpNextPacket (packet : List UInt8) : Option (List UInt8) :=
  if 0 < rtcpGetSize packet ∧ rtcpGetSize packet < packet.length then
    some (packet.drop (rtcpGetSize packet))
  else none

variable {packet : List UInt8}

theorem length_rtcpNextPacket {rest : List UInt8} (h : rtcpNextPacket packet = some rest) :
    rest.length < packet.length := by
  unfold rtcpNextPacket at h
  split at h
  · next hsize =>
    cases h
    rw [length_drop]
    omega
  · cases h

/-- The packets that `rtcp_next_packet` goes through. -/
def rtcpPackets (compound : List UInt8) : List (List UInt8) :=
  compound.take (rtcpGetSize compound) :: match _h : rtcpNextPacket compound with
    | some rest => rtcpPackets rest
    | none => []
termination_by compound.length
decreasing_by exact length_rtcpNextPacket ‹_›

/-- What the receiver reads as the length. -/
theorem rtcpLength_init (rc bytesLen : Nat) (body : List UInt8) :
    rtcpLength (rtcpCommonHeaderInit type rc bytesLen ++ body) = (bytesLen / 4 - 1) % 2 ^ 16 :=
  beNat_htons _

/-- And as the five bits. -/
theorem rtcpRc_init (rc bytesLen : Nat) (body : List UInt8) :
    rtcpRc (rtcpCommonHeaderInit type rc bytesLen ++ body) = rc % 2 ^ 5 := by
  change (UInt8.ofNat (2 * 2 ^ 6 + rc % 2 ^ 5)).toNat % 2 ^ 5 = _
  rw [UInt8.toNat_ofNat']
  omega

@[simp] theorem length_rtcpCommonHeaderInit (rc bytesLen : Nat) :
    (rtcpCommonHeaderInit type rc bytesLen).length = 4 := rfl

/-- The length field of a packet tells how long it is. -/
def WellFramed (packet : List UInt8) : Prop :=
  packet.length % 4 = 0 ∧ packet.length = 4 * (rtcpLength packet + 1)

theorem rtcpGetSize_append (h : WellFramed packet) (rest : List UInt8) :
    rtcpGetSize (packet ++ rest) = packet.length := by
  have hlen : 4 ≤ packet.length := by
    have := h.2
    omega
  have hlength : rtcpLength (packet ++ rest) = rtcpLength packet := by
    unfold rtcpLength
    rw [drop_append_of_le_length (by omega), take_append_of_le_length (by
      rw [length_drop]
      omega)]
  have hnot : ¬(packet ++ rest).length < 4 := by
    rw [length_append]
    omega
  rw [rtcpGetSize, if_neg hnot, hlength, h.2]
  omega

/-- A compound of well framed packets is gone through packet by packet. -/
theorem rtcpPackets_flatten {packets : List (List UInt8)} (h : WellFramed packet)
    (hall : ∀ p ∈ packets, WellFramed p) :
    rtcpPackets (packet ++ packets.flatten) = packet :: packets := by
  induction packets generalizing packet with
  | nil =>
    have hsize := rtcpGetSize_append h []
    have hnext : rtcpNextPacket (packet ++ []) = none := by
      rw [rtcpNextPacket, hsize, append_nil]
      exact if_neg fun hlt => Nat.lt_irrefl _ hlt.2
    rw [flatten_nil, rtcpPackets, hsize]
    split
    · next rest hrest => rw [hnext] at hrest; cases hrest
    · rw [append_nil, take_length]
  | cons second packets ih =>
    have hsecond := hall second mem_cons_self
    have hsize := rtcpGetSize_append h (second :: packets).flatten
    have hnext : rtcpNextPacket (packet ++ (second :: packets).flatten) =
        some (second :: packets).flatten := by
      have hpos : 0 < packet.length := by
        have := h.2
        omega
      have hmore : packet.length < (packet ++ (second :: packets).flatten).length := by
        have := hsecond.2
        rw [length_append, flatten_cons, length_append]
        omega
      rw [rtcpNextPacket, hsize, if_pos ⟨hpos, hmore⟩, drop_left]
    rw [rtcpPackets, hsize, take_left]
    split
    · next rest hrest =>
      rw [hnext] at hrest
      cases hrest
      rw [flatten_cons, ih hsecond fun p hp => hall p (mem_cons_of_mem second hp)]
    · next hrest => rw [hnext] at hrest; cases hrest

end GrooveIp.Ortp
