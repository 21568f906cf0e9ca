import GrooveIp.Vp8.Packer

/-!
# The VP8 unpacker

How received payloads become frames again (`vp8rtpfmt.c:462–679, 931–965`): the packets with one
time stamp make a frame, its partitions are taken apart by their numbers, and the header of the
first one tells what the others should be (`vp8rtpfmt.c:98–311`). The notifications of the filter
and the output of the frames are left out.
-/

namespace GrooveIp.Vp8

open Lib Ortp

/-! ## The boolean decoder -/

/-- `BOOL_DECODER` (`vp8rtpfmt.c:48–57`); the buffer is what is left of it. -/
structure BoolDecoder where
  userBuffer : List UInt8
  value : UInt64 := 0
  count : Int := -8
  range : Nat := 255

/-- What decodes. -/
abbrev Decode := StateT BoolDecoder (Except Fault)

/-- `vp8_norm` (`vp8rtpfmt.c:65–83`). -/
def vp8Norm : List Nat :=
  [0, 7, 6, 6] ++ List.replicate 4 5 ++ List.replicate 8 4 ++ List.replicate 16 3 ++
    List.replicate 32 2 ++ List.replicate 64 1 ++ List.replicate 128 0

/-- The loop of `vp8dx_bool_decoder_fill` (`vp8rtpfmt.c:111–118`). -/
def fillLoop (range : Nat) (loopEnd : Int) :
    List UInt8 → UInt64 → Int → Int → Except Fault BoolDecoder
  | bufptr, value, count, shift =>
    if loopEnd ≤ shift then
      match bufptr with
      | [] => .error .outOfBounds
      | octet :: bufptr =>
        fillLoop range loopEnd bufptr (value ||| octet.toUInt64 <<< UInt64.ofNat shift.toNat)
          (count + 8) (shift - 8)
    else .ok ⟨bufptr, value, count, range⟩

/-- `vp8dx_bool_decoder_fill` (`vp8rtpfmt.c:87–123`). -/
def BoolDecoder.fill (br : BoolDecoder) : Except Fault BoolDecoder :=
  let shift : Int := 64 - 8 - (br.count + 8)
  let bitsLeft := br.userBuffer.length * 8
  let x := toInt32 (shift + 8 - bitsLeft)
  let count := if 0 ≤ x then br.count + 0x40000000 else br.count
  if x < 0 ∨ bitsLeft ≠ 0 then fillLoop br.range (max x 0) br.userBuffer br.value count shift
  else .ok { br with count }

/-- `vp8dx_decode_bool` (`vp8rtpfmt.c:147–181`). -/
def decodeBool (probability : Nat) : Decode Bool := fun br => do
  let split := 1 + (br.range - 1) * probability / 2 ^ 8
  let br ← if br.count < 0 then br.fill else pure br
  let bigsplit := UInt64.ofNat split <<< 56
  let bit := bigsplit ≤ br.value
  let range := if bit then br.range - split else split
  let value := if bit then br.value - bigsplit else br.value
  let shift := vp8Norm.getD range 0
  return (bit, { br with
    value := value <<< UInt64.ofNat shift
    count := br.count - shift
    range := range * 2 ^ shift })

/-- `vp8_decode_value` (`vp8rtpfmt.c:183–194`). -/
def decodeValue : Nat → Decode Nat
  | 0 => return 0
  | bits + 1 => do
    let bit ← decodeBool 0x80
    let rest ← decodeValue bits
    return bit.toNat * 2 ^ bits + rest

/-- `vp8_read_bit`. -/
def readBit : Decode Bool := decodeBool 128

/-- A value that is there when its bit is set, with a sign behind it. -/
def skipSigned (bits : Nat) : Decode Unit := do
  if ← readBit then
    let _ ← decodeValue bits
    let _ ← readBit

/-- One of the probabilities of the segments. -/
def skipProbability : Decode Unit := do
  if ← readBit then
    let _ ← decodeValue 8

/-- Something read so many times. -/
def times (x : Decode Unit) : Nat → Decode Unit
  | 0 => return
  | n + 1 => do
    x
    times x n

/-- The segmentation of a header (`vp8rtpfmt.c:254–276`). -/
def skipSegmentation : Decode Unit := do
  let updateMap ← readBit
  let updateData ← readBit
  if updateData then
    let _ ← readBit
    times (skipSigned 7) 4
    times (skipSigned 6) 4
  if updateMap then times skipProbability 3

/-- The bits of a header up to the number of the partitions (`vp8rtpfmt.c:249–299`). -/
def decodePartitions (keyframe : Bool) : Decode Nat := do
  if keyframe then
    let _ ← readBit
    let _ ← readBit
  if ← readBit then skipSegmentation
  let _ ← readBit
  let _ ← decodeValue 6
  let _ ← decodeValue 3
  if ← readBit then
    if ← readBit then times (skipSigned 6) 8
  return 2 ^ (← decodeValue 2)

/-! ## Frames -/

/-- `Vp8RtpFmtPacket` as it is received (`vp8rtpfmt.h:62–67`); the payload is what is behind the
descriptor. -/
structure UnpackedPacket where
  m : Mblk
  payload : List UInt8
  pd : PayloadDescriptor
  error : Option ErrorCode := none
  cseqInconsistency : Bool := false

/-- `Vp8RtpFmtPartition` (`vp8rtpfmt.h:69–76`). -/
structure Partition where
  packets : List UnpackedPacket := []
  size : Nat := 0
  hasStart : Bool := false
  hasMarker : Bool := false

/-- `Vp8RtpFmtFramePartitionsInfo` (`vp8rtpfmt.h:78–81`). -/
structure PartitionsInfo where
  partitionSizes : List Nat := []
  nbPartitions : Nat := 0

/-- `Vp8RtpFmtFrame` (`vp8rtpfmt.h:83–94`); no error is `Vp8RtpFmtOk`. -/
structure Frame where
  partitionsInfo : PartitionsInfo := {}
  partitions : Nat → Option Partition := fun _ => none
  error : Option ErrorCode := none
  pictureid : UInt16 := 0
  pictureidPresent : Bool := false
  unnumberedPartitions : Bool := false
  keyframe : Bool := false
  reference : Bool := false

/-- `concat_packets_of_partition` (`vp8rtpfmt.c:196–214`): the bytes of the packets. -/
def concatPackets : List UnpackedPacket → Except Fault (List UInt8)
  | [] => .ok []
  | packet :: packets => do
    let m ← msgpullup {
      first := Block.ofBytes packet.payload
      cont := packets.map fun packet => Block.ofBytes packet.payload }
    return m.bytes

/-- `first_partition_length_in_bytes` (`vp8rtpfmt.c:240`). -/
def firstPartitionLength (data : List UInt8) : Nat :=
  ((data.getD 0 0).toNat + (data.getD 1 0).toNat * 2 ^ 8 + (data.getD 2 0).toNat * 2 ^ 16) / 2 ^ 5

/-- Where the first partition starts behind the tag of a frame (`vp8rtpfmt.c:241–245`). -/
def headerSkip (data : List UInt8) : Nat := if (data.getD 0 0) &&& 1 = 0 then 10 else 3

/-- One of the three bytes long sizes behind the first partition (`vp8rtpfmt.c:304–308`). -/
def partitionSizeAt (data : List UInt8) (i : Nat) : Except Fault Nat := do
  let size ← readBytes data (headerSkip data + firstPartitionLength data + (i - 1) * 3) 3
  return (size.getD 0 0).toNat + (size.getD 1 0).toNat * 2 ^ 8 + (size.getD 2 0).toNat * 2 ^ 16

variable (ctx : UnpackerCtx) (frame : Frame)

/-- `parse_frame_header` (`vp8rtpfmt.c:216–311`) of what is under the number 0. -/
def parseFrameHeader (data : List UInt8) : Except Fault (Bool × Frame) := do
  if data.length < 3 then return (false, frame)
  let keyframe : Bool := (data.getD 0 0) &&& 1 = 0
  let frame := { frame with keyframe }
  if keyframe ∧ data.length < 10 then return (false, frame)
  let (nb, _) ← decodePartitions keyframe { userBuffer := data.drop (headerSkip data) }
  if 8 < nb then return (false, frame)
  -- the sum is converted to a `uint16_t`
  let size := (headerSkip data + firstPartitionLength data + 3 * (nb - 1)) % 2 ^ 16
  if data.length < size then
    return (false, { frame with partitionsInfo := { frame.partitionsInfo with nbPartitions := nb } })
  let sizes ← (List.range' 1 (nb - 1)).mapM (partitionSizeAt data)
  return (true, { frame with partitionsInfo := ⟨size :: sizes, nb⟩ })

/-- A packet with its descriptor (`vp8rtpfmt.c:941–946`). Of a malformed one only the number of
the partition is looked at. -/
def parsePacket (m : Mblk) : Except Fault UnpackedPacket := do
  match ← receive m with
  | .ok (pd, payload) => return { m, payload, pd }
  | .error error =>
    let pid := m.bytes.headD 0 &&& 0x07
    return { m, payload := m.bytes, pd := { pid }, error := some error }

/-- The sequence number that is expected next, and whether another came (`vp8rtpfmt.c:947–957`). -/
def checkCseq (refCseq : Option UInt16) (packet : UnpackedPacket) : UnpackedPacket :=
  { packet with cseqInconsistency := refCseq.any fun ref => ref + 1 != packet.m.cseq }

end GrooveIp.Vp8
