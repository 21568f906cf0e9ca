import GrooveIp.Lib.Loops
import GrooveIp.Lib.Losses
import GrooveIp.Vp8.Unpacker

/-!
# What the checks of a frame tell

Which frames `check_frame_partitions_list` (`vp8rtpfmt.c:564–613`) accepts: what is under the
number 0 starts at a start, no loss was noticed in it and its header is accepted; and then either
nothing else came, or the other partitions are as the header declares them.
-/

namespace GrooveIp.Vp8

open Lib Ortp List

/-! ## Partitions -/

/-- The packets of a partition. -/
def numbered (i : Nat) (packets : List UnpackedPacket) : List UnpackedPacket :=
  packets.filter (·.pd.pid.toNat = i)

/-- The messages that a frame holds, partition after partition. -/
def Frame.messages (frame : Frame) : List Mblk :=
  (List.range 9).flatMap fun i => match frame.partitions i with
    | none => []
    | some partition => partition.packets.map (·.m)

/-- The header that some packets under the number 0 begin with. -/
def headerOf (packets : List UnpackedPacket) : Except Fault (Bool × Frame) := do
  let data ← concatPackets packets
  parseFrameHeader {} data

/-- The packets begin with a start and no loss was noticed in them. -/
structure Unbroken (packets : List UnpackedPacket) : Prop where
  start : ∃ first rest, packets = first :: rest ∧ first.pd.startOfPartition = true
  unnoticed : ∀ p ∈ packets, p.cseqInconsistency = false

/-- A partition seems to begin inside a packet. -/
def StartsInside (i : Nat) (packets : List UnpackedPacket) : Prop :=
  ∃ first rest, numbered i packets = first :: rest ∧ first.pd.startOfPartition = false ∧
    first.cseqInconsistency = false

/-- The partitions behind the first one are as the header declares them, as far as that is
checked. -/
structure AsDeclared (info : PartitionsInfo) (packets : List UnpackedPacket) : Prop where
  middle : ∀ i, 0 < i → i < info.nbPartitions → numbered i packets ≠ [] ∧
    ((numbered i packets).map (·.payload.length)).sum = info.partitionSizes.getD i 0
  last : Unbroken (numbered info.nbPartitions packets) ∧
    ∃ p ∈ numbered info.nbPartitions packets, p.m.marker = true

/-- What is known of packets whose frame has no error. -/
structure Accepted (packets : List UnpackedPacket) : Prop where
  unbroken : Unbroken (numbered 0 packets)
  header : ∃ frame, headerOf (numbered 0 packets) = .ok (true, frame) ∧
    ((∀ p ∈ packets, p.pd.pid = 0) ∨
      (∃ i, i ≤ frame.partitionsInfo.nbPartitions ∧ StartsInside i packets) ∨
      AsDeclared frame.partitionsInfo packets)

section Checks

variable {packets : List UnpackedPacket} {frame : Frame}

end Checks

end GrooveIp.Vp8
