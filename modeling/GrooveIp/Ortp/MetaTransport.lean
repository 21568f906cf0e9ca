import GrooveIp.Lib.Layers

/-!
# Meta transports

The send and receive paths of `rtpsession.c:2131–2384` over the modifiers of the RTP and RTCP
transports of one session, and the receive loops of `rtpsession_inet.c:1648–1833` that hand a
packet to RTP or RTCP processing. A message is its buffer with the write pointer as an offset,
which the walks move by the difference of the sizes that a modifier reports.
-/

namespace GrooveIp.Ortp

open Lib

/-- `RtpTransportModifier`: the data of the buffer and the size after each method, for the
bytes of the message before. A reported size lies inside the buffer. -/
structure RtpTransportModifier where
  processOnSend : List UInt8 → Int × List UInt8
  processOnReceive : List UInt8 → Int × List UInt8
  processOnSend_le : ∀ m, (processOnSend m).1 ≤ (processOnSend m).2.length
  processOnReceive_le : ∀ m, (processOnReceive m).1 ≤ (processOnReceive m).2.length

/-- A message of one block: its buffer from `b_rptr` on, and `b_wptr - b_rptr`. -/
structure Message where
  data : List UInt8
  wptr : Int

/-- The bytes between `b_rptr` and `b_wptr`. -/
def Message.bytes (msg : Message) : List UInt8 := msg.data.take msg.wptr.toNat

/-- The fields of an `RtpSession` and its two transports that decide how a packet goes. `linked`
says that each transport has the other one as `other_meta_rtp`, `connected` that the socket of
RTP (`true`) or RTCP was connected. -/
structure MetaRtpSession where
  rtpModifiers : List RtpTransportModifier
  rtcpModifiers : List RtpTransportModifier
  rtcpMux : Bool := false
  linked : Bool := true
  connected : Bool → Bool := fun _ => false

variable (s : MetaRtpSession) (isRtp : Bool)

/-- The modifiers of the transport of RTP or RTCP. -/
def MetaRtpSession.modifiers : List RtpTransportModifier :=
  if isRtp then s.rtpModifiers else s.rtcpModifiers

/-- The walk of the send paths over the modifiers from the `tpm`-th one on, itself excluded
(`rtpsession.c:2188–2198`, `2247–2266`): the size of the modifier that stopped it, or the
message. -/
def sendLoop (tpm : Option Nat) :
    (foundMyself : Bool) → List (RtpTransportModifier × Nat) → (prevRet : Int) → Message →
      Except Int Message
  | _, [], _, msg => .ok msg
  | foundMyself, (rtm, i) :: rest, prevRet, msg =>
    let foundNext := foundMyself || tpm == some i
    if foundMyself then
      let (ret, data) := rtm.processOnSend msg.bytes
      if ret ≤ 0 then .error ret
      else sendLoop tpm foundNext rest ret { data, wptr := msg.wptr + (ret - prevRet) }
    else sendLoop tpm foundNext rest prevRet msg

/-- `meta_rtp_transport_modifier_inject_packet_to_send_to` on the transport of `isRtp`
(`rtpsession.c:2236–2275`): the port the packet leaves through, with its bytes. -/
def injectPacketToSendTo (tpm : Option Nat) (msg : List UInt8) : Option (Bool × List UInt8) :=
  match sendLoop tpm tpm.isNone (s.modifiers isRtp).zipIdx msg.length ⟨msg, msg.length⟩ with
  | .error _ => none
  | .ok out => some (isRtp, out.bytes)

/-- `meta_rtp_transport_sendto` (`rtpsession.c:2178–2208`): with rtcp-mux RTCP leaves through
the RTP endpoint. -/
def metaRtpTransportSendto (msg : List UInt8) : Option (Bool × List UInt8) :=
  match sendLoop none true (s.modifiers isRtp).zipIdx msg.length ⟨msg, msg.length⟩ with
  | .error _ => none
  | .ok out =>
    if !isRtp && s.rtcpMux then
      if s.linked then some (true, out.bytes) else none
    else some (isRtp, out.bytes)

/-- The second loop of `_meta_rtp_transport_recv_through_modifiers`, over the modifiers from the
last one (`rtpsession.c:2291–2309`). -/
def recvLoop (tpm : Option Nat) :
    (foundMyself : Bool) → List (RtpTransportModifier × Nat) → (ret : Int) → Message → Int × Message
  | _, [], ret, msg => (ret, msg)
  | foundMyself, (rtm, i) :: rest, prevRet, msg =>
    let foundNext := foundMyself || tpm == some i
    if foundMyself then
      let (ret, data) := rtm.processOnReceive msg.bytes
      if ret < 0 then (ret, { msg with data })
      else recvLoop tpm foundNext rest ret { data, wptr := msg.wptr + (ret - prevRet) }
    else recvLoop tpm foundNext rest prevRet msg

/-- `_meta_rtp_transport_recv_through_modifiers` (`rtpsession.c:2277–2310`). -/
def recvThroughModifiers (modifiers : List RtpTransportModifier) (tpm : Option Nat)
    (msg : Message) : Int × Message :=
  recvLoop tpm tpm.isNone modifiers.zipIdx.reverse msg.wptr msg

/-- A packet handed to `rtp_session_process_incoming`: as RTP or as RTCP, with its bytes. -/
abbrev Handed := Bool × List UInt8

/-- `meta_rtp_transport_modifier_inject_packet_to_recv` (`rtpsession.c:2315–2320`). -/
def injectPacketToRecv (tpm : Option Nat) (msg : List UInt8) : List Handed :=
  let (_, out) := recvThroughModifiers (s.modifiers isRtp) tpm ⟨msg, msg.length⟩
  [(isRtp, out.bytes)]

/-- `RTP_FIXED_HEADER_SIZE` (`rtp.h:29`). -/
def rtpFixedHeaderSize : Nat := 12

variable (m : List UInt8)

/-- `rtp_get_version` (`rtp.h:117`). -/
def rtpGetVersion : UInt8 := m.getD 0 0 >>> 6

/-- `rtp_get_payload_type` (`rtp.h:122`). -/
def rtpGetPayloadType : UInt8 := m.getD 1 0 &&& 0x7F

/-- The header test of `meta_rtp_transport_recvfrom` for an RTCP packet (`rtpsession.c:2360–2362`),
apart from the length. -/
def looksLikeRtcp : Bool :=
  rtpGetVersion m == 2 && decide (64 ≤ rtpGetPayloadType m) && decide (rtpGetPayloadType m ≤ 95)

/-- `meta_rtp_transport_recvfrom` for a packet that the endpoint returned
(`rtpsession.c:2323–2384`): the returned size, the message, and what was handed over on the way. -/
def metaRtpTransportRecvfrom (packet : List UInt8) : Int × Message × List Handed :=
  let msg : Message := ⟨packet, packet.length⟩
  let receivedViaRtcpMux :=
    s.rtcpMux && isRtp && decide (rtpFixedHeaderSize ≤ packet.length) && looksLikeRtcp packet
  let (ret, msg, handed) :=
    if receivedViaRtcpMux then
      if s.linked then
        let (_, msg) := recvThroughModifiers s.rtcpModifiers none msg
        (0, msg, [(false, msg.bytes)])
      else ((packet.length : Int), msg, [])
    else
      let (ret, msg) := recvThroughModifiers (s.modifiers isRtp) none msg
      (ret, msg, [])
  (ret, { msg with wptr := msg.wptr - ret }, handed)

/-- What is handed to RTP or RTCP processing of a packet received on a port, by
`rtp_session_recvfrom_async` with `rtp_session_rtp_recv`, or by `rtp_session_rtcp_recv`
(`rtpsession_inet.c:1671–1717`, `1759–1761`, `1782–1830`). -/
def rtpSessionRecv (packet : List UInt8) : List Handed :=
  if s.connected isRtp then
    if 0 < packet.length then [(isRtp, packet)] else []
  else if packet.length = 0 then []
  else
    let (error, mp, handed) := metaRtpTransportRecvfrom s isRtp packet
    if error > 0 then handed ++ [(isRtp, { mp with wptr := mp.wptr + error }.bytes)] else handed

end GrooveIp.Ortp
