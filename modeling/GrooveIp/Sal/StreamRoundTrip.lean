import GrooveIp.Sal.FeedbackRoundTrip
import GrooveIp.Sal.LineRoundTrip

/-!
# Streams through SDP

`sdp_to_stream_description` on what `stream_description_to_sdp` wrote (`sal_sdp.c:195–392`,
`sal_sdp.c:740–884`). A written media line is a list of blocks with names of their own, so
each part of the reader meets its block and nothing else.
-/

namespace GrooveIp.Sal

open Lib List
open BelleSdpBaseDescription (getAttributeValue getBandwidth)
open OnlyNames (append)

/-! ### The blocks of a media line -/

section

variable (forceRtpMap : Bool) (sessionAttr : Option BelleSdpAttribute)
  (stream : SalStreamDescription)

end

section

variable {forceRtpMap : Bool} {sessionAttr : Option BelleSdpAttribute}
  {stream : SalStreamDescription}

variable {m : BelleSdpMediaDescription}

/-- A stream that SDP can say: the strings fit their fields, a name of type or transport of
its own is none of the known ones, and payload numbers name one payload type each. -/
structure SalStreamDescription.WellFormed (stream : SalStreamDescription) : Prop where
  typeother : stream.type = .other → salStreamTypeOf stream.typeother = .other
  typeother_length : stream.typeother.length ≤ 31
  rtpPort : 0 < stream.rtpPort ∧ stream.rtpPort < 2 ^ 16
  rtcpPort : 0 ≤ stream.rtcpPort ∧ stream.rtcpPort < 2 ^ 16
  rtpAddr : stream.rtpAddr.length < 64
  rtcpAddr : stream.rtcpAddr ≠ [] → IsWord stream.rtcpAddr
  rtcpAddr_length : stream.rtcpAddr.length < 64
  ptime_lt : stream.ptime < 10 ^ 9
  payloads_ne_nil : stream.payloads ≠ []
  payloads : ∀ pt ∈ stream.payloads, pt.WellFormed (stream.type == .audio)
  numbers_nodup : (stream.payloads.map PayloadType.number).Nodup
  crypto : ∀ c ∈ cryptoEntries stream, c.WellFormed
  fingerprint : NoSpace stream.dtlsFingerprint
  fingerprint_length : stream.dtlsFingerprint.length < 256
  ice : IceWellFormed stream
  feedback : stream.hasAvpf ∨ stream.implicitRtcpFb → FeedbackWellFormed stream
  rtcpXr : stream.rtcpXr.WellFormed
  custom : stream.customSdpAttributes = []

/-- What a stream is after the way through SDP, in a session with an address and extended
report settings. -/
structure SalStreamDescription.ReadBack (addr : CString) (sessionXr : OrtpRtcpXrConfiguration)
    (s s' : SalStreamDescription) : Prop where
  type : s'.type = s.type
  typeother : s.type = .other → s'.typeother = s.typeother
  proto : s'.proto = s.proto
  rtpAddr : s'.rtpAddr = if s.rtpAddr ≠ [] ∧ s.rtpAddr ≠ addr then s.rtpAddr else []
  rtpPort : s'.rtpPort = s.rtpPort
  rtcpAddr : s'.rtcpAddr = if DifferentRtpAndRtcpAddr s then s.rtcpAddr else s'.rtpAddr
  rtcpPort : s'.rtcpPort = s.rtcpPort
  dir : s'.dir = s.dir
  bandwidth : s'.bandwidth = max s.bandwidth 0
  ptime : s'.ptime = if s.ptime > 0 then s.ptime else -1
  payloads : List.Forall₂ PayloadType.ReadBack s.payloads s'.payloads
  crypto : s.hasSrtp = true → ∀ i,
    s'.crypto i = if i.val < (cryptoEntries s).length then s.crypto i else {}
  dtls : s.hasDtls = true → s.dtlsRole ≠ .invalid → s.dtlsFingerprint ≠ [] →
    s'.dtlsRole = s.dtlsRole ∧ s'.dtlsFingerprint = s.dtlsFingerprint
  rtcpMux : s'.rtcpMux = s.rtcpMux
  iceMismatch : s'.iceMismatch = s.iceMismatch
  iceCredentials : s.iceMismatch = false → s'.iceUfrag = s.iceUfrag ∧ s'.icePwd = s.icePwd
  iceCandidates : s.iceMismatch = false →
    s'.iceCandidates = (usableCandidates s).map SalIceCandidate.readBack
  iceRemoteCandidates : s.iceMismatch = false → ∀ i, s'.iceRemoteCandidates i =
    if (s.iceRemoteCandidates i).Usable then s.iceRemoteCandidates i else {}
  feedback : s.hasAvpf ∨ s.implicitRtcpFb →
    s'.rtcpFb = s.rtcpFb ∧ List.Forall₂ PayloadType.SameFeedback s.payloads s'.payloads
  rtcpXr : (rtcpXrInForce sessionXr s.rtcpXr).ReadBack s'.rtcpXr

end

section

variable {forceRtpMap : Bool} {isMulticast : CString → Bool} {desc : SalMediaDescription}
  {sessionAttr : Option BelleSdpAttribute} {stream : SalStreamDescription}

end

end GrooveIp.Sal
