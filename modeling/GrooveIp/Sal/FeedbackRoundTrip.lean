import GrooveIp.Sal.PayloadRoundTrip

/-!
# RTCP feedback and extended reports through SDP

The feedback attributes that `add_rtcp_fb_attributes` (`sal_sdp.c:126–174`) derives from a
stream and its payload types, and what `sdp_parse_rtcp_fb_parameters` (`sal_sdp.c:646–686`)
makes of them; the extended report settings of a stream and a session (`sal_sdp.c:176–193`,
`sal_sdp.c:353–372`, `sal_sdp.c:696–728`).
-/

namespace GrooveIp.Sal

open Lib List
open UInt8 (ofNat)
open BelleSdpAttribute (rtcpXr)

/-! ### One feedback attribute -/

variable {g : Bool} (config : OrtpRtcpFbConfiguration) (avpf : AvpfParams)

variable {fb : BelleSdpRtcpFbAttribute}

variable {pt : PayloadType}

variable {t : UInt16}

/-- What the feedback settings of a payload type are after the way through SDP. -/
structure PayloadType.SameFeedback (pt pt' : PayloadType) : Prop where
  features : pt'.avpf.features = pt.avpf.features
  rpsiCompatibility : pt.avpf.features &&& payloadTypeAvpfRpsi ≠ 0 →
    pt'.avpf.rpsiCompatibility = pt.avpf.rpsiCompatibility
  trrInterval : pt'.avpf.trrInterval = pt.avpf.trrInterval

/-- The feedback settings of a stream that its attributes can say: every payload type takes
part. -/
structure FeedbackWellFormed (stream : SalStreamDescription) : Prop where
  number : ∀ pt ∈ stream.payloads, 0 ≤ pt.number ∧ pt.number < 128
  nodup : (stream.payloads.map PayloadType.number).Nodup
  features : ∀ pt ∈ stream.payloads, pt.avpf.features < 16
  enabled : ∀ pt ∈ stream.payloads, pt.rtcpFeedbackEnabled = true

variable {stream : SalStreamDescription}

/-- What extended report settings are after the way through SDP: a size goes with a mode,
and one that is not positive stands for none; flags go with the summary. -/
structure OrtpRtcpXrConfiguration.ReadBack (c c' : OrtpRtcpXrConfiguration) : Prop where
  enabled : c'.enabled = c.enabled
  rcvrRttMode : c.enabled = true → c'.rcvrRttMode = c.rcvrRttMode
  rcvrRttMaxSize : c.enabled = true → c.rcvrRttMode ≠ 0 →
    c'.rcvrRttMaxSize = c.rcvrRttMaxSize ∨ c'.rcvrRttMaxSize ≤ 0 ∧ c.rcvrRttMaxSize ≤ 0
  statSummaryEnabled : c.enabled = true → c'.statSummaryEnabled = c.statSummaryEnabled
  statSummaryFlags : c.enabled = true → c.statSummaryEnabled = true →
    c'.statSummaryFlags = c.statSummaryFlags
  voipMetricsEnabled : c.enabled = true → c'.voipMetricsEnabled = c.voipMetricsEnabled

/-- Settings that an attribute can say: the flags are the five that have names. -/
structure OrtpRtcpXrConfiguration.WellFormed (c : OrtpRtcpXrConfiguration) : Prop where
  flags : c.statSummaryFlags &&& 7 = 0
  size_lt : c.rcvrRttMaxSize < 2 ^ 31

variable {c : OrtpRtcpXrConfiguration}

/-- The settings in force for a stream: its own or those of the session. -/
def rtcpXrInForce (session stream : OrtpRtcpXrConfiguration) : OrtpRtcpXrConfiguration :=
  if stream.enabled then stream else session

end GrooveIp.Sal
