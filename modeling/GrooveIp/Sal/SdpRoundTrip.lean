import GrooveIp.Sal.StreamRoundTrip

/-!
# Media descriptions through SDP

`sdp_to_media_description` on what `media_description_to_sdp` wrote (`sal_sdp.c:394–456`,
`sal_sdp.c:886–970`). Every stream becomes a media line, and every media line is read into
the record of the same index.
-/

namespace GrooveIp.Sal

open Lib List

/-- A description that SDP can say. -/
structure SalMediaDescription.WellFormed (desc : SalMediaDescription) : Prop where
  addr : desc.addr.length < 64
  rtcpXr : desc.rtcpXr.WellFormed
  custom : desc.customSdpAttributes = []
  streams : ∀ s ∈ desc.activeStreams, s.WellFormed

/-- The RTP address of a stream: its own or the session's. -/
def SalMediaDescription.rtpAddrOf (desc : SalMediaDescription) (stream : SalStreamDescription) :
    CString :=
  if stream.rtpAddr ≠ [] then stream.rtpAddr else desc.addr

/-- Whether the `c=` line of the session is left as it is: some stream sends or receives, or
ICE decides, and no stream has a multicast address of its own. -/
def SalMediaDescription.KeepsAddr (isMulticast : CString → Bool) (desc : SalMediaDescription) :
    Prop :=
  (desc.hasDir .inactive = false ∨ desc.iceUfrag ≠ []) ∧
    ∀ s ∈ desc.activeStreams, s.rtpAddr ≠ [] → s.rtpAddr ≠ desc.addr → isMulticast s.rtpAddr = false

/-- What a description is after the way through SDP. -/
structure SalMediaDescription.ReadBack (isMulticast : CString → Bool)
    (desc desc' : SalMediaDescription) : Prop where
  nbStreams : desc'.nbStreams = desc.nbStreams
  streams : List.Forall₂ (SalStreamDescription.ReadBack desc.addr desc.rtcpXr)
    desc.activeStreams desc'.activeStreams
  rtpAddr : desc.KeepsAddr isMulticast → List.Forall₂
    (fun s s' => desc'.rtpAddrOf s' = desc.rtpAddrOf s) desc.activeStreams desc'.activeStreams

section

variable {forceRtpMap : Bool} {isMulticast : CString → Bool} {desc : SalMediaDescription}

/-! ### What is written -/

end

/-! ### A stream after an ICE mismatch -/

end GrooveIp.Sal
