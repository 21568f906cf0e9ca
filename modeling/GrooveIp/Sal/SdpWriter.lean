import GrooveIp.Sal.SdpReader

/-!
# Writing a media description as SDP

`media_description_to_sdp` and its helpers (`sal_sdp.c:29–456`), with the part of belle-sdp
that turns payload types into attributes (`belle_sdp_impl.c:876–889`,
`belle_sdp_impl.c:1005–1071`). The attributes of a media line are the blocks that the source
adds one after the other.
-/

namespace GrooveIp.Sal

open Lib

variable (p : BelleSdpMimeParameter)

/-- `MAX_FMTP_LENGTH` (`belle_sdp_impl.c:1003`). -/
abbrev maxFmtpLength : Nat := 512

/-- The text of an `a=rtpmap` (`belle_sdp_impl.c:1027–1039`). -/
def rtpmapText : CString :=
  printInt p.mediaFormat ++ ' ' :: (p.type ++ '/' :: (printInt p.rate ++
    if p.channelCount > 1 then '/' :: printInt p.channelCount else []))

/-- The text of an `a=fmtp` (`belle_sdp_impl.c:1047–1049`). -/
def fmtpText (parameters : CString) : CString :=
  printInt p.mediaFormat ++ ' ' :: parameters

section

-- `BELLE_SDP_FORCE_RTP_MAP` of the build
variable (forceRtpMap : Bool)

/-- The mime parameter of a payload type (`sal_sdp.c:220–229`). -/
def mimeParameterOf (ptime : Int) (pt : PayloadType) : BelleSdpMimeParameter where
  type := pt.mimeType
  mediaFormat := pt.number
  rate := pt.clockRate
  channelCount := if pt.channels > 0 then pt.channels else -1
  parameters := pt.recvFmtp
  ptime := if ptime > 0 then ptime else -1

end

/-! ### Crypto lines -/

variable (stream : SalStreamDescription)

/-- The entries in front of the first invalid one. -/
def cryptoEntries : List SalSrtpCryptoAlgo :=
  (List.ofFn stream.crypto).takeWhile fun c => c.algo != .invalid

/-- `different_rtp_and_rtcp_addr` (`sal_sdp.c:322`). -/
def DifferentRtpAndRtcpAddr : Prop :=
  stream.rtcpAddr ≠ [] ∧ stream.rtpAddr ≠ stream.rtcpAddr

instance (stream : SalStreamDescription) : Decidable (DifferentRtpAndRtcpAddr stream) :=
  inferInstanceAs (Decidable (_ ∧ _))

/-- The candidates in front of the first without address or port (`sal_sdp.c:37`). -/
def usableCandidates : List SalIceCandidate :=
  stream.iceCandidates.takeWhile fun c => c.addr != [] && c.port != 0

/-- The ICE credentials of a stream or a session (`sal_sdp.c:340–343`, `sal_sdp.c:437–438`). -/
def iceCredentials (icePwd iceUfrag : CString) : List BelleSdpAttribute :=
  (if icePwd ≠ [] then [.raw "ice-pwd".toList (some icePwd) (by decide)] else []) ++
    if iceUfrag ≠ [] then [.raw "ice-ufrag".toList (some iceUfrag) (by decide)] else []

/-- `"IP6"` for an address with a colon. -/
def addressType (addr : CString) : CString :=
  if ':' ∈ addr then "IP6".toList else "IP4".toList

section

-- `BELLE_SDP_FORCE_RTP_MAP` of the build; `ms_is_multicast` asks the resolver of the system
variable (forceRtpMap : Bool) (isMulticast : CString → Bool)

variable (desc : SalMediaDescription)

/-- The streams of a description, in order. -/
def SalMediaDescription.activeStreams : List SalStreamDescription :=
  (List.ofFn desc.streams).take desc.nbStreams

end

end GrooveIp.Sal
