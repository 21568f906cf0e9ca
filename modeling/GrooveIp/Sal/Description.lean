import GrooveIp.Lib.Memory
/-!
# Media descriptions

The records of `c-sal.h:130–299` that the offer/answer engine reads and writes, with
`PayloadType` of `ortp/payloadtype.h:73`. A `char` array is its C string, the characters
before the terminator. The clone helpers and the log-only fields are not modelled.
-/

namespace GrooveIp.Sal

/-- A C string: the characters before the terminator. -/
abbrev CString := List Char

/-- `strcasecmp(a, b) == 0`. -/
def strcaseEq (a b : CString) : Bool := a.map Char.toLower == b.map Char.toLower

/-- `SalStreamType` (`c-sal.h:130`). -/
inductive SalStreamType where
  | audio | video | text | other
  deriving DecidableEq, Repr

/-- `SalMediaProto` (`c-sal.h:138`). -/
inductive SalMediaProto where
  | rtpAvp | rtpSavp | rtpAvpf | rtpSavpf | udpTlsRtpSavp | udpTlsRtpSavpf | other
  deriving DecidableEq, Repr

/-- `SalStreamDir` (`c-sal.h:148`). -/
inductive SalStreamDir where
  | sendRecv | sendOnly | recvOnly | inactive
  deriving DecidableEq, Repr

/-- `SalDtlsRole` (`c-sal.h:207`). -/
inductive SalDtlsRole where
  | invalid | isServer | isClient | unset
  deriving DecidableEq, Repr

/-- `SalMulticastRole` (`c-sal.h:214`). -/
inductive SalMulticastRole where
  | inactive | sender | receiver | senderReceiver
  deriving DecidableEq, Repr

/-- `MSCryptoSuite` (`ms_srtp.h:37`). -/
inductive MSCryptoSuite where
  | invalid | aes128Sha1_80 | aes128Sha1_32 | aes128NoAuth | noCipherSha1_80
  | aes256Sha1_80 | aesCm256Sha1_80 | aes256Sha1_32
  deriving DecidableEq, Repr

/-- `PayloadTypeAvpfParams` (`payloadtype.h:65`). -/
structure AvpfParams where
  features : UInt8 := 0
  rpsiCompatibility : Bool := false
  trrInterval : UInt16 := 0
  deriving DecidableEq, Repr

/-- `PayloadType` (`payloadtype.h:73`). `number` is the user data that
`payload_type_get_number` reads (`c-sal.h:594–595`), and the four last fields are the bits of
`flags` that negotiation reads or sets. -/
structure PayloadType where
  mimeType : CString
  clockRate : Int
  channels : Int
  number : Int
  recvFmtp : Option CString := none
  sendFmtp : Option CString := none
  avpf : AvpfParams := {}
  rtcpFeedbackEnabled : Bool := false
  canRecv : Bool := false
  canSend : Bool := false
  frozenNumber : Bool := false
  deriving DecidableEq, Repr

/-- `payload_type_append_send_fmtp` (`payloadtype.c:113–123`). -/
def PayloadType.appendSendFmtp (pt : PayloadType) (fmtp : CString) : PayloadType :=
  { pt with sendFmtp := some (match pt.sendFmtp with
      | none => fmtp
      | some old => old ++ ';' :: fmtp) }

/-- `SalSrtpCryptoAlgo` (`c-sal.h:199`). -/
structure SalSrtpCryptoAlgo where
  tag : UInt32 := 0
  algo : MSCryptoSuite := .invalid
  masterKey : CString := []
  deriving DecidableEq, Repr

/-- `SAL_CRYPTO_ALGO_MAX` (`c-sal.h:205`). -/
abbrev salCryptoAlgoMax : Nat := 4

instance (priority := 2000) neZero_salCryptoAlgoMax : NeZero salCryptoAlgoMax := ⟨by decide⟩

/-- `SalIceCandidate` (`c-sal.h:173`). -/
structure SalIceCandidate where
  addr : CString := []
  raddr : CString := []
  foundation : CString := []
  type : CString := []
  componentID : UInt32 := 0
  priority : UInt32 := 0
  port : Int := 0
  rport : Int := 0
  deriving DecidableEq, Repr

/-- `SAL_MEDIA_DESCRIPTION_MAX_ICE_CANDIDATES` (`c-sal.h:203`). -/
abbrev salMaxIceCandidates : Nat := 20

/-- `SAL_MEDIA_DESCRIPTION_MAX_ICE_REMOTE_CANDIDATES` (`c-sal.h:210`). -/
abbrev salMaxIceRemoteCandidates : Nat := 2

instance (priority := 2000) neZero_salMaxIceRemoteCandidates : NeZero salMaxIceRemoteCandidates := ⟨by decide⟩

/-- `SalIceRemoteCandidate` (`c-sal.h:186`). -/
structure SalIceRemoteCandidate where
  addr : CString := []
  port : Int := 0
  deriving DecidableEq, Repr

/-- `OrtpRtcpFbConfiguration` (`rtpsession.h:213`). -/
structure OrtpRtcpFbConfiguration where
  genericNackEnabled : Bool := false
  tmmbrEnabled : Bool := false
  deriving DecidableEq, Repr

/-- `OrtpRtcpXrConfiguration` (`rtpsession.h:255`), the round-trip mode by its number. -/
structure OrtpRtcpXrConfiguration where
  enabled : Bool := false
  statSummaryEnabled : Bool := false
  voipMetricsEnabled : Bool := false
  rcvrRttMode : Fin 3 := 0
  rcvrRttMaxSize : Int := 0
  statSummaryFlags : UInt8 := 0
  deriving DecidableEq, Repr

/-- `SalStreamDescription` (`c-sal.h:227`), as `ms_new0` leaves it by default. -/
structure SalStreamDescription where
  name : CString := []
  proto : SalMediaProto := .rtpAvp
  type : SalStreamType := .audio
  typeother : CString := []
  protoOther : CString := []
  rtpAddr : CString := []
  rtcpAddr : CString := []
  rtpSsrc : UInt32 := 0
  rtcpCname : CString := []
  rtpPort : Int := 0
  rtcpPort : Int := 0
  payloads : List PayloadType := []
  bandwidth : Int := 0
  ptime : Int := 0
  dir : SalStreamDir := .sendRecv
  crypto : Fin salCryptoAlgoMax → SalSrtpCryptoAlgo := fun _ => {}
  cryptoLocalTag : UInt32 := 0
  implicitRtcpFb : Bool := false
  rtcpFb : OrtpRtcpFbConfiguration := {}
  rtcpXr : OrtpRtcpXrConfiguration := {}
  customSdpAttributes : List (CString × CString) := []
  iceCandidates : List SalIceCandidate := []
  iceRemoteCandidates : Fin salMaxIceRemoteCandidates → SalIceRemoteCandidate := fun _ => {}
  iceUfrag : CString := []
  icePwd : CString := []
  iceMismatch : Bool := false
  setNortpproxy : Bool := false
  rtcpMux : Bool := false
  dtlsFingerprint : CString := []
  dtlsRole : SalDtlsRole := .invalid
  zrtphash : CString := []
  haveZrtpHash : Bool := false
  ttl : Int := 0
  multicastRole : SalMulticastRole := .inactive

/-- `SAL_MEDIA_DESCRIPTION_MAX_STREAMS` (`c-sal.h:279`). -/
abbrev salMediaDescriptionMaxStreams : Nat := 8

instance (priority := 2000) neZero_salMediaDescriptionMaxStreams :
    NeZero salMediaDescriptionMaxStreams := ⟨by decide⟩

theorem one_le_salMediaDescriptionMaxStreams : 1 ≤ salMediaDescriptionMaxStreams := by decide

/-- `SalMediaDescription` (`c-sal.h:281`). The count of streams never exceeds the array. -/
structure SalMediaDescription where
  name : CString := []
  addr : CString := []
  username : CString := []
  nbStreams : Nat := 0
  bandwidth : Int := 0
  sessionVer : UInt32 := 0
  sessionId : UInt32 := 0
  dir : SalStreamDir := .sendRecv
  streams : Fin salMediaDescriptionMaxStreams → SalStreamDescription
  customSdpAttributes : List (CString × CString) := []
  rtcpXr : OrtpRtcpXrConfiguration := {}
  iceUfrag : CString := []
  icePwd : CString := []
  iceLite : Bool := false
  setNortpproxy : Bool := false
  nbStreams_le : nbStreams ≤ salMediaDescriptionMaxStreams

/-- `sal_media_description_new` (`c-sal.cpp:69–80`). -/
def salMediaDescriptionNew : SalMediaDescription where
  streams := fun _ => { dir := .inactive }
  nbStreams_le := Nat.zero_le _

/-- `sal_stream_description_has_srtp` (`c-sal.cpp:244–257`). -/
def SalStreamDescription.hasSrtp (sd : SalStreamDescription) : Bool :=
  match sd.proto with
  | .rtpSavp | .rtpSavpf => true
  | .rtpAvp | .rtpAvpf | .udpTlsRtpSavpf | .udpTlsRtpSavp | .other => false

/-- `sal_stream_description_has_dtls` (`c-sal.cpp:259–272`). -/
def SalStreamDescription.hasDtls (sd : SalStreamDescription) : Bool :=
  match sd.proto with
  | .udpTlsRtpSavpf | .udpTlsRtpSavp => true
  | .rtpSavp | .rtpSavpf | .rtpAvp | .rtpAvpf | .other => false

end GrooveIp.Sal
