import GrooveIp.Sal.BelleSdp
import GrooveIp.Sal.CallOp

/-!
# Reading a media description from SDP

`sdp_to_media_description` and its helpers (`sal_sdp.c:459–970`). Every caller passes a
description that `sal_media_description_new` has just made, so the arrays start zeroed and a
bounded copy leaves its last byte zero. A conversion that does not fit its array and a read
past the end of a value are faults; a copy bounded by the whole array is not, but it may
leave no room for the terminator, and the field is then as long as the array.
-/

namespace GrooveIp.Sal

open Lib
open Function (update)

/-! ### Payload types -/

/-- The payload type that a mime parameter describes (`sal_sdp.c:470–477`). -/
def payloadTypeOf (mimeParam : BelleSdpMimeParameter) : PayloadType where
  number := mimeParam.mediaFormat
  clockRate := mimeParam.rate
  mimeType := mimeParam.type
  channels := mimeParam.channelCount
  sendFmtp := mimeParam.parameters

variable (mediaDesc : BelleSdpMediaDescription)

/-- `sdp_parse_payload_types` (`sal_sdp.c:459–483`): the payload list and the packet time of
a new stream. -/
def sdpParsePayloadTypes : Except Fault (List PayloadType × Int) := do
  let mimeParams ← buildMimeParameters mediaDesc
  return (mimeParams.map payloadTypeOf,
    (mimeParams.getLast?.map BelleSdpMimeParameter.ptime).getD 0)

/-! ### Crypto lines -/

/-- `strstr`: does `pat` occur in `s`? -/
def strstr (s pat : CString) : Bool := s.tails.any fun t => pat.isPrefixOf t

/-- `ms_crypto_suite_build_from_name_params` (`mediastream.c:513–539`). -/
def msCryptoSuiteBuildFromNameParams (name : CString) (params : Option CString) :
    MSCryptoSuite :=
  let unencrypted := params.any (strstr · "UNENCRYPTED_SRTP".toList)
  let unauthenticated := params.any (strstr · "UNAUTHENTICATED_SRTP".toList)
  if name == "AES_CM_128_HMAC_SHA1_80".toList then
    if unencrypted then .noCipherSha1_80
    else if unauthenticated then .aes128NoAuth
    else .aes128Sha1_80
  else if name == "AES_CM_128_HMAC_SHA1_32".toList then
    if unencrypted then .invalid
    else if unauthenticated then .aes128NoAuth
    else .aes128Sha1_32
  else if name == "AES_256_CM_HMAC_SHA1_32".toList then
    if unencrypted || unauthenticated then .invalid else .aes256Sha1_32
  else if name == "AES_256_CM_HMAC_SHA1_80".toList then
    if unencrypted || unauthenticated then .invalid else .aes256Sha1_80
  else if name == "AES_CM_256_HMAC_SHA1_80".toList then
    if unencrypted || unauthenticated then .invalid else .aesCm256Sha1_80
  else .invalid

/-- `"%d %256s inline:%256s %256s"` into arrays of 257 (`sal_sdp.c:489`, `sal_sdp.c:500`). -/
def cryptoFormat : List Directive :=
  [.number .signed, .space, .word (some 256) 257, .space] ++ literals "inline:" ++
    [.word (some 256) 257, .space, .word (some 256) 257]

/-- `SAL_SRTP_KEY_SIZE` (`c-sal.h:216`). -/
abbrev salSrtpKeySize : Nat := 128

/-- The locals of `sdp_parse_media_crypto_parameters` that outlive one line. -/
structure CryptoParse where
  validCount : Nat := 0
  crypto : Fin salCryptoAlgoMax → SalSrtpCryptoAlgo := fun _ => {}
  parameters : CString := []

/-- The words that a crypto line must have: suite, key and, if there, parameters. -/
def cryptoWordsOf : List Scanned → Option (CString × CString × Option CString)
  | [.number _, .text suite, .text key] => some (suite, key, none)
  | [.number _, .text suite, .text key, .text parameters] => some (suite, key, some parameters)
  | _ => none

/-- The tag is stored as soon as it is read. -/
def cryptoTagOf (vs : List Scanned) (old : UInt32) : UInt32 :=
  match vs with
  | .number tag :: _ => UInt32.ofInt tag
  | _ => old

/-- The suite that a line names, empty parameters being none (`sal_sdp.c:508–510`). -/
def cryptoSuiteOf (suite parameters : CString) : MSCryptoSuite :=
  msCryptoSuiteBuildFromNameParams suite (if parameters = [] then none else some parameters)

/-- What a crypto line does to the entry at `i` (`sal_sdp.c:503–529`). -/
def storeCryptoLine (st : CryptoParse) (i : Fin salCryptoAlgoMax) (vs : List Scanned) :
    CryptoParse :=
  let entry := { st.crypto i with tag := cryptoTagOf vs (st.crypto i).tag }
  match cryptoWordsOf vs with
  | some (tmp, tmp2, fourth) =>
    -- without a fourth word the array keeps the parameters of an earlier line
    let parameters := fourth.getD st.parameters
    if cryptoSuiteOf tmp parameters = .invalid then
      { st with
        crypto := update st.crypto i { entry with algo := .invalid }
        parameters := parameters }
    else
      { validCount := st.validCount + 1
        crypto := update st.crypto i { entry with
            algo := cryptoSuiteOf tmp parameters
            masterKey := (strncpy (salSrtpKeySize - 1) tmp2).takeWhile (· != '|') }
        parameters := parameters }
  | none => { st with crypto := update st.crypto i entry }

/-- The loop over the attributes (`sal_sdp.c:494–531`). -/
def sdpParseCryptoLines : List BelleSdpAttribute → CryptoParse → Except Fault CryptoParse
  | [], st => .ok st
  | attr :: attributes, st =>
    if h : st.validCount < salCryptoAlgoMax then
      if attr.name == "crypto".toList then do
        let vs ← sscanf cryptoFormat attr.getValue
        sdpParseCryptoLines attributes (storeCryptoLine st ⟨st.validCount, h⟩ vs)
      else sdpParseCryptoLines attributes st
    else .ok st

/-- `sdp_parse_media_crypto_parameters` (`sal_sdp.c:486–533`): the crypto entries. -/
def sdpParseMediaCryptoParameters : Except Fault (Fin salCryptoAlgoMax → SalSrtpCryptoAlgo) := do
  let st ← sdpParseCryptoLines mediaDesc.attributes {}
  return st.crypto

/-! ### ICE -/

/-- `SAL_MEDIA_DESCRIPTION_MAX_ICE_ADDR_LEN` (`c-sal.h:188`). -/
abbrev salMaxIceAddrLen : Nat := 64

/-- `SAL_MEDIA_DESCRIPTION_MAX_ICE_FOUNDATION_LEN` (`c-sal.h:189`). -/
abbrev salMaxIceFoundationLen : Nat := 32

/-- `SAL_MEDIA_DESCRIPTION_MAX_ICE_TYPE_LEN` (`c-sal.h:190`). -/
abbrev salMaxIceTypeLen : Nat := 6

/-- `SAL_MEDIA_DESCRIPTION_MAX_ICE_UFRAG_LEN` (`c-sal.h:212`). -/
abbrev salMaxIceUfragLen : Nat := 256

/-- `SAL_MEDIA_DESCRIPTION_MAX_ICE_PWD_LEN` (`c-sal.h:213`). -/
abbrev salMaxIcePwdLen : Nat := 256

/-- `"%s %u %3s %u %s %d typ %s raddr %s rport %d"` into the fields of a candidate and
`proto[4]` (`sal_sdp.c:551–554`). -/
def candidateFormat : List Directive :=
  [.word none salMaxIceFoundationLen, .space, .number .unsigned, .space, .word (some 3) 4,
    .space, .number .unsigned, .space, .word none salMaxIceAddrLen, .space, .number .signed,
    .space] ++ literals "typ" ++
  [.space, .word none salMaxIceTypeLen, .space] ++ literals "raddr" ++
  [.space, .word none salMaxIceAddrLen, .space] ++ literals "rport" ++
  [.space, .number .signed]

/-- The candidate that the conversions describe, when there are seven or nine of them and
the transport is UDP. -/
def candidateOf : List Scanned → Option SalIceCandidate
  | .text foundation :: .number componentID :: .text proto :: .number priority ::
      .text addr :: .number port :: .text type :: rest =>
    if strcaseEq "udp".toList proto then
      let candidate : SalIceCandidate :=
        { foundation := foundation, componentID := UInt32.ofInt componentID
          priority := UInt32.ofInt priority, addr := addr, port := port, type := type }
      match rest with
      | [] => some candidate
      | [.text raddr, .number rport] => some { candidate with raddr := raddr, rport := rport }
      | _ => none
    else none
  | _ => none

/-- `"%u %s %u%n"` (`sal_sdp.c:567`). -/
def remoteCandidateFormat : List Directive :=
  [.number .unsigned, .space, .word none salMaxIceAddrLen, .space, .number .unsigned, .count]

/-- The component, address, port and length that the conversions of a round give, when all
three of the counted ones are there. -/
def remoteCandidateOf : List Scanned → Option (Int × CString × Int × Nat)
  | [.number componentID, .text addr, .number port, .offset offset] =>
    some (componentID, addr, port, offset)
  | _ => none

/-- One remote candidate, stored under its component (`sal_sdp.c:568–572`). -/
def storeRemoteCandidate (remotes : Fin salMaxIceRemoteCandidates → SalIceRemoteCandidate)
    (componentID : Int) (addr : CString) (port : Int) :
    Fin salMaxIceRemoteCandidates → SalIceRemoteCandidate :=
  if h : 0 < componentID ∧ componentID ≤ (salMaxIceRemoteCandidates : Nat) then
    update remotes ⟨(componentID - 1).toNat, by omega⟩
      { addr := strncpy (salMaxIceAddrLen - 1) addr, port := toInt32 port }
  else remotes

/-- The loop over an `a=remote-candidates` value (`sal_sdp.c:565–577`). The look at the next
character is `ptr[offset]`, after `ptr` has moved by `offset` already. -/
def sdpParseRemoteCandidates :
    Nat → CString → (Fin salMaxIceRemoteCandidates → SalIceRemoteCandidate) →
      Except Fault (Fin salMaxIceRemoteCandidates → SalIceRemoteCandidate)
  | 0, _, _ => .error .diverged
  | fuel + 1, ptr, remotes => do
    match remoteCandidateOf (← sscanf remoteCandidateFormat ptr) with
    | some (componentID, addr, port, offset) =>
      let remotes := storeRemoteCandidate remotes componentID addr port
      let ptr := ptr.drop offset
      if ptr = [] then return remotes
      else
        let c ← readChar ptr offset
        sdpParseRemoteCandidates fuel (if c = ' ' then ptr.drop 1 else ptr) remotes
    | none => return remotes

/-- The fields of a stream that `sdp_parse_media_ice_parameters` fills. -/
structure IceFields where
  candidates : List SalIceCandidate := []
  remoteCandidates : Fin salMaxIceRemoteCandidates → SalIceRemoteCandidate := fun _ => {}
  ufrag : CString := []
  pwd : CString := []
  mismatch : Bool := false

/-- One attribute of `sdp_parse_media_ice_parameters` (`sal_sdp.c:543–583`). -/
def sdpParseMediaIceAttribute (ice : IceFields) (attr : BelleSdpAttribute) :
    Except Fault IceFields := do
  let value := attr.getValue
  if ice.candidates.length < salMaxIceCandidates ∧ attr.name = "candidate".toList then
    match candidateOf (← sscanf candidateFormat value) with
    | some candidate => return { ice with candidates := ice.candidates ++ [candidate] }
    | none => return ice
  else if attr.name = "remote-candidates".toList then
    let remotes ← sdpParseRemoteCandidates (value.length + 1) value ice.remoteCandidates
    return { ice with remoteCandidates := remotes }
  else if attr.name = "ice-ufrag".toList then
    return { ice with ufrag := strncpy (salMaxIceUfragLen - 1) value }
  else if attr.name = "ice-pwd".toList then
    return { ice with pwd := strncpy (salMaxIcePwdLen - 1) value }
  else if attr.name = "ice-mismatch".toList then
    return { ice with mismatch := true }
  else return ice

/-- `sdp_parse_media_ice_parameters` (`sal_sdp.c:535–585`) on the ICE fields of a new
stream. -/
def sdpParseMediaIceParameters : Except Fault IceFields :=
  mediaDesc.attributes.foldlM sdpParseMediaIceAttribute {}

/-! ### RTCP feedback -/

/-- `sal_stream_description_has_avpf` (`c-sal.cpp:221–234`). -/
def SalStreamDescription.hasAvpf (sd : SalStreamDescription) : Bool :=
  match sd.proto with
  | .rtpAvpf | .rtpSavpf | .udpTlsRtpSavpf => true
  | .rtpAvp | .rtpSavp | .udpTlsRtpSavp | .other => false

/-- `enable_avpf_for_stream` (`sal_sdp.c:587–593`), on the payload list. -/
def enableAvpfForStream (payloads : List PayloadType) : List PayloadType :=
  payloads.map fun pt => { pt with rtcpFeedbackEnabled := true }

/-- `PAYLOAD_TYPE_AVPF_FIR` (`payloadtype.h:60`). -/
def payloadTypeAvpfFir : UInt8 := 1

/-- `PAYLOAD_TYPE_AVPF_PLI` (`payloadtype.h:61`). -/
def payloadTypeAvpfPli : UInt8 := 2

/-- `PAYLOAD_TYPE_AVPF_SLI` (`payloadtype.h:62`). -/
def payloadTypeAvpfSli : UInt8 := 4

/-- `PAYLOAD_TYPE_AVPF_RPSI` (`payloadtype.h:63`). -/
def payloadTypeAvpfRpsi : UInt8 := 8

/-- `avpf_params.features |= feature`. -/
def AvpfParams.add (params : AvpfParams) (feature : UInt8) : AvpfParams :=
  { params with features := params.features ||| feature }

/-- `apply_rtcp_fb_attribute_to_payload` (`sal_sdp.c:595–646`), on the feedback settings of
the stream and on one payload. -/
def applyRtcpFbAttributeToPayload (fb : BelleSdpRtcpFbAttribute)
    (config : OrtpRtcpFbConfiguration) (pt : PayloadType) : OrtpRtcpFbConfiguration × PayloadType :=
  let avpf := pt.avpf
  match fb.type, fb.param with
  | .ack, .rpsi => (config, { pt with avpf := avpf.add payloadTypeAvpfRpsi })
  | .nack, .pli => (config, { pt with avpf := avpf.add payloadTypeAvpfPli })
  | .nack, .sli => (config, { pt with avpf := avpf.add payloadTypeAvpfSli })
  | .nack, .rpsi =>
    (config, { pt with avpf :=
      { avpf.add payloadTypeAvpfRpsi with rpsiCompatibility := true } })
  | .nack, .none => ({ config with genericNackEnabled := true }, pt)
  | .trrInt, _ => (config, { pt with avpf := { avpf with trrInterval := fb.trrInt } })
  | .ccm, .fir => (config, { pt with avpf := avpf.add payloadTypeAvpfFir })
  | .ccm, .tmmbr => ({ config with tmmbrEnabled := true }, pt)
  | _, _ => (config, pt)

/-- The inner loops of `sdp_parse_rtcp_fb_parameters`: one attribute for the payloads that
it concerns. -/
def applyRtcpFbAttribute (fb : BelleSdpRtcpFbAttribute) (concerns : PayloadType → Bool) :
    OrtpRtcpFbConfiguration → List PayloadType → OrtpRtcpFbConfiguration × List PayloadType
  | config, [] => (config, [])
  | config, pt :: pts =>
    let (config, pt) :=
      if concerns pt then applyRtcpFbAttributeToPayload fb config pt else (config, pt)
    let (config, pts) := applyRtcpFbAttribute fb concerns config pts
    (config, pt :: pts)

/-- The RTCP feedback attributes among the attributes (`sal_sdp.c:658`, `sal_sdp.c:673`). -/
def rtcpFbAttributes (attributes : List BelleSdpAttribute) : List BelleSdpRtcpFbAttribute :=
  attributes.filterMap fun a => match a with
    | .rtcpFb fb => some fb
    | .raw _ _ _ | .rtcpXr _ => none

/-- `sdp_parse_rtcp_fb_parameters` (`sal_sdp.c:648–687`): the feedback settings, the
payloads, and whether an attribute met a payload. -/
def sdpParseRtcpFbParameters
    (payloads : List PayloadType) : OrtpRtcpFbConfiguration × List PayloadType × Bool :=
  let fbs := rtcpFbAttributes mediaDesc.attributes
  let all := (fbs.filter fun fb => fb.id == -1).foldl
    (fun st fb => applyRtcpFbAttribute fb (fun _ => true) st.1 st.2)
    (({} : OrtpRtcpFbConfiguration), payloads)
  let specific := fbs.foldl
    (fun st fb => applyRtcpFbAttribute fb (fun pt => pt.number == fb.id.toInt) st.1 st.2) all
  (specific.1, specific.2, !fbs.isEmpty && !payloads.isEmpty)

/-! ### RTCP extended reports -/

/-- The flags of `OrtpRtcpXrStatSummaryFlag` (`rtpsession.h:246`) by their names in SDP. -/
def statSummaryFlagNames : List (CString × UInt8) :=
  [("loss".toList, 128), ("dup".toList, 64), ("jitt".toList, 32), ("TTL".toList, 8),
    ("HL".toList, 16)]

/-- `sdp_parse_rtcp_xr_parameters` (`sal_sdp.c:697–727`), `sal_init_rtcp_xr_description`
(`sal_sdp.c:689–695`) being its start. -/
def sdpParseRtcpXrParameters (attr : Option BelleSdpAttribute)
    (config : OrtpRtcpXrConfiguration) : OrtpRtcpXrConfiguration :=
  match attr with
  | some (.rtcpXr xr) =>
    { rcvrRttMode := match xr.rcvrRttMode with
        | none => 0
        | some mode =>
          if strcaseEq mode "all".toList then 1
          else if strcaseEq mode "sender".toList then 2
          else 0
      rcvrRttMaxSize := match xr.rcvrRttMode with
        | none => -1
        | some _ => xr.rcvrRttMaxSize
      statSummaryEnabled := xr.statSummary
      statSummaryFlags :=
        if xr.statSummary then
          xr.statSummaryFlags.foldl (fun flags flag =>
            match statSummaryFlagNames.find? fun nf => strcaseEq flag nf.1 with
            | some nf => flags ||| nf.2
            | none => flags) 0
        else 0
      voipMetricsEnabled := xr.voipMetrics
      enabled := true }
  | _ => config

/-! ### Streams -/

/-- `sal_media_proto` by its name in the `m=` line (`sal_sdp.c:753–772`). -/
def salMediaProtoOf (proto : CString) : SalMediaProto :=
  if strcaseEq proto "RTP/AVP".toList then .rtpAvp
  else if strcaseEq proto "RTP/SAVP".toList then .rtpSavp
  else if strcaseEq proto "RTP/AVPF".toList then .rtpAvpf
  else if strcaseEq proto "RTP/SAVPF".toList then .rtpSavpf
  else if strcaseEq proto "UDP/TLS/RTP/SAVP".toList then .udpTlsRtpSavp
  else if strcaseEq proto "UDP/TLS/RTP/SAVPF".toList then .udpTlsRtpSavpf
  else .other

/-- `sal_stream_type` by its name in the `m=` line (`sal_sdp.c:781–791`). -/
def salStreamTypeOf (mtype : CString) : SalStreamType :=
  if strcaseEq "audio".toList mtype then .audio
  else if strcaseEq "video".toList mtype then .video
  else if strcaseEq "text".toList mtype then .text
  else .other

/-- The direction attributes of a description (`sal_sdp.c:797–807`, `sal_sdp.c:914–922`). -/
def dirOf (d : BelleSdpBaseDescription) (default : SalStreamDir) : SalStreamDir :=
  if (d.getAttribute "sendrecv").isSome then .sendRecv
  else if (d.getAttribute "sendonly").isSome then .sendOnly
  else if (d.getAttribute "recvonly").isSome then .recvOnly
  else if (d.getAttribute "inactive").isSome then .inactive
  else default

/-- The DTLS role that a value of `a=setup` names, if any (`sal_sdp.c:834–840`,
`sal_sdp.c:926–932`). -/
def dtlsRoleOf (value : CString) (default : SalDtlsRole) : SalDtlsRole :=
  if "actpass".toList.isPrefixOf value then .unset
  else if "active".toList.isPrefixOf value then .isClient
  else if "passive".toList.isPrefixOf value then .isServer
  else default

/-- The transport of a media line (`sal_sdp.c:752–773`). -/
def mediaProtoOf : SalMediaProto :=
  (mediaDesc.media.protocol.map salMediaProtoOf).getD .other

/-- `proto`, `rtp_addr`, `type`, `bandwidth`, `dir` and `rtcp_mux` of a stream
(`sal_sdp.c:750–809`). -/
def readMediaLine (dir : SalStreamDir) (mediaDesc : BelleSdpMediaDescription)
    (stream : SalStreamDescription) : SalStreamDescription :=
  let media := mediaDesc.media
  let proto := mediaProtoOf mediaDesc
  let type := salStreamTypeOf media.mediaType
  let address := mediaDesc.connection.bind BelleSdpConnection.address
  { stream with
    proto := proto
    protoOther := match media.protocol with
      | some p => if proto = .other then strncpy 31 p else stream.protoOther
      | none => stream.protoOther
    rtpAddr := match address with
      | some a => strncpy 63 a
      | none => stream.rtpAddr
    ttl := match mediaDesc.connection, address with
      | some cnx, some _ => cnx.ttl
      | _, _ => stream.ttl
    rtpPort := media.mediaPort
    type := type
    typeother := if type = .other then strncpy 31 media.mediaType else stream.typeother
    bandwidth := if mediaDesc.getBandwidth "AS" > 0 then mediaDesc.getBandwidth "AS"
      else stream.bandwidth
    dir := dirOf mediaDesc.toBelleSdpBaseDescription dir
    rtcpMux := (mediaDesc.getAttribute "rtcp-mux").isSome }

/-- `"%d IN IP4 %s"` into `tmp[256]` (`sal_sdp.c:820–821`). -/
def rtcpFormat : List Directive :=
  [.number .signed, .space] ++ literals "IN" ++ [.space] ++ literals "IP4" ++
    [.space, .word none 256]

/-- The RTCP port and address of a stream (`sal_sdp.c:815–829`). -/
def readRtcp (rtpPort : Int) (rtpAddr : CString) : Except Fault (Int × CString) :=
  let rtcpPort := toInt32 (rtpPort + 1)
  let rtcpAddr := rtpAddr.take 63
  match mediaDesc.getAttributeValue "rtcp" with
  | none => .ok (rtcpPort, rtcpAddr)
  | some value => do
    match ← sscanf rtcpFormat value with
    | [.number port] => return (port, rtcpAddr)
    | [.number port, .text tmp] => return (port, strncpy 63 tmp)
    | _ => return (rtcpPort, rtcpAddr)

/-- The DTLS role of a description, from its `a=setup` if there is one. -/
def setupRoleOf (d : BelleSdpBaseDescription) (default : SalDtlsRole) : SalDtlsRole :=
  match d.getAttributeValue "setup" with
  | some value => dtlsRoleOf value default
  | none => default

/-- The DTLS role and fingerprint of a stream, from those of the session
(`sal_sdp.c:831–845`). -/
def readDtls (hasDtls : Bool) (role : SalDtlsRole)
    (fingerprint : CString) : SalDtlsRole × CString :=
  if hasDtls then
    let role := setupRoleOf mediaDesc.toBelleSdpBaseDescription role
    (role, match mediaDesc.getAttributeValue "fingerprint" with
      | some value => if role ≠ .invalid then strncpy 256 value else fingerprint
      | none => fingerprint)
  else (role, fingerprint)

/-- The crypto entries of a new stream (`sal_sdp.c:847–850`). -/
def readCrypto (hasSrtp : Bool) : Except Fault (Fin salCryptoAlgoMax → SalSrtpCryptoAlgo) :=
  if hasSrtp then sdpParseMediaCryptoParameters mediaDesc else .ok fun _ => {}

/-- The RTCP feedback of a stream, explicit or implied (`sal_sdp.c:863–871`): the settings,
the payloads and whether it is implied. -/
def readRtcpFb (hasAvpf : Bool)
    (payloads : List PayloadType) : OrtpRtcpFbConfiguration × List PayloadType × Bool :=
  let (config, payloads, hasAvpfAttributes) := sdpParseRtcpFbParameters mediaDesc payloads
  if hasAvpf then (config, enableAvpfForStream payloads, false)
  else if hasAvpfAttributes then (config, enableAvpfForStream payloads, true)
  else (config, payloads, false)

/-- The names and values that are kept as custom attributes (`sal_sdp.c:877–881`,
`sal_sdp.c:952–956`). -/
def customSdpAttributesOf (attributes : List BelleSdpAttribute) : List (CString × CString) :=
  attributes.map fun a => (a.name, a.getValue)

/-- `sdp_to_stream_description` (`sal_sdp.c:740–883`), into the record at the index of the
next stream. -/
def sdpToStreamDescription (md : SalMediaDescription) (stream : SalStreamDescription)
    (mediaDesc : BelleSdpMediaDescription) : Except Fault SalStreamDescription := do
  let stream := readMediaLine md.dir mediaDesc stream
  let (payloads, ptime) ← sdpParsePayloadTypes mediaDesc
  let (rtcpPort, rtcpAddr) ← readRtcp mediaDesc stream.rtpPort stream.rtpAddr
  let (dtlsRole, dtlsFingerprint) :=
    readDtls mediaDesc stream.hasDtls stream.dtlsRole stream.dtlsFingerprint
  let crypto ← readCrypto mediaDesc stream.hasSrtp
  let zrtphash := mediaDesc.getAttributeValue "zrtp-hash"
  let ice ← sdpParseMediaIceParameters mediaDesc
  let (rtcpFb, payloads, implicitRtcpFb) := readRtcpFb mediaDesc stream.hasAvpf payloads
  return { stream with
    payloads := payloads
    ptime := ptime
    rtcpPort := rtcpPort
    rtcpAddr := rtcpAddr
    dtlsRole := dtlsRole
    dtlsFingerprint := dtlsFingerprint
    crypto := crypto
    zrtphash := match zrtphash with
      | some value => strncpy 128 value
      | none => stream.zrtphash
    haveZrtpHash := zrtphash.isSome || stream.haveZrtpHash
    iceCandidates := ice.candidates
    iceRemoteCandidates := ice.remoteCandidates
    iceUfrag := ice.ufrag
    icePwd := ice.pwd
    iceMismatch := ice.mismatch
    rtcpFb := rtcpFb
    implicitRtcpFb := implicitRtcpFb
    rtcpXr := sdpParseRtcpXrParameters (mediaDesc.getAttribute "rtcp-xr") md.rtcpXr
    customSdpAttributes := customSdpAttributesOf mediaDesc.attributes }

/-! ### Sessions -/

/-- The session part of `sdp_to_media_description` (`sal_sdp.c:895–956`). -/
def readSession (sessionDesc : BelleSdpSessionDescription) : SalMediaDescription :=
  let new := salMediaDescriptionNew
  let sessionRole := setupRoleOf sessionDesc.toBelleSdpBaseDescription .invalid
  { new with
    nbStreams := 0
    nbStreams_le := Nat.zero_le _
    dir := dirOf sessionDesc.toBelleSdpBaseDescription .sendRecv
    addr := match sessionDesc.connection.bind BelleSdpConnection.address with
      | some a => strncpy 63 a
      | none => new.addr
    name := match sessionDesc.sessionName with
      | some n => strncpy 63 n
      | none => new.name
    bandwidth := if sessionDesc.getBandwidth "AS" > 0 then sessionDesc.getBandwidth "AS"
      else new.bandwidth
    streams := fun i =>
      { new.streams i with
        dtlsFingerprint := match sessionDesc.getAttributeValue "fingerprint" with
          | some value => strncpy 256 value
          | none => (new.streams i).dtlsFingerprint
        dtlsRole := sessionRole }
    iceUfrag := match sessionDesc.getAttributeValue "ice-ufrag" with
      | some value => strncpy (salMaxIceUfragLen - 1) value
      | none => new.iceUfrag
    icePwd := match sessionDesc.getAttributeValue "ice-pwd" with
      | some value => strncpy (salMaxIcePwdLen - 1) value
      | none => new.icePwd
    iceLite := (sessionDesc.getAttributeValue "ice-lite").isSome
    rtcpXr := sdpParseRtcpXrParameters (sessionDesc.getAttribute "rtcp-xr") new.rtcpXr
    customSdpAttributes := customSdpAttributesOf sessionDesc.attributes }

/-- A stream read into the next record (`sal_sdp.c:881`). -/
def SalMediaDescription.addStream (desc : SalMediaDescription)
    (i : Fin salMediaDescriptionMaxStreams) (stream : SalStreamDescription) :
    SalMediaDescription :=
  { desc with
    nbStreams := i + 1
    nbStreams_le := i.isLt
    streams := update desc.streams i stream }

/-- The loop over the media lines (`sal_sdp.c:958–968`). -/
def sdpToStreams : List BelleSdpMediaDescription → SalMediaDescription →
    Except Fault SalMediaDescription
  | [], desc => .ok desc
  | mediaDesc :: mediaDescs, desc =>
    if h : desc.nbStreams < salMediaDescriptionMaxStreams then do
      let i : Fin salMediaDescriptionMaxStreams := ⟨desc.nbStreams, h⟩
      let stream ← sdpToStreamDescription desc (desc.streams i) mediaDesc
      sdpToStreams mediaDescs (desc.addStream i stream)
    else .ok desc

/-- `sdp_to_media_description` (`sal_sdp.c:886–970`) into a new description. -/
def sdpToMediaDescription (sessionDesc : BelleSdpSessionDescription) :
    Except Fault SalMediaDescription :=
  sdpToStreams sessionDesc.mediaDescriptions (readSession sessionDesc)

end GrooveIp.Sal
