import GrooveIp.Sal.Description

/-!
# Offer and answer

The engine of `offeranswer.c`: the answerer runs `offerAnswerInitiateIncoming` on its
capabilities and the offer, the offerer runs `offerAnswerInitiateOutgoing` on its offer and
the answer. A codec may have a match provider of its own, which replaces the generic search;
a provider may also rewrite the local list, as `red_match` does.
-/

namespace GrooveIp.Sal

/-- `only_telephone_event` (`offeranswer.c:27–35`). -/
def telephoneEvent : CString := "telephone-event".toList

@[inherit_doc telephoneEvent]
def onlyTelephoneEvent (l : List PayloadType) : Bool :=
  l.all fun p => strcaseEq p.mimeType telephoneEvent

/-- The result of a match provider: the matched clone and the local list it leaves. -/
abbrev MatchResult := Option PayloadType × List PayloadType

/-- `MSOfferAnswerProvider`: the codec it serves and its `match_payload` method, which is
given the local list, the payload to match, the remote list and `reading_response`. -/
structure MSOfferAnswerProvider where
  mimeType : CString
  matchPayload : List PayloadType → PayloadType → List PayloadType → Bool → MatchResult

/-- The part of `MSFactory` the engine reads. -/
abbrev MSFactory := List MSOfferAnswerProvider

variable (factory : MSFactory)

/-- `ms_factory_get_offer_answer_provider` (`msfactory.c:853–861`). -/
def MSFactory.getOfferAnswerProvider (mimeType : CString) : Option MSOfferAnswerProvider :=
  factory.find? fun prov => strcaseEq mimeType prov.mimeType

/-- The loop of `opus_match` over the local list, with `legacy_opus` so far
(`offeranswer.c:43–60`). -/
def opusLoop (refpt : PayloadType) : Option PayloadType → List PayloadType → Option PayloadType
  | legacy, [] => legacy.map fun pt => { pt with channels := 1 }
  | legacy, pt :: rest =>
    if strcaseEq pt.mimeType "opus".toList then
      if refpt.channels = 1 then opusLoop refpt (some pt) rest
      else if refpt.channels = 2 then some pt
      else opusLoop refpt legacy rest
    else opusLoop refpt legacy rest

/-- `opus_match` (`offeranswer.c:38–61`). -/
def opusMatch (locals : List PayloadType) (refpt : PayloadType) (_remotes : List PayloadType)
    (_readingResponse : Bool) : MatchResult :=
  (opusLoop refpt none locals, locals)

/-- `g729A_match` (`offeranswer.c:74–87`): the last candidate wins. -/
def g729AMatch (locals : List PayloadType) (refpt : PayloadType) (_remotes : List PayloadType)
    (_readingResponse : Bool) : MatchResult :=
  (locals.reverse.find? fun pt =>
    strcaseEq pt.mimeType "G729".toList && refpt.channels == pt.channels, locals)

/-- The loop of `red_match` over the local list (`offeranswer.c:103–123`): the first `red`
payload is matched, and its `recv_fmtp` is rewritten in place when the peer has `t140`. -/
def redLoop (t140 : Option PayloadType) : List PayloadType → MatchResult
  | [] => (none, [])
  | pt :: rest =>
    if strcaseEq pt.mimeType "red".toList then
      match t140 with
      | none => (some pt, pt :: rest)
      | some pt2 =>
        let n := (toString pt2.number).toList
        let red := { pt with recvFmtp := some (n ++ '/' :: n ++ '/' :: n) }
        (some red, red :: rest)
    else
      let (m, rest') := redLoop t140 rest
      (m, pt :: rest')

/-- `red_match` (`offeranswer.c:99–125`). -/
def redMatch (locals : List PayloadType) (_refpt : PayloadType) (remotes : List PayloadType)
    (_readingResponse : Bool) : MatchResult :=
  redLoop (remotes.find? fun pt2 => strcaseEq pt2.mimeType "t140".toList) locals

/-- `linphone_core_register_offer_answer_providers` (`offeranswer.c:154–159`); the factory
prepends each one. -/
def registerOfferAnswerProviders : MSFactory :=
  ⟨"opus".toList, opusMatch⟩ :: ⟨"G729A".toList, g729AMatch⟩ :: ⟨"red".toList, redMatch⟩ :: factory

/-- The test of `generic_match` (`offeranswer.c:144–147`). -/
def sameCodec (pt refpt : PayloadType) : Bool :=
  strcaseEq pt.mimeType refpt.mimeType && pt.clockRate == refpt.clockRate
    && pt.channels == refpt.channels

/-- `generic_match` (`offeranswer.c:137–151`). -/
def genericMatch (locals : List PayloadType) (refpt : PayloadType) : Option PayloadType :=
  locals.find? fun pt => sameCodec pt refpt

/-- `find_payload_type_best_match` (`offeranswer.c:164–177`). -/
def findPayloadTypeBestMatch (locals : List PayloadType)
    (refpt : PayloadType) (remotes : List PayloadType) (readingResponse : Bool) : MatchResult :=
  match factory.getOfferAnswerProvider refpt.mimeType with
  | some prov => prov.matchPayload locals refpt remotes readingResponse
  | none => (genericMatch locals refpt, locals)

/-- The negotiation of AVPF (`offeranswer.c:205–216`): common features, the larger interval. -/
def negotiateAvpf (matched p2 : PayloadType) : PayloadType :=
  if matched.rtcpFeedbackEnabled && p2.rtcpFeedbackEnabled then
    { matched with
      rtcpFeedbackEnabled := true
      avpf := {
        features := matched.avpf.features &&& p2.avpf.features
        rpsiCompatibility := p2.avpf.rpsiCompatibility
        trrInterval := if p2.avpf.trrInterval > matched.avpf.trrInterval
          then p2.avpf.trrInterval else matched.avpf.trrInterval } }
  else { matched with rtcpFeedbackEnabled := false }

/-- What `match_payloads` makes of a match (`offeranswer.c:201–220`), with the remote number. -/
def negotiate (matched p2 : PayloadType) : PayloadType :=
  let matched := match p2.sendFmtp with
    | none => matched
    | some fmtp => matched.appendSendFmtp fmtp
  let matched := { matched with canRecv := true, canSend := true }
  let matched := negotiateAvpf matched p2
  { matched with number := p2.number, frozenNumber := true }

/-- The copy under the local number that `match_payloads` adds when the peer answered with
another one (`offeranswer.c:221–234`): the remote number is used to send, the local one stays
valid to receive. -/
def ownNumber (readingResponse : Bool) (matched p2 : PayloadType) : List PayloadType :=
  if readingResponse && p2.number != matched.number then
    [{ negotiate matched p2 with number := matched.number, canRecv := true, frozenNumber := true }]
  else []

/-- The variables of the loop of `match_payloads`. -/
structure MatchState where
  locals : List PayloadType
  foundCodec : Bool := false
  res : List PayloadType := []

/-- Whether `match_payloads` skips a matched codec because one was found already
(`offeranswer.c:193–199`). -/
def skipsCodec (st : MatchState) (matched : PayloadType) (oneMatchingCodec : Bool) : Bool :=
  oneMatchingCodec && !strcaseEq matched.mimeType telephoneEvent && st.foundCodec

/-- One iteration of `match_payloads` over the remote list (`offeranswer.c:187–239`). -/
def matchStep (factory : MSFactory) (remotes : List PayloadType)
    (readingResponse oneMatchingCodec : Bool) (st : MatchState) (p2 : PayloadType) : MatchState :=
  match findPayloadTypeBestMatch factory st.locals p2 remotes readingResponse with
  | (none, locals) => { st with locals }
  | (some matched, locals) =>
    if skipsCodec st matched oneMatchingCodec then { st with locals }
    else
      let foundCodec := st.foundCodec ||
        (oneMatchingCodec && !strcaseEq matched.mimeType telephoneEvent)
      { locals
        foundCodec
        res := st.res ++ negotiate matched p2 :: ownNumber readingResponse matched p2 }

/-- The second loop of `match_payloads` (`offeranswer.c:243–260`): a local payload whose number
was not taken is kept for reception. -/
def addRemaining (res : List PayloadType) : List PayloadType → List PayloadType
  | [] => res
  | p1 :: rest =>
    if res.any fun p2 => p2.number == p1.number then addRemaining res rest
    else addRemaining (res ++ [{ p1 with canRecv := true, frozenNumber := true }]) rest

/-- `match_payloads` (`offeranswer.c:180–263`). -/
def matchPayloads (locals remotes : List PayloadType)
    (readingResponse oneMatchingCodec : Bool) : List PayloadType :=
  let st := remotes.foldl (matchStep factory remotes readingResponse oneMatchingCodec) { locals }
  if readingResponse then addRemaining st.res st.locals else st.res

/-- `match_crypto_algo` (`offeranswer.c:265–293`): the line written to the result, with the
chosen local tag. -/
def matchCryptoAlgo (locals remotes : Fin salCryptoAlgoMax → SalSrtpCryptoAlgo)
    (useLocalKey : Bool) : Option (SalSrtpCryptoAlgo × UInt32) :=
  ((List.ofFn remotes).takeWhile fun r => r.algo != .invalid).findSome? fun r =>
    ((List.ofFn locals).find? fun l => r.algo == l.algo).map fun l =>
      if useLocalKey then ({ tag := r.tag, algo := r.algo, masterKey := l.masterKey }, l.tag)
      else ({ tag := l.tag, algo := r.algo, masterKey := r.masterKey }, l.tag)

/-- `compute_dir_outgoing` (`offeranswer.c:297–310`). -/
def computeDirOutgoing (locally answered : SalStreamDir) : SalStreamDir :=
  let res :=
    if locally = .sendRecv then
      if answered = .recvOnly then .sendOnly
      else if answered = .sendOnly then .recvOnly
      else locally
    else locally
  if answered = .inactive then .inactive else res

/-- `compute_dir_incoming` (`offeranswer.c:312–334`). -/
def computeDirIncoming (locally offered : SalStreamDir) : SalStreamDir :=
  if locally = .sendRecv then
    if offered = .sendOnly then .recvOnly
    else if offered = .recvOnly then .sendOnly
    else if offered = .inactive then .inactive
    else .sendRecv
  else if locally = .sendOnly then
    if offered = .recvOnly ∨ offered = .sendRecv then .sendOnly else .inactive
  else if locally = .recvOnly then
    if offered = .sendOnly ∨ offered = .sendRecv then .recvOnly else .inactive
  else .inactive

section

-- `ms_is_multicast` (`mediastream.c:317–335`) asks the resolver of the system
variable (isMulticast : CString → Bool)

/-- The address test of both engines (`offeranswer.c:349`, `464`). -/
def multicastAddr (addr : CString) : Bool := addr != [] && isMulticast addr

/-- Whether both sides carry a DTLS role and a fingerprint (`offeranswer.c:436–437`,
`518–519`). -/
def bothDtls (ls rs : SalStreamDescription) : Bool :=
  ls.dtlsRole != .invalid && rs.dtlsRole != .invalid
    && decide (0 < ls.dtlsFingerprint.length) && decide (0 < rs.dtlsFingerprint.length)

/-- Whether the answer to a multicast offer departs from it (`offeranswer.c:359–406`). -/
def multicastMismatch (localOffer remoteAnswer : SalStreamDescription) : Bool :=
  localOffer.rtpAddr != remoteAnswer.rtpAddr || localOffer.rtpPort != remoteAnswer.rtpPort
    || localOffer.dir != remoteAnswer.dir || localOffer.bandwidth != remoteAnswer.bandwidth
    || (decide (localOffer.ptime > 0) && localOffer.ptime != remoteAnswer.ptime)
    || (decide (localOffer.ttl > 0) && localOffer.ttl != remoteAnswer.ttl)

/-- The crypto part of `initiate_outgoing` (`offeranswer.c:426–431`). -/
def outgoingCrypto (localOffer remoteAnswer result : SalStreamDescription) :
    SalStreamDescription :=
  if result.hasSrtp then
    match matchCryptoAlgo localOffer.crypto remoteAnswer.crypto false with
    | some (line, tag) =>
      { result with crypto := fun i => if i = 0 then line else {}, cryptoLocalTag := tag }
    | none => { result with crypto := fun _ => {}, rtpPort := 0 }
  else result

/-- The end of `initiate_outgoing`, after the crypto part (`offeranswer.c:432–449`). -/
def outgoingTail (localOffer remoteAnswer result : SalStreamDescription) :
    SalStreamDescription :=
  { result with
    rtpSsrc := localOffer.rtpSsrc
    rtcpCname := localOffer.rtcpCname
    dtlsFingerprint :=
      if bothDtls localOffer remoteAnswer then remoteAnswer.dtlsFingerprint else []
    dtlsRole :=
      if bothDtls localOffer remoteAnswer then
        if remoteAnswer.dtlsRole = .isClient then .isServer else .isClient
      else .invalid
    rtcpMux := remoteAnswer.rtcpMux && localOffer.rtcpMux
    implicitRtcpFb := localOffer.implicitRtcpFb && remoteAnswer.implicitRtcpFb }

variable (factory : MSFactory)

/-- `initiate_outgoing` (`offeranswer.c:336–450`). -/
def initiateOutgoing (localOffer remoteAnswer result : SalStreamDescription) :
    SalStreamDescription :=
  if remoteAnswer.rtpPort = 0 then { result with rtpPort := 0 }
  else
    let result := { result with
      payloads := matchPayloads factory localOffer.payloads remoteAnswer.payloads true false
      proto := remoteAnswer.proto
      type := localOffer.type }
    let multicast := multicastAddr isMulticast localOffer.rtpAddr
    if multicast && multicastMismatch localOffer remoteAnswer then { result with rtpPort := 0 }
    else
      let result := if multicast then
          { result with ttl := localOffer.ttl, dir := localOffer.dir, multicastRole := .sender }
        else { result with dir := computeDirOutgoing localOffer.dir remoteAnswer.dir }
      let result := if !result.payloads.isEmpty && !onlyTelephoneEvent result.payloads then
          { result with
            rtpAddr := remoteAnswer.rtpAddr
            rtcpAddr := remoteAnswer.rtcpAddr
            rtpPort := remoteAnswer.rtpPort
            rtcpPort := remoteAnswer.rtcpPort
            bandwidth := remoteAnswer.bandwidth
            ptime := remoteAnswer.ptime }
        else { result with rtpPort := 0 }
      outgoingTail localOffer remoteAnswer (outgoingCrypto localOffer remoteAnswer result)

/-- The crypto part of `initiate_incoming` (`offeranswer.c:489–497`). -/
def incomingCrypto (localCap remoteOffer result : SalStreamDescription) : SalStreamDescription :=
  if result.hasSrtp then
    match matchCryptoAlgo localCap.crypto remoteOffer.crypto true with
    | some (line, tag) =>
      { result with crypto := fun i => if i = 0 then line else {}, cryptoLocalTag := tag }
    | none => { result with crypto := fun _ => {}, rtpPort := 0 }
  else result

/-- The end of `initiate_incoming`, after the crypto part (`offeranswer.c:499–529`). -/
def incomingTail (localCap remoteOffer result : SalStreamDescription) : SalStreamDescription :=
  let zrtp := remoteOffer.haveZrtpHash && localCap.zrtphash != []
  { result with
    zrtphash := if zrtp then localCap.zrtphash else result.zrtphash
    haveZrtpHash := zrtp || result.haveZrtpHash
    icePwd := localCap.icePwd
    iceUfrag := localCap.iceUfrag
    iceMismatch := localCap.iceMismatch
    setNortpproxy := localCap.setNortpproxy
    iceCandidates := localCap.iceCandidates
    iceRemoteCandidates := localCap.iceRemoteCandidates
    name := localCap.name
    rtpSsrc := localCap.rtpSsrc
    rtcpCname := localCap.rtcpCname
    dtlsFingerprint := if bothDtls localCap remoteOffer then localCap.dtlsFingerprint else []
    -- an offered role that is already settled leaves the role of the result as it was
    dtlsRole :=
      if bothDtls localCap remoteOffer then
        if remoteOffer.dtlsRole = .unset then .isClient else result.dtlsRole
      else .invalid
    rtcpMux := remoteOffer.rtcpMux && localCap.rtcpMux
    implicitRtcpFb := localCap.implicitRtcpFb && remoteOffer.implicitRtcpFb }

/-- `initiate_incoming` (`offeranswer.c:453–530`). -/
def initiateIncoming (localCap remoteOffer result : SalStreamDescription)
    (oneMatchingCodec : Bool) : SalStreamDescription :=
  let result := { result with
    payloads := matchPayloads factory localCap.payloads remoteOffer.payloads false oneMatchingCodec
    proto := remoteOffer.proto
    type := localCap.type
    dir := computeDirIncoming localCap.dir remoteOffer.dir }
  if result.payloads.isEmpty || onlyTelephoneEvent result.payloads || remoteOffer.rtpPort == 0 then
    { result with rtpPort := 0 }
  else
    let multicast := multicastAddr isMulticast remoteOffer.rtpAddr
    if multicast && result.hasSrtp then { result with rtpPort := 0 }
    else
      let result := if multicast then
          { result with
            dir := remoteOffer.dir
            rtpAddr := remoteOffer.rtpAddr
            rtcpAddr := remoteOffer.rtcpAddr
            rtpPort := remoteOffer.rtpPort
            rtcpPort := 0
            bandwidth := remoteOffer.bandwidth
            ptime := remoteOffer.ptime
            ttl := remoteOffer.ttl
            multicastRole := .receiver }
        else
          { result with
            rtpAddr := localCap.rtpAddr
            rtcpAddr := localCap.rtcpAddr
            rtpPort := localCap.rtpPort
            rtcpPort := localCap.rtcpPort
            bandwidth := localCap.bandwidth
            ptime := localCap.ptime }
      incomingTail localCap remoteOffer (incomingCrypto localCap remoteOffer result)

/-- The loop `for(i=0;i<nb_streams;++i)` of both engines: an iteration reads and writes the
streams of its own index. -/
def forStreams (body : Fin salMediaDescriptionMaxStreams → SalStreamDescription →
    SalStreamDescription) : (n : Nat) → (Fin salMediaDescriptionMaxStreams → SalStreamDescription) →
      Fin salMediaDescriptionMaxStreams → SalStreamDescription
  | 0, streams => streams
  | n + 1, streams => fun i =>
    let streams := forStreams body n streams
    if i.val = n then body i (streams i) else streams i

/-- The body of the loop of `offer_answer_initiate_outgoing` (`offeranswer.c:544–556`). -/
def outgoingStream (ls rs result : SalStreamDescription) :
    SalStreamDescription :=
  if ls.proto = rs.proto ∧ rs.type = ls.type then
    { initiateOutgoing isMulticast factory ls rs result with
      rtcpXr := { ls.rtcpXr with
        enabled := if ls.rtcpXr.enabled && !rs.rtcpXr.enabled then false else ls.rtcpXr.enabled }
      rtcpFb := {
        genericNackEnabled := ls.rtcpFb.genericNackEnabled && rs.rtcpFb.genericNackEnabled
        tmmbrEnabled := ls.rtcpFb.tmmbrEnabled && rs.rtcpFb.tmmbrEnabled } }
  else result

/-- `offer_answer_initiate_outgoing` (`offeranswer.c:537–569`). -/
def offerAnswerInitiateOutgoing (localOffer remoteAnswer : SalMediaDescription)
    (result : SalMediaDescription) : SalMediaDescription :=
  { result with
    streams := forStreams (fun i r =>
      outgoingStream isMulticast factory (localOffer.streams i) (remoteAnswer.streams i) r)
      localOffer.nbStreams result.streams
    nbStreams := localOffer.nbStreams
    nbStreams_le := localOffer.nbStreams_le
    bandwidth := remoteAnswer.bandwidth
    addr := remoteAnswer.addr
    icePwd := localOffer.icePwd
    iceUfrag := localOffer.iceUfrag
    rtcpXr := { localOffer.rtcpXr with
      enabled := if localOffer.rtcpXr.enabled && !remoteAnswer.rtcpXr.enabled then false
        else localOffer.rtcpXr.enabled } }

/-- The RTCP XR settings an answered stream gets (`offeranswer.c:591–601`). -/
def answeredXr (ls rs : SalStreamDescription) (session : OrtpRtcpXrConfiguration) :
    OrtpRtcpXrConfiguration :=
  if rs.rtcpXr.enabled then
    if ls.rtcpXr.enabled && ls.dir == .sendRecv then ls.rtcpXr
    else if !ls.rtcpXr.enabled && session.enabled && ls.dir == .sendRecv then session
    else { enabled := true }
  else {}

/-- The body of the loop of `offer_answer_initiate_incoming` (`offeranswer.c:583–616`). A copy
into `typeother` or `proto_other` leaves room for the terminator. -/
def incomingStream (session : OrtpRtcpXrConfiguration)
    (oneMatchingCodec : Bool) (ls rs result : SalStreamDescription) : SalStreamDescription :=
  let result :=
    if rs.type = ls.type ∧ rs.proto = ls.proto then
      { initiateIncoming isMulticast factory ls rs result oneMatchingCodec with
        rtcpFb := rs.rtcpFb
        rtcpXr := answeredXr ls rs session }
    else
      { result with
        dir := .inactive
        rtpPort := 0
        type := rs.type
        proto := rs.proto
        typeother := if rs.type = .other then rs.typeother.take 31 else result.typeother
        protoOther := if rs.proto = .other then rs.protoOther.take 31 else result.protoOther }
  { result with customSdpAttributes := ls.customSdpAttributes }

/-- `offer_answer_initiate_incoming` (`offeranswer.c:576–643`). -/
def offerAnswerInitiateIncoming
    (localCapabilities remoteOffer result : SalMediaDescription) (oneMatchingCodec : Bool) :
    SalMediaDescription :=
  { result with
    streams := forStreams (fun i r =>
      incomingStream isMulticast factory localCapabilities.rtcpXr oneMatchingCodec
        (localCapabilities.streams i) (remoteOffer.streams i) r)
      remoteOffer.nbStreams result.streams
    nbStreams := remoteOffer.nbStreams
    nbStreams_le := remoteOffer.nbStreams_le
    username := localCapabilities.username
    addr := localCapabilities.addr
    bandwidth := localCapabilities.bandwidth
    sessionVer := localCapabilities.sessionVer
    sessionId := localCapabilities.sessionId
    icePwd := localCapabilities.icePwd
    iceUfrag := localCapabilities.iceUfrag
    iceLite := localCapabilities.iceLite
    setNortpproxy := localCapabilities.setNortpproxy
    customSdpAttributes := localCapabilities.customSdpAttributes
    name := localCapabilities.name
    rtcpXr :=
      if remoteOffer.rtcpXr.enabled then
        if localCapabilities.rtcpXr.enabled && localCapabilities.dir == .sendRecv
        then localCapabilities.rtcpXr
        else { enabled := true }
      else {} }

end

/-- Loop `forStreams` runs its body on the first `n` streams and leaves the others alone. -/
theorem forStreams_apply (body : Fin salMediaDescriptionMaxStreams → SalStreamDescription →
    SalStreamDescription) (streams : Fin salMediaDescriptionMaxStreams → SalStreamDescription)
    (i : Fin salMediaDescriptionMaxStreams) (n : Nat) :
    forStreams body n streams i = if i.val < n then body i (streams i) else streams i := by
  induction n with
  | zero => simp [forStreams]
  | succ n ih =>
    simp only [forStreams, ih]
    by_cases hi : i.val = n
    · simp [hi]
    · by_cases hlt : i.val < n
      · have hs : i.val < n + 1 := by omega
        simp [hi, hlt, hs]
      · have hs : ¬ i.val < n + 1 := by omega
        simp [hi, hlt, hs]

end GrooveIp.Sal
