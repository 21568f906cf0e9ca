import GrooveIp.Sal.CallOp
import GrooveIp.Sal.Matching

/-!
# Offer/answer agreement

What an accepted stream of an answer holds, what the offerer makes of it, and when the two
endpoints run one session. The answering side runs the result of `sdpProcess`, whose crypto
line is the first one offered.
-/

namespace GrooveIp.Sal

open List

variable {isMulticast isIpv6 : CString → Bool} {factory : MSFactory}

/-- What `initiate_incoming` wrote to a stream it accepted. -/
structure Answered (isMulticast : CString → Bool) (factory : MSFactory) (one : Bool)
    (cap offer prior answer : SalStreamDescription) : Prop where
  payloads : answer.payloads = matchPayloads factory cap.payloads offer.payloads false one
  nonempty : answer.payloads.isEmpty = false
  codec : onlyTelephoneEvent answer.payloads = false
  proto : answer.proto = offer.proto
  capProto : cap.proto = offer.proto
  type : answer.type = cap.type
  capType : cap.type = offer.type
  dir : answer.dir = if multicastAddr isMulticast offer.rtpAddr then offer.dir
    else computeDirIncoming cap.dir offer.dir
  multicast : multicastAddr isMulticast offer.rtpAddr = true →
    multicastMismatch offer answer = false
  crypto : answer.hasSrtp = true → ∃ line tag,
    matchCryptoAlgo cap.crypto offer.crypto true = some (line, tag) ∧
    answer.crypto = (fun i => if i = 0 then line else {}) ∧ answer.cryptoLocalTag = tag
  dtlsFingerprint : answer.dtlsFingerprint = if bothDtls cap offer then cap.dtlsFingerprint else []
  dtlsRole : answer.dtlsRole = if bothDtls cap offer then
    if offer.dtlsRole = .unset then .isClient else prior.dtlsRole else .invalid
  rtcpMux : answer.rtcpMux = (offer.rtcpMux && cap.rtcpMux)
  implicitRtcpFb : answer.implicitRtcpFb = (cap.implicitRtcpFb && offer.implicitRtcpFb)

variable {offer answer : SalStreamDescription}

theorem multicastMismatch_self (haddr : answer.rtpAddr = offer.rtpAddr)
    (hport : answer.rtpPort = offer.rtpPort) (hdir : answer.dir = offer.dir)
    (hband : answer.bandwidth = offer.bandwidth) (hptime : answer.ptime = offer.ptime)
    (httl : answer.ttl = offer.ttl) : multicastMismatch offer answer = false := by
  simp [multicastMismatch, haddr, hport, hdir, hband, hptime, httl]

theorem incomingCrypto_accepted (cap offer result : SalStreamDescription)
    (h : (incomingCrypto cap offer result).rtpPort ≠ 0) :
    ∃ crypto tag, incomingCrypto cap offer result = { result with crypto, cryptoLocalTag := tag } ∧
      (result.hasSrtp = true → ∃ line,
        matchCryptoAlgo cap.crypto offer.crypto true = some (line, tag) ∧
        crypto = fun i => if i = 0 then line else {}) := by
  unfold incomingCrypto at h ⊢
  split at h
  · next hs =>
    rw [if_pos hs]
    cases hm : matchCryptoAlgo cap.crypto offer.crypto true with
    | none =>
      rw [hm] at h
      exact absurd rfl h
    | some p => exact ⟨_, p.2, rfl, fun _ => ⟨p.1, rfl, rfl⟩⟩
  · next hs =>
    rw [if_neg hs]
    exact ⟨result.crypto, result.cryptoLocalTag, rfl, fun h' => absurd h' hs⟩

variable {prior : SalStreamDescription}

theorem initiateIncoming_accepted {one : Bool} {cap : SalStreamDescription}
    (h : (initiateIncoming isMulticast factory cap offer prior one).rtpPort ≠ 0) :
    ∃ result, initiateIncoming isMulticast factory cap offer prior one =
        incomingTail cap offer (incomingCrypto cap offer result) ∧
      result.payloads = matchPayloads factory cap.payloads offer.payloads false one ∧
      result.payloads.isEmpty = false ∧ onlyTelephoneEvent result.payloads = false ∧
      result.proto = offer.proto ∧ result.type = cap.type ∧ result.dtlsRole = prior.dtlsRole ∧
      result.dir = (if multicastAddr isMulticast offer.rtpAddr then offer.dir
        else computeDirIncoming cap.dir offer.dir) ∧
      (multicastAddr isMulticast offer.rtpAddr = true → multicastMismatch offer result = false) := by
  unfold initiateIncoming at h ⊢
  dsimp only at h ⊢
  split at h
  · exact absurd rfl h
  · next hdeclined =>
    rw [if_neg hdeclined]
    simp only [Bool.or_eq_true, not_or, Bool.not_eq_true] at hdeclined
    split at h
    · exact absurd rfl h
    · next hsavp =>
      rw [if_neg hsavp]
      refine ⟨_, rfl, ?_⟩
      by_cases hm : multicastAddr isMulticast offer.rtpAddr = true
      · simp only [hm, if_true]
        exact ⟨trivial, hdeclined.1.1, hdeclined.1.2, trivial, trivial, trivial, trivial,
          fun _ => multicastMismatch_self rfl rfl rfl rfl rfl rfl⟩
      · simp only [hm, Bool.false_eq_true, if_false]
        exact ⟨trivial, hdeclined.1.1, hdeclined.1.2, trivial, trivial, trivial, trivial,
          fun h => h.elim⟩

theorem incomingStream_answered {session : OrtpRtcpXrConfiguration} {one : Bool}
    {cap : SalStreamDescription}
    (h : (incomingStream isMulticast factory session one cap offer prior).rtpPort ≠ 0) :
    Answered isMulticast factory one cap offer prior
      (incomingStream isMulticast factory session one cap offer prior) := by
  unfold incomingStream at h ⊢
  by_cases ht : offer.type = cap.type ∧ offer.proto = cap.proto
  · simp only [ht, and_self, if_true] at h ⊢
    obtain ⟨result, heq, hpay, hne, hcodec, hproto, htype, hrole, hdir, hmulti⟩ :=
      initiateIncoming_accepted h
    rw [heq] at h ⊢
    obtain ⟨crypto, tag, hcrypto, hline⟩ := incomingCrypto_accepted cap offer result h
    rw [hcrypto]
    exact {
      payloads := hpay
      nonempty := hne
      codec := hcodec
      proto := hproto
      capProto := ht.2.symm
      type := htype
      capType := ht.1.symm
      dir := hdir
      multicast := hmulti
      crypto := fun hs => by
        obtain ⟨line, hmatch, hwrite⟩ := hline hs
        exact ⟨line, tag, hmatch, hwrite, rfl⟩
      dtlsFingerprint := rfl
      dtlsRole := by rw [← hrole]; rfl
      rtcpMux := rfl
      implicitRtcpFb := rfl }
  · simp [ht] at h

/-- What `initiate_outgoing` wrote for an accepting answer. The stream stays accepted when the
common codecs and the crypto lines allow it. -/
structure Concluded (isMulticast : CString → Bool) (factory : MSFactory)
    (offer answer final : SalStreamDescription) : Prop where
  payloads : final.payloads = matchPayloads factory offer.payloads answer.payloads true false
  dir : final.dir = if multicastAddr isMulticast offer.rtpAddr then offer.dir
    else computeDirOutgoing offer.dir answer.dir
  accepted : final.payloads.isEmpty = false → onlyTelephoneEvent final.payloads = false →
    (answer.hasSrtp = true → (matchCryptoAlgo offer.crypto answer.crypto false).isSome = true) →
    final.rtpPort = answer.rtpPort
  crypto : answer.hasSrtp = true → ∀ line tag,
    matchCryptoAlgo offer.crypto answer.crypto false = some (line, tag) →
    final.crypto 0 = line ∧ final.cryptoLocalTag = tag
  dtlsFingerprint : final.dtlsFingerprint =
    if bothDtls offer answer then answer.dtlsFingerprint else []
  dtlsRole : final.dtlsRole = if bothDtls offer answer then
    if answer.dtlsRole = .isClient then .isServer else .isClient else .invalid
  proto : final.proto = answer.proto
  rtcpMux : final.rtcpMux = (answer.rtcpMux && offer.rtcpMux)
  implicitRtcpFb : final.implicitRtcpFb = (offer.implicitRtcpFb && answer.implicitRtcpFb)

theorem outgoingCrypto_cases (offer answer result : SalStreamDescription) :
    ∃ crypto tag port, outgoingCrypto offer answer result =
        { result with crypto, cryptoLocalTag := tag, rtpPort := port } ∧
      ((result.hasSrtp = true → (matchCryptoAlgo offer.crypto answer.crypto false).isSome = true) →
        port = result.rtpPort) ∧ (result.hasSrtp = true → ∀ line tag',
        matchCryptoAlgo offer.crypto answer.crypto false = some (line, tag') →
        crypto 0 = line ∧ tag = tag') := by
  unfold outgoingCrypto
  split
  · next hs =>
    cases hm : matchCryptoAlgo offer.crypto answer.crypto false with
    | none =>
      refine ⟨_, result.cryptoLocalTag, 0, rfl, fun h => ?_, fun _ _ _ h => (nomatch h)⟩
      cases h hs
    | some p =>
      refine ⟨_, p.2, result.rtpPort, rfl, fun _ => rfl, fun _ line tag h => ?_⟩
      cases h
      exact ⟨rfl, rfl⟩
  · next hs =>
    exact ⟨result.crypto, result.cryptoLocalTag, result.rtpPort, rfl, fun _ => rfl,
      fun h => absurd h hs⟩

theorem initiateOutgoing_accepted (factory : MSFactory) (prior : SalStreamDescription)
    (hport : answer.rtpPort ≠ 0)
    (hm : multicastAddr isMulticast offer.rtpAddr = true → multicastMismatch offer answer = false) :
    ∃ result, initiateOutgoing isMulticast factory offer answer prior =
        outgoingTail offer answer (outgoingCrypto offer answer result) ∧
      result.payloads = matchPayloads factory offer.payloads answer.payloads true false ∧
      result.proto = answer.proto ∧
      result.dir = (if multicastAddr isMulticast offer.rtpAddr then offer.dir
        else computeDirOutgoing offer.dir answer.dir) ∧
      (result.payloads.isEmpty = false → onlyTelephoneEvent result.payloads = false →
        result.rtpPort = answer.rtpPort) := by
  have hmis : ¬ (multicastAddr isMulticast offer.rtpAddr && multicastMismatch offer answer) = true := by
    cases hc : multicastAddr isMulticast offer.rtpAddr with
    | false => simp
    | true => simp [hm hc]
  unfold initiateOutgoing
  rw [if_neg hport]
  rw [if_neg hmis]
  refine ⟨_, rfl, ?_⟩
  by_cases hc : multicastAddr isMulticast offer.rtpAddr = true
  · simp only [hc, if_true]
    split
    · exact ⟨rfl, rfl, rfl, fun _ _ => rfl⟩
    · next hcodec =>
      refine ⟨rfl, rfl, rfl, fun hne hte => absurd ?_ hcodec⟩
      simp [hne, hte]
  · simp only [hc, Bool.false_eq_true, if_false]
    split
    · exact ⟨rfl, rfl, rfl, fun _ _ => rfl⟩
    · next hcodec =>
      refine ⟨rfl, rfl, rfl, fun hne hte => absurd ?_ hcodec⟩
      simp [hne, hte]

theorem outgoingStream_concluded (hport : answer.rtpPort ≠ 0)
    (ht : offer.proto = answer.proto ∧ answer.type = offer.type)
    (hm : multicastAddr isMulticast offer.rtpAddr = true → multicastMismatch offer answer = false) :
    Concluded isMulticast factory offer answer
      (outgoingStream isMulticast factory offer answer prior) := by
  unfold outgoingStream
  rw [if_pos ht]
  obtain ⟨result, heq, hpay, hproto, hdir, hacc⟩ :=
    initiateOutgoing_accepted factory prior hport hm
  obtain ⟨crypto, tag, port, hcrypto, hkeep, hline⟩ := outgoingCrypto_cases offer answer result
  have hsrtp : result.hasSrtp = answer.hasSrtp := by
    simp [SalStreamDescription.hasSrtp, hproto]
  rw [hsrtp] at hkeep hline
  rw [heq, hcrypto]
  exact {
    payloads := hpay
    dir := hdir
    accepted := fun hne hte hs => (hkeep hs).trans (hacc hne hte)
    crypto := hline
    dtlsFingerprint := rfl
    dtlsRole := rfl
    proto := hproto
    rtcpMux := rfl
    implicitRtcpFb := rfl }

section

variable {one : Bool} {caps offer answer prior : SalMediaDescription}
  {i : Fin salMediaDescriptionMaxStreams} (hi : i.val < offer.nbStreams)

include hi

/-- The answerer's loop, for a stream that it accepts. -/
theorem offerAnswerInitiateIncoming_answered
    (hacc : ((offerAnswerInitiateIncoming isMulticast factory caps offer prior one).streams
      i).rtpPort ≠ 0) :
    Answered isMulticast factory one (caps.streams i) (offer.streams i) (prior.streams i)
      ((offerAnswerInitiateIncoming isMulticast factory caps offer prior one).streams i) := by
  have heq : (offerAnswerInitiateIncoming isMulticast factory caps offer prior one).streams i =
      incomingStream isMulticast factory caps.rtcpXr one (caps.streams i) (offer.streams i)
        (prior.streams i) := by
    simp [offerAnswerInitiateIncoming, forStreams_apply, hi]
  rw [heq] at hacc ⊢
  exact incomingStream_answered hacc

/-- The offerer's loop, for a stream that the answerer accepted. -/
theorem offerAnswerInitiateOutgoing_concluded (prior : SalMediaDescription)
    {cap prior' : SalStreamDescription} (hacc : (answer.streams i).rtpPort ≠ 0)
    (ha : Answered isMulticast factory one cap (offer.streams i) prior' (answer.streams i)) :
    Concluded isMulticast factory (offer.streams i) (answer.streams i)
      ((offerAnswerInitiateOutgoing isMulticast factory offer answer prior).streams i) := by
  have heq : (offerAnswerInitiateOutgoing isMulticast factory offer answer prior).streams i =
      outgoingStream isMulticast factory (offer.streams i) (answer.streams i)
        (prior.streams i) := by
    simp [offerAnswerInitiateOutgoing, forStreams_apply, hi]
  rw [heq]
  exact outgoingStream_concluded hacc ⟨ha.proto.symm, ha.type.trans ha.capType⟩ ha.multicast

end

/-- Whether a stream of this direction sends. -/
def SalStreamDir.sends (d : SalStreamDir) : Bool := d == .sendRecv || d == .sendOnly

/-- Whether a stream of this direction receives. -/
def SalStreamDir.receives (d : SalStreamDir) : Bool := d == .sendRecv || d == .recvOnly

theorem computeDir_mirror (cap offer : SalStreamDir) :
    ((computeDirOutgoing offer (computeDirIncoming cap offer)).sends =
        (computeDirIncoming cap offer).receives) ∧
      ((computeDirOutgoing offer (computeDirIncoming cap offer)).receives =
        (computeDirIncoming cap offer).sends) := by
  cases cap <;> cases offer <;> exact ⟨rfl, rfl⟩

/-- Two payloads are one codec under one number. -/
def SameFormat (p q : PayloadType) : Prop := p.number = q.number ∧ sameCodec p q = true

/-- The crypto lines of an SRTP stream fit together: `final` is what the offerer runs and
`running` what the answerer runs. A local key is named by the tag its owner recorded. -/
structure KeysAgree (offer cap answer final running : SalStreamDescription) : Prop where
  suite : (running.crypto 0).algo = (final.crypto 0).algo
  answeredSuite : (answer.crypto 0).algo = (final.crypto 0).algo
  tag : (answer.crypto 0).tag = final.cryptoLocalTag
  answererKey : ∃ k, (cap.crypto k).tag = running.cryptoLocalTag ∧
    (cap.crypto k).algo = (final.crypto 0).algo ∧
    (final.crypto 0).masterKey = (cap.crypto k).masterKey
  offererKey : ∃ j, (offer.crypto j).tag = final.cryptoLocalTag ∧
    (offer.crypto j).algo = (final.crypto 0).algo ∧
    (running.crypto 0).masterKey = (offer.crypto j).masterKey

/-- The two endpoints of an accepted stream run one session. -/
structure StreamsAgree (offer cap answer final running : SalStreamDescription) : Prop where
  accepted : final.rtpPort ≠ 0
  answererSends : ∀ a ∈ answer.payloads, a.canSend = true →
    ∃ f ∈ final.payloads, SameFormat f a ∧ f.canRecv = true
  offererSends : ∀ f ∈ final.payloads, f.canSend = true →
    ∃ a ∈ answer.payloads, SameFormat f a ∧ a.canRecv = true
  offererDir : final.dir.sends = answer.dir.receives
  answererDir : final.dir.receives = answer.dir.sends
  keys : answer.hasSrtp = true → KeysAgree offer cap answer final running
  rtcpMux : final.rtcpMux = answer.rtcpMux
  implicitRtcpFb : final.implicitRtcpFb = answer.implicitRtcpFb

/-- The payloads of a local offer: distinct, of codecs without a provider, and none marked
`CAN_SEND`, which only `match_payloads` sets, on a clone. -/
structure OfferedPayloads (factory : MSFactory) (l : List PayloadType) : Prop where
  distinct : DistinctPayloads l
  generic : GenericCodecs factory l
  unmarked : ∀ p ∈ l, p.canSend = false

section

variable {cap offer answer final : List PayloadType} {one : Bool}
  (ho : OfferedPayloads factory offer) (hc : GenericCodecs factory cap)
  (hanswer : answer = matchPayloads factory cap offer false one)

include ho hanswer

theorem answered_offered {a : PayloadType} (ha : a ∈ answer) :
    ∃ p ∈ offer, sameCodec p a = true ∧ p.number = a.number := by
  rw [hanswer] at ha
  obtain ⟨p, hp, m, -, hs, rfl⟩ := matchPayloads_answer_mem ho.generic ha
  refine ⟨p, hp, ?_, rfl⟩
  rw [sameCodec_comm, sameCodec_negotiate]
  exact hs

include hc

theorem answered_generic : GenericCodecs factory answer := by
  intro a ha
  rw [hanswer] at ha
  obtain ⟨p, -, m, hm, -, rfl⟩ := matchPayloads_answer_mem ho.generic ha
  rw [negotiate_mimeType]
  exact hc m hm

theorem answererSends {a : PayloadType} (ha : a ∈ answer) :
    ∃ f ∈ matchPayloads factory offer answer true false, SameFormat f a ∧ f.canRecv = true := by
  obtain ⟨p, -, hs, hmem⟩ := mem_matchPayloads_outgoing ho.distinct
    (answered_generic ho hc hanswer) (fun _ h => answered_offered ho hanswer h) ha
  refine ⟨_, hmem, ⟨rfl, ?_⟩, negotiate_canRecv ..⟩
  rw [sameCodec_negotiate]
  exact hs

theorem offererSends {f : PayloadType} (hf : f ∈ matchPayloads factory offer answer true false)
    (hsend : f.canSend = true) : ∃ a ∈ answer, SameFormat f a ∧ a.canRecv = true := by
  rcases matchPayloads_outgoing_mem ho.distinct (answered_generic ho hc hanswer)
    (fun _ h => answered_offered ho hanswer h) hf with ⟨a, ha, p, -, hs, rfl⟩ | ⟨p, hp, rfl⟩
  · refine ⟨a, ha, ⟨rfl, ?_⟩, ?_⟩
    · rw [sameCodec_negotiate]
      exact hs
    · rw [hanswer] at ha
      obtain ⟨q, -, m, -, -, rfl⟩ := matchPayloads_answer_mem ho.generic ha
      exact negotiate_canRecv ..
  · -- a payload kept for reception was never marked
    rw [ho.unmarked p hp] at hsend
    cases hsend

theorem concluded_codec (hte : onlyTelephoneEvent answer = false) :
    (matchPayloads factory offer answer true false).isEmpty = false ∧
      onlyTelephoneEvent (matchPayloads factory offer answer true false) = false := by
  obtain ⟨a, ha, hcodec⟩ : ∃ a ∈ answer, strcaseEq a.mimeType telephoneEvent = false := by
    simpa [onlyTelephoneEvent] using hte
  obtain ⟨f, hf, ⟨-, hs⟩, -⟩ := answererSends ho hc hanswer ha
  have hmime : strcaseEq f.mimeType telephoneEvent = false := by
    rw [sameCodec_iff, strcaseEq_iff] at hs
    rw [← hcodec, strcaseEq, strcaseEq, hs.1]
  constructor
  · rw [isEmpty_eq_false_iff]
    exact ne_nil_of_mem hf
  · rw [onlyTelephoneEvent, all_eq_false]
    exact ⟨f, hf, by simp [hmime]⟩

end

theorem nullAddresses_stream (isIpv6 : CString → Bool) (root : SalRoot) (md : SalMediaDescription)
    (i : Fin salMediaDescriptionMaxStreams) :
    ∃ rtpAddr rtcpAddr, (nullAddresses isIpv6 root md).streams i =
      { md.streams i with rtpAddr, rtcpAddr } := by
  unfold nullAddresses
  split
  · dsimp only
    split
    · exact ⟨_, _, rfl⟩
    · exact ⟨_, _, rfl⟩
  · exact ⟨_, _, rfl⟩

theorem copyBackStream_srtp {remote result : SalStreamDescription} (hacc : result.rtpPort ≠ 0)
    (hs : result.hasSrtp = true) : (copyBackStream remote result).crypto 0 = remote.crypto 0 ∧
      (copyBackStream remote result).cryptoLocalTag = result.cryptoLocalTag := by
  have hs' : ({ result with
      rtpAddr := remote.rtpAddr
      ptime := remote.ptime
      bandwidth := remote.bandwidth
      rtpPort := remote.rtpPort
      rtcpAddr := remote.rtcpAddr
      rtcpPort := remote.rtcpPort } : SalStreamDescription).hasSrtp = true := hs
  unfold copyBackStream
  rw [if_pos hacc]
  rw [if_pos hs']
  exact ⟨rfl, rfl⟩

section

variable (isMulticast isIpv6) (root : SalRoot) (caps offer : SalMediaDescription)

/-- The answer of `offer_answer_initiate_incoming`, over a new description. -/
def answerOf : SalMediaDescription :=
  offerAnswerInitiateIncoming isMulticast root.factory caps offer salMediaDescriptionNew
    root.oneMatchingCodec

/-- The offerer's result for that answer. -/
def finalOf : SalMediaDescription :=
  offerAnswerInitiateOutgoing isMulticast root.factory offer (answerOf isMulticast root caps offer)
    salMediaDescriptionNew

/-- The description the answerer runs. -/
def runningOf : SalMediaDescription :=
  (sdpProcess isMulticast isIpv6 root false caps offer).result

end

section

variable {root : SalRoot} {caps offer : SalMediaDescription} {i : Fin salMediaDescriptionMaxStreams}
  (hacc : ((answerOf isMulticast root caps offer).streams i).rtpPort ≠ 0)

include hacc

theorem lt_nbStreams_of_accepted : i.val < offer.nbStreams := by
  by_cases hi : i.val < offer.nbStreams
  · exact hi
  · refine absurd ?_ hacc
    simp [answerOf, offerAnswerInitiateIncoming, forStreams_apply, hi, salMediaDescriptionNew]

theorem answerOf_answered :
    Answered isMulticast root.factory root.oneMatchingCodec (caps.streams i) (offer.streams i)
      (salMediaDescriptionNew.streams i) ((answerOf isMulticast root caps offer).streams i) :=
  offerAnswerInitiateIncoming_answered (lt_nbStreams_of_accepted hacc) hacc

theorem finalOf_concluded : Concluded isMulticast root.factory (offer.streams i)
      ((answerOf isMulticast root caps offer).streams i)
      ((finalOf isMulticast root caps offer).streams i) :=
  offerAnswerInitiateOutgoing_concluded (lt_nbStreams_of_accepted hacc) _ hacc
    (answerOf_answered hacc)

theorem runningOf_srtp (isIpv6 : CString → Bool)
    (hs : ((answerOf isMulticast root caps offer).streams i).hasSrtp = true) :
    ((runningOf isMulticast isIpv6 root caps offer).streams i).crypto 0 =
        (offer.streams i).crypto 0 ∧
      ((runningOf isMulticast isIpv6 root caps offer).streams i).cryptoLocalTag =
        ((answerOf isMulticast root caps offer).streams i).cryptoLocalTag := by
  obtain ⟨rtpAddr, rtcpAddr, hnull⟩ := nullAddresses_stream isIpv6 root
    (answerOf isMulticast root caps offer) i
  have heq : (runningOf isMulticast isIpv6 root caps offer).streams i =
      copyBackStream (offer.streams i) { (answerOf isMulticast root caps offer).streams i with
        rtpAddr, rtcpAddr } := by
    rw [← hnull]
    rfl
  rw [heq]
  exact copyBackStream_srtp hacc hs

/-- The lines both sides select for an accepted SRTP stream: the offered line `j` and the
capability `k`. It is the first offered line when the answerer has its suite. -/
theorem selectedLines (hs : ((answerOf isMulticast root caps offer).streams i).hasSrtp = true) :
    ∃ j k, ((caps.streams i).crypto k).algo = ((offer.streams i).crypto j).algo ∧
      ((answerOf isMulticast root caps offer).streams i).crypto 0 =
        { tag := ((offer.streams i).crypto j).tag
          algo := ((offer.streams i).crypto j).algo
          masterKey := ((caps.streams i).crypto k).masterKey } ∧
      ((answerOf isMulticast root caps offer).streams i).cryptoLocalTag =
        ((caps.streams i).crypto k).tag ∧ matchCryptoAlgo (offer.streams i).crypto
          ((answerOf isMulticast root caps offer).streams i).crypto false =
        some (((answerOf isMulticast root caps offer).streams i).crypto 0,
          ((offer.streams i).crypto j).tag) ∧
      ((∃ k', ((caps.streams i).crypto k').algo = ((offer.streams i).crypto 0).algo) →
        (offer.streams i).crypto j = (offer.streams i).crypto 0) := by
  obtain ⟨line, tag, hmatch, hcrypto, htag⟩ := (answerOf_answered hacc).crypto hs
  obtain ⟨r, l, hvalid, hfirst, hsuite, hl, hline, rfl⟩ := matchCryptoAlgo_answer hmatch
  have hlalgo : l.algo = r.algo := by
    have h := List.find?_some (p := fun c : SalSrtpCryptoAlgo => r.algo == c.algo) hl
    exact (beq_iff_eq.mp h).symm
  obtain ⟨j, rfl⟩ := mem_ofFn.mp (mem_of_find?_eq_some hsuite)
  obtain ⟨k, rfl⟩ := mem_ofFn.mp (mem_of_find?_eq_some hl)
  have hanswer0 : ((answerOf isMulticast root caps offer).streams i).crypto 0 = line := by
    rw [hcrypto]
    rfl
  refine ⟨j, k, hlalgo, hanswer0.trans hline, htag, ?_, ?_⟩
  · rw [hanswer0, hcrypto, matchCryptoAlgo_offerer (r := (offer.streams i).crypto j)]
    · rw [hline]
    · rw [hline]
      exact hvalid
    · rw [hline]
      exact hsuite
  · rintro ⟨k', hk'⟩
    have hlist : List.ofFn (offer.streams i).crypto = (offer.streams i).crypto 0 ::
        List.ofFn fun n : Fin 3 => (offer.streams i).crypto n.succ := ofFn_succ
    have hhas : ((List.ofFn (caps.streams i).crypto).find? fun c =>
        ((offer.streams i).crypto 0).algo == c.algo).isSome = true := by
      rw [List.find?_isSome]
      exact ⟨_, mem_ofFn.mpr ⟨k', rfl⟩, beq_iff_eq.mpr hk'.symm⟩
    rw [hlist, List.find?_cons, hhas] at hfirst
    exact (Option.some.inj hfirst).symm

theorem keysAgree_iff (hs : ((answerOf isMulticast root caps offer).streams i).hasSrtp = true) :
    KeysAgree (offer.streams i) (caps.streams i) ((answerOf isMulticast root caps offer).streams i)
        ((finalOf isMulticast root caps offer).streams i)
        ((runningOf isMulticast isIpv6 root caps offer).streams i) ↔
      ∃ k, ((caps.streams i).crypto k).algo = ((offer.streams i).crypto 0).algo := by
  obtain ⟨hrun, hruntag⟩ := runningOf_srtp hacc isIpv6 hs
  obtain ⟨j, k, hsuite, hanswer, htag, hmatch, hfirst⟩ := selectedLines hacc hs
  obtain ⟨hfinal, hfinaltag⟩ := (finalOf_concluded hacc).crypto hs _ _ hmatch
  rw [hanswer] at hfinal
  constructor
  · intro h
    refine ⟨k, ?_⟩
    have hsame := h.suite
    rw [hrun, hfinal] at hsame
    rw [hsuite, hsame]
  · intro h
    have hj := hfirst h
    exact {
      suite := by rw [hrun, hfinal, hj]
      answeredSuite := by rw [hanswer, hfinal]
      tag := by rw [hanswer, hfinaltag]
      answererKey := ⟨k, by rw [hruntag, htag], by rw [hfinal, hsuite], by rw [hfinal]⟩
      offererKey := ⟨j, hfinaltag.symm, by rw [hfinal], by rw [hrun, hj]⟩ }

end

/-- The endpoints of an accepted unicast stream run one session exactly when, with SRTP, the
first offered crypto line is of a suite that the answerer has. -/
theorem offerAnswer_agreement_iff (isMulticast isIpv6 : CString → Bool) (root : SalRoot)
    (caps offer : SalMediaDescription) (i : Fin salMediaDescriptionMaxStreams)
    (ho : OfferedPayloads root.factory (offer.streams i).payloads)
    (hc : GenericCodecs root.factory (caps.streams i).payloads)
    (hu : multicastAddr isMulticast (offer.streams i).rtpAddr = false)
    (hacc : ((answerOf isMulticast root caps offer).streams i).rtpPort ≠ 0) :
    StreamsAgree (offer.streams i) (caps.streams i) ((answerOf isMulticast root caps offer).streams i)
        ((finalOf isMulticast root caps offer).streams i)
        ((runningOf isMulticast isIpv6 root caps offer).streams i) ↔
      ((offer.streams i).hasSrtp = true →
        ∃ k, ((caps.streams i).crypto k).algo = ((offer.streams i).crypto 0).algo) := by
  have ha := answerOf_answered hacc
  have hf := finalOf_concluded hacc
  have hsrtp : ((answerOf isMulticast root caps offer).streams i).hasSrtp =
      (offer.streams i).hasSrtp := by
    simp [SalStreamDescription.hasSrtp, ha.proto]
  rw [← hsrtp]
  constructor
  · intro h hs
    exact (keysAgree_iff hacc hs).mp (h.keys hs)
  · intro hfirst
    have hdir := computeDir_mirror (caps.streams i).dir (offer.streams i).dir
    obtain ⟨hne, hte⟩ := concluded_codec ho hc ha.payloads ha.codec
    have hport : ((finalOf isMulticast root caps offer).streams i).rtpPort =
        ((answerOf isMulticast root caps offer).streams i).rtpPort := by
      rw [← hf.payloads] at hne hte
      apply hf.accepted hne hte
      intro hs
      obtain ⟨j, k, -, -, -, hmatch, -⟩ := selectedLines hacc hs
      rw [hmatch]
      rfl
    exact {
      accepted := by rw [hport]; exact hacc
      answererSends := fun a hmem _ => by
        rw [hf.payloads]
        exact answererSends ho hc ha.payloads hmem
      offererSends := fun f hmem hsend => by
        rw [hf.payloads] at hmem
        exact offererSends ho hc ha.payloads hmem hsend
      offererDir := by rw [hf.dir, ha.dir, hu]; exact hdir.1
      answererDir := by rw [hf.dir, ha.dir, hu]; exact hdir.2
      keys := fun hs => (keysAgree_iff hacc hs).mpr (hfirst hs)
      rtcpMux := by rw [hf.rtcpMux, ha.rtcpMux]; grind
      implicitRtcpFb := by rw [hf.implicitRtcpFb, ha.implicitRtcpFb]; grind }

/-- A description with one SRTP audio stream of one codec and the given crypto lines. -/
def srtpAudio (lines : List SalSrtpCryptoAlgo) : SalMediaDescription where
  nbStreams := 1
  nbStreams_le := one_le_salMediaDescriptionMaxStreams
  streams := fun _ =>
    { proto := .rtpSavp
      rtpPort := 7078
      payloads := [{ mimeType := ['P', 'C', 'M', 'U'], clockRate := 8000, channels := 1, number := 0 }]
      crypto := fun n => lines.getD n.val {} }

/-- The agreement on the audio stream of such an exchange, no address being multicast. -/
def SrtpAudioAgrees (caps offer : List SalSrtpCryptoAlgo) : Prop :=
  StreamsAgree ((srtpAudio offer).streams 0) ((srtpAudio caps).streams 0)
    ((answerOf (fun _ => false) { factory := [] } (srtpAudio caps) (srtpAudio offer)).streams 0)
    ((finalOf (fun _ => false) { factory := [] } (srtpAudio caps) (srtpAudio offer)).streams 0)
    ((runningOf (fun _ => false) (fun _ => false) { factory := [] } (srtpAudio caps)
      (srtpAudio offer)).streams 0)

/-- One suite, offered and answered. -/
theorem offerAnswer_agreement_oneSuite :
    SrtpAudioAgrees [⟨7, .aes128Sha1_80, ['b']⟩] [⟨1, .aes128Sha1_80, ['a']⟩] :=
  (offerAnswer_agreement_iff (fun _ => false) (fun _ => false) { factory := [] }
    (srtpAudio [⟨7, .aes128Sha1_80, ['b']⟩]) (srtpAudio [⟨1, .aes128Sha1_80, ['a']⟩]) 0
    { distinct := pairwise_singleton _ _
      generic := fun _ _ => rfl
      unmarked := by simp [srtpAudio] } (fun _ _ => rfl) rfl (by decide)).mpr fun _ => ⟨0, rfl⟩

/-- Two suites offered, the second one answered: the answerer decrypts with the suite and the
key of the first line, the offerer encrypts with those of the second. -/
theorem offerAnswer_agreement_secondLine : OfferedPayloads [] ((srtpAudio []).streams 0).payloads ∧
    ((answerOf (fun _ => false) { factory := [] } (srtpAudio [⟨1, .aes128Sha1_80, ['c']⟩])
      (srtpAudio [⟨1, .aes256Sha1_80, ['a']⟩, ⟨2, .aes128Sha1_80, ['b']⟩])).streams 0).rtpPort = 7078 ∧
    ¬ SrtpAudioAgrees [⟨1, .aes128Sha1_80, ['c']⟩]
      [⟨1, .aes256Sha1_80, ['a']⟩, ⟨2, .aes128Sha1_80, ['b']⟩] := by
  refine ⟨?_, by decide, fun h => ?_⟩
  · exact {
      distinct := pairwise_singleton _ _
      generic := fun _ _ => rfl
      unmarked := by simp [srtpAudio] }
  · exact absurd (h.keys (by decide)).suite (by decide)

end GrooveIp.Sal
