import GrooveIp.Ice.Checks

/-!
# Handling received STUN packets

The handlers of `ice.c:1892–2347, 2439–2523, 2563–2697` and `ice_handle_stun_packet`
(`ice.c:2737–2815`). What a packet comes with is an event; the conversions between the two
address types are parameters. Of the answers of STUN and TURN servers only the candidates they
add and the end of the gathering are modelled, and whether a response answers an outstanding
request to such a server is part of the event.
-/

namespace GrooveIp.Ice

open Lib Stun

/-- What the code around the handlers provides. -/
structure IceEnvironment where
  hmacSha1 : List UInt8 → List UInt8 → Vector UInt8 20
  toTransportAddress : MSStunAddress → IceTransportAddress
  toStunAddress : IceTransportAddress → MSStunAddress
  afInet : Int
  afInet6 : Int

/-- `evt_data->info.socket_type`. -/
inductive OrtpSocketType where
  | rtpSocket
  | rtcpSocket
  | other
  deriving DecidableEq, Repr

/-- `OrtpEventData` with the packet, both addresses, the random values the handling draws and what
is known of the requests to STUN and TURN servers. -/
structure IceEvent where
  packet : List UInt8
  socketType : OrtpSocketType
  sourceAddr : MSStunAddress
  recvAddr : MSStunAddress
  now : MSTimeSpec
  trId : UInt96
  foundation : List UInt8
  fromServer : Bool := false
  answersServerRequest : Bool := false
  lastServerRequest : Bool := false

/-- `ice_get_componentID_from_rtp_session` (`ice.c:1569`), `none` for -1. -/
def iceGetComponentID (evt : IceEvent) : Option UInt16 :=
  match evt.socketType with
  | .rtpSocket => some 1
  | .rtcpSocket => some 2
  | .other => none

/-- `ms_compare_stun_addresses` (`stun.c:547`). -/
def msCompareStunAddresses (a1 a2 : MSStunAddress) : Bool :=
  !(a1.family == a2.family && a1.ip == a2.ip &&
    (a1.family == msStunAddrFamilyIpv4 || a1.family == msStunAddrFamilyIpv6))

section

variable (env : IceEnvironment)

/-! ## Requests -/

variable (session : IceSession) (i : StreamIndex) (cl : IceCheckList) (componentID : UInt16)
  (evt : IceEvent) (msg : MSStunMessage) (pair : PairRef)

/-- `ice_send_error_response` (`ice.c:1691`): the identifier of the response is the one
`ms_stun_binding_error_response_create` draws. -/
def iceSendErrorResponse (error : IceErrorResponse) : List IceSent :=
  if evt.socketType = .other then []
  else
    let response := msStunMessageCreate 0x0110 msStunMethodBinding evt.trId
    let response := { response with hasFingerprint := true }
    [.errorResponse (response.setErrorCode error.number
      (some (error.reason.toList.map fun c => c.toNat.toUInt8)))]

/-- The error for a role conflict. -/
def roleConflict : IceErrorResponse := ⟨msIceErrorCodeRoleConflict, "Role Conflict"⟩

/-- `ice_check_received_binding_request_role_conflict` (`ice.c:1892`). -/
def iceCheckRoleConflict : IceSession × Option IceErrorResponse :=
  if session.role = .controlling ∧ msg.hasIceControlling then
    if session.tieBreaker ≥ msg.iceControlling then (session, some roleConflict)
    else (iceSessionSetRole session .controlled, none)
  else if session.role = .controlled ∧ msg.hasIceControlled then
    if session.tieBreaker ≥ msg.iceControlled then (iceSessionSetRole session .controlling, none)
    else (session, some roleConflict)
  else (session, none)

/-- `bctbx_list_find_custom` with `ice_find_candidate_from_transport_address_and_componentID`. -/
def iceFindCandidate (candidates : List IceCandidate) (taddr : IceTransportAddress)
    (componentID : UInt16) : Option CandidateRef :=
  candidates.findIdx? fun candidate =>
    candidate.componentID == componentID && !iceCompareTransportAddresses candidate.taddr taddr

/-- `ice_learn_peer_reflexive_candidate` (`ice.c:1962`). -/
def iceLearnPeerReflexiveCandidate
    (taddr : IceTransportAddress) : IceCheckList × Option CandidateRef :=
  match iceGetComponentID evt with
  | none => (cl, none)
  | some componentID =>
    match iceFindCandidate cl.remoteCandidates taddr componentID with
    | some _ => (cl, none)
    | none =>
      iceAddRemoteCandidate env.afInet6 cl .peerReflexive taddr componentID msg.priority
        evt.foundation false

/-- `ice_find_pair_from_candidates` (`ice.c:1987`) in a list of pairs. -/
def iceFindPairFromCandidates (list : List PairRef) (l r : CandidateRef) : Option PairRef :=
  list.find? fun pair =>
    (cl.heap pair).localCandidate == l && (cl.heap pair).remoteCandidate == r

/-- The pair of a list with these candidates, or a new one (`ice.c:2031–2037, 2264–2273`). -/
def iceFindOrAddPair (list : List PairRef) (l r : CandidateRef) : IceCheckList × PairRef :=
  match iceFindPairFromCandidates cl list l r with
  | some pair => (cl, pair)
  | none => (cl.appendPair (icePairNew session cl l r), cl.nextPair)

/-- Set a pair to Waiting and trigger a check for it. -/
def triggerPair : IceCheckList :=
  iceCheckListQueueTriggeredCheck (cl.setPairState pair .waiting) pair

/-- The transactions after the one `ice_find_transaction` finds was canceled. -/
def iceCancelTransaction (pair : PairRef) : List IceTransaction → List IceTransaction
  | [] => []
  | transaction :: rest =>
    if !iceFindTransactionFromPair transaction pair then
      { transaction with canceled := true } :: rest
    else transaction :: iceCancelTransaction pair rest

/-- A pair that is not in the check list yet (`ice.c:2028–2046`). -/
def iceTriggerNewPair (l r : CandidateRef) : IceCheckList × PairRef :=
  let (cl, pair) := iceFindOrAddPair session cl cl.pairs l r
  let cl :=
    if pair ∈ cl.checkList then cl
    else { cl with checkList := insertByPriority cl.heap pair cl.checkList }
  (triggerPair cl pair, pair)

/-- A pair of the check list (`ice.c:2047–2078`). -/
def iceTriggerKnownPair : IceCheckList :=
  match (cl.heap pair).state with
  | .waiting | .frozen | .failed => triggerPair cl pair
  | .inProgress =>
    if (cl.heap pair).hasCanceledTransaction then cl
    else if (iceFindTransaction cl pair).isNone then cl
    else
      (triggerPair { cl with transactionList := iceCancelTransaction pair cl.transactionList }
        pair).updatePair pair fun p => { p with hasCanceledTransaction := true }
  | .succeeded => cl

/-- `ice_trigger_connectivity_check_on_binding_request` (`ice.c:1993`). -/
def iceTriggerConnectivityCheck
    (prflxCandidate : Option CandidateRef) (remoteTaddr : IceTransportAddress) :
    IceCheckList × Option PairRef :=
  let localTaddr := env.toTransportAddress evt.recvAddr
  match cl.localCandidates.findIdx? fun c => !iceCompareTransportAddresses c.taddr localTaddr with
  | none => (cl, none)
  | some l =>
    match prflxCandidate <|>
        iceFindCandidate cl.remoteCandidates remoteTaddr (cl.localAt l).componentID with
    | none => (cl, none)
    | some r =>
      match iceFindPairFromCandidates cl cl.checkList l r with
      | none =>
        let (cl, pair) := iceTriggerNewPair session cl l r
        (cl, some pair)
      | some pair => (iceTriggerKnownPair cl pair, some pair)

/-- `ice_lookup_possible_valid_pair` (`ice.c:2082`). -/
def iceLookupPossibleValidPair (pair : PairRef) : List IceValidCandidatePair → Option PairRef
  | [] => none
  | valid :: rest =>
    if pair = valid.valid then some pair
    else if valid.generatedFrom = pair then some valid.valid
    else iceLookupPossibleValidPair pair rest

/-- `ice_update_nominated_flag_on_binding_request` (`ice.c:2098`). -/
def iceUpdateNominatedFlagOnBindingRequest : IceCheckList :=
  if msg.hasUseCandidate ∧ session.role = .controlled then
    match (cl.heap pair).state with
    | .succeeded =>
      cl.updatePair ((iceLookupPossibleValidPair pair cl.validList).getD pair) fun p =>
        { p with isNominated := true }
    | .waiting | .frozen | .inProgress =>
      cl.updatePair pair fun p => { p with nominationPending := true }
    | .failed => cl
  else cl

/-- `ice_send_binding_response` (`ice.c:1627`). -/
def iceSendBindingResponse : List IceSent :=
  if evt.socketType = .other then []
  else
    let response := msStunMessageCreate 0x0100 msStunMethodBinding msg.trId
    let response := { response with
      hasMessageIntegrity := true, hasFingerprint := true
      hasDummyMessageIntegrity := msg.hasDummyMessageIntegrity }
    let response := response.setUsername (some (session.localUfrag ++ [colon] ++
      printedString (iceCheckListRemoteUfrag session cl)))
    let response := { response with
      includeUsernameAttribute :=
        msg.hasDummyMessageIntegrity && !session.checkMessageIntegrity }
    [.bindingResponse (response.setXorMappedAddress evt.sourceAddr)]

/-- What a request that passed the checks changes in its check list (`ice.c:2139–2143`). -/
def iceAcceptBindingRequest : IceCheckList :=
  let taddr := env.toTransportAddress evt.sourceAddr
  let (cl, prflxCandidate) := iceLearnPeerReflexiveCandidate env cl evt msg taddr
  match iceTriggerConnectivityCheck env session cl evt prflxCandidate taddr with
  | (cl, none) => cl
  | (cl, some pair) => iceUpdateNominatedFlagOnBindingRequest session cl msg pair

/-- `ice_handle_received_binding_request` (`ice.c:2129`). -/
def iceHandleReceivedBindingRequest : Except Fault (IceSession × List IceSent) := do
  if let some error ← iceCheckReceivedBindingRequest env.hmacSha1 session evt.packet msg then
    return (session, iceSendErrorResponse evt error)
  match iceCheckRoleConflict session msg with
  | (session, some error) => return (session, iceSendErrorResponse evt error)
  | (session, none) =>
    match session.streams i with
    | none => return (session, [])
    | some cl =>
      let cl := iceAcceptBindingRequest env session cl evt msg
      let sent := iceSendBindingResponse session cl evt msg
      return (iceConcludeProcessing (session.setStream i cl) i false evt.now, sent)

/-! ## Responses -/

/-- `ice_find_host_candidate` (`ice.c:4248`) among the local candidates. -/
def iceFindHostCandidate (family : Int) : Option CandidateRef :=
  cl.localCandidates.findIdx? fun c =>
    c.type == .host && c.componentID == componentID && c.taddr.family == family

/-- The base of a server reflexive candidate (`ice.c:2461–2472`). -/
def iceReflexiveBase (srflxAddr : MSStunAddress) : Option CandidateRef :=
  if srflxAddr.family = msStunAddrFamilyIpv6 then
    iceFindHostCandidate cl componentID env.afInet6
  else iceFindHostCandidate cl componentID env.afInet <|>
    iceFindHostCandidate cl componentID env.afInet6

/-- The candidates a server's response adds (`ice.c:2464–2511`); `ms_stun_address_to_ip_address`
gives port 0 for an address of unknown family. -/
def iceAddGatheredCandidates : IceCheckList :=
  let srflxAddr := if msg.hasXorMappedAddress then some msg.xorMappedAddress
    else if msg.hasMappedAddress then some msg.mappedAddress else none
  match srflxAddr with
  | none => cl
  | some srflxAddr =>
    let base := iceReflexiveBase env cl componentID srflxAddr
    let taddr := env.toTransportAddress srflxAddr
    if base.isNone ∨ taddr.port = 0 then cl
    else
      let cl := (iceAddLocalCandidate env.afInet6 cl .serverReflexive taddr componentID base).1
      let relayTaddr := env.toTransportAddress msg.xorRelayedAddress
      if msg.hasXorRelayedAddress ∧ msg.xorRelayedAddress.family ≠ 0 ∧ relayTaddr.port ≠ 0 then
        (iceAddLocalCandidate env.afInet6 cl .relayed relayTaddr componentID none).1
      else cl

/-- `ice_handle_received_turn_allocate_success_response` (`ice.c:2439`), and whether the response
was one of a server. -/
def iceHandleReceivedTurnAllocateSuccessResponse : IceCheckList × Bool :=
  if evt.fromServer then
    let cl := match iceGetComponentID evt with
      | some componentID =>
        if evt.answersServerRequest then iceAddGatheredCandidates env cl componentID msg else cl
      | none => cl
    (if evt.lastServerRequest then iceCheckListStopGathering cl else cl, evt.answersServerRequest)
  else (cl, false)

/-- `ice_check_received_binding_response_addresses` (`ice.c:2167`). -/
def iceResponseAddressesMatch : Bool :=
  !(msCompareStunAddresses evt.sourceAddr (env.toStunAddress (cl.remoteOf pair).taddr) ||
    msCompareStunAddresses evt.recvAddr (env.toStunAddress (cl.localOf pair).taddr))

/-- `ice_check_received_binding_response_attributes` (`ice.c:2189`). -/
def iceResponseAttributesPresent : Bool :=
  (msg.hasMessageIntegrity || !session.checkMessageIntegrity) && msg.hasFingerprint &&
    msg.hasXorMappedAddress

/-- The foundation of another local candidate that has the type of the one at `ref` and the
address of its base (`ice.c:3115–3120`); empty when there is none. -/
def iceSharedFoundation (ref : CandidateRef) : List UInt8 :=
  let candidate := cl.localAt ref
  let same := (List.range cl.localCandidates.length).find? fun other =>
    other ≠ ref && candidate.type == (cl.localAt other).type &&
      match candidate.base, (cl.localAt other).base with
      | some base, some otherBase => (cl.localAt base).taddr.ip == (cl.localAt otherBase).taddr.ip
      | _, _ => false
  match same with
  | some other => (cl.localAt other).foundation
  | none => []

/-- `ice_compute_candidate_foundation` (`ice.c:3119`) for the local candidate at `ref`. -/
def iceComputeCandidateFoundation (ref : CandidateRef) : IceCheckList :=
  if iceSharedFoundation cl ref ≠ [] then
    { cl with
      localCandidates := cl.localCandidates.set ref
        { cl.localAt ref with foundation := iceSharedFoundation cl ref } }
  else
    { cl with
      localCandidates := cl.localCandidates.set ref { cl.localAt ref with
        foundation := (Nat.toDigits 10 cl.foundationGenerator.toNat).map fun c => c.toNat.toUInt8 }
      foundationGenerator := cl.foundationGenerator + 1 }

/-- `ice_discover_peer_reflexive_candidate` (`ice.c:2208`). When the list of local candidates is
full the foundation of a NULL candidate is computed. -/
def iceDiscoverPeerReflexiveCandidate (msg : MSStunMessage) :
    Except Fault (IceCheckList × CandidateRef) :=
  let taddr := env.toTransportAddress msg.xorMappedAddress
  let componentID := (cl.localOf pair).componentID
  match iceFindCandidate cl.localCandidates taddr componentID with
  | some candidate => .ok (cl, candidate)
  | none =>
    match iceAddLocalCandidate env.afInet6 cl .peerReflexive taddr componentID
        (some (cl.heap pair).localCandidate) with
    | (_, none) => .error .nullDereference
    | (cl, some candidate) => .ok (iceComputeCandidateFoundation cl candidate, candidate)

/-- `ice_find_valid_pair` (`ice.c:2241`), where zero is a match. -/
def iceFindValidPair (vp1 vp2 : IceValidCandidatePair) : Bool :=
  iceComparePairs cl vp1.valid vp2.valid || iceComparePairs cl vp1.generatedFrom vp2.generatedFrom

/-- `ice_session_nb_losing_pairs` (`ice.c:3089`) is zero once a check list has become `cl`. -/
def noLosingPairs : Bool :=
  (List.finRange iceSessionMaxCheckLists).all fun j =>
    ((session.setStream i cl).streams j).all fun cl => cl.losingPairs.isEmpty

/-- `ice_construct_valid_pair` (`ice.c:2247`); with the pair, and whether the last losing pair has
become valid. -/
def iceConstructValidPair (now : MSTimeSpec) (candidate : CandidateRef) (succeededPair : PairRef) :
    IceCheckList × PairRef × Bool :=
  let remote := (cl.heap succeededPair).remoteCandidate
  let (cl, pair) := iceFindOrAddPair session cl cl.checkList candidate remote
  let validPair : IceValidCandidatePair := ⟨pair, succeededPair, now, false⟩
  match cl.validList.find? fun other => !iceFindValidPair cl other validPair with
  | some other => (cl, other.valid, false)
  | none =>
    let losing := iceFindPairFromCandidates cl cl.losingPairs candidate remote
    let cl := match losing with
      | some loser => { cl with losingPairs := cl.losingPairs.erase loser }
      | none => cl
    let validPair := { validPair with selected := losing.isSome }
    let cl := { cl with
      validList := cl.validList.orderedInsert (fun new other =>
        (cl.heap other.valid).priority ≤ (cl.heap new.valid).priority) validPair }
    (cl, pair, losing.isSome && noLosingPairs session i cl)

/-- `ice_check_list_set_state` (`ice.c:467`). -/
def iceCheckListSetState (state : IceCheckListState) : IceSession :=
  if cl.state ≠ state then
    let session := session.setStream i { cl with state := state }
    match iceFindCheckListFromState session .running with
    | some _ => session
    | none =>
      { session with
        state := if (iceFindCheckListFromState session .failed).isSome then .failed
          else .completed }
  else session.setStream i cl

/-- `ice_update_pair_states_on_binding_response` (`ice.c:2320`). -/
def iceUpdatePairStatesOnBindingResponse : IceCheckList :=
  cl.checkList.foldl (fun cl other =>
    if other ≠ pair ∧ (cl.heap other).state = .frozen ∧ cl.foundationOf other = cl.foundationOf pair
    then cl.setPairState other .waiting else cl) (cl.setPairState pair .succeeded)

/-- `ice_update_nominated_flag_on_binding_response` (`ice.c:2330`). -/
def iceUpdateNominatedFlagOnBindingResponse (validPair succeededPair : PairRef) : IceCheckList :=
  match session.role with
  | .controlling =>
    if (cl.heap succeededPair).useCandidate then
      cl.updatePair validPair fun p => { p with nominationFailing := false, isNominated := true }
    else cl
  | .controlled =>
    if (cl.heap succeededPair).nominationPending then
      (cl.updatePair validPair fun p => { p with isNominated := true }).updatePair succeededPair
        fun p => { p with nominationPending := false }
    else cl

/-- The pair of the transaction with an identifier, canceled or not. -/
def iceFindPairFromTransactionID (trId : UInt96) : Option PairRef :=
  (cl.transactionList.find? fun transaction => transaction.transactionID == trId).map
    IceTransaction.pair

/-- `ice_handle_received_binding_response` from the transaction on (`ice.c:2596–2606`). -/
def iceHandleCheckResponse : Except Fault IceSession :=
  if !iceResponseAddressesMatch env cl evt pair then
    .ok (session.setStream i (cl.setPairState pair .failed))
  else if !iceResponseAttributesPresent session msg then .ok (session.setStream i cl)
  else do
    let (cl, candidate) ← iceDiscoverPeerReflexiveCandidate env cl pair msg
    let (cl, validPair, lastLosing) := iceConstructValidPair session i cl evt.now candidate pair
    let session :=
      if lastLosing then iceCheckListSetState session i cl .completed
      else session.setStream i cl
    let cl := (session.streams i).getD cl
    let cl := iceUpdatePairStatesOnBindingResponse cl pair
    let cl := iceUpdateNominatedFlagOnBindingResponse session cl validPair pair
    return iceConcludeProcessing (session.setStream i cl) i false evt.now

/-- `ice_handle_received_binding_response` (`ice.c:2566`). -/
def iceHandleReceivedBindingResponse : Except Fault IceSession :=
  let (cl, serverResponse) :=
    if cl.gatheringCandidates then iceHandleReceivedTurnAllocateSuccessResponse env cl evt msg
    else (cl, false)
  if serverResponse then .ok (session.setStream i cl)
  else
    match iceFindPairFromTransactionID cl msg.trId with
    | none => .ok (session.setStream i cl)
    | some pair => iceHandleCheckResponse env session i cl evt msg pair

/-! ## Error responses -/

/-- The role a 487 makes a session take, from the role the pair was checked in
(`ice.c:2681–2690`). -/
def otherRole : IceRole → IceRole
  | .controlling => .controlled
  | .controlled => .controlling

/-- `ice_handle_received_error_response` from the transaction on (`ice.c:2657–2695`). -/
def iceHandleCheckError : IceSession :=
  if msg.hasErrorCode ∧ msg.errorCode.number = msStunErrorCodeUnauthorized ∧
      (cl.heap pair).retryWithDummyMessageIntegrity then
    session.setStream i (cl.updatePair pair fun p =>
      { p with retryWithDummyMessageIntegrity := false, useDummyHmac := true })
  else
    let session := session.setStream i (cl.setPairState pair .failed)
    let session :=
      if msg.hasErrorCode ∧ msg.errorCode.number = msIceErrorCodeRoleConflict then
        let session := iceSessionSetRole session (otherRole (cl.heap pair).role)
        session.setStream i (triggerPair ((session.streams i).getD cl) pair)
      else session
    iceConcludeProcessing session i false evt.now

/-- `ice_handle_received_error_response` (`ice.c:2643`); while candidates are gathered the error is
one of a server and changes nothing here. -/
def iceHandleReceivedErrorResponse : IceSession :=
  if cl.gatheringCandidates then session
  else
    match iceFindPairFromTransactionID cl msg.trId with
    | none => session
    | some pair => iceHandleCheckError session i cl evt msg pair

/-! ## Packets -/

/-- The class bits of a message type (`stun.c:902–916`). -/
def stunClass : UInt16 := msg.type &&& 0x0110

/-- `MS_TURN_METHOD_ALLOCATE` (`stun.h:42`). -/
def msTurnMethodAllocate : UInt16 := 0x003

/-- `ice_handle_stun_packet` (`ice.c:2737`) on the parsed message. The answers to the other
requests to TURN servers change no check. -/
def iceHandleStunMessage : Except Fault (IceSession × List IceSent) :=
  match session.streams i with
  | none => .ok (session, [])
  | some cl =>
    if stunClass msg = 0x0000 then iceHandleReceivedBindingRequest env session i evt msg
    else if stunClass msg = 0x0100 then
      if msg.method = msStunMethodBinding then do
        return (← iceHandleReceivedBindingResponse env session i cl evt msg, [])
      else if msg.method = msTurnMethodAllocate then
        .ok (session.setStream i
          (iceHandleReceivedTurnAllocateSuccessResponse env cl evt msg).1, [])
      else .ok (session, [])
    else if stunClass msg = 0x0110 then
      .ok (iceHandleReceivedErrorResponse session i cl evt msg, [])
    else .ok (session, [])

/-- `ice_handle_stun_packet` (`ice.c:2737`). -/
def iceHandleStunPacket : Except Fault (IceSession × List IceSent) := do
  match ← msStunMessageCreateFromBufferParsing evt.packet with
  | none => return (session, [])
  | some msg => iceHandleStunMessage env session i evt msg

end

end GrooveIp.Ice
