import GrooveIp.Ice.Authentication
import GrooveIp.Ice.Pairing

/-!
# Sending connectivity checks

Transactions and binding requests (`ice.c:1224–1243, 1447–1567`), nomination
(`ice.c:3527–3647`), the end of a check list (`ice.c:3649–3872`) and the scheduling of checks
(`ice.c:3985–4197`). A call sees one reading of the clock. The messages a call sends are
returned in their order; the requests to STUN and TURN servers are not among them.
-/

namespace GrooveIp.Ice

open Lib Stun

/-- What `ice_send_message_to_stun_addr` and `ice_send_message_to_socket` are given. -/
inductive IceSent where
  | bindingRequest (pair : PairRef) (msg : MSStunMessage)
  | bindingResponse (msg : MSStunMessage)
  | errorResponse (msg : MSStunMessage)
  | indication (pair : PairRef)
  deriving DecidableEq, Repr

/-! ## Transactions -/

variable (session : IceSession) (i : StreamIndex) (cl : IceCheckList) (componentID : UInt16)
  (nominationDelayExpired : Bool) (pair : PairRef) (now : MSTimeSpec)
  (validPair : IceValidCandidatePair) (trId : UInt96)

/-- `ice_create_transaction` (`ice.c:1224`). -/
def iceCreateTransaction : IceCheckList :=
  { cl with transactionList := ⟨trId, pair, false⟩ :: cl.transactionList }

/-- `ice_find_transaction_from_pair` (`ice.c:1233`), where zero is a match. -/
def iceFindTransactionFromPair (transaction : IceTransaction) (pair : PairRef) : Bool :=
  transaction.pair ≠ pair && !transaction.canceled

/-- `ice_find_transaction` (`ice.c:1238`). -/
def iceFindTransaction : Option IceTransaction :=
  cl.transactionList.find? fun transaction => !iceFindTransactionFromPair transaction pair

/-! ## The triggered checks queue -/

/-- `ice_check_list_queue_triggered_check` (`ice.c:673`). -/
def iceCheckListQueueTriggeredCheck : IceCheckList :=
  if pair ∈ cl.triggeredChecksQueue then cl
  else { cl with triggeredChecksQueue := cl.triggeredChecksQueue ++ [pair] }

/-! ## Nomination -/

/-- `ice_get_valid_pairs_for_componentID` (`ice.c:3532`): the best pair first, and of two that
are equally good the later one of the valid list. -/
def iceGetValidPairsForComponentID : List IceValidCandidatePair :=
  (cl.validList.filter fun validPair =>
      (cl.localOf validPair.valid).componentID == componentID).foldl
    (fun list validPair => list.orderedInsert (fun new other =>
      (cl.heap other.generatedFrom).priority ≤ (cl.heap new.generatedFrom).priority) validPair) []

/-- What the loop of `ice_check_list_perform_nominations` has found. -/
structure NominationScan where
  bestValidList : List IceValidCandidatePair := []
  concludable : Bool := true
  needMoreTime : Bool := false
  nominationsToDo : Nat := 0

/-- The loop over the component identifiers; it breaks off at one without a valid pair. -/
def iceScanNominations (cl : IceCheckList) (scan : NominationScan) : List UInt16 → NominationScan
  | [] => scan
  | componentID :: componentIDs =>
    match iceGetValidPairsForComponentID cl componentID with
    | [] => { scan with concludable := false }
    | validList =>
      match validList.find? fun v => !(cl.heap v.generatedFrom).nominationFailing with
      | none => iceScanNominations cl scan componentIDs
      | some validPair =>
        iceScanNominations cl { scan with
            bestValidList := scan.bestValidList ++ [validPair]
            needMoreTime := scan.needMoreTime ||
              (cl.remoteOf validPair.generatedFrom).type == .relayed
            nominationsToDo := scan.nominationsToDo +
              (if (cl.heap validPair.generatedFrom).useCandidate then 0 else 1) } componentIDs

/-- The body of `ice_check_list_nominate`. -/
def iceNominatePair : IceCheckList :=
  if (cl.heap validPair.generatedFrom).useCandidate then cl
  else iceCheckListQueueTriggeredCheck
    (cl.updatePair validPair.generatedFrom fun p => { p with useCandidate := true })
    validPair.generatedFrom

/-- `ice_check_list_nominate` (`ice.c:3561`). -/
def iceCheckListNominate (bestValidList : List IceValidCandidatePair) : IceCheckList :=
  { bestValidList.foldl iceNominatePair cl with nominationInProgress := true }

/-- `ice_check_list_perform_nominations` (`ice.c:3573`). -/
def iceCheckListPerformNominations : IceCheckList :=
  if cl.nominationInProgress then cl
  else
    let scan := iceScanNominations cl {} cl.localComponentIDs
    if scan.concludable && scan.nominationsToDo > 0 then
      if nominationDelayExpired || !scan.needMoreTime then
        iceCheckListNominate { cl with nominationDelayRunning := false } scan.bestValidList
      else if !cl.nominationDelayRunning then
        { cl with nominationDelayRunning := true, nominationDelayStartTime := now }
      else cl
    else cl

/-! ## Binding requests -/

/-- `ice_check_list_remote_ufrag` (`ice.c:500`). -/
def iceCheckListRemoteUfrag : Option (List UInt8) :=
  cl.remoteUfrag <|> session.remoteUfrag

/-- What `%s` prints for a string that may be NULL. -/
def printedString (text : Option (List UInt8)) : List UInt8 :=
  text.getD ("(null)".toList.map fun c => c.toNat.toUInt8)

/-- `ms_stun_message_create` (`stun.c:720`) with the identifier it draws. -/
def msStunMessageCreate (type method : UInt16) (trId : UInt96) : MSStunMessage :=
  { type := type, method := method, trId := trId }

/-- `MS_STUN_METHOD_BINDING` (`stun.h:39`). -/
def msStunMethodBinding : UInt16 := 0x001

/-- The priority a peer reflexive candidate would get from the local one (`ice.c:1505`). -/
def peerReflexivePriority (priority : UInt32) : UInt32 :=
  (priority &&& 0x00ffffff) ||| (typePreference .peerReflexive <<< (24 : UInt32))

/-- The binding request for a pair (`ice.c:1494–1532`). -/
def iceBindingRequest : MSStunMessage :=
  let msg := msStunMessageCreate 0x0000 msStunMethodBinding trId
  let msg := msg.setUsername (some (printedString (iceCheckListRemoteUfrag session cl) ++
    [colon] ++ session.localUfrag))
  let msg := { msg with hasMessageIntegrity := true, hasFingerprint := true }
  let msg := msg.setPriority (peerReflexivePriority (cl.localOf pair).priority)
  let msg := msg.enableUseCandidate (session.role == .controlling && (cl.heap pair).useCandidate)
  let msg := match session.role with
    | .controlling => msg.setIceControlling session.tieBreaker
    | .controlled => msg.setIceControlled session.tieBreaker
  { msg with hasDummyMessageIntegrity := (cl.heap pair).useDummyHmac }

/-- The request on the wire, unless the session may only use relays (`ice.c:1548–1553`). -/
def sentBindingRequest : List IceSent :=
  if session.forcedRelay && (cl.remoteOf pair).type ≠ .relayed &&
      (cl.localOf pair).type ≠ .relayed then []
  else [.bindingRequest pair (iceBindingRequest session cl pair trId)]

/-- `pair->local->componentID` is one there is a transport for. -/
def hasTransport : Bool :=
  (cl.localOf pair).componentID == 1 || (cl.localOf pair).componentID == 2

/-- A nomination that is sent too often makes way for the nomination of another pair
(`ice.c:1470–1477`). -/
def iceFailNomination : IceCheckList :=
  if session.role = .controlling ∧ (cl.heap pair).useCandidate ∧ !(cl.heap pair).nominationFailing ∧
      (cl.heap pair).retransmissions > iceMaxRetransmissionsForNominations then
    iceCheckListPerformNominations
      { cl.updatePair pair fun p => { p with nominationFailing := true } with
        nominationInProgress := false } false now
  else cl

/-- A request that is sent again (`ice.c:1463–1486`). -/
def iceRetransmitBindingRequest : IceCheckList × List IceSent :=
  match iceFindTransaction cl pair with
  | none => (cl, [])
  | some transaction =>
    let cl := cl.updatePair pair fun p => { p with retransmissions := p.retransmissions + 1 }
    let cl := iceFailNomination session cl pair now
    if (cl.heap pair).retransmissions > iceMaxRetransmissions then
      (cl.setPairState pair .failed, [])
    else
      let cl := cl.updatePair pair fun p => { p with rto := p.rto * 2, transmissionTime := now }
      (cl, if hasTransport cl pair then
        sentBindingRequest session cl pair transaction.transactionID else [])

/-- A request sent for the first time, with a new transaction (`ice.c:1486–1563`). -/
def iceTransmitBindingRequest : IceCheckList × List IceSent :=
  let cl := cl.updatePair pair fun p => { p with transmissionTime := now }
  if hasTransport cl pair then
    ((iceCreateTransaction cl pair trId).updatePair pair fun p =>
        { p with rto := iceDefaultRtoDuration, retransmissions := 0, role := session.role
                 state := .inProgress }, sentBindingRequest session cl pair trId)
  else (cl, [])

/-- `ice_send_binding_request` (`ice.c:1447`); `trId` is the identifier it draws. -/
def iceSendBindingRequest : IceCheckList × List IceSent :=
  if (cl.heap pair).state = .inProgress then iceRetransmitBindingRequest session cl pair now
  else iceTransmitBindingRequest session cl pair now trId

/-! ## Concluding -/

/-- `ice_remove_waiting_and_frozen_pairs_from_list` (`ice.c:3632`), between the pairs passed and
those to come; a removed first or last pair ends it. -/
def iceRemoveWaitingAndFrozen (cl : IceCheckList) (componentID : UInt16)
    (passed : List PairRef) : List PairRef → List PairRef
  | [] => passed
  | pair :: rest =>
    if ((cl.heap pair).state = .waiting ∨ (cl.heap pair).state = .frozen) ∧
        (cl.localOf pair).componentID = componentID then
      if passed = [] ∨ rest = [] then passed ++ rest
      else iceRemoveWaitingAndFrozen cl componentID passed rest
    else iceRemoveWaitingAndFrozen cl componentID (passed ++ [pair]) rest

/-- The loop over the pairs in progress (`ice.c:3656–3663`). -/
def iceStopWorsePair (valid : PairRef) (cl : IceCheckList) (pair : PairRef) : IceCheckList :=
  if (cl.heap pair).state = .inProgress ∧
      (cl.localOf pair).componentID = (cl.localOf valid).componentID ∧
      (cl.heap pair).priority < (cl.heap valid).priority then
    cl.updatePair pair fun p => { p with retransmissions := iceMaxRetransmissions }
  else cl

/-- `ice_conclude_waiting_frozen_and_inprogress_pairs` (`ice.c:3649`). -/
def iceConcludeWaitingFrozenAndInProgressPairs : IceCheckList :=
  if (cl.heap validPair.valid).isNominated then
    let componentID := (cl.localOf validPair.valid).componentID
    let cl := { cl with
      checkList := iceRemoveWaitingAndFrozen cl componentID [] cl.checkList
      triggeredChecksQueue := iceRemoveWaitingAndFrozen cl componentID [] cl.triggeredChecksQueue }
    cl.checkList.foldl (iceStopWorsePair validPair.valid) cl
  else cl

/-- `ice_find_nominated_valid_pair_from_componentID` (`ice.c:3674`), where zero is a match. -/
def iceFindNominatedValidPair : Bool :=
  !((cl.heap validPair.valid).isNominated &&
    (cl.localOf validPair.valid).componentID == componentID)

/-- The valid list after the step of `ice_check_list_select_candidates` for one component
(`ice.c:1202–1207`): the first nominated pair is selected. -/
def iceSelectComponent (cl : IceCheckList) (componentID : UInt16) :
    List IceValidCandidatePair → List IceValidCandidatePair
  | [] => []
  | validPair :: rest =>
    if !iceFindNominatedValidPair cl componentID validPair then
      { validPair with selected := true } :: rest
    else validPair :: iceSelectComponent cl componentID rest

/-- `ice_check_list_select_candidates` (`ice.c:1193`). -/
def iceCheckListSelectCandidates : IceCheckList :=
  if cl.state ≠ .completed then cl
  else
    let unselected := cl.validList.map fun v => { v with selected := false }
    { cl with validList := iceSelectComponent cl 2 (iceSelectComponent cl 1 unselected) }

/-- `ice_pair_stop_retransmissions` (`ice.c:3544`). -/
def icePairStopRetransmissions : IceCheckList :=
  if (cl.heap pair).state = .inProgress then
    let cl := cl.setPairState pair .failed
    { cl with triggeredChecksQueue := cl.triggeredChecksQueue.erase pair }
  else cl

/-- `ice_check_list_stop_retransmissions` (`ice.c:3556`). -/
def iceCheckListStopRetransmissions : IceCheckList :=
  cl.checkList.foldl icePairStopRetransmissions cl

/-- What `ice_conclude_processing` does when every component has a nominated pair
(`ice.c:3805–3817`). -/
def iceCompleteCheckList : IceCheckList :=
  let cl := iceCheckListSelectCandidates { cl with
      state := .completed, nominationInProgress := false, nominationDelayRunning := false }
  let cl := { cl with connectivityChecksRunning := false, keepaliveTime := now }
  if session.role = .controlling then iceCheckListStopRetransmissions cl else cl

/-- What `ice_conclude_processing` does to a running check list first: it nominates, and ends the
checks that a nominated pair makes needless (`ice.c:3794–3798`). -/
def iceConcludePairs : IceCheckList :=
  let cl :=
    if session.role = .controlling then
      iceCheckListPerformNominations cl nominationDelayExpired now
    else cl
  cl.validList.foldl iceConcludeWaitingFrozenAndInProgressPairs cl

/-- Whether the check list ends (`ice.c:3800–3868`), and then the session is notified. -/
def iceFinishCheckList : IceCheckList × Bool :=
  if cl.localComponentIDs.all fun componentID =>
      cl.validList.any fun validPair => !iceFindNominatedValidPair cl componentID validPair then
    if cl.losingPairs = [] then (iceCompleteCheckList session cl now, true) else (cl, false)
  else if cl.checkList.all fun pair =>
      (cl.heap pair).state == .failed || (cl.heap pair).state == .succeeded then
    ({ cl with state := .failed, connectivityChecksRunning := false }, true)
  else (cl, false)

/-- `ice_conclude_processing` (`ice.c:3782`) on its check list. -/
def iceConcludeCheckList : IceCheckList × Bool :=
  if cl.state = .running then
    iceFinishCheckList session (iceConcludePairs session cl nominationDelayExpired now) now
  else (cl, false)

/-- `ice_notify_session_processing_finished` (`ice.c:3739`). -/
def iceNotifySessionProcessingFinished : IceSession :=
  match iceFindCheckListFromState session .running with
  | some _ => session
  | none =>
    { session with
      state :=
        if (List.finRange iceSessionMaxCheckLists).all fun i =>
            (session.streams i).all fun cl => cl.state == .completed then .completed
        else .failed
      eventTime := now + 1000
      sendEvent := true }

/-- `ice_conclude_processing` (`ice.c:3782`). -/
def iceConcludeProcessing : IceSession :=
  match session.streams i with
  | none => session
  | some cl =>
    let (cl, finished) := iceConcludeCheckList session cl nominationDelayExpired now
    if finished then iceNotifySessionProcessingFinished (session.setStream i cl) now
    else session.setStream i cl

/-! ## Scheduling -/

/-- `ice_check_list_stop_gathering` (`ice.c:3985`). -/
def iceCheckListStopGathering : IceCheckList :=
  { cl with gatheringCandidates := false, gatheringFinished := true }

/-- `ICE_GATHERING_CANDIDATES_TIMEOUT` (`ice.c:51`). -/
def iceGatheringCandidatesTimeout : Int := 5000

/-- `ice_check_gathering_timeout` (`ice.c:3993`). -/
def iceCheckGatheringTimeout : IceSession :=
  if (List.finRange iceSessionMaxCheckLists).any fun i => (session.streams i).any fun cl =>
      cl.gatheringCandidates && now - cl.gatheringStartTime ≥ iceGatheringCandidatesTimeout then
    { session with streams := fun i => (session.streams i).map iceCheckListStopGathering }
  else session

/-- The keepalives of a completed check list (`ice.c:1772–1779`). -/
def iceSendKeepalivePacketForComponentID : List IceSent :=
  match cl.validList.find? fun v =>
      v.selected && (cl.localOf v.valid).componentID == componentID with
  | some validPair => if hasTransport cl validPair.valid then [.indication validPair.valid] else []
  | none => []

/-- `ice_check_keep_alive_on_valid_pair` (`ice.c:1780`). -/
def keepaliveDue : Bool :=
  now - validPair.lastKeepalive ≥ 3000

/-- `ice_send_keepalive_packets` (`ice.c:1788`). -/
def iceSendKeepalivePackets : IceCheckList × List IceSent :=
  match cl.state with
  | .completed => (cl, cl.localComponentIDs.flatMap (iceSendKeepalivePacketForComponentID cl))
  | .running =>
    ({ cl with
        validList := cl.validList.map fun v =>
          if keepaliveDue now v then { v with lastKeepalive := now } else v },
      (cl.validList.filter (keepaliveDue now)).flatMap fun v =>
        if hasTransport cl v.valid then [.indication v.valid] else [])
  | .failed => (cl, [])

/-- A request in progress whose time has run out (`ice.c:4043–4044`). -/
def retransmissionDue (pair : PairRef) : Bool :=
  (cl.heap pair).state == .inProgress && now - (cl.heap pair).transmissionTime ≥ (cl.heap pair).rto

/-- `ice_handle_connectivity_check_retransmission` (`ice.c:4040`). -/
def iceHandleConnectivityCheckRetransmission (acc : IceCheckList × List IceSent) (pair : PairRef) :
    IceCheckList × List IceSent :=
  if acc.1.nominationInProgress && !(acc.1.heap pair).useCandidate then acc
  else if retransmissionDue acc.1 now pair then
    let (cl, sent) := iceSendBindingRequest session acc.1 pair now trId
    (cl, acc.2 ++ sent)
  else acc

/-- `ice_check_list_retransmit_connectivity_checks` (`ice.c:4059`). -/
def iceCheckListRetransmitConnectivityChecks : IceCheckList × List IceSent :=
  cl.checkList.foldl (iceHandleConnectivityCheckRetransmission session now trId) (cl, [])

/-- `ice_check_list_send_triggered_check` (`ice.c:4068`); `none` when the queue is empty. -/
def iceCheckListSendTriggeredCheck : Option (IceCheckList × List IceSent) :=
  match cl.triggeredChecksQueue with
  | [] => none
  | pair :: queue =>
    some (iceSendBindingRequest session { cl with triggeredChecksQueue := queue } pair now trId)

/-- `ice_check_list_is_frozen` (`ice.c:702`). -/
def iceCheckListIsFrozen : Bool :=
  cl.checkList.all fun pair => (cl.heap pair).state == .frozen

/-- The pair an ordinary check is sent for (`ice.c:4167–4183`). -/
def iceOrdinaryCheckPair : Option PairRef :=
  (cl.checkList.find? fun pair => (cl.heap pair).state == .waiting) <|>
    (cl.checkList.find? fun pair => (cl.heap pair).state == .frozen)

/-- `ice_check_retransmissions_pending` (`ice.c:4053`). -/
def iceRetransmissionsPending : Bool :=
  cl.checkList.any fun pair => (cl.heap pair).state == .inProgress &&
    (cl.heap pair).retransmissions ≤ iceMaxRetransmissions

/-- The end of `ice_check_list_process` for a running check list, when no triggered check was
sent (`ice.c:4163–4191`). -/
def iceSendOrdinaryCheck : IceSession × List IceSent :=
  if iceCheckListIsFrozen cl then (session.setStream i (iceComputePairsStates cl), [])
  else
    match iceOrdinaryCheckPair cl with
    | some pair =>
      let (cl, sent) := iceSendBindingRequest session cl pair now trId
      (session.setStream i cl, sent)
    | none =>
      if iceRetransmissionsPending cl then (session.setStream i cl, [])
      else (iceConcludeProcessing (session.setStream i cl) i false now, [])

/-- The end of the gathering and the event that is due (`ice.c:4089–4116`). -/
def iceTimeouts (gatheringCandidates : Bool) (now : MSTimeSpec) : IceSession :=
  let session :=
    if gatheringCandidates then iceCheckGatheringTimeout session now else session
  if session.sendEvent && now - session.eventTime ≥ 0 then { session with sendEvent := false }
  else session

/-- The keepalives of a running or a completed check list (`ice.c:4122–4126, 4136`). -/
def iceKeepalive : IceCheckList × List IceSent :=
  if cl.state = .running then iceSendKeepalivePackets cl now
  else if now - cl.keepaliveTime ≥ session.keepaliveTimeout.toNat * 1000 then
    ({ cl with keepaliveTime := now }, (iceSendKeepalivePackets cl now).2)
  else (cl, [])

/-- A running check list has waited long enough for a better pair (`ice.c:4151`). -/
def iceNominationDelayExpired : Bool :=
  cl.state == .running && cl.nominationDelayRunning &&
    now - cl.nominationDelayStartTime ≥ iceNominationDelay

/-- What `ice_check_list_process` does to a check list of the session before it retransmits;
`none` when it returns there (`ice.c:4086–4155`). -/
def iceBeforeRetransmissions : IceSession × List IceSent × Option IceCheckList :=
  match session.streams i with
  | none => (session, [], none)
  | some cl =>
    let session := iceTimeouts session cl.gatheringCandidates now
    if session.state = .stopped ∨ session.state = .failed ∨ cl.state = .failed then
      (session, [], none)
    else
      let (cl, indications) := iceKeepalive session ((session.streams i).getD cl) now
      let session := session.setStream i cl
      if iceNominationDelayExpired cl now then
        let session := iceConcludeProcessing session i true now
        (session, indications, if session.state = .completed then none else session.streams i)
      else (session, indications, some cl)

/-- What `ice_check_list_process` does before it looks for a check to send; `none` when it returns
there (`ice.c:4086–4158`). -/
def iceBeforeChecks : IceSession × List IceSent × Option IceCheckList :=
  match iceBeforeRetransmissions session i now with
  | (session, indications, none) => (session, indications, none)
  | (session, indications, some cl) =>
    let (cl, requests) := iceCheckListRetransmitConnectivityChecks session cl now trId
    if now - cl.taTime < session.ta then
      (session.setStream i cl, indications ++ requests, none)
    else
      let cl := { cl with taTime := now }
      (session.setStream i cl, indications ++ requests, some cl)

/-- `ice_check_list_process` (`ice.c:4078`). -/
def iceCheckListProcess : IceSession × List IceSent :=
  let running := (session.streams i).any fun cl => cl.state == .running
  match iceBeforeChecks session i now trId with
  | (session, sent, none) => (session, sent)
  | (session, sent, some cl) =>
    match iceCheckListSendTriggeredCheck session cl now trId with
    | some (cl, requests) => (session.setStream i cl, sent ++ requests)
    | none =>
      if running then
        let (session, requests) := iceSendOrdinaryCheck session i cl now trId
        (session, sent ++ requests)
      else (session, sent)

end GrooveIp.Ice
