import GrooveIp.Lib.Fuelled
import GrooveIp.Ice.Steps

/-!
# The calls are made of small steps

Every function that works on a check list is a trace of small steps, and so are
`ice_session_start_connectivity_checks`, `ice_handle_stun_packet` and `ice_check_list_process` on
a session whose pointers stay inside.
-/

namespace GrooveIp.Ice

open Lib Stun List

variable {session : IceSession} {call : IceCall} {cl cl' : IceCheckList} {pair : PairRef}

/-- Traces of the steps of a check list. -/
abbrev ListTrace (session : IceSession) (call : IceCall) :
    IceCheckList → List IceSent → IceCheckList → Prop :=
  Trace (IceChange session call)

/-- Traces of the steps of a session. -/
abbrev SessionTrace (call : IceCall) :
    IceSession → List (StreamIndex × IceSent) → IceSession → Prop :=
  Trace (SessionStep call)

/-- A quiet change is a trace. -/
theorem Quiet.trace (h : Quiet cl cl') : ListTrace session call cl [] cl' :=
  .single (.upkeep (.quiet h (by simp)))

variable {sent : List IceSent}

theorem WellFormed.trace (h : WellFormed cl) (trace : ListTrace session call cl sent cl') :
    WellFormed cl' :=
  trace.preserves WellFormed (fun h step => WellFormed.change h step) h

/-! ## Binding requests -/

/-- A request carries the identifier it is given. -/
theorem iceBindingRequest_trId (session : IceSession) (cl : IceCheckList) (pair : PairRef)
    (trId : UInt96) : (iceBindingRequest session cl pair trId).trId = trId := by
  unfold iceBindingRequest
  split <;> rfl

theorem sentBindingRequest_requests (session : IceSession) (cl : IceCheckList) (pair : PairRef)
    (trId : UInt96) : RequestsFor session pair trId (sentBindingRequest session cl pair trId) := by
  intro m hm
  unfold sentBindingRequest at hm
  split at hm
  · simp at hm
  · exact ⟨cl, mem_singleton.mp hm⟩

theorem iceFailNomination_quiet (h : WellFormed cl) (session : IceSession) (pair : PairRef)
    (now : MSTimeSpec) : Quiet cl (iceFailNomination session cl pair now) := by
  unfold iceFailNomination
  split
  · have mark : Quiet cl (cl.updatePair pair fun p => { p with nominationFailing := true }) :=
      .updatePair cl pair ⟨rfl, rfl, rfl, id, id, id⟩
    have failing : Quiet cl { cl.updatePair pair fun p => { p with nominationFailing := true } with
          nominationInProgress := false } := mark.trans .of_eq
    exact failing.trans (iceCheckListPerformNominations_quiet (h.quiet failing) false now)
  · exact .refl cl

theorem iceRetransmitBindingRequest_trace (h : WellFormed cl) (now : MSTimeSpec)
    (inProgress : (cl.heap pair).state = .inProgress) (allowed : call.retransmits cl pair) :
    Trace (IceUpkeep session call) cl (iceRetransmitBindingRequest session cl pair now).2
      (iceRetransmitBindingRequest session cl pair now).1 := by
  unfold iceRetransmitBindingRequest
  split
  · exact .refl cl
  · next transaction found =>
    dsimp only
    have count : Quiet cl
        (cl.updatePair pair fun p => { p with retransmissions := p.retransmissions + 1 }) :=
      .updatePair cl pair ⟨rfl, rfl, rfl, id, id, id⟩
    generalize cl.updatePair pair (fun p => { p with retransmissions := p.retransmissions + 1 }) =
      counted at count ⊢
    have nominate := count.trans (iceFailNomination_quiet (h.quiet count) session pair now)
    generalize iceFailNomination session counted pair now = nominated at nominate ⊢
    split
    · apply Trace.single
      apply IceUpkeep.quiet _ (by simp)
      exact nominate.trans (.setPairState nominated pair (by decide) (by decide))
    · have again : Quiet nominated
          (nominated.updatePair pair fun p => { p with rto := p.rto * 2, transmissionTime := now }) :=
        .updatePair nominated pair ⟨rfl, rfl, rfl, id, id, id⟩
      apply Trace.single
      apply IceUpkeep.retransmit (nominate.trans again) inProgress found allowed
      split
      · exact sentBindingRequest_requests session _ pair _
      · simp [RequestsFor]

theorem iceTransmitBindingRequest_trace (timer : call.timer) (known : pair < cl.nextPair)
    (now : MSTimeSpec)
    (fresh : call.fresh → ∀ t ∈ cl.transactionList, t.transactionID ≠ call.trId) :
    ListTrace session call cl (iceTransmitBindingRequest session cl pair now call.trId).2
      (iceTransmitBindingRequest session cl pair now call.trId).1 := by
  unfold iceTransmitBindingRequest
  dsimp only
  have clock : Quiet cl (cl.updatePair pair fun p => { p with transmissionTime := now }) :=
    .updatePair cl pair ⟨rfl, rfl, rfl, id, id, id⟩
  split
  · dsimp only
    apply clock.trace.silent_trans
    apply Trace.single
    apply IceChange.transmit
    · exact timer
    · exact known
    · exact fresh
    · exact ⟨rfl, rfl, rfl, id, by simp, by simp⟩
    · rfl
    · intro hrelay
      simp [sentBindingRequest, hrelay]
    · exact sentBindingRequest_requests session _ pair _
  · exact clock.trace

/-- `ice_send_binding_request`. -/
theorem iceSendBindingRequest_trace (h : WellFormed cl) (timer : call.timer)
    (known : pair < cl.nextPair) (now : MSTimeSpec)
    (fresh : call.fresh → ∀ t ∈ cl.transactionList, t.transactionID ≠ call.trId)
    (allowed : (cl.heap pair).state = .inProgress → call.retransmits cl pair) :
    ListTrace session call cl (iceSendBindingRequest session cl pair now call.trId).2
      (iceSendBindingRequest session cl pair now call.trId).1 := by
  unfold iceSendBindingRequest
  split
  · next inProgress =>
    exact (iceRetransmitBindingRequest_trace h now inProgress (allowed inProgress)).mono .upkeep
  · exact iceTransmitBindingRequest_trace timer known now fresh

/-! ## Retransmissions -/

/-- At every request the loop over the check list sends again, a condition holds. -/
def LoopMeets (session : IceSession) (now : MSTimeSpec) (trId : UInt96)
    (cond : IceCheckList → PairRef → Prop) (acc : IceCheckList × List IceSent) : List PairRef → Prop
  | [] => True
  | pair :: rest =>
    ((acc.1.nominationInProgress && !(acc.1.heap pair).useCandidate) = false →
      retransmissionDue acc.1 now pair = true → cond acc.1 pair) ∧
    LoopMeets session now trId cond
      (iceHandleConnectivityCheckRetransmission session now trId acc pair) rest

instance LoopMeets.decidable (session : IceSession) (now : MSTimeSpec) (trId : UInt96)
    (cond : IceCheckList → PairRef → Prop) [∀ cl p, Decidable (cond cl p)] :
    ∀ (acc : IceCheckList × List IceSent) (l : List PairRef),
      Decidable (LoopMeets session now trId cond acc l)
  | _, [] => .isTrue trivial
  | acc, pair :: rest =>
    have := LoopMeets.decidable session now trId cond
      (iceHandleConnectivityCheckRetransmission session now trId acc pair) rest
    inferInstanceAs (Decidable (_ ∧ _))

theorem iceHandleConnectivityCheckRetransmission_trace (trId : UInt96)
    {acc : IceCheckList × List IceSent} (h : WellFormed acc.1) (now : MSTimeSpec)
    (allowed : (acc.1.nominationInProgress && !(acc.1.heap pair).useCandidate) = false →
      retransmissionDue acc.1 now pair = true → call.retransmits acc.1 pair) :
    ∃ sent, (iceHandleConnectivityCheckRetransmission session now trId acc pair).2 = acc.2 ++ sent ∧
      Trace (IceUpkeep session call) acc.1 sent
        (iceHandleConnectivityCheckRetransmission session now trId acc pair).1 := by
  unfold iceHandleConnectivityCheckRetransmission
  split
  · exact ⟨[], by simp, .refl _⟩
  · next hskip =>
    split
    · next hdue =>
      have inProgress : (acc.1.heap pair).state = .inProgress := by
        simp only [retransmissionDue, Bool.and_eq_true, beq_iff_eq] at hdue
        exact hdue.1
      have hsend : iceSendBindingRequest session acc.1 pair now trId =
          iceRetransmitBindingRequest session acc.1 pair now := if_pos inProgress
      rw [hsend]
      exact ⟨_, rfl, iceRetransmitBindingRequest_trace h now inProgress
        (allowed (by simpa using hskip) hdue)⟩
    · exact ⟨[], by simp, .refl _⟩

theorem retransmission_fold {trId : UInt96} (now : MSTimeSpec) (l : List PairRef)
    (acc : IceCheckList × List IceSent) (h : WellFormed acc.1)
    (allowed : LoopMeets session now trId call.retransmits acc l) :
    ∃ sent, (l.foldl (iceHandleConnectivityCheckRetransmission session now trId) acc).2 =
        acc.2 ++ sent ∧ Trace (IceUpkeep session call) acc.1 sent
        (l.foldl (iceHandleConnectivityCheckRetransmission session now trId) acc).1 := by
  induction l generalizing acc with
  | nil => exact ⟨[], by simp, .refl _⟩
  | cons pair l ih =>
    obtain ⟨first, hfirst, step⟩ :=
      iceHandleConnectivityCheckRetransmission_trace trId h now allowed.1
    have wf : WellFormed (iceHandleConnectivityCheckRetransmission session now trId acc pair).1 :=
      step.preserves WellFormed (fun h step => WellFormed.upkeep h step) h
    obtain ⟨rest, hrest, steps⟩ := ih _ wf allowed.2
    refine ⟨first ++ rest, ?_, step.trans steps⟩
    rw [foldl_cons, hrest, hfirst, append_assoc]

/-- `ice_check_list_retransmit_connectivity_checks`. -/
theorem iceCheckListRetransmitConnectivityChecks_trace {trId : UInt96} (h : WellFormed cl)
    (now : MSTimeSpec)
    (allowed : LoopMeets session now trId call.retransmits (cl, []) cl.checkList) :
    Trace (IceUpkeep session call) cl
      (iceCheckListRetransmitConnectivityChecks session cl now trId).2
      (iceCheckListRetransmitConnectivityChecks session cl now trId).1 := by
  obtain ⟨sent, hsent, trace⟩ := retransmission_fold now cl.checkList (cl, []) h allowed
  rw [iceCheckListRetransmitConnectivityChecks, hsent]
  exact trace

/-! ## Check lists of a session -/

theorem IceChange.setStream (i : StreamIndex) (other : IceCheckList)
    (h : IceChange session call cl sent cl') :
    IceChange (session.setStream i other) call cl sent cl' := by
  cases h with
  | upkeep h =>
    cases h with
    | quiet q indications => exact .upkeep (.quiet q indications)
    | retransmit q inProgress found allowed requests =>
      exact .upkeep (.retransmit q inProgress found allowed requests)
  | transmit timer known fresh update started wire requests =>
    exact .transmit timer known fresh update started wire requests
  | cancel timer inProgress => exact .cancel timer inProgress
  | newPair hl hr => exact .newPair hl hr
  | enlist known => exact .enlist known
  | remoteCandidate candidate componentIDs => exact .remoteCandidate candidate componentIDs
  | localCandidate generator base component => exact .localCandidate generator base component
  | validPair valid generatedFrom unselected answered =>
    exact .validPair valid generatedFrom unselected answered
  | succeed answered => exact .succeed answered

/-- A trace of a check list is one of the session it is put in. -/
theorem ListTrace.inStream (i : StreamIndex) (h : ListTrace session call cl sent cl') :
    SessionTrace call (session.setStream i cl) (sent.map fun m => (i, m))
      (session.setStream i cl') := by
  induction h with
  | refl => exact .refl _
  | @tail before after out out' _ step ih =>
    rw [map_append]
    have last := SessionStep.list (setStream_self session i before) (step.setStream i before)
    rw [setStream_setStream] at last
    exact ih.tail last

/-- A trace of a check list is one of its session. -/
theorem ListTrace.toSession {i : StreamIndex} (hi : session.streams i = some cl)
    (h : ListTrace session call cl sent cl') :
    SessionTrace call session (sent.map fun m => (i, m)) (session.setStream i cl') := by
  have trace := h.inStream i
  rwa [setStream_eq_self hi] at trace

/-! ## The end of a check list -/

theorem iceConcludePairs_quiet (h : WellFormed cl) (session : IceSession) (expired : Bool)
    (now : MSTimeSpec) : Quiet cl (iceConcludePairs session cl expired now) := by
  have nominate : Quiet cl (if session.role = .controlling then
      iceCheckListPerformNominations cl expired now else cl) := by
    split
    · exact iceCheckListPerformNominations_quiet h expired now
    · exact .refl cl
  exact nominate.trans (.foldl iceConcludeWaitingFrozenAndInProgressPairs_quiet _ _)

theorem iceCompleteCheckList_finish (session : IceSession) (now : MSTimeSpec)
    (nominated : ∀ c ∈ cl.localComponentIDs, ∃ v ∈ cl.validList,
      (cl.heap v.valid).isNominated = true ∧ (cl.localOf v.valid).componentID = c) :
    ∃ cl', IceFinish cl cl' ∧ Quiet cl' (iceCompleteCheckList session cl now) := by
  refine ⟨_, .complete nominated, ?_⟩
  unfold iceCompleteCheckList
  generalize iceCheckListSelectCandidates { cl with
      state := .completed, nominationInProgress := false, nominationDelayRunning := false } =
    selected
  have clock : Quiet selected
      { selected with connectivityChecksRunning := false, keepaliveTime := now } := .of_eq
  split
  · exact clock.trans (iceCheckListStopRetransmissions_quiet _)
  · exact clock

theorem exists_nominated {componentIDs : List UInt16} (h : (componentIDs.all fun componentID =>
      cl.validList.any fun validPair => !iceFindNominatedValidPair cl componentID validPair) = true) :
    ∀ c ∈ componentIDs, ∃ v ∈ cl.validList,
      (cl.heap v.valid).isNominated = true ∧ (cl.localOf v.valid).componentID = c := by
  intro c hc
  have hany := all_eq_true.mp h c hc
  obtain ⟨v, hv, hfind⟩ := any_eq_true.mp hany
  refine ⟨v, hv, ?_⟩
  simpa [iceFindNominatedValidPair] using hfind

theorem iceFinishCheckList_cases (h : WellFormed cl) (session : IceSession) (now : MSTimeSpec) :
    iceFinishCheckList session cl now = (cl, false) ∨
      ∃ cl' cl'', IceFinish cl cl' ∧ Quiet cl' cl'' ∧
        iceFinishCheckList session cl now = (cl'', true) := by
  unfold iceFinishCheckList
  split
  · next hall =>
    rw [if_pos h.losingPairs]
    obtain ⟨cl', finish, quiet⟩ := iceCompleteCheckList_finish session now (exists_nominated hall)
    exact .inr ⟨cl', _, finish, quiet, rfl⟩
  · split
    · exact .inr ⟨_, _, .fail, .refl _, rfl⟩
    · exact .inl rfl

/-- `ice_conclude_processing`. -/
theorem iceConcludeProcessing_trace (h : Inside session) (i : StreamIndex) (expired : Bool)
    (now : MSTimeSpec) :
    SessionTrace call session [] (iceConcludeProcessing session i expired now) := by
  unfold iceConcludeProcessing
  cases hi : session.streams i with
  | none => exact .refl session
  | some cl =>
    dsimp only
    unfold iceConcludeCheckList
    by_cases running : cl.state = .running
    · rw [if_pos running]
      have conclude := iceConcludePairs_quiet (h i cl hi) session expired now
      have wf := (h i cl hi).quiet conclude
      have running' := conclude.state.trans running
      generalize iceConcludePairs session cl expired now = concluded at conclude wf running' ⊢
      have before : SessionTrace call session [] (session.setStream i concluded) :=
        conclude.trace.toSession hi
      rcases iceFinishCheckList_cases wf session now with hend | ⟨cl', cl'', finish, quiet, hend⟩
      · rw [hend]
        exact before
      · rw [hend]
        have last : SessionStep call _ [] _ :=
          .finish now (setStream_self session i concluded) running' finish quiet
        rw [setStream_setStream] at last
        exact before.trans_silent (.single last)
    · rw [if_neg running]
      rw [if_neg Bool.false_ne_true, setStream_eq_self hi]
      exact .refl session

/-! ## Requests -/

section

variable (env : IceEnvironment)

theorem iceAddRemoteCandidate_trace (afInet6 : Int) (cl : IceCheckList) (type : IceCandidateType)
    (taddr : IceTransportAddress) (componentID : UInt16) (priority : UInt32)
    (foundation : List UInt8) (isDefault : Bool) : ListTrace session call cl []
        (iceAddRemoteCandidate afInet6 cl type taddr componentID priority foundation isDefault).1 ∧
      ∀ r, (iceAddRemoteCandidate afInet6 cl type taddr componentID priority foundation
          isDefault).2 = some r →
        r < (iceAddRemoteCandidate afInet6 cl type taddr componentID priority foundation
          isDefault).1.remoteCandidates.length := by
  unfold iceAddRemoteCandidate
  split
  · exact ⟨.refl cl, by simp⟩
  · dsimp only
    generalize (if priority ≠ 0 then
      { iceCandidateNew afInet6 type taddr componentID cl.remoteCandidates.length with
        priority := priority }
      else iceCandidateNew afInet6 type taddr componentID cl.remoteCandidates.length) = candidate
    split
    · exact ⟨.refl cl, by simp⟩
    · refine ⟨.single (.remoteCandidate _ _), fun r hr => ?_⟩
      cases hr
      simp

theorem iceLearnPeerReflexiveCandidate_trace (session : IceSession) (call : IceCall)
    (cl : IceCheckList) (evt : IceEvent) (msg : MSStunMessage) (taddr : IceTransportAddress) :
    ListTrace session call cl [] (iceLearnPeerReflexiveCandidate env cl evt msg taddr).1 ∧
      ∀ r, (iceLearnPeerReflexiveCandidate env cl evt msg taddr).2 = some r →
        r < (iceLearnPeerReflexiveCandidate env cl evt msg taddr).1.remoteCandidates.length := by
  unfold iceLearnPeerReflexiveCandidate
  split
  · exact ⟨.refl cl, by simp⟩
  · split
    · exact ⟨.refl cl, by simp⟩
    · exact iceAddRemoteCandidate_trace env.afInet6 cl _ taddr _ _ _ _

theorem iceFindOrAddPair_trace (session : IceSession) (call : IceCall) {list : List PairRef}
    (hlist : ∀ p ∈ list, p ∈ cl.pairs) {l r : CandidateRef} (hl : l < cl.localCandidates.length)
    (hr : r < cl.remoteCandidates.length) :
    ListTrace session call cl [] (iceFindOrAddPair session cl list l r).1 ∧
      (iceFindOrAddPair session cl list l r).2 ∈ (iceFindOrAddPair session cl list l r).1.pairs := by
  unfold iceFindOrAddPair
  split
  · next pair hfind => exact ⟨.refl cl, hlist pair (mem_of_find?_eq_some hfind)⟩
  · exact ⟨.single (.newPair hl hr), by simp [IceCheckList.appendPair]⟩

theorem iceTriggerNewPair_trace (h : WellFormed cl) {l r : CandidateRef}
    (hl : l < cl.localCandidates.length) (hr : r < cl.remoteCandidates.length) :
    ListTrace session call cl [] (iceTriggerNewPair session cl l r).1 := by
  have trace := iceFindOrAddPair_trace session call (fun p hp => hp) hl hr
  unfold iceTriggerNewPair
  generalize iceFindOrAddPair session cl cl.pairs l r = found at trace ⊢
  obtain ⟨cl', pair⟩ := found
  have known : pair < cl'.nextPair := (h.trace trace.1).pairs pair trace.2
  dsimp only
  split
  · exact trace.1.trans_silent (triggerPair_quiet cl' known).trace
  · have enlist : ListTrace session call cl' []
        { cl' with checkList := insertByPriority cl'.heap pair cl'.checkList } :=
      .single (.enlist trace.2)
    have trigger := triggerPair_quiet
      { cl' with checkList := insertByPriority cl'.heap pair cl'.checkList } known
    exact (trace.1.trans_silent enlist).trans_silent trigger.trace

theorem iceTriggerKnownPair_trace (timer : ¬ call.timer) (known : pair < cl.nextPair) :
    ListTrace session call cl [] (iceTriggerKnownPair cl pair) := by
  unfold iceTriggerKnownPair
  split
  · exact (triggerPair_quiet cl known).trace
  · exact (triggerPair_quiet cl known).trace
  · exact (triggerPair_quiet cl known).trace
  · next inProgress =>
    split
    · exact .refl cl
    · split
      · exact .refl cl
      · have cancel : ListTrace session call cl [] _ := .single (.cancel timer inProgress)
        have queue := triggerPair_queue
          { cl with transactionList := iceCancelTransaction pair cl.transactionList } known
        have flag := Quiet.updatePair
          (triggerPair { cl with transactionList := iceCancelTransaction pair cl.transactionList }
            pair) pair (f := fun p => { p with hasCanceledTransaction := true })
          ⟨rfl, rfl, rfl, id, id, id⟩
        exact cancel.trans_silent (queue.trans flag).trace
  · exact .refl cl

variable {componentID : UInt16}

theorem iceFindCandidate_lt {candidates : List IceCandidate} {taddr : IceTransportAddress}
    {r : CandidateRef} (h : iceFindCandidate candidates taddr componentID = some r) :
    r < candidates.length :=
  (List.findIdx?_eq_some_iff_findIdx_eq.mp h).1

theorem iceTriggerConnectivityCheck_trace (session : IceSession) (call : IceCall)
    (timer : ¬ call.timer) (h : WellFormed cl) (evt : IceEvent)
    {prflx : Option CandidateRef} (hprflx : ∀ r, prflx = some r → r < cl.remoteCandidates.length)
    (taddr : IceTransportAddress) : ListTrace session call cl []
      (iceTriggerConnectivityCheck env session cl evt prflx taddr).1 := by
  unfold iceTriggerConnectivityCheck
  dsimp only
  split
  · exact .refl cl
  · next l hlocal =>
    have hl : l < cl.localCandidates.length := (List.findIdx?_eq_some_iff_findIdx_eq.mp hlocal).1
    split
    · exact .refl cl
    · next r hremote =>
      have hr : r < cl.remoteCandidates.length := by
        cases prflx with
        | some r' =>
          cases hremote
          exact hprflx _ rfl
        | none => exact iceFindCandidate_lt hremote
      split
      · exact iceTriggerNewPair_trace h hl hr
      · next pair hfind =>
        have hlisted := mem_of_find?_eq_some hfind
        exact iceTriggerKnownPair_trace timer (h.pairs pair (h.checkList pair hlisted))

/-- What a request that passed the checks changes. -/
theorem iceAcceptBindingRequest_trace (timer : ¬ call.timer) (h : WellFormed cl) (evt : IceEvent)
    (msg : MSStunMessage) :
    ListTrace session call cl [] (iceAcceptBindingRequest env session cl evt msg) := by
  unfold iceAcceptBindingRequest
  dsimp only
  have learn := iceLearnPeerReflexiveCandidate_trace env session call cl evt
    msg (env.toTransportAddress evt.sourceAddr)
  generalize iceLearnPeerReflexiveCandidate env cl evt msg
    (env.toTransportAddress evt.sourceAddr) = learned at learn ⊢
  have trigger := iceTriggerConnectivityCheck_trace env session call timer
    (h.trace learn.1) evt learn.2 (env.toTransportAddress evt.sourceAddr)
  generalize iceTriggerConnectivityCheck env session learned.1 evt learned.2
    (env.toTransportAddress evt.sourceAddr) = triggered at trigger ⊢
  obtain ⟨cl', pair⟩ := triggered
  cases pair with
  | none => exact learn.1.trans_silent trigger
  | some pair =>
    have nominate := iceUpdateNominatedFlagOnBindingRequest_quiet session cl' msg pair
    exact (learn.1.trans_silent trigger).trans_silent nominate.trace

/-! ## Responses -/

theorem iceAddLocalCandidate_cases (afInet6 : Int) {type : IceCandidateType}
    (htype : type ≠ .host) (taddr : IceTransportAddress)
    (hcomponent : componentID ∈ cl.localComponentIDs) {base : Option CandidateRef}
    (hbase : ∀ b, base = some b → b < cl.localCandidates.length) :
    iceAddLocalCandidate afInet6 cl type taddr componentID base = (cl, none) ∨
      ∃ candidate : IceCandidate, candidate.componentID = componentID ∧
        (∀ b, candidate.base = some b → b < cl.localCandidates.length) ∧
        iceAddLocalCandidate afInet6 cl type taddr componentID base =
          ({ cl with localCandidates := cl.localCandidates ++ [candidate] },
            some cl.localCandidates.length) := by
  have hnew : (iceCandidateNew afInet6 type taddr componentID cl.localCandidates.length).base =
      none := by
    simp [iceCandidateNew, htype]
  unfold iceAddLocalCandidate
  split
  · exact .inl rfl
  · simp only [hnew, Option.isNone_none, if_true, iceAddComponentID, if_pos hcomponent]
    split
    · exact .inl rfl
    · exact .inr ⟨_, rfl, hbase, rfl⟩

/-- The foundation of the last local candidate. -/
theorem iceComputeCandidateFoundation_last (cl : IceCheckList) (candidate : IceCandidate) :
    ∃ foundation generator, iceComputeCandidateFoundation
          { cl with localCandidates := cl.localCandidates ++ [candidate] }
          cl.localCandidates.length = { cl with
          localCandidates := cl.localCandidates ++ [{ candidate with foundation := foundation }]
          foundationGenerator := generator } := by
  have hlast : ({ cl with localCandidates := cl.localCandidates ++ [candidate] } :
      IceCheckList).localAt cl.localCandidates.length = candidate := by
    simp [IceCheckList.localAt]
  have hset : ∀ c, (cl.localCandidates ++ [candidate]).set cl.localCandidates.length c =
      cl.localCandidates ++ [c] := by
    simp
  unfold iceComputeCandidateFoundation
  simp only [hlast, hset]
  split
  · exact ⟨_, cl.foundationGenerator, rfl⟩
  · exact ⟨_, _, rfl⟩

theorem iceDiscoverPeerReflexiveCandidate_trace (session : IceSession) (call : IceCall)
    (h : WellFormed cl) (known : pair < cl.nextPair)
    {msg : MSStunMessage} {candidate : CandidateRef}
    (hr : iceDiscoverPeerReflexiveCandidate env cl pair msg = .ok (cl', candidate)) :
    ListTrace session call cl [] cl' ∧ candidate < cl'.localCandidates.length ∧
      cl'.nextPair = cl.nextPair := by
  unfold iceDiscoverPeerReflexiveCandidate at hr
  dsimp only at hr
  split at hr
  · next found hfind =>
    cases hr
    exact ⟨.refl cl, iceFindCandidate_lt hfind, rfl⟩
  · have hin : (cl.heap pair).localCandidate < cl.localCandidates.length :=
      (h.candidates pair known).1
    have hcomponent : (cl.localOf pair).componentID ∈ cl.localComponentIDs := by
      apply h.components
      simp [IceCheckList.localOf, IceCheckList.localAt, hin]
    have hbase : ∀ b, some (cl.heap pair).localCandidate = some b →
        b < cl.localCandidates.length := by
      intro b hb
      exact Option.some.inj hb ▸ hin
    rcases iceAddLocalCandidate_cases env.afInet6 (by decide : IceCandidateType.peerReflexive ≠ .host)
        (env.toTransportAddress msg.xorMappedAddress) hcomponent hbase with
      hadd | ⟨new, hnew, hnewBase, hadd⟩
    · rw [hadd] at hr
      cases hr
    · rw [hadd] at hr
      cases hr
      obtain ⟨foundation, generator, hfoundation⟩ := iceComputeCandidateFoundation_last cl new
      rw [hfoundation]
      refine ⟨.single (.localCandidate generator hnewBase ?_), by simp, rfl⟩
      exact hnew ▸ hcomponent

theorem iceConstructValidPair_trace (session : IceSession) (h : WellFormed cl) (i : StreamIndex)
    (now : MSTimeSpec) {candidate : CandidateRef} (hcandidate : candidate < cl.localCandidates.length)
    (known : pair < cl.nextPair) (answered : call.answered pair) :
    ListTrace session call cl [] (iceConstructValidPair session i cl now candidate pair).1 ∧
      (iceConstructValidPair session i cl now candidate pair).2.2 = false := by
  unfold iceConstructValidPair
  dsimp only
  have found := iceFindOrAddPair_trace session call h.checkList hcandidate
    (h.candidates pair known).2
  have same : cl.nextPair ≤ (iceFindOrAddPair session cl cl.checkList candidate
      (cl.heap pair).remoteCandidate).1.nextPair := by
    unfold iceFindOrAddPair
    split
    · exact Nat.le_refl _
    · exact Nat.le_succ _
  generalize iceFindOrAddPair session cl cl.checkList candidate
    (cl.heap pair).remoteCandidate = found' at found same ⊢
  obtain ⟨cl', valid⟩ := found'
  have wf := h.trace found.1
  split
  · exact ⟨found.1, rfl⟩
  · rw [wf.losingPairs]
    refine ⟨found.1.trans_silent (.single ?_), rfl⟩
    exact .validPair (wf.pairs valid found.2) (known.trans_le same) rfl answered

theorem iceUpdatePairStates_trace (session' : IceSession) (cl : IceCheckList) (valid : PairRef)
    (answered : call.answered pair) : ListTrace session call cl []
      (iceUpdateNominatedFlagOnBindingResponse session'
        (iceUpdatePairStatesOnBindingResponse cl pair) valid pair) := by
  have succeed : ListTrace session call cl [] (cl.setPairState pair .succeeded) :=
    .single (.succeed answered)
  have thaw := iceUpdatePairStatesOnBindingResponse_quiet cl pair
  have nominate := iceUpdateNominatedFlagOnBindingResponse_quiet session'
    (iceUpdatePairStatesOnBindingResponse cl pair) valid pair
  exact succeed.trans_silent (thaw.trans nominate).trace

/-- `ice_handle_received_binding_response` from the transaction on. -/
theorem iceHandleCheckResponse_trace {session' : IceSession} {i : StreamIndex} {evt : IceEvent}
    {msg : MSStunMessage} (h : Inside (session.setStream i cl)) (known : pair < cl.nextPair)
    (answered : call.answered pair)
    (hr : iceHandleCheckResponse env session i cl evt msg pair = .ok session') :
    SessionTrace call (session.setStream i cl) [] session' := by
  have wf : WellFormed cl := h i cl (setStream_self session i cl)
  unfold iceHandleCheckResponse at hr
  split at hr
  · cases hr
    have fail : Quiet cl (cl.setPairState pair .failed) :=
      .setPairState cl pair (by decide) (by decide)
    exact fail.trace.inStream i
  · split at hr
    · cases hr
      exact .refl _
    · obtain ⟨discovered, hdiscover, hr⟩ := bind_eq_ok.mp hr
      obtain ⟨cl₁, candidate⟩ := discovered
      have discover := iceDiscoverPeerReflexiveCandidate_trace env session call wf known hdiscover
      have construct := iceConstructValidPair_trace session
        (wf.trace discover.1) i evt.now discover.2.1 (discover.2.2 ▸ known) answered
      simp only [bind, Except.bind] at hr
      generalize iceConstructValidPair session i cl₁ evt.now candidate pair = constructed
        at construct hr
      obtain ⟨cl₂, valid, lastLosing⟩ := constructed
      obtain rfl : lastLosing = false := construct.2
      simp only [Bool.false_eq_true, if_false, setStream_self, Option.getD_some,
        setStream_setStream] at hr
      cases hr
      have list : ListTrace session call cl [] _ :=
        (discover.1.trans_silent construct.1).trans_silent
          (iceUpdatePairStates_trace (session.setStream i cl₂) cl₂ valid answered)
      have before := list.inStream i
      have inside := before.preserves Inside (fun h step => Inside.step h step) h
      exact before.trans_silent (iceConcludeProcessing_trace inside i false evt.now)

/-! ## Gathered candidates -/

theorem iceAddLocalCandidate_trace (session : IceSession) (call : IceCall) (afInet6 : Int)
    {type : IceCandidateType} (htype : type ≠ .host) (taddr : IceTransportAddress)
    (hcomponent : componentID ∈ cl.localComponentIDs) {base : Option CandidateRef}
    (hbase : ∀ b, base = some b → b < cl.localCandidates.length) : ListTrace session call cl []
        (iceAddLocalCandidate afInet6 cl type taddr componentID base).1 ∧
      (iceAddLocalCandidate afInet6 cl type taddr componentID base).1.localComponentIDs =
        cl.localComponentIDs := by
  rcases iceAddLocalCandidate_cases afInet6 htype taddr hcomponent hbase with
    hadd | ⟨candidate, hid, hbase', hadd⟩
  · rw [hadd]
    exact ⟨.refl cl, rfl⟩
  · rw [hadd]
    exact ⟨.single (.localCandidate _ hbase' (hid ▸ hcomponent)), rfl⟩

theorem iceFindHostCandidate_component (h : WellFormed cl) {family : Int}
    {b : CandidateRef} (hb : iceFindHostCandidate cl componentID family = some b) :
    b < cl.localCandidates.length ∧ componentID ∈ cl.localComponentIDs := by
  obtain ⟨hlt, hfound, _⟩ := List.findIdx?_eq_some_iff_getElem.mp hb
  refine ⟨hlt, ?_⟩
  simp only [Bool.and_eq_true, beq_iff_eq] at hfound
  rw [← hfound.1.2]
  exact h.components _ (getElem_mem hlt)

theorem iceReflexiveBase_component (h : WellFormed cl) {addr : MSStunAddress}
    {b : CandidateRef} (hb : iceReflexiveBase env cl componentID addr = some b) :
    b < cl.localCandidates.length ∧ componentID ∈ cl.localComponentIDs := by
  unfold iceReflexiveBase at hb
  split at hb
  · exact iceFindHostCandidate_component h hb
  · cases hfirst : iceFindHostCandidate cl componentID env.afInet with
    | some b' =>
      rw [hfirst] at hb
      cases hb
      exact iceFindHostCandidate_component h hfirst
    | none =>
      rw [hfirst] at hb
      exact iceFindHostCandidate_component h hb

theorem iceAddGatheredCandidates_trace (h : WellFormed cl) (componentID : UInt16)
    (msg : MSStunMessage) :
    ListTrace session call cl [] (iceAddGatheredCandidates env cl componentID msg) := by
  unfold iceAddGatheredCandidates
  dsimp only
  split
  · exact .refl cl
  · next addr _ =>
    cases hbase : iceReflexiveBase env cl componentID addr with
    | none => exact .refl cl
    | some b =>
      have host := iceReflexiveBase_component env h hbase
      have hin : ∀ b', some b = some b' → b' < cl.localCandidates.length :=
        fun b' hb' => Option.some.inj hb' ▸ host.1
      split
      · exact .refl cl
      · have reflexive := iceAddLocalCandidate_trace session call env.afInet6
          (by decide : IceCandidateType.serverReflexive ≠ .host) (env.toTransportAddress addr)
          host.2 hin
        split
        · have relayed := iceAddLocalCandidate_trace session call env.afInet6
            (by decide : IceCandidateType.relayed ≠ .host)
            (env.toTransportAddress msg.xorRelayedAddress) (reflexive.2.symm ▸ host.2)
            (fun b hb => nomatch (hb : (none : Option CandidateRef) = some b))
          exact reflexive.1.trans_silent relayed.1
        · exact reflexive.1

/-- `ice_handle_received_turn_allocate_success_response`. -/
theorem iceHandleReceivedTurnAllocateSuccessResponse_trace (h : WellFormed cl) (evt : IceEvent)
    (msg : MSStunMessage) : ListTrace session call cl []
      (iceHandleReceivedTurnAllocateSuccessResponse env cl evt msg).1 := by
  unfold iceHandleReceivedTurnAllocateSuccessResponse
  split
  · have stop (cl') (gather : ListTrace session call cl [] cl') : ListTrace session call cl []
        (if evt.lastServerRequest then iceCheckListStopGathering cl' else cl') := by
      split
      · exact gather.trans_silent (Quiet.trace .of_eq)
      · exact gather
    refine stop _ ?_
    split
    · split
      · exact iceAddGatheredCandidates_trace env h _ msg
      · exact .refl cl
    · exact .refl cl
  · exact .refl cl

end

end GrooveIp.Ice
