import GrooveIp.Ice.Calls

/-!
# Received packets are made of small steps

What `ice_handle_stun_packet` does with a request, a response and an error response, as a trace of
small steps of the session.
-/

namespace GrooveIp.Ice

open Lib Stun

/-- The role a message makes a session take: a request let in with a larger tie-breaker or not, and
the rejection of a request. -/
inductive TakesRole (env : IceEnvironment) (session : IceSession) (i : StreamIndex)
    (packet : List UInt8) (msg : MSStunMessage) : IceRole → Prop where
  | yield (request : stunClass msg = 0x0000) (present : (session.streams i).isSome = true)
      (letIn : iceCheckReceivedBindingRequest env.hmacSha1 session packet msg = .ok none)
      (controlling : session.role = .controlling) (conflict : msg.hasIceControlling = true)
      (smaller : session.tieBreaker < msg.iceControlling) :
      TakesRole env session i packet msg .controlled
  | claim (request : stunClass msg = 0x0000) (present : (session.streams i).isSome = true)
      (letIn : iceCheckReceivedBindingRequest env.hmacSha1 session packet msg = .ok none)
      (controlled : session.role = .controlled) (conflict : msg.hasIceControlled = true)
      (larger : session.tieBreaker ≥ msg.iceControlled) :
      TakesRole env session i packet msg .controlling
  | rejected {cl : IceCheckList} {pair : PairRef} (response : stunClass msg = 0x0110)
      (hi : session.streams i = some cl) (gathered : cl.gatheringCandidates = false)
      (answers : iceFindPairFromTransactionID cl msg.trId = some pair)
      (conflict : msg.hasErrorCode = true ∧ msg.errorCode.number = msIceErrorCodeRoleConflict) :
      TakesRole env session i packet msg (otherRole (cl.heap pair).role)

/-- What a call that handles a message at one check list is allowed. -/
structure CallAllows (env : IceEnvironment) (call : IceCall) (session : IceSession)
    (i : StreamIndex) (packet : List UInt8) (msg : MSStunMessage) : Prop where
  timer : ¬ call.timer
  answered : ∀ cl pair, session.streams i = some cl → stunClass msg = 0x0100 →
    iceFindPairFromTransactionID cl msg.trId = some pair → call.answered pair
  takesRole : ∀ role session', TakesRole env session i packet msg role →
    SameSession session session' → call.takesRole session' role

variable {call : IceCall} {session session' : IceSession} {i : StreamIndex} {cl cl' : IceCheckList}
  {pair : PairRef} {env : IceEnvironment} {evt : IceEvent} {msg : MSStunMessage}

theorem SameSession.setStream (hi : session.streams i = some cl) (q : Quiet cl cl') :
    SameSession session (session.setStream i cl') := by
  refine ⟨rfl, rfl, rfl, rfl, rfl, rfl, fun j => ?_⟩
  by_cases hj : j = i
  · subst hj
    rw [hi, setStream_self]
    exact .some q
  · rw [setStream_ne session cl' hj]
    cases session.streams j with
    | none => exact .none
    | some other => exact .some (.refl other)

theorem SameSession.refl (session : IceSession) : SameSession session session := by
  refine ⟨rfl, rfl, rfl, rfl, rfl, rfl, fun j => ?_⟩
  cases session.streams j with
  | none => exact .none
  | some other => exact .some (.refl other)

/-- What quiet changes imply of each check list. -/
theorem SameSession.imp {R : IceCheckList → IceCheckList → Prop} (h : SameSession session session')
    (hR : ∀ {cl cl'}, Quiet cl cl' → R cl cl') (i : StreamIndex) :
    Option.Rel R (session.streams i) (session'.streams i) := by
  have hrel := h.streams i
  generalize session.streams i = list at hrel ⊢
  generalize session'.streams i = list' at hrel ⊢
  cases hrel with
  | none => exact .none
  | some q => exact .some (hR q)

/-- A trace keeps the pointers inside. -/
theorem Inside.trace {sent : List (StreamIndex × IceSent)} (h : Inside session)
    (trace : SessionTrace call session sent session') : Inside session' :=
  trace.preserves Inside (fun h step => Inside.step h step) h

/-! ## Error responses -/

theorem iceSessionSetRole_stream (role : IceRole) (hi : session.streams i = some cl) :
    ∃ cl', (iceSessionSetRole session role).streams i = some cl' ∧ cl'.nextPair = cl.nextPair := by
  unfold iceSessionSetRole
  split
  · refine ⟨iceCheckListComputePairPriorities role cl, by simp [hi], ?_⟩
    rw [iceCheckListComputePairPriorities_eq]
  · exact ⟨cl, hi, rfl⟩

theorem iceFindPairFromTransactionID_lt (h : WellFormed cl) {trId : UInt96}
    (hfind : iceFindPairFromTransactionID cl trId = some pair) : pair < cl.nextPair := by
  obtain ⟨t, ht, rfl⟩ := Option.map_eq_some_iff.mp hfind
  exact h.transactions t (List.mem_of_find?_eq_some ht)

theorem iceHandleCheckError_trace (h : Inside session) (hi : session.streams i = some cl)
    (allows : CallAllows env call session i evt.packet msg) (response : stunClass msg = 0x0110)
    (gathered : cl.gatheringCandidates = false)
    (hfind : iceFindPairFromTransactionID cl msg.trId = some pair) :
    SessionTrace call session [] (iceHandleCheckError session i cl evt msg pair) := by
  have known := iceFindPairFromTransactionID_lt (h i cl hi) hfind
  unfold iceHandleCheckError
  split
  · have dummy := Quiet.updatePair cl pair
      (f := fun p => { p with retryWithDummyMessageIntegrity := false, useDummyHmac := true })
      ⟨rfl, rfl, rfl, id, id, id⟩
    exact dummy.trace.toSession hi
  · have fail : Quiet cl (cl.setPairState pair .failed) :=
      .setPairState cl pair (by decide) (by decide)
    have first : SessionTrace call session [] (session.setStream i (cl.setPairState pair .failed)) :=
      fail.trace.toSession hi
    dsimp only
    split
    · next conflict =>
      have allowed := allows.takesRole _ _ (.rejected response hi gathered hfind conflict)
        (SameSession.setStream hi fail)
      have switch := first.tail (.takeRole allowed)
      obtain ⟨cl', hcl', hnext⟩ := iceSessionSetRole_stream (otherRole (cl.heap pair).role)
        (setStream_self session i (cl.setPairState pair .failed))
      have trigger : Quiet cl' (triggerPair cl' pair) := triggerPair_quiet cl' (hnext ▸ known)
      have before := switch.trans (trigger.trace.toSession hcl')
      rw [hcl', Option.getD_some]
      have inside := h.trace before
      exact before.trans_silent (iceConcludeProcessing_trace inside i false evt.now)
    · have inside := h.trace first
      exact first.trans_silent (iceConcludeProcessing_trace inside i false evt.now)

/-! ## Requests -/

theorem iceSendErrorResponse_replies (hid : call.trId = evt.trId) (error : IceErrorResponse) :
    Replies call (iceSendErrorResponse evt error) := by
  intro m hm
  unfold iceSendErrorResponse at hm
  split at hm
  · simp at hm
  · obtain rfl := List.mem_singleton.mp hm
    exact .inr ⟨_, rfl, hid.symm⟩

theorem iceSendBindingResponse_replies (session : IceSession) (cl : IceCheckList) (evt : IceEvent)
    (msg : MSStunMessage) : Replies call (iceSendBindingResponse session cl evt msg) := by
  intro m hm
  unfold iceSendBindingResponse at hm
  split at hm
  · simp at hm
  · obtain rfl := List.mem_singleton.mp hm
    exact .inl ⟨_, rfl⟩

theorem iceCheckRoleConflict_trace (allows : CallAllows env call session i evt.packet msg)
    (request : stunClass msg = 0x0000) (present : (session.streams i).isSome = true)
    (letIn : iceCheckReceivedBindingRequest env.hmacSha1 session evt.packet msg = .ok none) :
    SessionTrace call session [] (iceCheckRoleConflict session msg).1 := by
  unfold iceCheckRoleConflict
  split
  · next conflict =>
    split
    · exact .refl session
    · next smaller =>
      have smaller' : session.tieBreaker < msg.iceControlling := UInt64.not_le.mp smaller
      exact .single (.takeRole (allows.takesRole _ _
        (.yield request present letIn conflict.1 conflict.2 smaller') (.refl session)))
  · split
    · next conflict =>
      split
      · next larger =>
        exact .single (.takeRole (allows.takesRole _ _
          (.claim request present letIn conflict.1 conflict.2 larger) (.refl session)))
      · exact .refl session
    · exact .refl session

variable {sent : List IceSent}

theorem iceHandleReceivedBindingRequest_trace (h : Inside session)
    (allows : CallAllows env call session i evt.packet msg) (request : stunClass msg = 0x0000)
    (present : (session.streams i).isSome = true) (hid : call.trId = evt.trId)
    (hr : iceHandleReceivedBindingRequest env session i evt msg = .ok (session', sent)) :
    SessionTrace call session (sent.map fun m => (i, m)) session' := by
  unfold iceHandleReceivedBindingRequest at hr
  obtain ⟨checked, hcheck, hr⟩ := bind_eq_ok.mp hr
  cases checked with
  | some error =>
    cases hr
    exact .single (.reply allows.timer (iceSendErrorResponse_replies hid error))
  | none =>
    have role := iceCheckRoleConflict_trace allows request present hcheck
    generalize iceCheckRoleConflict session msg = conflict at role hr
    obtain ⟨session₁, _ | error⟩ := conflict
    · have inside := h.trace role
      dsimp only at hr
      cases hi : session₁.streams i with
      | none =>
        rw [hi] at hr
        cases hr
        exact role
      | some cl =>
        rw [hi] at hr
        cases hr
        have accept : ListTrace session₁ call cl [] _ :=
          iceAcceptBindingRequest_trace env allows.timer (inside i cl hi) evt msg
        have before := role.trans_silent (accept.toSession hi)
        have conclude : SessionTrace call _ [] _ :=
          iceConcludeProcessing_trace (h.trace before) i false evt.now
        have reply : SessionTrace call session _ _ := before.tail
          (.reply (i := i) allows.timer (iceSendBindingResponse_replies session₁
            (iceAcceptBindingRequest env session₁ cl evt msg) evt msg))
        exact reply.trans_silent conclude
    · cases hr
      exact role.silent_trans (.single (.reply allows.timer (iceSendErrorResponse_replies hid error)))

/-! ## Responses -/

theorem iceAddLocalCandidate_transactionList (afInet6 : Int) (cl : IceCheckList)
    (type : IceCandidateType) (taddr : IceTransportAddress) (componentID : UInt16)
    (base : Option CandidateRef) :
    (iceAddLocalCandidate afInet6 cl type taddr componentID base).1.transactionList =
      cl.transactionList := by
  unfold iceAddLocalCandidate
  split
  · rfl
  · dsimp only
    generalize (if (iceCandidateNew afInet6 type taddr componentID
        cl.localCandidates.length).base.isNone then
      { iceCandidateNew afInet6 type taddr componentID cl.localCandidates.length with base := base }
      else iceCandidateNew afInet6 type taddr componentID cl.localCandidates.length) = candidate
    split <;> rfl

theorem iceHandleReceivedTurnAllocateSuccessResponse_transactionList (env : IceEnvironment)
    (cl : IceCheckList) (evt : IceEvent) (msg : MSStunMessage) :
    (iceHandleReceivedTurnAllocateSuccessResponse env cl evt msg).1.transactionList =
      cl.transactionList := by
  have gathered : ∀ componentID,
      (iceAddGatheredCandidates env cl componentID msg).transactionList = cl.transactionList := by
    intro componentID
    unfold iceAddGatheredCandidates
    dsimp only
    split
    · rfl
    · split
      · rfl
      · split
        · rw [iceAddLocalCandidate_transactionList, iceAddLocalCandidate_transactionList]
        · rw [iceAddLocalCandidate_transactionList]
  unfold iceHandleReceivedTurnAllocateSuccessResponse
  split
  · have stop (cl' : IceCheckList) (kept : cl'.transactionList = cl.transactionList) :
        (if evt.lastServerRequest then iceCheckListStopGathering cl' else cl').transactionList =
          cl.transactionList := by
      split
      · exact kept
      · exact kept
    refine stop _ ?_
    split
    · split
      · exact gathered _
      · rfl
    · rfl
  · rfl

theorem iceHandleReceivedBindingResponse_trace (h : Inside session)
    (hi : session.streams i = some cl) (allows : CallAllows env call session i evt.packet msg)
    (response : stunClass msg = 0x0100)
    (hr : iceHandleReceivedBindingResponse env session i cl evt msg = .ok session') :
    SessionTrace call session [] session' := by
  -- the check list once the server has answered
  obtain ⟨gathered, server, hgathered, gather, kept⟩ : ∃ gathered server,
      (if cl.gatheringCandidates then iceHandleReceivedTurnAllocateSuccessResponse env cl evt msg
        else (cl, false)) = (gathered, server) ∧ ListTrace session call cl [] gathered ∧
      gathered.transactionList = cl.transactionList := by
    split
    · exact ⟨_, _, rfl, iceHandleReceivedTurnAllocateSuccessResponse_trace env (h i cl hi) evt msg,
        iceHandleReceivedTurnAllocateSuccessResponse_transactionList env cl evt msg⟩
    · exact ⟨cl, false, rfl, .refl cl, rfl⟩
  have first := gather.toSession hi
  have inside := h.trace first
  unfold iceHandleReceivedBindingResponse at hr
  rw [hgathered] at hr
  dsimp only at hr
  split at hr
  · cases hr
    exact first
  · split at hr
    · cases hr
      exact first
    · next pair hfind =>
      have hfind' : iceFindPairFromTransactionID cl msg.trId = some pair := by
        rw [iceFindPairFromTransactionID, ← kept]
        exact hfind
      have wf := inside i gathered (setStream_self session i gathered)
      exact first.trans_silent (iceHandleCheckResponse_trace env inside
        (iceFindPairFromTransactionID_lt wf hfind) (allows.answered cl pair hi response hfind') hr)

/-! ## Packets -/

theorem iceHandleStunMessage_trace (h : Inside session)
    (allows : CallAllows env call session i evt.packet msg) (hid : call.trId = evt.trId)
    (hr : iceHandleStunMessage env session i evt msg = .ok (session', sent)) :
    SessionTrace call session (sent.map fun m => (i, m)) session' := by
  unfold iceHandleStunMessage at hr
  cases hi : session.streams i with
  | none =>
    rw [hi] at hr
    cases hr
    exact .refl session
  | some cl =>
    rw [hi] at hr
    dsimp only at hr
    split at hr
    · next request => exact iceHandleReceivedBindingRequest_trace h allows request (by simp [hi]) hid hr
    · split at hr
      · next response =>
        split at hr
        · obtain ⟨handled, hhandle, hr⟩ := bind_eq_ok.mp hr
          cases hr
          exact iceHandleReceivedBindingResponse_trace h hi allows response hhandle
        · split at hr
          · cases hr
            exact (iceHandleReceivedTurnAllocateSuccessResponse_trace env (h i cl hi) evt
              msg).toSession hi
          · cases hr
            exact .refl session
      · split at hr
        · next response =>
          cases hr
          unfold iceHandleReceivedErrorResponse
          split
          · exact .refl session
          · next gathered =>
            split
            · exact .refl session
            · next pair hfind =>
              exact iceHandleCheckError_trace h hi allows response (by simpa using gathered) hfind
        · cases hr
          exact .refl session

/-- `ice_handle_stun_packet`. -/
theorem iceHandleStunPacket_trace (h : Inside session)
    (allows : ∀ msg, msStunMessageCreateFromBufferParsing evt.packet = .ok (some msg) → CallAllows
      env call session i evt.packet msg) (hid : call.trId = evt.trId)
    (hr : iceHandleStunPacket env session i evt = .ok (session', sent)) :
    SessionTrace call session (sent.map fun m => (i, m)) session' := by
  unfold iceHandleStunPacket at hr
  obtain ⟨parsed, hparse, hr⟩ := bind_eq_ok.mp hr
  cases parsed with
  | none =>
    cases hr
    exact .refl session
  | some msg => exact iceHandleStunMessage_trace h (allows msg hparse) hid hr

end GrooveIp.Ice
