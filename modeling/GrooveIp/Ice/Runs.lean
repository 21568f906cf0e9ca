import Mathlib.Logic.Relation
import GrooveIp.Ice.Packets

/-!
# Runs of a session

The calls of `ice_session_start_connectivity_checks`, `ice_handle_stun_packet` and
`ice_check_list_process` as inputs of a session, each made of small steps, and the runs they make
from a session that has gathered its candidates.
-/

namespace GrooveIp.Ice

open Lib Stun List

variable {call : IceCall} {session session' : IceSession} {i : StreamIndex} {cl cl' : IceCheckList}
  {pair : PairRef} {now : MSTimeSpec}

/-! ## The timer -/

theorem iceTimeouts_same (session : IceSession) (gathering : Bool) (now : MSTimeSpec) :
    SameSession session (iceTimeouts session gathering now) := by
  have timeout : SameSession session
      (if gathering then iceCheckGatheringTimeout session now else session) := by
    split
    · unfold iceCheckGatheringTimeout
      split
      · refine ⟨rfl, rfl, rfl, rfl, rfl, rfl, fun j => ?_⟩
        dsimp only
        cases session.streams j with
        | none => exact .none
        | some other => exact .some .of_eq
      · exact .refl session
    · exact .refl session
  unfold iceTimeouts
  dsimp only
  generalize (if gathering then iceCheckGatheringTimeout session now else session) = session'
    at timeout ⊢
  split
  · exact { timeout with }
  · exact timeout

theorem iceSendKeepalivePackets_indications (cl : IceCheckList) (now : MSTimeSpec) :
    ∀ m ∈ (iceSendKeepalivePackets cl now).2, ∃ p, m = .indication p := by
  intro m hm
  unfold iceSendKeepalivePackets at hm
  split at hm
  · simp only [mem_flatMap] at hm
    obtain ⟨c, _, hm⟩ := hm
    unfold iceSendKeepalivePacketForComponentID at hm
    split at hm
    · split at hm
      · exact ⟨_, mem_singleton.mp hm⟩
      · simp at hm
    · simp at hm
  · simp only [mem_flatMap] at hm
    obtain ⟨v, _, hm⟩ := hm
    split at hm
    · exact ⟨_, mem_singleton.mp hm⟩
    · simp at hm
  · simp at hm

theorem iceKeepalive_trace (session' : IceSession) (cl : IceCheckList) (now : MSTimeSpec) :
    ListTrace session call cl (iceKeepalive session' cl now).2
      (iceKeepalive session' cl now).1 := by
  have indications := iceSendKeepalivePackets_indications cl now
  unfold iceKeepalive
  split
  · exact .single (.upkeep (.quiet (iceSendKeepalivePackets_quiet cl now) indications))
  · split
    · exact .single (.upkeep (.quiet .of_eq indications))
    · exact .refl cl

theorem iceBeforeRetransmissions_trace (call : IceCall) (h : Inside session) (i : StreamIndex) (now : MSTimeSpec) :
    SessionTrace call session ((iceBeforeRetransmissions session i now).2.1.map fun m => (i, m))
      (iceBeforeRetransmissions session i now).1 := by
  unfold iceBeforeRetransmissions
  cases hi : session.streams i with
  | none => exact .refl session
  | some cl =>
    dsimp only
    have same := iceTimeouts_same session cl.gatheringCandidates now
    have first : SessionTrace call session []
        (iceTimeouts session cl.gatheringCandidates now) := .single (.same same)
    have hrel := same.streams i
    rw [hi] at hrel
    generalize iceTimeouts session cl.gatheringCandidates now = session₁ at first hrel ⊢
    split
    · exact first
    · obtain ⟨cl₁, hcl₁⟩ : ∃ cl₁, session₁.streams i = some cl₁ := by
        cases hcl : session₁.streams i with
        | none =>
          rw [hcl] at hrel
          cases hrel
        | some cl₁ => exact ⟨cl₁, rfl⟩
      rw [hcl₁, Option.getD_some]
      have alive : ListTrace session₁ call cl₁ _ _ := iceKeepalive_trace session₁ cl₁ now
      have second := first.silent_trans (alive.toSession hcl₁)
      generalize iceKeepalive session₁ cl₁ now = kept at second ⊢
      split
      · have inside := h.trace second
        exact second.trans_silent (iceConcludeProcessing_trace inside i true now)
      · exact second

theorem iceBeforeRetransmissions_some {indications : List IceSent}
    (h : iceBeforeRetransmissions session i now = (session', indications, some cl)) :
    session'.streams i = some cl := by
  unfold iceBeforeRetransmissions at h
  cases hi : session.streams i with
  | none =>
    rw [hi] at h
    cases h
  | some cl₀ =>
    rw [hi] at h
    dsimp only at h
    generalize iceTimeouts session cl₀.gatheringCandidates now = session₁ at h
    split at h
    · cases h
    · generalize iceKeepalive session₁ ((session₁.streams i).getD cl₀) now = kept at h
      obtain ⟨cl₂, sent⟩ := kept
      split at h
      · obtain ⟨hsession, hrest⟩ := Prod.mk.inj h
        obtain ⟨-, hcl⟩ := Prod.mk.inj hrest
        rw [← hsession]
        split at hcl
        · cases hcl
        · exact hcl
      · obtain ⟨hsession, hrest⟩ := Prod.mk.inj h
        obtain ⟨-, hcl⟩ := Prod.mk.inj hrest
        rw [← hsession, ← hcl]
        exact setStream_self session₁ i cl₂

/-- At every request the loop over the check list sends again, a condition holds, from what the
timer does before it. -/
def LoopMeetsFrom (now : MSTimeSpec) (trId : UInt96) (cond : IceCheckList → PairRef → Prop) :
    IceSession × List IceSent × Option IceCheckList → Prop
  | (session, _, some cl) => LoopMeets session now trId cond (cl, []) cl.checkList
  | (_, _, none) => True

/-- If a triggered check is a request sent again, a condition holds. -/
def TriggeredMeets (cond : IceCheckList → PairRef → Prop) :
    IceSession × List IceSent × Option IceCheckList → Prop
  | (_, _, some cl) => ∀ pair ∈ cl.triggeredChecksQueue.head?, (cl.heap pair).state = .inProgress →
    cond { cl with triggeredChecksQueue := cl.triggeredChecksQueue.tail } pair
  | (_, _, none) => True

instance (now : MSTimeSpec) (trId : UInt96) (cond : IceCheckList → PairRef → Prop)
    [∀ cl p, Decidable (cond cl p)] : ∀ state, Decidable (LoopMeetsFrom now trId cond state)
  | (session, _, some cl) =>
    inferInstanceAs (Decidable (LoopMeets session now trId cond (cl, []) cl.checkList))
  | (_, _, none) => .isTrue trivial

instance (cond : IceCheckList → PairRef → Prop) [∀ cl p, Decidable (cond cl p)] :
    ∀ state, Decidable (TriggeredMeets cond state)
  | (_, _, some cl) => inferInstanceAs (Decidable (∀ pair ∈ cl.triggeredChecksQueue.head?,
    (cl.heap pair).state = .inProgress →
      cond { cl with triggeredChecksQueue := cl.triggeredChecksQueue.tail } pair))
  | (_, _, none) => .isTrue trivial

/-- At every request the timer sends again, a condition holds. -/
def RetransmissionsMeet (session : IceSession) (i : StreamIndex) (now : MSTimeSpec)
    (trId : UInt96) (cond : IceCheckList → PairRef → Prop) : Prop :=
  LoopMeetsFrom now trId cond (iceBeforeRetransmissions session i now) ∧
    TriggeredMeets cond (iceBeforeChecks session i now trId)

instance (session : IceSession) (i : StreamIndex) (now : MSTimeSpec) (trId : UInt96)
    (cond : IceCheckList → PairRef → Prop) [∀ cl p, Decidable (cond cl p)] :
    Decidable (RetransmissionsMeet session i now trId cond) :=
  inferInstanceAs (Decidable (_ ∧ _))

/-- What the timer does before it looks for a check to send. -/
theorem iceBeforeChecks_trace (call : IceCall) (h : Inside session) {trId : UInt96}
    (allowed : LoopMeetsFrom now trId call.retransmits (iceBeforeRetransmissions session i now)) :
    SessionTrace call session ((iceBeforeChecks session i now trId).2.1.map fun m => (i, m))
        (iceBeforeChecks session i now trId).1 ∧
      ∀ cl, (iceBeforeChecks session i now trId).2.2 = some cl →
        (iceBeforeChecks session i now trId).1.streams i = some cl := by
  have before := iceBeforeRetransmissions_trace call h i now
  unfold iceBeforeChecks
  cases hbefore : iceBeforeRetransmissions session i now with
  | mk session₁ rest =>
    obtain ⟨indications, _ | cl⟩ := rest
    · rw [hbefore] at before
      exact ⟨before, by simp⟩
    · rw [hbefore] at before
      have hcl := iceBeforeRetransmissions_some hbefore
      have inside := h.trace before
      rw [hbefore] at allowed
      have loop := iceCheckListRetransmitConnectivityChecks_trace (inside i cl hcl) now allowed
      have retransmit : ListTrace session₁ call cl _ _ := loop.mono .upkeep
      dsimp only
      generalize iceCheckListRetransmitConnectivityChecks session₁ cl now trId = retransmitted
        at retransmit ⊢
      obtain ⟨cl₁, requests⟩ := retransmitted
      have second := before.trans (retransmit.toSession hcl)
      rw [← map_append] at second
      split
      · exact ⟨second, by simp⟩
      · have clock : Quiet cl₁ { cl₁ with taTime := now } := .of_eq
        have third : SessionTrace call (session₁.setStream i cl₁) []
            (session₁.setStream i { cl₁ with taTime := now }) := clock.trace.inStream i
        refine ⟨second.trans_silent third, fun cl' hcl' => ?_⟩
        cases hcl'
        exact setStream_self session₁ i _

/-! ## Transactions come from transmissions -/

variable {t' : IceTransaction}

theorem IceChange.transaction {sent : List IceSent}
    (h : IceChange session call cl sent cl') (ht' : t' ∈ cl'.transactionList) :
    (∃ t ∈ cl.transactionList, t.transactionID = t'.transactionID ∧ t.pair = t'.pair) ∨
      call.timer ∧ t'.transactionID = call.trId := by
  have old : ∀ {cl' : IceCheckList}, cl'.transactionList = cl.transactionList →
      t' ∈ cl'.transactionList →
      ∃ t ∈ cl.transactionList, t.transactionID = t'.transactionID ∧ t.pair = t'.pair :=
    fun heq ht' => ⟨t', heq ▸ ht', rfl, rfl⟩
  cases h with
  | upkeep h =>
    cases h with
    | quiet q => exact .inl (old q.transactionList ht')
    | retransmit q => exact .inl (old q.transactionList ht')
  | transmit timer =>
    rcases mem_cons.mp ht' with rfl | ht'
    · exact .inr ⟨timer, rfl⟩
    · exact .inl ⟨t', ht', rfl, rfl⟩
  | cancel =>
    obtain ⟨t, ht, hpair, hid⟩ := mem_iceCancelTransaction ht'
    exact .inl ⟨t, ht, hid, hpair⟩
  | newPair => exact .inl ⟨t', ht', rfl, rfl⟩
  | enlist => exact .inl ⟨t', ht', rfl, rfl⟩
  | remoteCandidate => exact .inl ⟨t', ht', rfl, rfl⟩
  | localCandidate => exact .inl ⟨t', ht', rfl, rfl⟩
  | validPair => exact .inl ⟨t', ht', rfl, rfl⟩
  | succeed => exact .inl ⟨t', ht', rfl, rfl⟩

variable {sent : List (StreamIndex × IceSent)}

theorem SessionStep.transaction (inside : Inside session)
    (h : SessionStep call session sent session') {j : StreamIndex}
    (hj : session'.streams j = some cl') (ht' : t' ∈ cl'.transactionList) :
    (∃ cl, session.streams j = some cl ∧ ∃ t ∈ cl.transactionList,
      t.transactionID = t'.transactionID ∧ t.pair = t'.pair) ∨
      call.timer ∧ t'.transactionID = call.trId := by
  -- a step of one check list, with what it does to the transactions
  have write : ∀ {i : StreamIndex} {cl₁ cl₂ : IceCheckList}, session.streams i = some cl₁ →
      (t' ∈ cl₂.transactionList → (∃ t ∈ cl₁.transactionList,
        t.transactionID = t'.transactionID ∧ t.pair = t'.pair) ∨
        call.timer ∧ t'.transactionID = call.trId) →
      (session.setStream i cl₂).streams j = some cl' →
      (∃ cl, session.streams j = some cl ∧ ∃ t ∈ cl.transactionList,
        t.transactionID = t'.transactionID ∧ t.pair = t'.pair) ∨
        call.timer ∧ t'.transactionID = call.trId := by
    intro i cl₁ cl₂ hi hchange hj
    by_cases heq : j = i
    · subst heq
      rw [setStream_self] at hj
      cases hj
      exact (hchange ht').imp_left fun ht => ⟨cl₁, hi, ht⟩
    · rw [setStream_ne session cl₂ heq] at hj
      exact .inl ⟨cl', hj, t', ht', rfl, rfl⟩
  cases h with
  | list hi change => exact write hi (fun ht' => change.transaction ht') hj
  | finish now hi running finish q =>
    rw [iceNotifySessionProcessingFinished_streams] at hj
    refine write hi (fun ht' => .inl ⟨t', ?_, rfl, rfl⟩) hj
    rw [q.transactionList] at ht'
    cases finish with
    | complete => exact ht'
    | fail => exact ht'
  | takeRole =>
    rcases iceSessionSetRole_streams hj with hcl | ⟨cl, hcl, rfl⟩
    · exact .inl ⟨cl', hcl, t', ht', rfl, rfl⟩
    · exact .inl ⟨cl, hcl, t', ht', rfl, rfl⟩
  | same same =>
    have hrel := same.streams j
    rw [hj] at hrel
    cases hcl : session.streams j with
    | none =>
      rw [hcl] at hrel
      cases hrel
    | some cl =>
      rw [hcl] at hrel
      cases hrel with
      | some q => exact .inl ⟨cl, rfl, t', q.transactionList ▸ ht', rfl, rfl⟩
  | reply => exact .inl ⟨cl', hj, t', ht', rfl, rfl⟩
  | pairing hi running pair =>
    have paired := (iceCheckListPairCandidates_spec (inside _ _ hi) running pair).1
    exact write hi (fun ht' => .inl ⟨t', paired.transactionList ▸ ht', rfl, rfl⟩) hj
  | started => exact .inl ⟨cl', hj, t', ht', rfl, rfl⟩

/-- And those of a whole trace. -/
theorem SessionTrace.transaction (h : SessionTrace call session sent session')
    (inside : Inside session) {j : StreamIndex} (hj : session'.streams j = some cl')
    (ht' : t' ∈ cl'.transactionList) :
    (∃ cl, session.streams j = some cl ∧ ∃ t ∈ cl.transactionList,
      t.transactionID = t'.transactionID ∧ t.pair = t'.pair) ∨
      call.timer ∧ t'.transactionID = call.trId := by
  induction h generalizing cl' t' with
  | refl => exact .inl ⟨cl', hj, t', ht', rfl, rfl⟩
  | tail before step ih =>
    rcases step.transaction (inside.trace before) hj ht' with ⟨cl₁, hcl₁, t₁, ht₁, hid, hpair⟩ | new
    · rcases ih hcl₁ ht₁ with ⟨cl₀, hcl₀, t₀, ht₀, hid₀, hpair₀⟩ | new
      · exact .inl ⟨cl₀, hcl₀, t₀, ht₀, hid₀.trans hid, hpair₀.trans hpair⟩
      · exact .inr ⟨new.1, hid.symm.trans new.2⟩
    · exact .inr new

/-! ## The checks of the timer -/

theorem LoopMeets.always {trId : UInt96} (acc : IceCheckList × List IceSent) (l : List PairRef) :
    LoopMeets session now trId (fun _ _ => True) acc l := by
  induction l generalizing acc with
  | nil => trivial
  | cons pair l ih => exact ⟨fun _ _ => trivial, ih _⟩

/-- And for the timer. -/
theorem RetransmissionsMeet.always (session : IceSession) (i : StreamIndex) (now : MSTimeSpec)
    (trId : UInt96) : RetransmissionsMeet session i now trId (fun _ _ => True) := by
  constructor
  · unfold LoopMeetsFrom
    split
    · exact .always _ _
    · trivial
  · unfold TriggeredMeets
    split
    · exact fun _ _ _ => trivial
    · trivial

/-- An identifier that no transaction of the session has. -/
def FreshID (session : IceSession) (trId : UInt96) : Prop :=
  ∀ i cl, session.streams i = some cl → ∀ t ∈ cl.transactionList, t.transactionID ≠ trId

theorem iceBeforeChecks_fresh (h : Inside session) {trId : UInt96} (fresh : FreshID session trId) :
    FreshID (iceBeforeChecks session i now trId).1 trId := by
  -- a call that transmits nothing and may do the rest
  let silent : IceCall := ⟨trId, True, False, fun _ _ => True, fun _ => True, fun _ _ => True⟩
  have trace : SessionTrace silent session
      ((iceBeforeChecks session i now trId).2.1.map fun m => (i, m))
      (iceBeforeChecks session i now trId).1 :=
    (iceBeforeChecks_trace silent h (RetransmissionsMeet.always session i now trId).1).1
  intro j cl' hj t' ht'
  rcases SessionTrace.transaction trace h hj ht' with ⟨cl, hcl, t, ht, hid, -⟩ | ⟨hno, -⟩
  · rw [← hid]
    exact fresh j cl hcl t ht
  · exact hno.elim

theorem iceOrdinaryCheckPair_some (hpair : iceOrdinaryCheckPair cl = some pair) :
    pair ∈ cl.checkList ∧ (cl.heap pair).state ≠ .inProgress := by
  unfold iceOrdinaryCheckPair at hpair
  cases hwaiting : cl.checkList.find? fun pair => (cl.heap pair).state == .waiting with
  | some p =>
    rw [hwaiting] at hpair
    cases hpair
    have hstate := List.find?_some hwaiting
    simp only [beq_iff_eq] at hstate
    exact ⟨mem_of_find?_eq_some hwaiting, by simp [hstate]⟩
  | none =>
    rw [hwaiting] at hpair
    have hfrozen : cl.checkList.find? (fun pair => (cl.heap pair).state == .frozen) = some pair :=
      hpair
    have hstate := List.find?_some hfrozen
    simp only [beq_iff_eq] at hstate
    exact ⟨mem_of_find?_eq_some hfrozen, by simp [hstate]⟩

theorem iceSendOrdinaryCheck_trace (h : Inside session) (hi : session.streams i = some cl)
    (timer : call.timer) (fresh : call.fresh → FreshID session call.trId) (now : MSTimeSpec) :
    SessionTrace call session
      ((iceSendOrdinaryCheck session i cl now call.trId).2.map fun m => (i, m))
      (iceSendOrdinaryCheck session i cl now call.trId).1 := by
  unfold iceSendOrdinaryCheck
  split
  · exact (iceComputePairsStates_quiet cl).trace.toSession hi
  · split
    · next pair hpair =>
      have hmem := iceOrdinaryCheckPair_some hpair
      have known := (h i cl hi).pairs pair ((h i cl hi).checkList pair hmem.1)
      have send : ListTrace session call cl _ _ := iceSendBindingRequest_trace (h i cl hi) timer
        known now (fun hf => fresh hf i cl hi) (fun hs => absurd hs hmem.2)
      exact send.toSession hi
    · split
      · rw [setStream_eq_self hi]
        exact .refl session
      · rw [setStream_eq_self hi]
        exact iceConcludeProcessing_trace h i false now

theorem iceCheckListProcess_trace (h : Inside session) (timer : call.timer)
    (fresh : call.fresh → FreshID session call.trId)
    (allowed : RetransmissionsMeet session i now call.trId call.retransmits) :
    SessionTrace call session ((iceCheckListProcess session i now call.trId).2.map fun m => (i, m))
      (iceCheckListProcess session i now call.trId).1 := by
  have before := iceBeforeChecks_trace call h allowed.1
  have fresh' : call.fresh → FreshID (iceBeforeChecks session i now call.trId).1 call.trId :=
    fun hf => iceBeforeChecks_fresh h (fresh hf)
  unfold iceCheckListProcess
  cases hbefore : iceBeforeChecks session i now call.trId with
  | mk session₁ rest =>
    rw [hbefore] at before fresh'
    obtain ⟨sent, _ | cl⟩ := rest
    · exact before.1
    · have hi : session₁.streams i = some cl := before.2 cl rfl
      have inside := h.trace before.1
      dsimp only
      unfold iceCheckListSendTriggeredCheck
      cases hqueue : cl.triggeredChecksQueue with
      | nil =>
        dsimp only
        split
        · have ordinary := iceSendOrdinaryCheck_trace inside hi timer fresh' now
          rw [map_append]
          exact before.1.trans ordinary
        · exact before.1
      | cons pair queue =>
        have pop : Quiet cl { cl with triggeredChecksQueue := queue } := by
          have quiet := Quiet.refl cl
          refine { quiet with queue := fun p hp => .inl ?_ }
          rw [hqueue]
          exact mem_cons_of_mem pair hp
        have known : pair < cl.nextPair :=
          (inside i cl hi).queue pair (hqueue ▸ mem_cons_self)
        have send : ListTrace session₁ call { cl with triggeredChecksQueue := queue } _ _ :=
          iceSendBindingRequest_trace ((inside i cl hi).quiet pop) timer known now
            (fun hf => fresh' hf i cl hi)
            (by simpa [TriggeredMeets, hbefore, hqueue] using allowed.2)
        have list : ListTrace session₁ call cl _ _ := pop.trace.silent_trans send
        rw [map_append]
        exact before.1.trans (list.toSession hi)

/-! ## The start -/

theorem pairStream_trace (hr : pairStream session i = .ok session') :
    SessionTrace call session [] session' := by
  unfold pairStream at hr
  cases hi : session.streams i with
  | none =>
    rw [hi] at hr
    cases hr
    exact .refl session
  | some cl =>
    rw [hi] at hr
    obtain ⟨cl', hpair, hr⟩ := bind_eq_ok.mp hr
    cases hr
    by_cases running : cl.state = .running
    · exact .single (.pairing hi running hpair)
    · rw [iceCheckListPairCandidates, if_neg running] at hpair
      cases hpair
      rw [setStream_eq_self hi]
      exact .refl session

theorem pairStreams_trace (l : List StreamIndex)
    (hr : l.foldlM pairStream session = .ok session') : SessionTrace call session [] session' := by
  induction l generalizing session with
  | nil =>
    obtain rfl := Except.ok.inj hr
    exact .refl session
  | cons i l ih =>
    rw [foldlM_cons] at hr
    obtain ⟨session₁, hstep, hr⟩ := bind_eq_ok.mp hr
    exact (pairStream_trace hstep).trans_silent (ih hr)

theorem iceSessionStartConnectivityChecks_trace
    (hr : iceSessionStartConnectivityChecks session = .ok session') :
    SessionTrace call session [] session' := by
  unfold iceSessionStartConnectivityChecks at hr
  obtain ⟨session₁, hpair, hr⟩ := bind_eq_ok.mp hr
  cases hr
  suffices first : SessionTrace call session [] session₁ from first.trans_silent (.single .started)
  unfold iceSessionPairCandidates at hpair
  split at hpair
  · cases hpair
    exact .refl session
  · next first _ =>
    obtain ⟨session₂, hfold, hpair⟩ := bind_eq_ok.mp hpair
    have paired : SessionTrace call session [] session₂ := pairStreams_trace _ hfold
    cases hpair
    cases hi : session₂.streams first with
    | none => exact paired
    | some cl =>
      exact paired.trans_silent ((iceComputePairsStates_quiet cl).trace.toSession hi)

/-! ## Inputs -/

/-- The calls that drive a session. -/
inductive IceInput where
  | start
  | packet (i : StreamIndex) (evt : IceEvent)
  | tick (i : StreamIndex) (now : MSTimeSpec) (trId : UInt96)

/-- What the session is after a call, and what the call sent for which check list. -/
def iceInput (env : IceEnvironment) (session : IceSession) :
    IceInput → Except Fault (IceSession × List (StreamIndex × IceSent))
  | .start => do return (← iceSessionStartConnectivityChecks session, [])
  | .packet i evt => do
    let (session, sent) ← iceHandleStunPacket env session i evt
    return (session, sent.map fun m => (i, m))
  | .tick i now trId =>
    let (session, sent) := iceCheckListProcess session i now trId
    .ok (session, sent.map fun m => (i, m))

/-- The identifiers a call may draw. -/
def IceInput.drawn : IceInput → List UInt96
  | .start => []
  | .packet _ evt => [evt.trId]
  | .tick _ _ trId => [trId]

/-- A call with an input is allowed what the input does. -/
def InputAllows (env : IceEnvironment) (call : IceCall) (session : IceSession) : IceInput → Prop
  | .start => True
  | .packet i evt => call.trId = evt.trId ∧
    ∀ msg, msStunMessageCreateFromBufferParsing evt.packet = .ok (some msg) →
      CallAllows env call session i evt.packet msg
  | .tick i now trId => call.trId = trId ∧ call.timer ∧
    (call.fresh → FreshID session trId) ∧ RetransmissionsMeet session i now trId call.retransmits

variable {env : IceEnvironment}

/-- Every call is a trace of small steps. -/
theorem iceInput_trace {input : IceInput} (h : Inside session)
    (allows : InputAllows env call session input)
    (hr : iceInput env session input = .ok (session', sent)) :
    SessionTrace call session sent session' := by
  cases input with
  | start =>
    obtain ⟨session₁, hstart, hr⟩ := bind_eq_ok.mp hr
    cases hr
    exact iceSessionStartConnectivityChecks_trace hstart
  | packet i evt =>
    obtain ⟨handled, hpacket, hr⟩ := bind_eq_ok.mp hr
    cases hr
    exact iceHandleStunPacket_trace h allows.2 allows.1 hpacket
  | tick i now trId =>
    obtain ⟨rfl, timer, fresh, allowed⟩ := allows
    cases hr
    exact iceCheckListProcess_trace h timer fresh allowed

/-- The identifier a call draws. -/
def IceInput.trId : IceInput → UInt96
  | .start => []
  | .packet _ evt => evt.trId
  | .tick _ _ trId => trId

/-- Whether the timer calls. -/
def IceInput.IsTick : IceInput → Prop
  | .tick _ _ _ => True
  | _ => False

/-- A call nothing more is known about. -/
def anyCall (input : IceInput) : IceCall :=
  ⟨input.trId, False, input.IsTick, fun _ _ => True, fun _ => True, fun _ _ => True⟩

/-- It is allowed every input. -/
theorem anyCall_allows (env : IceEnvironment) (session : IceSession) (input : IceInput) :
    InputAllows env (anyCall input) session input := by
  cases input with
  | start => trivial
  | packet i evt => exact ⟨rfl, fun _ _ => ⟨id, fun _ _ _ _ _ => trivial, fun _ _ _ _ => trivial⟩⟩
  | tick i now trId => exact ⟨rfl, trivial, False.elim, .always session i now trId⟩

/-! ## Runs -/

/-- A check list as `ice_check_list_init` and the gathering of candidates leave it. -/
structure FreshList (cl : IceCheckList) : Prop where
  nextPair : cl.nextPair = 0
  pairs : cl.pairs = []
  losingPairs : cl.losingPairs = []
  triggeredChecksQueue : cl.triggeredChecksQueue = []
  checkList : cl.checkList = []
  validList : cl.validList = []
  transactionList : cl.transactionList = []
  state : cl.state = .running
  bases : ∀ c ∈ cl.localCandidates, ∀ b, c.base = some b → b < cl.localCandidates.length
  components : ∀ c ∈ cl.localCandidates, c.componentID ∈ cl.localComponentIDs

/-- A session before its first call. -/
structure FreshSession (session : IceSession) : Prop where
  state : session.state = .stopped
  lists : ∀ i cl, session.streams i = some cl → FreshList cl

/-- A session with the messages it has sent and the identifiers it has drawn. -/
structure IceRun where
  session : IceSession
  sent : List (StreamIndex × IceSent) := []
  drawn : List UInt96 := []

/-- One call of a run; `cond` is a condition on the calls. -/
inductive IceStep (env : IceEnvironment) (cond : IceRun → IceInput → Prop) :
    IceRun → IceRun → Prop where
  | call {run : IceRun} {session' : IceSession} {sent : List (StreamIndex × IceSent)}
      (input : IceInput) (allowed : cond run input)
      (returned : iceInput env run.session input = .ok (session', sent)) :
      IceStep env cond run ⟨session', run.sent ++ sent, run.drawn ++ input.drawn⟩

/-- The runs of a session whose calls meet a condition. -/
def IceReaches (env : IceEnvironment) (cond : IceRun → IceInput → Prop) : IceRun → IceRun → Prop :=
  Relation.ReflTransGen (IceStep env cond)

/-- The run with these inputs, while a test on the calls succeeds and nothing faults. -/
def runInputs (env : IceEnvironment) (test : IceRun → IceInput → Bool) :
    IceRun → List IceInput → Option IceRun
  | run, [] => some run
  | run, input :: inputs =>
    if test run input then
      match iceInput env run.session input with
      | .ok (session, sent) =>
        runInputs env test ⟨session, run.sent ++ sent, run.drawn ++ input.drawn⟩ inputs
      | .error _ => none
    else none

/-- It is one of the runs whose calls meet what the test decides. -/
theorem runInputs_reaches {test : IceRun → IceInput → Bool} {cond : IceRun → IceInput → Prop}
    (htest : ∀ run input, test run input = true → cond run input) {run run' : IceRun}
    {inputs : List IceInput} (h : runInputs env test run inputs = some run') :
    IceReaches env cond run run' := by
  induction inputs generalizing run with
  | nil =>
    cases h
    exact .refl
  | cons input inputs ih =>
    unfold runInputs at h
    split at h
    · next htrue =>
      split at h
      · next session' sent hinput =>
        exact Relation.ReflTransGen.head (.call input (htest run input htrue) hinput) (ih h)
      · cases h
    · cases h

/-- One more call after a run. -/
def callAfter (env : IceEnvironment) (test : IceRun → IceInput → Bool) (run : IceRun)
    (inputs : List IceInput) (input : IceInput) :
    Option (IceRun × IceSession × List (StreamIndex × IceSent)) :=
  (runInputs env test run inputs).bind fun before =>
    if test before input then
      match iceInput env before.session input with
      | .ok (session, sent) => some (before, session, sent)
      | .error _ => none
    else none

/-- The run reaches the state before the call. -/
theorem callAfter_reaches {test : IceRun → IceInput → Bool} (cond : IceRun → IceInput → Prop)
    (htest : ∀ run input, test run input = true → cond run input) {run before : IceRun}
    {inputs : List IceInput} {input : IceInput}
    (h : callAfter env test run inputs input = some (before, session', sent)) :
    IceReaches env cond run before ∧ cond before input ∧
      iceInput env before.session input = .ok (session', sent) := by
  obtain ⟨run', hrun, hcall⟩ := Option.bind_eq_some_iff.mp h
  split at hcall
  · next htrue =>
    split at hcall
    · next s out hinput =>
      obtain ⟨rfl, rfl, rfl⟩ : run' = before ∧ s = session' ∧ out = sent := by simpa using hcall
      exact ⟨runInputs_reaches htest hrun, htest _ _ htrue, hinput⟩
    · cases hcall
  · cases hcall

theorem FreshList.wellFormed (h : FreshList cl) : WellFormed cl where
  pairs := by simp [h.pairs]
  checkList := by simp [h.checkList]
  queue := by simp [h.triggeredChecksQueue]
  validList := by simp [h.validList]
  transactions := by simp [h.transactionList]
  candidates := by simp [h.nextPair]
  bases := h.bases
  components := h.components
  losingPairs := h.losingPairs

/-- So is every check list of a fresh session. -/
theorem FreshSession.inside (h : FreshSession session) : Inside session :=
  fun i cl hi => (h.lists i cl hi).wellFormed

/-- An invariant of a session that every small step of the allowed calls keeps holds in every run,
and the pointers stay inside. -/
theorem IceReaches.invariant {cond : IceRun → IceInput → Prop} {run run' : IceRun}
    (h : IceReaches env cond run run') (inv : IceRun → Prop)
    (hstep : ∀ {run : IceRun} {session' : IceSession} {sent : List (StreamIndex × IceSent)} (input
      : IceInput), Inside run.session → inv run → cond run input → iceInput env run.session input =
      .ok (session', sent) → Inside session' ∧ inv ⟨session', run.sent ++ sent, run.drawn ++
      input.drawn⟩) (inside : Inside run.session) (hinv : inv run) :
    Inside run'.session ∧ inv run' := by
  induction h with
  | refl => exact ⟨inside, hinv⟩
  | tail _ step ih =>
    cases step with
    | call input allowed returned => exact hstep input ih.1 ih.2 allowed returned

/-! ## A session with one local and two remote candidates -/

/-- The first place of the table. -/
def firstStream : StreamIndex := ⟨0, by decide⟩

/-- Addresses that are told apart by one byte, and an HMAC that is always the same. -/
def sampleEnvironment : IceEnvironment where
  hmacSha1 := constantHmac
  toTransportAddress := fun addr =>
    match addr.ip with
    | .v4 port ip => ⟨[ip.toUInt8], port.toNat, 2⟩
    | .v6 port _ => ⟨[], port.toNat, 10⟩
  toStunAddress := fun taddr => ⟨.v4 1000 (taddr.ip.headD 0).toUInt32, 1⟩
  afInet := 2
  afInet6 := 10

/-- A host candidate of the first component. -/
def hostCandidate (ip : UInt8) (priority : UInt32) (base : Option CandidateRef) : IceCandidate where
  foundation := [0x31]
  taddr := ⟨[ip], 1000, 2⟩
  type := .host
  priority := priority
  componentID := 1
  base := base

/-- A check list that has gathered a local and two remote candidates. -/
def sampleList : IceCheckList where
  heap := fun _ =>
    { role := .controlling, localCandidate := 0, remoteCandidate := 0, state := .frozen
      priority := 0 }
  localCandidates := [hostCandidate 1 126 (some 0)]
  remoteCandidates := [hostCandidate 2 126 none, hostCandidate 3 125 none]
  localComponentIDs := [1]
  remoteComponentIDs := [1]

/-- A controlling session with that check list. -/
def sampleSession : IceSession where
  streams := fun i => if i = firstStream then some sampleList else none
  localUfrag := [0x61]
  localPwd := [0x70]
  tieBreaker := 9

/-- A binding request of a controlled agent whose tie-breaker is 5. -/
def controlledRequest : List UInt8 :=
  [0x00, 0x01, 0x00, 0x3C, 0x21, 0x12, 0xA4, 0x42] ++ List.replicate 12 7 ++
    [0x00, 0x06, 0x00, 0x03, 0x61, 0x3A, 0x62, 0x00] ++
    [0x00, 0x24, 0x00, 0x04, 0x00, 0x00, 0x00, 0x01] ++
    [0x80, 0x29, 0x00, 0x08, 0x00, 0x00, 0x00, 0x00, 0x00, 0x00, 0x00, 0x05] ++
    [0x00, 0x08, 0x00, 0x14] ++ List.replicate 20 9 ++
    [0x80, 0x28, 0x00, 0x04, 0x00, 0x00, 0x00, 0x00]

/-- A binding request of a controlling agent whose tie-breaker is 12. -/
def controllingRequest : List UInt8 :=
  [0x00, 0x01, 0x00, 0x3C, 0x21, 0x12, 0xA4, 0x42] ++ List.replicate 12 7 ++
    [0x00, 0x06, 0x00, 0x03, 0x61, 0x3A, 0x62, 0x00] ++
    [0x00, 0x24, 0x00, 0x04, 0x00, 0x00, 0x00, 0x01] ++
    [0x80, 0x2A, 0x00, 0x08, 0x00, 0x00, 0x00, 0x00, 0x00, 0x00, 0x00, 0x0C] ++
    [0x00, 0x08, 0x00, 0x14] ++ List.replicate 20 9 ++
    [0x80, 0x28, 0x00, 0x04, 0x00, 0x00, 0x00, 0x00]

/-- A packet that arrives from the remote candidate with an address. -/
def arrival (packet : List UInt8) (ip : UInt32) (now : MSTimeSpec) (trId : UInt96) : IceEvent where
  packet := packet
  socketType := .rtpSocket
  sourceAddr := ⟨.v4 1000 ip, 1⟩
  recvAddr := ⟨.v4 1000 1, 1⟩
  now := now
  trId := trId
  foundation := [0x39]

/-- The sample is fresh. -/
theorem sampleSession_fresh : FreshSession sampleSession where
  state := rfl
  lists i cl hi := by
    simp only [sampleSession] at hi
    split at hi
    · cases hi
      exact ⟨rfl, rfl, rfl, rfl, rfl, rfl, rfl, rfl, by simp [sampleList, hostCandidate],
        by simp [sampleList, hostCandidate]⟩
    · cases hi

end GrooveIp.Ice
