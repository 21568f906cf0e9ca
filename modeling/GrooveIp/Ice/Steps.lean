import GrooveIp.Ice.Formation
import GrooveIp.Lib.Traces

/-!
# The small steps of a session

Whatever a call does to a session, it does in steps of a few kinds: quiet changes of a check list,
a request sent again, a new transaction, a cancellation, a new pair, candidate or valid pair, a
check that succeeds, a check list that ends, a change of the role, the pairing at the start. A step
says what holds when it is made, so that an invariant only has to look at the kinds of steps.
-/

namespace GrooveIp.Ice

open Lib Stun List IceCheckList

/-- What is known about a call: the identifier it draws and whether it is new, whether it is the
timer's, the pairs it may retransmit for, the pair that its message answers, and the roles it may
take. -/
structure IceCall where
  trId : UInt96
  fresh : Prop
  timer : Prop
  retransmits : IceCheckList → PairRef → Prop
  answered : PairRef → Prop
  takesRole : IceSession → IceRole → Prop

/-- The messages are requests of the session for a pair, with an identifier. -/
def RequestsFor (session : IceSession) (pair : PairRef) (trId : UInt96) (sent : List IceSent) :
    Prop :=
  ∀ m ∈ sent, ∃ cl, m = .bindingRequest pair (iceBindingRequest session cl pair trId)

/-- The steps that start and answer no check. -/
inductive IceUpkeep (session : IceSession) (call : IceCall) :
    IceCheckList → List IceSent → IceCheckList → Prop where
  | quiet {cl cl' : IceCheckList} {sent : List IceSent} (h : Quiet cl cl')
      (indications : ∀ m ∈ sent, ∃ p, m = .indication p) : IceUpkeep session call cl sent cl'
  | retransmit {cl cl' : IceCheckList} {sent : List IceSent} {pair : PairRef}
      {transaction : IceTransaction} (h : Quiet cl cl')
      (inProgress : (cl.heap pair).state = .inProgress)
      (found : iceFindTransaction cl pair = some transaction) (allowed : call.retransmits cl pair)
      (requests : RequestsFor session pair transaction.transactionID sent) :
      IceUpkeep session call cl sent cl'

/-- The steps of a check list. -/
inductive IceChange (session : IceSession) (call : IceCall) :
    IceCheckList → List IceSent → IceCheckList → Prop where
  | upkeep {cl cl' : IceCheckList} {sent : List IceSent} (h : IceUpkeep session call cl sent cl') :
      IceChange session call cl sent cl'
  | transmit {cl : IceCheckList} {sent : List IceSent} {pair : PairRef}
      {f : IceCandidatePair → IceCandidatePair} (timer : call.timer) (known : pair < cl.nextPair)
      (fresh : call.fresh → ∀ t ∈ cl.transactionList, t.transactionID ≠ call.trId)
      (update : QuietPair (cl.heap pair) { f (cl.heap pair) with state := .frozen })
      (started : (f (cl.heap pair)).state = .inProgress)
      (wire : session.forcedRelay = false → sent ≠ [])
      (requests : RequestsFor session pair call.trId sent) : IceChange session call cl sent
        ((iceCreateTransaction cl pair call.trId).updatePair pair f)
  | cancel {cl : IceCheckList} {pair : PairRef} (timer : ¬ call.timer)
      (inProgress : (cl.heap pair).state = .inProgress) : IceChange session call cl []
        (({ cl with transactionList := iceCancelTransaction pair cl.transactionList }).setPairState
          pair .waiting)
  | newPair {cl : IceCheckList} {l r : CandidateRef} (hl : l < cl.localCandidates.length)
      (hr : r < cl.remoteCandidates.length) :
      IceChange session call cl [] (cl.appendPair (icePairNew session cl l r))
  | enlist {cl : IceCheckList} {pair : PairRef} (known : pair ∈ cl.pairs) :
      IceChange session call cl []
        { cl with checkList := insertByPriority cl.heap pair cl.checkList }
  | remoteCandidate {cl : IceCheckList} (candidate : IceCandidate) (componentIDs : List UInt16) :
      IceChange session call cl [] { cl with
          remoteComponentIDs := componentIDs
          remoteCandidates := cl.remoteCandidates ++ [candidate] }
  | localCandidate {cl : IceCheckList} {candidate : IceCandidate} (generator : UInt32)
      (base : ∀ b, candidate.base = some b → b < cl.localCandidates.length)
      (component : candidate.componentID ∈ cl.localComponentIDs) : IceChange session call cl []
        { cl with
          localCandidates := cl.localCandidates ++ [candidate], foundationGenerator := generator }
  | validPair {cl : IceCheckList} {v : IceValidCandidatePair} (valid : v.valid < cl.nextPair)
      (generatedFrom : v.generatedFrom < cl.nextPair) (unselected : v.selected = false)
      (answered : call.answered v.generatedFrom) : IceChange session call cl [] { cl with
          validList := cl.validList.orderedInsert (fun new other =>
            (cl.heap other.valid).priority ≤ (cl.heap new.valid).priority) v }
  | succeed {cl : IceCheckList} {pair : PairRef} (answered : call.answered pair) :
      IceChange session call cl [] (cl.setPairState pair .succeeded)

/-- What ends a running check list: success when every component has a nominated valid pair, and
failure. -/
inductive IceFinish : IceCheckList → IceCheckList → Prop where
  | complete {cl : IceCheckList}
      (nominated : ∀ c ∈ cl.localComponentIDs, ∃ v ∈ cl.validList,
        (cl.heap v.valid).isNominated = true ∧ (cl.localOf v.valid).componentID = c) :
      IceFinish cl (iceCheckListSelectCandidates { cl with
          state := .completed, nominationInProgress := false, nominationDelayRunning := false })
  | fail {cl : IceCheckList} :
      IceFinish cl { cl with state := .failed, connectivityChecksRunning := false }

/-- Sessions that differ in clocks and flags only. -/
structure SameSession (session session' : IceSession) : Prop where
  localUfrag : session'.localUfrag = session.localUfrag
  localPwd : session'.localPwd = session.localPwd
  role : session'.role = session.role
  state : session'.state = session.state
  tieBreaker : session'.tieBreaker = session.tieBreaker
  forcedRelay : session'.forcedRelay = session.forcedRelay
  streams : ∀ i, Option.Rel Quiet (session.streams i) (session'.streams i)

/-- The messages are replies: a response, or an error with the identifier of the call. -/
def Replies (call : IceCall) (sent : List IceSent) : Prop :=
  ∀ m ∈ sent, (∃ msg, m = .bindingResponse msg) ∨
    ∃ msg, m = .errorResponse msg ∧ msg.trId = call.trId

/-- The steps of a session; the messages come with the check list they are sent for. -/
inductive SessionStep (call : IceCall) :
    IceSession → List (StreamIndex × IceSent) → IceSession → Prop where
  | list {session : IceSession} {i : StreamIndex} {cl cl' : IceCheckList} {sent : List IceSent}
      (hi : session.streams i = some cl) (h : IceChange session call cl sent cl') :
      SessionStep call session (sent.map fun m => (i, m)) (session.setStream i cl')
  | finish {session : IceSession} {i : StreamIndex} {cl cl' cl'' : IceCheckList} (now : MSTimeSpec)
      (hi : session.streams i = some cl) (running : cl.state = .running) (h : IceFinish cl cl')
      (q : Quiet cl' cl'') : SessionStep call session []
        (iceNotifySessionProcessingFinished (session.setStream i cl'') now)
  | takeRole {session : IceSession} {role : IceRole} (allowed : call.takesRole session role) :
      SessionStep call session [] (iceSessionSetRole session role)
  | same {session session' : IceSession} (h : SameSession session session') :
      SessionStep call session [] session'
  | reply {session : IceSession} {i : StreamIndex} {sent : List IceSent} (timer : ¬ call.timer)
      (h : Replies call sent) : SessionStep call session (sent.map fun m => (i, m)) session
  | pairing {session : IceSession} {i : StreamIndex} {cl cl' : IceCheckList}
      (hi : session.streams i = some cl) (running : cl.state = .running)
      (h : iceCheckListPairCandidates session cl = .ok cl') :
      SessionStep call session [] (session.setStream i cl')
  | started {session : IceSession} :
      SessionStep call session [] { session with state := .running }

/-! ## A new role -/

/-- The pair with the priority of its candidates under a role. -/
def IceCheckList.reprioritized (cl : IceCheckList) (role : IceRole) (pair : PairRef) :
    IceCandidatePair :=
  { cl.heap pair with priority := cl.currentPriority role pair }

/-- `ice_check_list_compute_pair_priorities` writes the priority of every pair, and nothing
else. -/
theorem iceCheckListComputePairPriorities_eq (role : IceRole) (cl : IceCheckList) :
    iceCheckListComputePairPriorities role cl =
      { cl with heap := fun p => if p ∈ cl.pairs then cl.reprioritized role p else cl.heap p } := by
  have fold : ∀ (l : List PairRef) (cl : IceCheckList), l.foldl (fun cl pair =>
        cl.updatePair pair fun p => { p with priority := cl.currentPriority role pair }) cl =
      { cl with heap := fun p => if p ∈ l then cl.reprioritized role p else cl.heap p } := by
    intro l
    induction l with
    | nil => intro cl; simp
    | cons pair l ih =>
      intro cl
      rw [foldl_cons, ih]
      -- the candidates of a pair stay, so that its new priority does not depend on the order
      have kept : ∀ p, (cl.updatePair pair fun p =>
          { p with priority := cl.currentPriority role pair }).reprioritized role p =
          cl.reprioritized role p := by
        intro p
        by_cases hp : p = pair
        · subst hp
          simp [reprioritized, updatePair, currentPriority,
            localOf, remoteOf, localAt,
            remoteAt]
        · simp [reprioritized, updatePair, currentPriority,
            localOf, remoteOf, localAt,
            remoteAt, hp]
      simp only [kept]
      congr 1
      funext p
      by_cases hp : p = pair
      · subst hp
        simp [reprioritized, updatePair]
      · simp [updatePair, hp]
  exact fold cl.pairs cl

/-! ## Pointers stay inside -/

/-- The check lists of a session are well formed. -/
def Inside (session : IceSession) : Prop :=
  ∀ i cl, session.streams i = some cl → WellFormed cl

@[simp] theorem setStream_self (session : IceSession) (i : StreamIndex) (cl : IceCheckList) :
    (session.setStream i cl).streams i = some cl := by
  simp [IceSession.setStream]

variable {i : StreamIndex}

@[simp] theorem setStream_ne (session : IceSession) {j : StreamIndex} (cl : IceCheckList)
    (h : j ≠ i) : (session.setStream i cl).streams j = session.streams j := by
  simp [IceSession.setStream, h]

@[simp] theorem setStream_setStream (session : IceSession) (i : StreamIndex)
    (cl cl' : IceCheckList) :
    (session.setStream i cl).setStream i cl' = session.setStream i cl' := by
  simp only [IceSession.setStream]
  congr 1
  funext j
  split <;> rfl

variable {session : IceSession} {cl : IceCheckList}

/-- Writing back what is there. -/
theorem setStream_eq_self (h : session.streams i = some cl) : session.setStream i cl = session := by
  simp only [IceSession.setStream]
  congr 1
  funext j
  by_cases hj : j = i
  · rw [if_pos hj, hj, h]
  · rw [if_neg hj]

/-- A property of all check lists, after one was written. -/
theorem forall_setStream {P : StreamIndex → IceCheckList → Prop}
    (h : ∀ j cl, session.streams j = some cl → P j cl) (hi : P i cl) :
    ∀ j cl', (session.setStream i cl).streams j = some cl' → P j cl' := by
  intro j cl' hj
  by_cases heq : j = i
  · subst heq
    rw [setStream_self] at hj
    cases hj
    exact hi
  · rw [setStream_ne session cl heq] at hj
    exact h j cl' hj

/-- The pairs of a list of transactions stay when one is canceled. -/
theorem mem_iceCancelTransaction {pair : PairRef} {l : List IceTransaction} {t : IceTransaction}
    (h : t ∈ iceCancelTransaction pair l) :
    ∃ t' ∈ l, t'.pair = t.pair ∧ t'.transactionID = t.transactionID := by
  induction l with
  | nil => simp [iceCancelTransaction] at h
  | cons t' l ih =>
    unfold iceCancelTransaction at h
    split at h
    · rcases mem_cons.mp h with rfl | h
      · exact ⟨t', mem_cons_self, rfl, rfl⟩
      · exact ⟨t, mem_cons_of_mem _ h, rfl, rfl⟩
    · rcases mem_cons.mp h with rfl | h
      · exact ⟨t, mem_cons_self, rfl, rfl⟩
      · obtain ⟨t'', ht'', h'⟩ := ih h
        exact ⟨t'', mem_cons_of_mem _ ht'', h'⟩

theorem WellFormed.heap (h : WellFormed cl) {heap : PairRef → IceCandidatePair}
    (hl : ∀ p, (heap p).localCandidate = (cl.heap p).localCandidate)
    (hr : ∀ p, (heap p).remoteCandidate = (cl.heap p).remoteCandidate) :
    WellFormed { cl with heap := heap } := by
  refine { h with candidates := fun p hp => ?_ }
  simp only [hl, hr]
  exact h.candidates p hp

variable {cl' : IceCheckList} {sent : List IceSent}

variable {call : IceCall}

/-- The steps that start no check keep the pointers inside. -/
theorem WellFormed.upkeep (h : WellFormed cl)
    (step : IceUpkeep session call cl sent cl') : WellFormed cl' := by
  cases step with
  | quiet q => exact h.quiet q
  | retransmit q => exact h.quiet q

theorem WellFormed.updatePair (h : WellFormed cl) (pair : PairRef)
    {f : IceCandidatePair → IceCandidatePair}
    (hl : (f (cl.heap pair)).localCandidate = (cl.heap pair).localCandidate)
    (hr : (f (cl.heap pair)).remoteCandidate = (cl.heap pair).remoteCandidate) :
    WellFormed (cl.updatePair pair f) := by
  apply h.heap
  · intro p
    by_cases hp : p = pair
    · simpa [hp] using hl
    · simp [hp]
  · intro p
    by_cases hp : p = pair
    · simpa [hp] using hr
    · simp [hp]

/-- The steps of a check list keep the pointers inside. -/
theorem WellFormed.change (h : WellFormed cl)
    (step : IceChange session call cl sent cl') : WellFormed cl' := by
  cases step with
  | upkeep step => exact h.upkeep step
  | @transmit _ pair f timer known fresh update started wire requests =>
    have create : WellFormed (iceCreateTransaction cl pair call.trId) := by
      refine { h with transactions := fun t ht => ?_ }
      rcases mem_cons.mp ht with rfl | ht
      · exact known
      · exact h.transactions t ht
    exact create.updatePair pair update.localCandidate update.remoteCandidate
  | @cancel pair timer inProgress =>
    have cancel : WellFormed
        { cl with transactionList := iceCancelTransaction pair cl.transactionList } := by
      refine { h with transactions := fun t ht => ?_ }
      obtain ⟨t', ht', hpair, _⟩ := mem_iceCancelTransaction ht
      rw [← hpair]
      exact h.transactions t' ht'
    exact cancel.updatePair pair rfl rfl
  | newPair hl hr => exact h.appendPair hl hr
  | enlist known =>
    refine { h with checkList := fun p hp => ?_ }
    rcases mem_insertByPriority.mp hp with rfl | hp
    · exact known
    · exact h.checkList p hp
  | remoteCandidate candidate componentIDs =>
    refine { h with candidates := fun p hp => ?_ }
    have hin := h.candidates p hp
    simp only [length_append, length_singleton]
    exact ⟨hin.1, Nat.lt_succ_of_lt hin.2⟩
  | @localCandidate candidate generator base component =>
    refine { h with candidates := fun p hp => ?_, bases := fun c hc b hb => ?_,
                    components := fun c hc => ?_ }
    · have hin := h.candidates p hp
      simp only [length_append, length_singleton]
      exact ⟨Nat.lt_succ_of_lt hin.1, hin.2⟩
    · simp only [mem_append, mem_singleton, length_append, length_singleton] at hc ⊢
      rcases hc with hc | rfl
      · exact Nat.lt_succ_of_lt (h.bases c hc b hb)
      · exact Nat.lt_succ_of_lt (base b hb)
    · simp only [mem_append, mem_singleton] at hc
      rcases hc with hc | rfl
      · exact h.components c hc
      · exact component
  | validPair valid generatedFrom =>
    refine { h with validList := fun v hv => ?_ }
    rcases (mem_orderedInsert _).mp hv with rfl | hv
    · exact ⟨valid, generatedFrom⟩
    · exact h.validList v hv
  | succeed answered => exact h.updatePair _ rfl rfl

/-- No step of a check list changes its state. -/
theorem IceChange.state (h : IceChange session call cl sent cl') : cl'.state = cl.state := by
  cases h with
  | upkeep h =>
    cases h with
    | quiet q => exact q.state
    | retransmit q => exact q.state
  | _ => rfl

/-- What the selected valid pairs are, without the selection. -/
theorem mem_iceSelectComponent {componentID : UInt16} {l : List IceValidCandidatePair}
    {v : IceValidCandidatePair} (h : v ∈ iceSelectComponent cl componentID l) :
    ∃ w ∈ l, w.valid = v.valid ∧ w.generatedFrom = v.generatedFrom := by
  induction l with
  | nil => simp [iceSelectComponent] at h
  | cons w l ih =>
    unfold iceSelectComponent at h
    split at h
    · rcases mem_cons.mp h with rfl | h
      · exact ⟨w, mem_cons_self, rfl, rfl⟩
      · exact ⟨v, mem_cons_of_mem _ h, rfl, rfl⟩
    · rcases mem_cons.mp h with rfl | h
      · exact ⟨v, mem_cons_self, rfl, rfl⟩
      · obtain ⟨w', hw', h'⟩ := ih h
        exact ⟨w', mem_cons_of_mem _ hw', h'⟩

theorem WellFormed.finish {cl cl' : IceCheckList} (h : WellFormed cl) (step : IceFinish cl cl') :
    WellFormed cl' := by
  cases step with
  | complete nominated =>
    refine { h with validList := fun v hv => ?_ }
    obtain ⟨w, hw, hvalid, hfrom⟩ := mem_iceSelectComponent hv
    obtain ⟨w', hw', hvalid', hfrom'⟩ := mem_iceSelectComponent hw
    obtain ⟨w'', hw'', rfl⟩ := mem_map.mp hw'
    rw [← hvalid, ← hfrom, ← hvalid', ← hfrom']
    exact h.validList w'' hw''
  | fail => exact { h with }

/-- The end of the processing changes no check list. -/
@[simp] theorem iceNotifySessionProcessingFinished_streams (session : IceSession)
    (now : MSTimeSpec) :
    (iceNotifySessionProcessingFinished session now).streams = session.streams := by
  unfold iceNotifySessionProcessingFinished
  split <;> rfl

/-- The role a session takes. -/
theorem iceSessionSetRole_streams {role : IceRole}
    (h : (iceSessionSetRole session role).streams i = some cl) :
    session.streams i = some cl ∨ ∃ cl', session.streams i = some cl' ∧ cl = { cl' with
        heap := fun p => if p ∈ cl'.pairs then cl'.reprioritized role p else cl'.heap p } := by
  unfold iceSessionSetRole at h
  split at h
  · obtain ⟨cl', hcl', rfl⟩ := Option.map_eq_some_iff.mp h
    exact .inr ⟨cl', hcl', iceCheckListComputePairPriorities_eq role cl'⟩
  · exact .inl h

/-- The steps of a session keep the pointers inside. -/
theorem Inside.step {session session' : IceSession}
    {sent : List (StreamIndex × IceSent)} (h : Inside session)
    (step : SessionStep call session sent session') : Inside session' := by
  cases step with
  | list hi change => exact forall_setStream h ((h _ _ hi).change change)
  | finish now hi running finish q =>
    intro j cl hj
    rw [iceNotifySessionProcessingFinished_streams] at hj
    exact forall_setStream h (((h _ _ hi).finish finish).quiet q) j cl hj
  | takeRole allowed =>
    intro j cl hj
    rcases iceSessionSetRole_streams hj with hcl | ⟨cl', hcl, rfl⟩
    · exact h j cl hcl
    · apply (h j cl' hcl).heap
      · intro p
        split <;> rfl
      · intro p
        split <;> rfl
  | same same =>
    intro j cl' hj
    have hrel := same.streams j
    rw [hj] at hrel
    cases hcl : session.streams j with
    | none =>
      rw [hcl] at hrel
      cases hrel
    | some cl =>
      rw [hcl] at hrel
      cases hrel with
      | some q => exact (h j cl hcl).quiet q
  | reply => exact h
  | pairing hi running pair =>
    exact forall_setStream h (iceCheckListPairCandidates_spec (h _ _ hi) running pair).2.1
  | started => exact h

end GrooveIp.Ice
