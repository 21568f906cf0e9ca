import GrooveIp.Ice.Handling

/-!
# Changes that leave the checks alone

Most of what the handlers do to a check list changes no candidate, no priority, no transaction and
no outcome of a check: it nominates, removes pairs from the check list, gives up pairs or moves
flags. Such changes compose, and each function that makes only them has one lemma here.
-/

namespace GrooveIp.Ice

open Lib Stun List IceValidCandidatePair

/-- Change of a pair that keeps its candidates and its priority, takes no nomination back, and
neither starts a check nor lets one succeed. -/
structure QuietPair (p p' : IceCandidatePair) : Prop where
  localCandidate : p'.localCandidate = p.localCandidate
  remoteCandidate : p'.remoteCandidate = p.remoteCandidate
  priority : p'.priority = p.priority
  nominated : p.isNominated = true → p'.isNominated = true
  inProgress : p'.state = .inProgress → p.state = .inProgress
  succeeded : p'.state = .succeeded → p.state = .succeeded

/-- What a valid pair is, without its clock. -/
def IceValidCandidatePair.key (v : IceValidCandidatePair) : PairRef × PairRef × Bool :=
  (v.valid, v.generatedFrom, v.selected)

/-- Change of a check list that creates nothing and leaves every check as it is. -/
structure Quiet (cl cl' : IceCheckList) : Prop where
  heap : ∀ p, QuietPair (cl.heap p) (cl'.heap p)
  nextPair : cl'.nextPair = cl.nextPair
  localCandidates : cl'.localCandidates = cl.localCandidates
  remoteCandidates : cl'.remoteCandidates = cl.remoteCandidates
  pairs : cl'.pairs = cl.pairs
  losingPairs : cl'.losingPairs = cl.losingPairs
  queue : ∀ p ∈ cl'.triggeredChecksQueue, p ∈ cl.triggeredChecksQueue ∨ p < cl.nextPair
  checkList : cl'.checkList.Sublist cl.checkList
  validList : cl'.validList.map key =
    cl.validList.map key
  localComponentIDs : cl'.localComponentIDs = cl.localComponentIDs
  transactionList : cl'.transactionList = cl.transactionList
  state : cl'.state = cl.state

namespace QuietPair

theorem refl (p : IceCandidatePair) : QuietPair p p :=
  ⟨rfl, rfl, rfl, id, id, id⟩

theorem trans {p q r : IceCandidatePair} (h : QuietPair p q) (h' : QuietPair q r) :
    QuietPair p r where
  localCandidate := h'.localCandidate.trans h.localCandidate
  remoteCandidate := h'.remoteCandidate.trans h.remoteCandidate
  priority := h'.priority.trans h.priority
  nominated := h'.nominated ∘ h.nominated
  inProgress := h.inProgress ∘ h'.inProgress
  succeeded := h.succeeded ∘ h'.succeeded

end QuietPair

namespace Quiet

variable {cl cl' cl'' : IceCheckList}

/-- Only other fields changed. -/
theorem of_eq (heap : cl'.heap = cl.heap := by rfl) (nextPair : cl'.nextPair = cl.nextPair := by rfl)
    (localCandidates : cl'.localCandidates = cl.localCandidates := by rfl)
    (remoteCandidates : cl'.remoteCandidates = cl.remoteCandidates := by rfl)
    (pairs : cl'.pairs = cl.pairs := by rfl)
    (losingPairs : cl'.losingPairs = cl.losingPairs := by rfl)
    (queue : cl'.triggeredChecksQueue = cl.triggeredChecksQueue := by rfl)
    (checkList : cl'.checkList = cl.checkList := by rfl)
    (validList : cl'.validList.map key =
      cl.validList.map key := by rfl)
    (localComponentIDs : cl'.localComponentIDs = cl.localComponentIDs := by rfl)
    (transactionList : cl'.transactionList = cl.transactionList := by rfl)
    (state : cl'.state = cl.state := by rfl) : Quiet cl cl' := by
  refine ⟨fun p => ?_, nextPair, localCandidates, remoteCandidates, pairs, losingPairs, fun p hp => ?_,
    ?_, validList, localComponentIDs, transactionList, state⟩
  · rw [heap]
    exact QuietPair.refl _
  · exact .inl (queue ▸ hp)
  · rw [checkList]

theorem refl (cl : IceCheckList) : Quiet cl cl := of_eq

theorem trans (h : Quiet cl cl') (h' : Quiet cl' cl'') : Quiet cl cl'' where
  heap p := (h.heap p).trans (h'.heap p)
  nextPair := h'.nextPair.trans h.nextPair
  localCandidates := h'.localCandidates.trans h.localCandidates
  remoteCandidates := h'.remoteCandidates.trans h.remoteCandidates
  pairs := h'.pairs.trans h.pairs
  losingPairs := h'.losingPairs.trans h.losingPairs
  queue p hp := (h'.queue p hp).elim (h.queue p) fun hlt => .inr (h.nextPair ▸ hlt)
  checkList := h'.checkList.trans h.checkList
  validList := h'.validList.trans h.validList
  localComponentIDs := h'.localComponentIDs.trans h.localComponentIDs
  transactionList := h'.transactionList.trans h.transactionList
  state := h'.state.trans h.state

/-- A fold of quiet steps is quiet. -/
theorem foldl {α : Type} {f : IceCheckList → α → IceCheckList}
    (hf : ∀ cl a, Quiet cl (f cl a)) (cl : IceCheckList) (l : List α) :
    Quiet cl (l.foldl f cl) := by
  induction l generalizing cl with
  | nil => exact refl cl
  | cons a l ih => exact (hf cl a).trans (ih (f cl a))

/-- Quiet change of one pair. -/
theorem updatePair (cl : IceCheckList) (pair : PairRef) {f : IceCandidatePair → IceCandidatePair}
    (h : QuietPair (cl.heap pair) (f (cl.heap pair))) : Quiet cl (cl.updatePair pair f) where
  heap p := by
    by_cases hp : p = pair
    · subst hp
      simpa [IceCheckList.updatePair] using h
    · simpa [IceCheckList.updatePair, hp] using QuietPair.refl _
  nextPair := rfl
  localCandidates := rfl
  remoteCandidates := rfl
  pairs := rfl
  losingPairs := rfl
  queue _ hp := .inl hp
  checkList := List.Sublist.refl _
  validList := rfl
  localComponentIDs := rfl
  transactionList := rfl
  state := rfl

/-- A pair that is neither started nor succeeded. -/
theorem setPairState (cl : IceCheckList) (pair : PairRef) {state : IceCandidatePairState}
    (h : state ≠ .inProgress) (h' : state ≠ .succeeded) : Quiet cl (cl.setPairState pair state) :=
  updatePair cl pair ⟨rfl, rfl, rfl, id, fun hs => absurd hs h, fun hs => absurd hs h'⟩

theorem queueTriggeredCheck (cl : IceCheckList) {pair : PairRef} (h : pair < cl.nextPair) :
    Quiet cl (iceCheckListQueueTriggeredCheck cl pair) := by
  unfold iceCheckListQueueTriggeredCheck
  split
  · exact refl cl
  · have quiet := refl cl
    refine { quiet with queue := fun p hp => ?_ }
    simp only [mem_append, mem_singleton] at hp
    rcases hp with hp | rfl
    · exact .inl hp
    · exact .inr h

theorem foldl_mem {α : Type} {f : IceCheckList → α → IceCheckList} {n : Nat} (l : List α)
    (hf : ∀ cl, ∀ a ∈ l, cl.nextPair = n → Quiet cl (f cl a)) (cl : IceCheckList)
    (hn : cl.nextPair = n) : Quiet cl (l.foldl f cl) := by
  induction l generalizing cl with
  | nil => exact refl cl
  | cons a l ih =>
    have step := hf cl a mem_cons_self hn
    apply step.trans
    apply ih
    · exact fun cl b hb => hf cl b (mem_cons_of_mem _ hb)
    · exact step.nextPair.trans hn

end Quiet

/-! ## Pointers stay inside -/

/-- Every pointer of a check list names something, the pairs of the check list are among all
pairs, and the component of every local candidate is listed. -/
structure WellFormed (cl : IceCheckList) : Prop where
  pairs : ∀ p ∈ cl.pairs, p < cl.nextPair
  checkList : ∀ p ∈ cl.checkList, p ∈ cl.pairs
  queue : ∀ p ∈ cl.triggeredChecksQueue, p < cl.nextPair
  validList : ∀ v ∈ cl.validList, v.valid < cl.nextPair ∧ v.generatedFrom < cl.nextPair
  transactions : ∀ t ∈ cl.transactionList, t.pair < cl.nextPair
  candidates : ∀ p < cl.nextPair, (cl.heap p).localCandidate < cl.localCandidates.length ∧
    (cl.heap p).remoteCandidate < cl.remoteCandidates.length
  bases : ∀ c ∈ cl.localCandidates, ∀ b, c.base = some b → b < cl.localCandidates.length
  components : ∀ c ∈ cl.localCandidates, c.componentID ∈ cl.localComponentIDs
  losingPairs : cl.losingPairs = []

variable {v : IceValidCandidatePair}

/-- A valid pair of a list has a twin in a list with the same keys. -/
theorem exists_mem_of_key {l l' : List IceValidCandidatePair}
    (h : l'.map key = l.map key) (hv : v ∈ l') :
    ∃ w ∈ l, w.key = v.key := by
  have hmem : v.key ∈ l.map key := h ▸ mem_map_of_mem hv
  simpa using hmem

variable {cl : IceCheckList}

/-- A quiet change keeps the pointers inside. -/
theorem WellFormed.quiet {cl' : IceCheckList} (h : WellFormed cl) (q : Quiet cl cl') :
    WellFormed cl' where
  pairs p hp := q.nextPair ▸ h.pairs p (q.pairs ▸ hp)
  checkList p hp := q.pairs ▸ h.checkList p (q.checkList.subset hp)
  queue p hp := by
    rw [q.nextPair]
    exact (q.queue p hp).elim (h.queue p) id
  validList v hv := by
    obtain ⟨w, hw, hkey⟩ := exists_mem_of_key q.validList hv
    simp only [key, Prod.mk.injEq] at hkey
    rw [q.nextPair, ← hkey.1, ← hkey.2.1]
    exact h.validList w hw
  transactions t ht := q.nextPair ▸ h.transactions t (q.transactionList ▸ ht)
  candidates p hp := by
    rw [(q.heap p).localCandidate, (q.heap p).remoteCandidate, q.localCandidates,
      q.remoteCandidates]
    exact h.candidates p (q.nextPair ▸ hp)
  bases := q.localCandidates ▸ h.bases
  components := by
    rw [q.localCandidates, q.localComponentIDs]
    exact h.components
  losingPairs := q.losingPairs.trans h.losingPairs

/-! ## The quiet functions -/

/-- In the queue once it waits. -/
theorem triggerPair_queue (cl : IceCheckList) {pair : PairRef} (h : pair < cl.nextPair) :
    Quiet (cl.setPairState pair .waiting) (triggerPair cl pair) :=
  .queueTriggeredCheck _ h

/-- Waiting and in the queue. -/
theorem triggerPair_quiet (cl : IceCheckList) {pair : PairRef} (h : pair < cl.nextPair) :
    Quiet cl (triggerPair cl pair) :=
  (Quiet.setPairState cl pair (by decide) (by decide)).trans (triggerPair_queue cl h)

theorem mem_iceGetValidPairsForComponentID {componentID : UInt16}
    (h : v ∈ iceGetValidPairsForComponentID cl componentID) : v ∈ cl.validList := by
  have fold : ∀ (l acc : List IceValidCandidatePair),
      v ∈ l.foldl (fun list validPair => list.orderedInsert (fun new other =>
        (cl.heap other.generatedFrom).priority ≤ (cl.heap new.generatedFrom).priority)
        validPair) acc → v ∈ acc ∨ v ∈ l := by
    intro l
    induction l with
    | nil => exact fun acc h => .inl h
    | cons w l ih =>
      intro acc h
      rcases ih _ h with h | h
      · rcases (mem_orderedInsert _).mp h with rfl | h
        · exact .inr mem_cons_self
        · exact .inl h
      · exact .inr (mem_cons_of_mem _ h)
  have hmem := (fold _ _ h).resolve_left not_mem_nil
  exact mem_of_mem_filter hmem

theorem mem_bestValidList {componentIDs : List UInt16} {scan : NominationScan}
    (hscan : ∀ v ∈ scan.bestValidList, v ∈ cl.validList) :
    ∀ v ∈ (iceScanNominations cl scan componentIDs).bestValidList, v ∈ cl.validList := by
  induction componentIDs generalizing scan with
  | nil => exact hscan
  | cons componentID componentIDs ih =>
    unfold iceScanNominations
    split
    · exact hscan
    · next validList hlist =>
      split
      · exact ih hscan
      · next validPair hfind =>
        apply ih
        intro v hv
        simp only [mem_append, mem_singleton] at hv
        rcases hv with hv | rfl
        · exact hscan v hv
        · exact mem_iceGetValidPairsForComponentID (mem_of_find?_eq_some hfind)

theorem iceNominatePair_quiet (cl : IceCheckList) (h : v.generatedFrom < cl.nextPair) :
    Quiet cl (iceNominatePair cl v) := by
  unfold iceNominatePair
  split
  · exact .refl cl
  · have use : Quiet cl (cl.updatePair v.generatedFrom fun p => { p with useCandidate := true }) :=
      .updatePair cl _ ⟨rfl, rfl, rfl, id, id, id⟩
    exact use.trans (.queueTriggeredCheck _ (use.nextPair ▸ h))

/-- `ice_check_list_perform_nominations` is quiet. -/
theorem iceCheckListPerformNominations_quiet (h : WellFormed cl) (nominationDelayExpired : Bool)
    (now : MSTimeSpec) :
    Quiet cl (iceCheckListPerformNominations cl nominationDelayExpired now) := by
  unfold iceCheckListPerformNominations
  dsimp only
  split
  · exact .refl cl
  · split
    · split
      · unfold iceCheckListNominate
        have start : Quiet cl { cl with nominationDelayRunning := false } := .of_eq
        have nominate := Quiet.foldl_mem
          (iceScanNominations cl {} cl.localComponentIDs).bestValidList
          (f := iceNominatePair) (n := cl.nextPair) (fun cl' v hv hn => iceNominatePair_quiet cl'
            (hn ▸ (h.validList v (mem_bestValidList (by simp) v hv)).2))
          { cl with nominationDelayRunning := false } rfl
        exact (start.trans nominate).trans .of_eq
      · split
        · exact .of_eq
        · exact .refl cl
    · exact .refl cl

theorem iceRemoveWaitingAndFrozen_sublist (cl : IceCheckList) (componentID : UInt16)
    (passed list : List PairRef) :
    (iceRemoveWaitingAndFrozen cl componentID passed list).Sublist (passed ++ list) := by
  induction list generalizing passed with
  | nil => simp [iceRemoveWaitingAndFrozen]
  | cons pair rest ih =>
    unfold iceRemoveWaitingAndFrozen
    have skip : (passed ++ rest).Sublist (passed ++ pair :: rest) :=
      (List.Sublist.refl passed).append (sublist_cons_self pair rest)
    split
    · split
      · exact skip
      · exact (ih passed).trans skip
    · simpa using ih (passed ++ [pair])

/-- `ice_conclude_waiting_frozen_and_inprogress_pairs` is quiet. -/
theorem iceConcludeWaitingFrozenAndInProgressPairs_quiet (cl : IceCheckList)
    (v : IceValidCandidatePair) : Quiet cl (iceConcludeWaitingFrozenAndInProgressPairs cl v) := by
  unfold iceConcludeWaitingFrozenAndInProgressPairs
  split
  · have stop : ∀ cl p, Quiet cl (iceStopWorsePair v.valid cl p) := by
      intro cl p
      unfold iceStopWorsePair
      split
      · exact .updatePair cl p ⟨rfl, rfl, rfl, id, id, id⟩
      · exact .refl cl
    refine Quiet.trans ?_ (Quiet.foldl stop _ _)
    have quiet := Quiet.refl cl
    refine { quiet with queue := fun p hp => ?_, checkList := ?_ }
    · exact .inl ((iceRemoveWaitingAndFrozen_sublist cl _ [] _).subset hp)
    · exact iceRemoveWaitingAndFrozen_sublist cl _ [] _
  · exact .refl cl

/-- `ice_check_list_stop_retransmissions` is quiet. -/
theorem iceCheckListStopRetransmissions_quiet (cl : IceCheckList) :
    Quiet cl (iceCheckListStopRetransmissions cl) := by
  apply Quiet.foldl
  intro cl pair
  unfold icePairStopRetransmissions
  split
  · have fail : Quiet cl (cl.setPairState pair .failed) :=
      .setPairState cl pair (by decide) (by decide)
    refine fail.trans ?_
    have quiet := Quiet.refl (cl.setPairState pair .failed)
    refine { quiet with queue := fun p hp => ?_ }
    exact .inl (mem_of_mem_erase hp)
  · exact .refl cl

/-- `ice_compute_pairs_states` is quiet. -/
theorem iceComputePairsStates_quiet (cl : IceCheckList) : Quiet cl (iceComputePairsStates cl) := by
  apply Quiet.foldl
  intro cl foundation
  unfold iceSetLowestComponentIDPairToWaiting
  split
  · exact .setPairState cl _ (by decide) (by decide)
  · exact .refl cl

/-- The nominated flags a request sets. -/
theorem iceUpdateNominatedFlagOnBindingRequest_quiet (session : IceSession) (cl : IceCheckList)
    (msg : MSStunMessage) (pair : PairRef) :
    Quiet cl (iceUpdateNominatedFlagOnBindingRequest session cl msg pair) := by
  unfold iceUpdateNominatedFlagOnBindingRequest
  split
  · split
    · exact .updatePair cl _ ⟨rfl, rfl, rfl, fun _ => rfl, id, id⟩
    all_goals first
      | exact .updatePair cl _ ⟨rfl, rfl, rfl, id, id, id⟩
      | exact .refl cl
  · exact .refl cl

/-- The nominated flags a response sets. -/
theorem iceUpdateNominatedFlagOnBindingResponse_quiet (session : IceSession) (cl : IceCheckList)
    (validPair succeededPair : PairRef) :
    Quiet cl (iceUpdateNominatedFlagOnBindingResponse session cl validPair succeededPair) := by
  unfold iceUpdateNominatedFlagOnBindingResponse
  split
  · split
    · exact .updatePair cl _ ⟨rfl, rfl, rfl, fun _ => rfl, id, id⟩
    · exact .refl cl
  · split
    · have nominate : Quiet cl (cl.updatePair validPair fun p => { p with isNominated := true }) :=
        .updatePair cl _ ⟨rfl, rfl, rfl, fun _ => rfl, id, id⟩
      exact nominate.trans (.updatePair _ _ ⟨rfl, rfl, rfl, id, id, id⟩)
    · exact .refl cl

/-- `ice_send_keepalive_packets` only moves clocks. -/
theorem iceSendKeepalivePackets_quiet (cl : IceCheckList) (now : MSTimeSpec) :
    Quiet cl (iceSendKeepalivePackets cl now).1 := by
  unfold iceSendKeepalivePackets
  split
  · exact .refl cl
  · have quiet := Quiet.refl cl
    refine { quiet with validList := ?_ }
    rw [map_map]
    apply map_congr_left
    intro v _
    simp only [Function.comp_apply]
    split <;> rfl
  · exact .refl cl

/-- The pairs a success thaws. -/
theorem iceUpdatePairStatesOnBindingResponse_quiet (cl : IceCheckList) (pair : PairRef) :
    Quiet (cl.setPairState pair .succeeded) (iceUpdatePairStatesOnBindingResponse cl pair) := by
  apply Quiet.foldl
  intro cl other
  split
  · exact .setPairState cl other (by decide) (by decide)
  · exact .refl cl

end GrooveIp.Ice
