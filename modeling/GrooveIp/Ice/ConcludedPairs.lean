import GrooveIp.Ice.Checks

/-!
# Ending the checks of a component

Once a pair of a component is nominated, its pairs that wait or are frozen leave the check list and
the triggered checks queue, and worse pairs in progress are not sent again
(`ice_conclude_waiting_frozen_and_inprogress_pairs`, `ice.c:3632–3665`). The loop that removes takes
up again at `next->prev`, which is `NULL` when the first link has gone, so it stops there.
-/

namespace GrooveIp.Ice

open List

variable {cl : IceCheckList} {componentID : UInt16}

/-- A pair of a component that has not been checked yet. -/
def IceCheckList.Unchecked (cl : IceCheckList) (componentID : UInt16) (pair : PairRef) : Prop :=
  ((cl.heap pair).state = .waiting ∨ (cl.heap pair).state = .frozen) ∧
    (cl.localOf pair).componentID = componentID

instance (cl : IceCheckList) (componentID : UInt16) (pair : PairRef) :
    Decidable (cl.Unchecked componentID pair) :=
  inferInstanceAs (Decidable (_ ∧ _))

/-- A pair in progress that is worse than a valid one of its component. -/
def IceCheckList.Worse (cl : IceCheckList) (valid pair : PairRef) : Prop :=
  (cl.heap pair).state = .inProgress ∧
    (cl.localOf pair).componentID = (cl.localOf valid).componentID ∧
    (cl.heap pair).priority < (cl.heap valid).priority

instance (cl : IceCheckList) (valid pair : PairRef) : Decidable (cl.Worse valid pair) :=
  inferInstanceAs (Decidable (_ ∧ _ ∧ _))

/-- The unchecked pairs of the component leave both lists, whose order is kept, and exactly the
worse ones of the check list have made their last retransmission. -/
structure ConcludesComponent (cl : IceCheckList) (valid : PairRef) (cl' : IceCheckList) : Prop where
  checkList : cl'.checkList = cl.checkList.filter fun pair =>
    ¬cl.Unchecked (cl.localOf valid).componentID pair
  triggeredChecksQueue : cl'.triggeredChecksQueue = cl.triggeredChecksQueue.filter fun pair =>
    ¬cl.Unchecked (cl.localOf valid).componentID pair
  heap : ∀ pair, cl'.heap pair = if pair ∈ cl.checkList ∧ cl.Worse valid pair then
      { cl.heap pair with retransmissions := iceMaxRetransmissions }
    else cl.heap pair

/-- If the first pair of a list is unchecked, no other one is. -/
def FirstAlone (cl : IceCheckList) (componentID : UInt16) (list : List PairRef) : Prop :=
  ∀ first rest, list = first :: rest → cl.Unchecked componentID first →
    ∀ pair ∈ rest, ¬cl.Unchecked componentID pair

/-! ## Removing -/

theorem iceRemoveWaitingAndFrozen_cons (passed : List PairRef) (pair : PairRef)
    (rest : List PairRef) : iceRemoveWaitingAndFrozen cl componentID passed (pair :: rest) =
      if cl.Unchecked componentID pair then
        if passed = [] ∨ rest = [] then passed ++ rest
        else iceRemoveWaitingAndFrozen cl componentID passed rest
      else iceRemoveWaitingAndFrozen cl componentID (passed ++ [pair]) rest := rfl

theorem iceRemoveWaitingAndFrozen_passed {passed : List PairRef} (hpassed : passed ≠ [])
    (rest : List PairRef) : iceRemoveWaitingAndFrozen cl componentID passed rest =
      passed ++ rest.filter fun pair => ¬cl.Unchecked componentID pair := by
  induction rest generalizing passed with
  | nil => exact (append_nil passed).symm
  | cons pair rest ih =>
    rw [iceRemoveWaitingAndFrozen_cons]
    by_cases hpair : cl.Unchecked componentID pair
    · rw [if_pos hpair, filter_cons_of_neg (by simpa using hpair)]
      split
      · next hend =>
        obtain rfl := hend.resolve_left hpassed
        rfl
      · exact ih hpassed
    · rw [if_neg hpair, filter_cons_of_pos (by simpa using hpair), ih (by simp), append_assoc]
      rfl

theorem iceRemoveWaitingAndFrozen_iff (list : List PairRef) :
    iceRemoveWaitingAndFrozen cl componentID [] list =
        list.filter (fun pair => ¬cl.Unchecked componentID pair) ↔
      FirstAlone cl componentID list := by
  cases list with
  | nil => exact iff_of_true rfl fun first rest h => by cases h
  | cons first rest =>
    rw [iceRemoveWaitingAndFrozen_cons]
    by_cases hfirst : cl.Unchecked componentID first
    · rw [if_pos hfirst, if_pos (.inl rfl), filter_cons_of_neg (by simpa using hfirst), nil_append]
      constructor
      · rintro hkept _ _ ⟨⟩ - pair hpair
        rw [hkept] at hpair
        simpa using (mem_filter.mp hpair).2
      · intro halone
        refine (filter_eq_self.mpr fun pair hpair => ?_).symm
        simpa using halone first rest rfl hfirst pair hpair
    · rw [if_neg hfirst, filter_cons_of_pos (by simpa using hfirst), nil_append,
        iceRemoveWaitingAndFrozen_passed (cons_ne_nil first [])]
      refine iff_of_true rfl ?_
      rintro _ _ ⟨⟩ h
      exact absurd h hfirst

theorem mem_iceRemoveWaitingAndFrozen {pair : PairRef} (h : ¬cl.Unchecked componentID pair)
    (passed rest : List PairRef) :
    pair ∈ iceRemoveWaitingAndFrozen cl componentID passed rest ↔ pair ∈ passed ∨ pair ∈ rest := by
  induction rest generalizing passed with
  | nil => simp [iceRemoveWaitingAndFrozen]
  | cons first rest ih =>
    rw [iceRemoveWaitingAndFrozen_cons, mem_cons]
    by_cases hfirst : cl.Unchecked componentID first
    · have hne : pair ≠ first := fun heq => h (heq ▸ hfirst)
      rw [if_pos hfirst]
      split
      · simp [hne]
      · rw [ih]
        simp [hne]
    · rw [if_neg hfirst, ih]
      simp [or_assoc]

/-! ## Stopping -/

section Stopping

variable {valid : PairRef}

theorem iceStopWorsePair_eq (valid : PairRef) (cl : IceCheckList) (first : PairRef) :
    iceStopWorsePair valid cl first = { cl with
        heap := fun pair =>
          if pair = first ∧ cl.Worse valid pair then
            { cl.heap pair with retransmissions := iceMaxRetransmissions }
          else cl.heap pair } := by
  have hstep : iceStopWorsePair valid cl first = if cl.Worse valid first then
      cl.updatePair first fun p => { p with retransmissions := iceMaxRetransmissions } else cl := rfl
  rw [hstep]
  by_cases hfirst : cl.Worse valid first
  · rw [if_pos hfirst]
    refine congrArg (fun heap => { cl with heap }) (funext fun pair => ?_)
    by_cases h : pair = first
    · rw [if_pos h, if_pos ⟨h, h ▸ hfirst⟩, h]
    · rw [if_neg h, if_neg fun hboth => h hboth.1]
  · rw [if_neg hfirst]
    refine congrArg (fun heap => { cl with heap }) (funext fun pair => ?_)
    rw [if_neg]
    rintro ⟨rfl, h⟩
    exact hfirst h

theorem worse_congr {cl' : IceCheckList} (hlist : cl'.localCandidates = cl.localCandidates)
    (hstate : ∀ pair, (cl'.heap pair).state = (cl.heap pair).state)
    (hlocal : ∀ pair, (cl'.heap pair).localCandidate = (cl.heap pair).localCandidate)
    (hpriority : ∀ pair, (cl'.heap pair).priority = (cl.heap pair).priority) (pair : PairRef) :
    cl'.Worse valid pair ↔ cl.Worse valid pair := by
  unfold IceCheckList.Worse IceCheckList.localOf IceCheckList.localAt
  rw [hlist, hstate, hlocal, hlocal, hpriority, hpriority]

theorem iceStopWorsePair_foldl (valid : PairRef) (list : List PairRef) (cl : IceCheckList) :
    list.foldl (iceStopWorsePair valid) cl = { cl with
        heap := fun pair =>
          if pair ∈ list ∧ cl.Worse valid pair then
            { cl.heap pair with retransmissions := iceMaxRetransmissions }
          else cl.heap pair } := by
  induction list generalizing cl with
  | nil => simp
  | cons first list ih =>
    have hworse : ∀ pair, (iceStopWorsePair valid cl first).Worse valid pair ↔
        cl.Worse valid pair := by
      rw [iceStopWorsePair_eq]
      refine worse_congr rfl (fun pair => ?_) (fun pair => ?_) fun pair => ?_ <;>
        exact apply_ite _ _ _ _ |>.trans (ite_self _)
    rw [foldl_cons, ih]
    simp only [hworse]
    rw [iceStopWorsePair_eq]
    refine congrArg (fun heap => { cl with heap }) (funext fun pair => ?_)
    by_cases hpair : cl.Worse valid pair
    · by_cases hfirst : pair = first
      · simp [hfirst, hfirst ▸ hpair]
      · simp [hfirst, hpair]
    · simp [hpair]

end Stopping

/-! ## Concluding -/

/-- A nominated pair concludes its component exactly when no more than the first pair of each list
has to go, or that one stays. -/
theorem concludesComponent_iff (validPair : IceValidCandidatePair)
    (hnominated : (cl.heap validPair.valid).isNominated = true) :
    ConcludesComponent cl validPair.valid (iceConcludeWaitingFrozenAndInProgressPairs cl validPair) ↔
      FirstAlone cl (cl.localOf validPair.valid).componentID cl.checkList ∧
        FirstAlone cl (cl.localOf validPair.valid).componentID cl.triggeredChecksQueue := by
  let componentID := (cl.localOf validPair.valid).componentID
  have hrun : iceConcludeWaitingFrozenAndInProgressPairs cl validPair = { cl with
        checkList := iceRemoveWaitingAndFrozen cl componentID [] cl.checkList
        triggeredChecksQueue :=
          iceRemoveWaitingAndFrozen cl componentID [] cl.triggeredChecksQueue
        heap := fun pair =>
          if pair ∈ iceRemoveWaitingAndFrozen cl componentID [] cl.checkList ∧
              cl.Worse validPair.valid pair then
            { cl.heap pair with retransmissions := iceMaxRetransmissions }
          else cl.heap pair } := by
    rw [iceConcludeWaitingFrozenAndInProgressPairs, if_pos hnominated]
    exact iceStopWorsePair_foldl _ _ _
  rw [hrun]
  constructor
  · intro h
    exact ⟨(iceRemoveWaitingAndFrozen_iff _).mp h.checkList,
      (iceRemoveWaitingAndFrozen_iff _).mp h.triggeredChecksQueue⟩
  · rintro ⟨hcheckList, hqueue⟩
    refine ⟨(iceRemoveWaitingAndFrozen_iff _).mpr hcheckList,
      (iceRemoveWaitingAndFrozen_iff _).mpr hqueue, fun pair => if_congr ?_ rfl rfl⟩
    refine and_congr_left fun hworse => ?_
    have hstays : ¬cl.Unchecked componentID pair := by
      rintro ⟨hstate, -⟩
      rw [hworse.1] at hstate
      rcases hstate with h | h <;> cases h
    rw [mem_iceRemoveWaitingAndFrozen hstays]
    simp

/-- Pairs of one component in these states, the best one first; a pair that succeeded is
nominated. -/
def pairsInStates (states : List IceCandidatePairState) : IceCheckList where
  heap := fun pair =>
    { role := .controlling, localCandidate := 0, remoteCandidate := 0
      state := states.getD pair .failed, priority := UInt64.ofNat (10 - pair)
      isNominated := states[pair]? == some .succeeded }
  localCandidates :=
    [{ taddr := ⟨[49], 5004, 2⟩, type := .host, priority := 1, componentID := 1, base := some 0 }]
  checkList := List.range states.length

/-- `concludesComponent_iff` when the best pair is the nominated one. -/
theorem concludesComponent_best :
    ConcludesComponent (pairsInStates [.succeeded, .waiting, .frozen, .inProgress]) 0
      (iceConcludeWaitingFrozenAndInProgressPairs
        (pairsInStates [.succeeded, .waiting, .frozen, .inProgress]) ⟨0, 0, 0, false⟩) := by
  refine (concludesComponent_iff ⟨0, 0, 0, false⟩ (by decide)).mpr ⟨?_, ?_⟩
  · rintro _ _ ⟨⟩ hfirst
    exact absurd hfirst (by decide)
  · rintro _ _ ⟨⟩

/-- Of two waiting pairs in front of the nominated one, the second stays. -/
theorem waitingPair_stays : ¬∀ (cl : IceCheckList) (validPair : IceValidCandidatePair),
    (cl.heap validPair.valid).isNominated = true → ConcludesComponent cl validPair.valid
        (iceConcludeWaitingFrozenAndInProgressPairs cl validPair) := by
  intro h
  have hlist := (h (pairsInStates [.waiting, .waiting, .succeeded]) ⟨2, 2, 0, false⟩
    (by decide)).checkList
  exact absurd hlist (by decide)

end GrooveIp.Ice
