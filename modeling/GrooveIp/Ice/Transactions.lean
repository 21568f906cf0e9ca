import GrooveIp.Ice.Runs

/-!
# Responses are credited to the pair that asked

The transactions of all pairs of a check list are in one list that keeps the canceled ones, and
`ice_find_transaction_from_pair` (`ice.c:1233–1236`) matches a canceled transaction of any pair. A
request that is sent again therefore carries the identifier of a transaction of its own pair as
long as no canceled transaction of another pair stands in front of it; in a run of such
retransmissions every request belongs to a transaction of its pair, and every success is credited
to the pair whose request was answered.
-/

namespace GrooveIp.Ice

open Lib Stun List
open IceSent (bindingRequest)
open Option (Rel)

variable {call : IceCall} {session session' : IceSession} {i : StreamIndex} {cl cl' : IceCheckList}
  {pair : PairRef}

/-! ## Steps without events -/

/-- A change that creates no transaction, starts no check and lets none succeed. -/
structure Uneventful (cl cl' : IceCheckList) : Prop where
  transactionList : cl'.transactionList = cl.transactionList
  state : ∀ p < cl'.nextPair, ∀ s, s = .inProgress ∨ s = .succeeded →
    (cl'.heap p).state = s → p < cl.nextPair ∧ (cl.heap p).state = s
  validList : ∀ v ∈ cl'.validList,
    ∃ w ∈ cl.validList, w.valid = v.valid ∧ w.generatedFrom = v.generatedFrom

namespace Uneventful

theorem refl (cl : IceCheckList) : Uneventful cl cl :=
  ⟨rfl, fun _ hp _ _ hs => ⟨hp, hs⟩, fun v hv => ⟨v, hv, rfl, rfl⟩⟩

theorem trans {cl'' : IceCheckList} (h : Uneventful cl cl') (h' : Uneventful cl' cl'') :
    Uneventful cl cl'' where
  transactionList := h'.transactionList.trans h.transactionList
  state p hp s hs hstate := by
    obtain ⟨hp', hstate'⟩ := h'.state p hp s hs hstate
    exact h.state p hp' s hs hstate'
  validList v hv := by
    obtain ⟨w, hw, hvalid, hfrom⟩ := h'.validList v hv
    obtain ⟨w', hw', hvalid', hfrom'⟩ := h.validList w hw
    exact ⟨w', hw', hvalid'.trans hvalid, hfrom'.trans hfrom⟩

theorem of_state (state : ∀ p < cl'.nextPair, p < cl.nextPair ∧
      (cl'.heap p).state = (cl.heap p).state)
    (transactionList : cl'.transactionList = cl.transactionList := by rfl)
    (validList : cl'.validList = cl.validList := by rfl) : Uneventful cl cl' where
  transactionList := transactionList
  state p hp _ _ hstate := ⟨(state p hp).1, (state p hp).2 ▸ hstate⟩
  validList v hv := ⟨v, validList ▸ hv, rfl, rfl⟩

end Uneventful

theorem Quiet.uneventful (q : Quiet cl cl') : Uneventful cl cl' where
  transactionList := q.transactionList
  state p hp s hs hstate := by
    refine ⟨q.nextPair ▸ hp, ?_⟩
    rcases hs with rfl | rfl
    · exact (q.heap p).inProgress hstate
    · exact (q.heap p).succeeded hstate
  validList v hv := by
    obtain ⟨w, hw, hkey⟩ := exists_mem_of_key q.validList hv
    simp only [IceValidCandidatePair.key, Prod.mk.injEq] at hkey
    exact ⟨w, hw, hkey.1, hkey.2.1⟩

theorem Paired.uneventful (h : Paired cl cl') : Uneventful cl cl' where
  transactionList := h.transactionList
  state p hp s hs hstate := by
    by_cases hlt : p < cl.nextPair
    · exact ⟨hlt, (h.old p hlt).state ▸ hstate⟩
    · rw [h.new p hp (Nat.not_lt.mp hlt)] at hstate
      rcases hs with rfl | rfl
      · cases hstate
      · cases hstate
  validList v hv := ⟨v, h.validList.subset hv, rfl, rfl⟩

theorem IceFinish.uneventful (h : IceFinish cl cl') : Uneventful cl cl' := by
  cases h with
  | complete =>
    refine ⟨rfl, fun p hp s _ hs => ⟨hp, hs⟩, fun v hv => ?_⟩
    obtain ⟨w, hw, hvalid, hfrom⟩ := mem_iceSelectComponent hv
    obtain ⟨w', hw', hvalid', hfrom'⟩ := mem_iceSelectComponent hw
    obtain ⟨w'', hw'', rfl⟩ := mem_map.mp hw'
    exact ⟨w'', hw'', hvalid'.trans hvalid, hfrom'.trans hfrom⟩
  | fail => exact .of_state fun p hp => ⟨hp, rfl⟩

/-- No message is a request. -/
def NoRequests (sent : List (StreamIndex × IceSent)) : Prop :=
  ∀ i p msg, (i, bindingRequest p msg) ∉ sent

theorem SessionStep.change_or_uneventful {sent : List (StreamIndex × IceSent)}
    (inside : Inside session) (h : SessionStep call session sent session') :
    (∃ i cl cl' requests, session.streams i = some cl ∧ IceChange session call cl requests cl' ∧
      sent = requests.map (fun m => (i, m)) ∧ session' = session.setStream i cl') ∨
    (∀ j, Rel Uneventful (session.streams j) (session'.streams j)) ∧
      session'.forcedRelay = session.forcedRelay ∧ NoRequests sent := by
  have none : NoRequests [] := fun _ _ _ h => not_mem_nil h
  have same : ∀ j, Rel Uneventful (session.streams j) (session.streams j) := by
    intro j
    cases session.streams j with
    | none => exact .none
    | some cl => exact .some (.refl cl)
  have write : ∀ {i : StreamIndex} {cl cl' : IceCheckList}, session.streams i = some cl →
      Uneventful cl cl' →
      ∀ j, Rel Uneventful (session.streams j) ((session.setStream i cl').streams j) := by
    intro i cl cl' hi h j
    by_cases heq : j = i
    · subst heq
      rw [hi, setStream_self]
      exact .some h
    · rw [setStream_ne session cl' heq]
      exact same j
  cases h with
  | list hi change => exact .inl ⟨_, _, _, _, hi, change, rfl, rfl⟩
  | finish now hi running finish q =>
    refine .inr ⟨fun j => ?_, ?_, none⟩
    · rw [iceNotifySessionProcessingFinished_streams]
      exact write hi (finish.uneventful.trans q.uneventful) j
    · unfold iceNotifySessionProcessingFinished
      split <;> rfl
  | @takeRole role =>
    refine .inr ⟨fun j => ?_, ?_, none⟩
    · unfold iceSessionSetRole
      split
      · dsimp only
        cases session.streams j with
        | none => exact .none
        | some cl =>
          apply Rel.some
          rw [iceCheckListComputePairPriorities_eq]
          refine .of_state fun p hp => ⟨hp, ?_⟩
          dsimp only
          split <;> rfl
      · exact same j
    · unfold iceSessionSetRole
      split <;> rfl
  | same same' => exact .inr ⟨same'.imp Quiet.uneventful, same'.forcedRelay, none⟩
  | reply timer replies =>
    refine .inr ⟨same, rfl, fun i p msg hmem => ?_⟩
    obtain ⟨m, hm, heq⟩ := mem_map.mp hmem
    obtain ⟨-, rfl⟩ := Prod.mk.inj heq
    rcases replies _ hm with ⟨_, h⟩ | ⟨_, h, _⟩
    · cases h
    · cases h
  | pairing hi running pair =>
    have paired := (iceCheckListPairCandidates_spec (inside _ _ hi) running pair).1
    exact .inr ⟨write hi paired.uneventful, rfl, none⟩
  | started => exact .inr ⟨same, rfl, none⟩

/-! ## The transaction of a pair -/

/-- No canceled transaction of another pair stands in front of the newest one of a pair. -/
def ownTransactionFirst (pair : PairRef) : List IceTransaction → Bool
  | [] => true
  | t :: rest => t.pair == pair || !t.canceled && ownTransactionFirst pair rest

/-- It does not in the list of a check list. -/
def OwnTransactionFirst (cl : IceCheckList) (pair : PairRef) : Prop :=
  ownTransactionFirst pair cl.transactionList = true

instance (cl : IceCheckList) (pair : PairRef) : Decidable (OwnTransactionFirst cl pair) :=
  inferInstanceAs (Decidable (_ = true))

/-- The newest transaction of a pair. -/
def newestTransaction (cl : IceCheckList) (pair : PairRef) : Option IceTransaction :=
  cl.transactionList.find? fun t => t.pair == pair

variable {t : IceTransaction}

theorem OwnTransactionFirst.find (h : OwnTransactionFirst cl pair)
    (hfind : iceFindTransaction cl pair = some t) : newestTransaction cl pair = some t := by
  unfold OwnTransactionFirst at h
  unfold iceFindTransaction at hfind
  unfold newestTransaction
  generalize cl.transactionList = l at h hfind ⊢
  induction l with
  | nil => cases hfind
  | cons t' rest ih =>
    by_cases hown : t'.pair = pair
    · simpa [iceFindTransactionFromPair, hown] using hfind
    · simp only [ownTransactionFirst, beq_iff_eq, hown, Bool.or_eq_true, false_or,
        Bool.and_eq_true, Bool.not_eq_true'] at h
      rw [List.find?_cons_of_neg (by simp [iceFindTransactionFromPair, hown, h.1])] at hfind
      rw [List.find?_cons_of_neg (by simpa using hown)]
      exact ih h.2 hfind

theorem find_iceCancelTransaction {other : PairRef} (hne : other ≠ pair)
    {l : List IceTransaction} (hfind : l.find? (fun t => t.pair == other) = some t)
    (hlive : t.canceled = false) :
    (iceCancelTransaction pair l).find? (fun t => t.pair == other) = some t := by
  induction l with
  | nil => cases hfind
  | cons t' l ih =>
    unfold iceCancelTransaction
    by_cases hother : t'.pair = other
    · have heq : t' = t := by simpa [hother] using hfind
      subst heq
      -- the lookup passes a transaction of another pair that is not canceled
      have hpass : iceFindTransactionFromPair t' pair = true := by
        simp [iceFindTransactionFromPair, hother, hne, hlive]
      simp [hpass, hother]
    · rw [List.find?_cons_of_neg (by simpa using hother)] at hfind
      split
      · rw [List.find?_cons_of_neg (by simpa using hother)]
        exact hfind
      · rw [List.find?_cons_of_neg (by simpa using hother)]
        exact ih hfind

/-- What the transactions of a check list say: an identifier belongs to one pair, and the newest
transaction of a pair in progress is not canceled. -/
structure TransactionsOwned (cl : IceCheckList) : Prop where
  unique : ∀ t ∈ cl.transactionList, ∀ t' ∈ cl.transactionList,
    t.transactionID = t'.transactionID → t.pair = t'.pair
  live : ∀ p < cl.nextPair, (cl.heap p).state = .inProgress →
    ∃ t, newestTransaction cl p = some t ∧ t.canceled = false

theorem TransactionsOwned.uneventful (h : TransactionsOwned cl) (hun : Uneventful cl cl') :
    TransactionsOwned cl' where
  unique := by
    rw [hun.transactionList]
    exact h.unique
  live p hp hs := by
    obtain ⟨hp', hs'⟩ := hun.state p hp _ (.inl rfl) hs
    rw [newestTransaction, hun.transactionList]
    exact h.live p hp' hs'

theorem TransactionsOwned.updatePair (h : TransactionsOwned cl) (pair : PairRef)
    {f : IceCandidatePair → IceCandidatePair} (hlive : (f (cl.heap pair)).state = .inProgress →
      ∃ t, newestTransaction cl pair = some t ∧ t.canceled = false) :
    TransactionsOwned (cl.updatePair pair f) where
  unique := h.unique
  live p hp hs := by
    by_cases heq : p = pair
    · subst heq
      apply hlive
      simpa [IceCheckList.updatePair] using hs
    · apply h.live p hp
      simpa [IceCheckList.updatePair, heq] using hs

variable {sent : List IceSent}

theorem TransactionsOwned.change (h : TransactionsOwned cl) (fresh : call.fresh)
    (step : IceChange session call cl sent cl') : TransactionsOwned cl' := by
  cases step with
  | upkeep step =>
    cases step with
    | quiet q => exact h.uneventful q.uneventful
    | retransmit q => exact h.uneventful q.uneventful
  | @transmit _ pair f timer known isNew change started wire requests =>
    have hnew := isNew fresh
    have create : ∀ p < cl.nextPair, p ≠ pair → (cl.heap p).state = .inProgress →
        ∃ t, newestTransaction (iceCreateTransaction cl pair call.trId) p = some t ∧
          t.canceled = false := by
      intro p hp hne hs
      obtain ⟨t, ht, hlive⟩ := h.live p hp hs
      refine ⟨t, ?_, hlive⟩
      unfold newestTransaction iceCreateTransaction
      rw [List.find?_cons_of_neg (by simpa using Ne.symm hne)]
      exact ht
    refine ⟨fun t ht t' ht' hid => ?_, fun p hp hs => ?_⟩
    · rcases mem_cons.mp ht with rfl | ht
      · rcases mem_cons.mp ht' with rfl | ht'
        · rfl
        · exact absurd hid.symm (hnew t' ht')
      · rcases mem_cons.mp ht' with rfl | ht'
        · exact absurd hid (hnew t ht)
        · exact h.unique t ht t' ht' hid
    · by_cases heq : p = pair
      · subst heq
        exact ⟨⟨call.trId, p, false⟩, by simp [newestTransaction, iceCreateTransaction,
          IceCheckList.updatePair], rfl⟩
      · apply create p hp heq
        simpa [IceCheckList.updatePair, iceCreateTransaction, heq] using hs
  | @cancel pair timer inProgress =>
    refine ⟨fun t ht t' ht' hid => ?_, fun p hp hs => ?_⟩
    · obtain ⟨u, hu, hpair, hid'⟩ := mem_iceCancelTransaction ht
      obtain ⟨u', hu', hpair', hid''⟩ := mem_iceCancelTransaction ht'
      rw [← hpair, ← hpair']
      exact h.unique u hu u' hu' (hid'.trans (hid.trans hid''.symm))
    · have hne : p ≠ pair := by
        rintro rfl
        simp [IceCheckList.setPairState, IceCheckList.updatePair] at hs
      have hs' : (cl.heap p).state = .inProgress := by
        simpa [IceCheckList.setPairState, IceCheckList.updatePair, hne] using hs
      obtain ⟨t, ht, hlive⟩ := h.live p hp hs'
      exact ⟨t, find_iceCancelTransaction hne ht hlive, hlive⟩
  | newPair hl hr => exact h.uneventful (Paired.appendPair cl rfl).uneventful
  | enlist => exact h.uneventful (.of_state fun p hp => ⟨hp, rfl⟩)
  | remoteCandidate => exact h.uneventful (.of_state fun p hp => ⟨hp, rfl⟩)
  | localCandidate => exact h.uneventful (.of_state fun p hp => ⟨hp, rfl⟩)
  | validPair => exact ⟨h.unique, h.live⟩
  | succeed => exact h.updatePair _ (by simp)

theorem TransactionsOwned.request (h : TransactionsOwned cl)
    (own : ∀ cl p, call.retransmits cl p → OwnTransactionFirst cl p) (wf : WellFormed cl)
    (step : IceChange session call cl sent cl') {p : PairRef} {msg : MSStunMessage}
    (hsent : bindingRequest p msg ∈ sent) :
    ∃ t ∈ cl'.transactionList, t.transactionID = msg.trId ∧ t.pair = p ∧ t.canceled = false := by
  cases step with
  | upkeep step =>
    cases step with
    | quiet q indications =>
      obtain ⟨q, hq⟩ := indications _ hsent
      cases hq
    | @retransmit _ _ pair t q inProgress found allowed requests =>
      obtain ⟨cl'', hmsg⟩ := requests _ hsent
      obtain ⟨rfl, rfl⟩ : p = pair ∧ msg = iceBindingRequest session cl'' pair t.transactionID := by
        simpa using hmsg
      have hnewest := (own cl p allowed).find found
      have hmem := mem_of_find?_eq_some hnewest
      have hown : t.pair = p := by simpa using List.find?_some hnewest
      obtain ⟨t', ht', hlive⟩ := h.live p (hown ▸ wf.transactions t hmem) inProgress
      rw [hnewest] at ht'
      cases ht'
      exact ⟨t, q.transactionList ▸ hmem, (iceBindingRequest_trId session cl'' p _).symm, hown,
        hlive⟩
  | @transmit _ pair f timer known isNew change started wire requests =>
    obtain ⟨cl'', hmsg⟩ := requests _ hsent
    obtain ⟨rfl, rfl⟩ : p = pair ∧ msg = iceBindingRequest session cl'' pair call.trId := by
      simpa using hmsg
    exact ⟨⟨call.trId, p, false⟩, mem_cons_self, (iceBindingRequest_trId session cl'' p _).symm,
      rfl, rfl⟩
  | _ => cases hsent

theorem exists_mem_iceCancelTransaction {l : List IceTransaction} (h : t ∈ l) :
    ∃ t' ∈ iceCancelTransaction pair l, t'.transactionID = t.transactionID ∧ t'.pair = t.pair := by
  induction l with
  | nil => exact absurd h not_mem_nil
  | cons t' l ih =>
    unfold iceCancelTransaction
    split
    · rcases mem_cons.mp h with rfl | h
      · exact ⟨_, mem_cons_self, rfl, rfl⟩
      · exact ⟨t, mem_cons_of_mem _ h, rfl, rfl⟩
    · rcases mem_cons.mp h with rfl | h
      · exact ⟨t, mem_cons_self, rfl, rfl⟩
      · obtain ⟨t'', ht'', hsame⟩ := ih h
        exact ⟨t'', mem_cons_of_mem _ ht'', hsame⟩

theorem IceChange.transactionList (step : IceChange session call cl sent cl') :
    cl'.transactionList = cl.transactionList ∨ (∃ pair, ¬ call.timer ∧
      cl'.transactionList = iceCancelTransaction pair cl.transactionList) ∨
    ∃ pair, cl'.transactionList = ⟨call.trId, pair, false⟩ :: cl.transactionList ∧
      RequestsFor session pair call.trId sent ∧ (session.forcedRelay = false → sent ≠ []) := by
  cases step with
  | upkeep step =>
    cases step with
    | quiet q => exact .inl q.transactionList
    | retransmit q => exact .inl q.transactionList
  | @transmit _ pair f timer known isNew change started wire requests =>
    exact .inr (.inr ⟨pair, rfl, requests, wire⟩)
  | @cancel pair timer inProgress => exact .inr (.inl ⟨pair, timer, rfl⟩)
  | _ => exact .inl rfl

theorem IceChange.keeps (step : IceChange session call cl sent cl') (ht : t ∈ cl.transactionList) :
    ∃ t' ∈ cl'.transactionList, t'.transactionID = t.transactionID ∧ t'.pair = t.pair := by
  rcases step.transactionList with heq | ⟨pair, -, heq⟩ | ⟨pair, heq, -⟩
  · exact ⟨t, heq ▸ ht, rfl, rfl⟩
  · rw [heq]
    exact exists_mem_iceCancelTransaction ht
  · exact ⟨t, heq ▸ mem_cons_of_mem _ ht, rfl, rfl⟩

theorem IceChange.keeps_live (step : IceChange session call cl sent cl')
    (timer : call.timer) (ht : t ∈ cl.transactionList) : t ∈ cl'.transactionList := by
  rcases step.transactionList with heq | ⟨pair, no, -⟩ | ⟨pair, heq, -⟩
  · exact heq ▸ ht
  · exact absurd timer no
  · exact heq ▸ mem_cons_of_mem _ ht

theorem IceChange.wired (step : IceChange session call cl sent cl')
    (hrelay : session.forcedRelay = false) {t' : IceTransaction} (ht' : t' ∈ cl'.transactionList) :
    (∃ t ∈ cl.transactionList, t.transactionID = t'.transactionID ∧ t.pair = t'.pair) ∨
      ∃ msg, bindingRequest t'.pair msg ∈ sent ∧ msg.trId = t'.transactionID := by
  rcases step.transactionList with heq | ⟨pair, -, heq⟩ | ⟨pair, heq, requests, wire⟩
  · exact .inl ⟨t', heq ▸ ht', rfl, rfl⟩
  · obtain ⟨t, ht, hpair, hid⟩ := mem_iceCancelTransaction (heq ▸ ht')
    exact .inl ⟨t, ht, hid, hpair⟩
  · rcases mem_cons.mp (heq ▸ ht') with rfl | ht'
    · obtain ⟨m, hm⟩ := exists_mem_of_ne_nil sent (wire hrelay)
      obtain ⟨cl'', rfl⟩ := requests m hm
      exact .inr ⟨_, hm, iceBindingRequest_trId session cl'' pair _⟩
    · exact .inl ⟨t', ht', rfl, rfl⟩

/-! ## Requests and transactions of a session -/

/-- The requests a session has sent and its transactions belong together. -/
structure Credits (session : IceSession) (sent : List (StreamIndex × IceSent)) : Prop where
  owned : ∀ i cl, session.streams i = some cl → TransactionsOwned cl
  requested : ∀ i p msg, (i, bindingRequest p msg) ∈ sent →
    ∃ cl, session.streams i = some cl ∧
      ∃ t ∈ cl.transactionList, t.transactionID = msg.trId ∧ t.pair = p
  wired : session.forcedRelay = false → ∀ i cl, session.streams i = some cl →
    ∀ t ∈ cl.transactionList, ∃ msg, (i, bindingRequest t.pair msg) ∈ sent ∧
      msg.trId = t.transactionID

theorem exists_of_rel {R : IceCheckList → IceCheckList → Prop}
    (h : ∀ j, Rel R (session.streams j) (session'.streams j)) {j : StreamIndex}
    (hj : session'.streams j = some cl') : ∃ cl, session.streams j = some cl ∧ R cl cl' := by
  have hrel := h j
  rw [hj] at hrel
  cases hcl : session.streams j with
  | none =>
    rw [hcl] at hrel
    cases hrel
  | some cl =>
    rw [hcl] at hrel
    cases hrel with
    | some hR => exact ⟨cl, rfl, hR⟩

theorem exists_of_rel' {R : IceCheckList → IceCheckList → Prop}
    (h : ∀ j, Rel R (session.streams j) (session'.streams j)) {j : StreamIndex}
    (hj : session.streams j = some cl) : ∃ cl', session'.streams j = some cl' ∧ R cl cl' := by
  have hrel := h j
  rw [hj] at hrel
  cases hcl : session'.streams j with
  | none =>
    rw [hcl] at hrel
    cases hrel
  | some cl' =>
    rw [hcl] at hrel
    cases hrel with
    | some hR => exact ⟨cl', rfl, hR⟩

theorem mem_tagged {requests : List IceSent} {j : StreamIndex} {m : IceSent} :
    (j, m) ∈ requests.map (fun m => (i, m)) ↔ j = i ∧ m ∈ requests := by
  constructor
  · intro h
    obtain ⟨m', hm', heq⟩ := mem_map.mp h
    obtain ⟨rfl, rfl⟩ := Prod.mk.inj heq
    exact ⟨rfl, hm'⟩
  · rintro ⟨rfl, hm⟩
    exact mem_map_of_mem hm

theorem Credits.step {sent out : List (StreamIndex × IceSent)} (inside : Inside session)
    (h : Credits session sent) (fresh : call.fresh)
    (own : ∀ cl p, call.retransmits cl p → OwnTransactionFirst cl p)
    (step : SessionStep call session out session') : Credits session' (sent ++ out) := by
  rcases step.change_or_uneventful inside with
    ⟨i, cl, cl', requests, hi, change, rfl, rfl⟩ | ⟨hrel, hrelay, hno⟩
  · refine ⟨forall_setStream h.owned ((h.owned i cl hi).change fresh change), ?_, ?_⟩
    · intro j p msg hmem
      rcases mem_append.mp hmem with hold | hnew
      · obtain ⟨cl₀, hcl₀, t, ht, hid, hpair⟩ := h.requested j p msg hold
        by_cases heq : j = i
        · subst heq
          rw [hi] at hcl₀
          cases hcl₀
          obtain ⟨t', ht', hid', hpair'⟩ := change.keeps ht
          exact ⟨cl', setStream_self session j cl', t', ht', hid'.trans hid, hpair'.trans hpair⟩
        · exact ⟨cl₀, (setStream_ne session cl' heq).trans hcl₀, t, ht, hid, hpair⟩
      · obtain ⟨rfl, hm⟩ := mem_tagged.mp hnew
        obtain ⟨t, ht, hid, hpair, -⟩ :=
          (h.owned j cl hi).request own (inside j cl hi) change hm
        exact ⟨cl', setStream_self session j cl', t, ht, hid, hpair⟩
    · intro hrelay j clj hj t' ht'
      by_cases heq : j = i
      · subst heq
        rw [setStream_self] at hj
        cases hj
        rcases change.wired hrelay ht' with ⟨t, ht, hid, hpair⟩ | ⟨msg, hm, hid⟩
        · obtain ⟨msg, hmem, hmsg⟩ := h.wired hrelay j cl hi t ht
          rw [← hpair, ← hid]
          exact ⟨msg, mem_append_left _ hmem, hmsg⟩
        · exact ⟨msg, mem_append_right _ (mem_tagged.mpr ⟨rfl, hm⟩), hid⟩
      · rw [setStream_ne session cl' heq] at hj
        obtain ⟨msg, hmem, hmsg⟩ := h.wired hrelay j clj hj t' ht'
        exact ⟨msg, mem_append_left _ hmem, hmsg⟩
  · refine ⟨fun j cl' hj => ?_, fun j p msg hmem => ?_, fun hrelay' j cl' hj t ht => ?_⟩
    · obtain ⟨cl, hcl, hun⟩ := exists_of_rel hrel hj
      exact (h.owned j cl hcl).uneventful hun
    · have hold : (j, bindingRequest p msg) ∈ sent :=
        (mem_append.mp hmem).resolve_right (hno j p msg)
      obtain ⟨cl, hcl, t, ht, hsame⟩ := h.requested j p msg hold
      obtain ⟨cl', hcl', hun⟩ := exists_of_rel' hrel hcl
      exact ⟨cl', hcl', t, hun.transactionList ▸ ht, hsame⟩
    · obtain ⟨cl, hcl, hun⟩ := exists_of_rel hrel hj
      obtain ⟨msg, hmem, hmsg⟩ :=
        h.wired (hrelay ▸ hrelay') j cl hcl t (hun.transactionList ▸ ht)
      exact ⟨msg, mem_append_left _ hmem, hmsg⟩

/-! ## What one call sends -/

/-- The requests among these messages are those of transactions that are not canceled. -/
def RequestsLive (session : IceSession) (sent : List (StreamIndex × IceSent)) : Prop :=
  ∀ i p msg, (i, bindingRequest p msg) ∈ sent → ∃ cl, session.streams i = some cl ∧
    ∃ t ∈ cl.transactionList, t.transactionID = msg.trId ∧ t.pair = p ∧ t.canceled = false

theorem SessionStep.noRequests {out : List (StreamIndex × IceSent)} (inside : Inside session)
    (timer : ¬ call.timer) (silent : ∀ cl p, ¬ call.retransmits cl p)
    (step : SessionStep call session out session') : NoRequests out := by
  rcases step.change_or_uneventful inside with
    ⟨i, cl, cl', requests, hi, change, rfl, rfl⟩ | ⟨-, -, hno⟩
  · intro j p msg hmem
    obtain ⟨-, hm⟩ := mem_tagged.mp hmem
    cases change with
    | upkeep step =>
      cases step with
      | quiet q indications =>
        obtain ⟨q, hq⟩ := indications _ hm
        cases hq
      | retransmit q inProgress found allowed => exact silent _ _ allowed
    | transmit timer' => exact timer timer'
    | _ => cases hm
  · exact hno

theorem RequestsLive.step {sent out out' : List (StreamIndex × IceSent)} (inside : Inside session)
    (credits : Credits session sent) (h : RequestsLive session out)
    (own : ∀ cl p, call.retransmits cl p → OwnTransactionFirst cl p)
    (silent : ¬ call.timer → (∀ cl p, ¬ call.retransmits cl p) ∧ NoRequests out)
    (step : SessionStep call session out' session') : RequestsLive session' (out ++ out') := by
  by_cases timer : call.timer
  · rcases step.change_or_uneventful inside with
      ⟨i, cl, cl', requests, hi, change, rfl, rfl⟩ | ⟨hrel, -, hno⟩
    · intro j p msg hmem
      rcases mem_append.mp hmem with hold | hnew
      · obtain ⟨cl₀, hcl₀, t, ht, hlive⟩ := h j p msg hold
        by_cases heq : j = i
        · subst heq
          rw [hi] at hcl₀
          cases hcl₀
          exact ⟨cl', setStream_self session j cl', t, change.keeps_live timer ht, hlive⟩
        · exact ⟨cl₀, (setStream_ne session cl' heq).trans hcl₀, t, ht, hlive⟩
      · obtain ⟨rfl, hm⟩ := mem_tagged.mp hnew
        have request := (credits.owned j cl hi).request own (inside j cl hi) change hm
        exact ⟨cl', setStream_self session j cl', request⟩
    · intro j p msg hmem
      obtain ⟨cl, hcl, t, ht, hlive⟩ :=
        h j p msg ((mem_append.mp hmem).resolve_right (hno j p msg))
      obtain ⟨cl', hcl', hun⟩ := exists_of_rel' hrel hcl
      exact ⟨cl', hcl', t, hun.transactionList ▸ ht, hlive⟩
  · intro j p msg hmem
    rcases mem_append.mp hmem with hold | hnew
    · exact absurd hold ((silent timer).2 j p msg)
    · exact absurd hnew (step.noRequests inside timer (silent timer).1 j p msg)

/-- Whether a message is no request or that of a transaction that is not canceled. -/
def requestLive (session : IceSession) (tagged : StreamIndex × IceSent) : Bool :=
  match tagged.2 with
  | .bindingRequest p msg => (session.streams tagged.1).any fun cl => cl.transactionList.any fun t =>
    t.transactionID == msg.trId && t.pair == p && !t.canceled
  | _ => true

theorem all_requestLive (session : IceSession) (sent : List (StreamIndex × IceSent)) :
    sent.all (requestLive session) = true ↔ RequestsLive session sent := by
  rw [all_eq_true]
  constructor
  · intro h i p msg hmem
    simpa [requestLive, Option.any_eq_true, and_assoc] using h _ hmem
  · rintro h ⟨i, m⟩ hmem
    cases m with
    | bindingRequest p msg =>
      simpa [requestLive, Option.any_eq_true, and_assoc] using h i p msg hmem
    | _ => rfl

instance (session : IceSession) (sent : List (StreamIndex × IceSent)) :
    Decidable (RequestsLive session sent) :=
  decidable_of_iff _ (all_requestLive session sent)

/-! ## What one call lets succeed -/

/-- The pairs that have succeeded since a session, and those that valid pairs were made from since
then, have been answered. -/
def SuccessesAnswered (answered : PairRef → Prop) (session session' : IceSession) : Prop :=
  ∀ i cl', session'.streams i = some cl' → ∃ cl, session.streams i = some cl ∧
    (∀ p < cl'.nextPair, (cl'.heap p).state = .succeeded →
      p < cl.nextPair ∧ (cl.heap p).state = .succeeded ∨ answered p) ∧
    ∀ v ∈ cl'.validList, (∃ w ∈ cl.validList, w.valid = v.valid ∧
      w.generatedFrom = v.generatedFrom) ∨ answered v.generatedFrom

theorem SuccessesAnswered.refl (answered : PairRef → Prop) (session : IceSession) :
    SuccessesAnswered answered session session :=
  fun _ cl hi => ⟨cl, hi, fun _ hp hs => .inl ⟨hp, hs⟩, fun v hv => .inl ⟨v, hv, rfl, rfl⟩⟩

theorem SuccessesAnswered.trans {answered : PairRef → Prop} {session'' : IceSession}
    (h : SuccessesAnswered answered session session')
    (h' : SuccessesAnswered answered session' session'') :
    SuccessesAnswered answered session session'' := by
  intro i cl'' hi
  obtain ⟨cl', hcl', hstate', hvalid'⟩ := h' i cl'' hi
  obtain ⟨cl, hcl, hstate, hvalid⟩ := h i cl' hcl'
  refine ⟨cl, hcl, fun p hp hs => ?_, fun v hv => ?_⟩
  · rcases hstate' p hp hs with ⟨hp', hs'⟩ | new
    · exact hstate p hp' hs'
    · exact .inr new
  · rcases hvalid' v hv with ⟨w, hw, hwvalid, hwfrom⟩ | new
    · rcases hvalid w hw with ⟨u, hu, huvalid, hufrom⟩ | new
      · exact .inl ⟨u, hu, huvalid.trans hwvalid, hufrom.trans hwfrom⟩
      · exact .inr (hwfrom ▸ new)
    · exact .inr new

theorem IceChange.successes (step : IceChange session call cl sent cl') :
    (∀ p < cl'.nextPair, (cl'.heap p).state = .succeeded →
      p < cl.nextPair ∧ (cl.heap p).state = .succeeded ∨ call.answered p) ∧
    ∀ v ∈ cl'.validList, (∃ w ∈ cl.validList, w.valid = v.valid ∧
      w.generatedFrom = v.generatedFrom) ∨ call.answered v.generatedFrom := by
  have uneventful : ∀ {cl' : IceCheckList}, Uneventful cl cl' →
      (∀ p < cl'.nextPair, (cl'.heap p).state = .succeeded →
        p < cl.nextPair ∧ (cl.heap p).state = .succeeded ∨ call.answered p) ∧
      ∀ v ∈ cl'.validList, (∃ w ∈ cl.validList, w.valid = v.valid ∧
        w.generatedFrom = v.generatedFrom) ∨ call.answered v.generatedFrom :=
    fun h => ⟨fun p hp hs => .inl (h.state p hp _ (.inr rfl) hs), fun v hv => .inl (h.validList v hv)⟩
  -- one pair gets another state
  have update : ∀ (pair : PairRef) (f : IceCandidatePair → IceCandidatePair),
      ((f (cl.heap pair)).state = .succeeded → call.answered pair) →
      ∀ p < cl.nextPair, ((cl.updatePair pair f).heap p).state = .succeeded →
        p < cl.nextPair ∧ (cl.heap p).state = .succeeded ∨ call.answered p := by
    intro pair f hf p hp hs
    by_cases heq : p = pair
    · subst heq
      exact .inr (hf (by simpa [IceCheckList.updatePair] using hs))
    · exact .inl ⟨hp, by simpa [IceCheckList.updatePair, heq] using hs⟩
  have kept : ∀ v ∈ cl.validList, (∃ w ∈ cl.validList, w.valid = v.valid ∧
      w.generatedFrom = v.generatedFrom) ∨ call.answered v.generatedFrom :=
    fun v hv => .inl ⟨v, hv, rfl, rfl⟩
  cases step with
  | upkeep step =>
    cases step with
    | quiet q => exact uneventful q.uneventful
    | retransmit q => exact uneventful q.uneventful
  | @transmit _ pair f timer known isNew change started wire requests =>
    exact ⟨update pair f (fun hs => by simp [started] at hs), kept⟩
  | @cancel pair timer inProgress =>
    exact ⟨update pair (fun p => { p with state := .waiting }) (by simp), kept⟩
  | newPair => exact uneventful (Paired.appendPair cl rfl).uneventful
  | enlist => exact uneventful (.of_state fun p hp => ⟨hp, rfl⟩)
  | remoteCandidate => exact uneventful (.of_state fun p hp => ⟨hp, rfl⟩)
  | localCandidate => exact uneventful (.of_state fun p hp => ⟨hp, rfl⟩)
  | validPair valid generatedFrom unselected answered =>
    refine ⟨fun p hp hs => .inl ⟨hp, hs⟩, fun v hv => ?_⟩
    rcases (mem_orderedInsert _).mp hv with rfl | hv
    · exact .inr answered
    · exact kept v hv
  | @succeed pair answered => exact ⟨update pair _ fun _ => answered, kept⟩

theorem SessionStep.successes {out : List (StreamIndex × IceSent)} (inside : Inside session)
    (step : SessionStep call session out session') : SuccessesAnswered call.answered session session' := by
  rcases step.change_or_uneventful inside with
    ⟨i, cl, cl', requests, hi, change, -, rfl⟩ | ⟨hrel, -, -⟩
  · intro j clj hj
    by_cases heq : j = i
    · subst heq
      rw [setStream_self] at hj
      cases hj
      exact ⟨cl, hi, change.successes⟩
    · rw [setStream_ne session cl' heq] at hj
      exact SuccessesAnswered.refl call.answered session j clj hj
  · intro j cl' hj
    obtain ⟨cl, hcl, hun⟩ := exists_of_rel hrel hj
    exact ⟨cl, hcl, fun p hp hs => .inl (hun.state p hp _ (.inr rfl) hs),
      fun v hv => .inl (hun.validList v hv)⟩

/-! ## Runs -/

/-- The identifiers a call draws are new. -/
def DistinctIDs (run : IceRun) (input : IceInput) : Prop :=
  ∀ id ∈ input.drawn, id ∉ run.drawn

/-- Each request the timer sends again is for a pair whose newest transaction has no canceled one of
another pair in front of it. -/
def RetransmitsOwn (session : IceSession) : IceInput → Prop
  | .tick i now trId => RetransmissionsMeet session i now trId OwnTransactionFirst
  | _ => True

/-- The pair `ice_handle_received_binding_response` finds for a message. -/
def CreditedPair (session : IceSession) (i : StreamIndex) (msg : MSStunMessage) (p : PairRef) :
    Prop :=
  ∃ cl, session.streams i = some cl ∧ iceFindPairFromTransactionID cl msg.trId = some p

/-- Every request a check list has sent with an identifier was for a pair, and there was one unless
only relays may be used. -/
def AskedFor (run : IceRun) (i : StreamIndex) (p : PairRef) (trId : UInt96) : Prop :=
  (∀ q msg, (i, bindingRequest q msg) ∈ run.sent → msg.trId = trId → q = p) ∧
    (run.session.forcedRelay = false →
      ∃ msg, (i, bindingRequest p msg) ∈ run.sent ∧ msg.trId = trId)

/-- The pairs a call may credit with a success. -/
def Answers (session : IceSession) : IceInput → PairRef → Prop
  | .packet i evt, p => ∃ msg, msStunMessageCreateFromBufferParsing evt.packet = .ok (some msg) ∧
    CreditedPair session i msg p
  | _, _ => False

/-- A call sends requests with identifiers of their own pairs, and credits a response to the pair
that asked, the only one to succeed or to make a valid pair. -/
structure RightlyCredited (before : IceRun) (input : IceInput) (after : IceSession)
    (sent : List (StreamIndex × IceSent)) : Prop where
  requests : RequestsLive after sent
  asked : ∀ i evt msg p, input = .packet i evt →
    msStunMessageCreateFromBufferParsing evt.packet = .ok (some msg) →
    CreditedPair before.session i msg p → AskedFor before i p msg.trId
  succeeded : SuccessesAnswered (Answers before.session input) before.session after

/-- What is known of a call in such a run. -/
def creditingCall (session : IceSession) (input : IceInput) : IceCall where
  trId := input.trId
  fresh := True
  timer := input.IsTick
  retransmits := fun cl p => input.IsTick ∧ OwnTransactionFirst cl p
  answered := Answers session input
  takesRole := fun _ _ => True

/-- What holds in every state of such a run. -/
structure CreditInvariant (run : IceRun) : Prop where
  credits : Credits run.session run.sent
  drawn : ∀ i cl, run.session.streams i = some cl →
    ∀ t ∈ cl.transactionList, t.transactionID ∈ run.drawn

theorem creditingCall_allows {env : IceEnvironment} {run : IceRun} {input : IceInput} (inv : CreditInvariant run)
    (distinct : DistinctIDs run input) (own : RetransmitsOwn run.session input) :
    InputAllows env (creditingCall run.session input) run.session input := by
  cases input with
  | start => trivial
  | packet i evt =>
    refine ⟨rfl, fun msg hmsg => ⟨id, fun cl p hi _ hfind => ?_, fun _ _ _ _ => trivial⟩⟩
    exact ⟨msg, hmsg, cl, hi, hfind⟩
  | tick i now trId =>
    refine ⟨rfl, trivial, fun _ j cl hj t ht hid => ?_, ?_⟩
    · exact distinct trId (mem_singleton.mpr rfl) (hid ▸ inv.drawn j cl hj t ht)
    · have hcond : (creditingCall run.session (.tick i now trId)).retransmits =
          OwnTransactionFirst := by
        funext cl p
        simp [creditingCall, IceInput.IsTick]
      rw [hcond]
      exact own

theorem iceInput_rightlyCredited {env : IceEnvironment} {run : IceRun} {input : IceInput}
    {sent : List (StreamIndex × IceSent)} (inside : Inside run.session) (inv : CreditInvariant run)
    (distinct : DistinctIDs run input) (own : RetransmitsOwn run.session input)
    (returned : iceInput env run.session input = .ok (session', sent)) :
    RightlyCredited run input session' sent ∧
      CreditInvariant ⟨session', run.sent ++ sent, run.drawn ++ input.drawn⟩ := by
  have trace := iceInput_trace inside (creditingCall_allows inv distinct own) returned
  have silent : ¬ (creditingCall run.session input).timer →
      ∀ cl p, ¬ (creditingCall run.session input).retransmits cl p :=
    fun timer _ _ h => timer h.1
  -- along the small steps of the call
  have along := trace.preserves_output
    (fun session out => Inside session ∧ Credits session (run.sent ++ out) ∧
      RequestsLive session out ∧ SuccessesAnswered (Answers run.session input) run.session session ∧
      (¬ (creditingCall run.session input).timer → NoRequests out)) []
    (fun {session out out' session'} h step => by
      obtain ⟨inside, credits, live, successes, no⟩ := h
      have ownOf : ∀ cl p, (creditingCall run.session input).retransmits cl p →
          OwnTransactionFirst cl p := fun cl p h => h.2
      refine ⟨inside.step step, ?_, ?_, successes.trans (step.successes inside), ?_⟩
      · rw [← append_assoc]
        exact credits.step inside trivial ownOf step
      · exact live.step inside credits ownOf (fun timer => ⟨silent timer, no timer⟩) step
      · intro timer i p msg hmem
        rcases mem_append.mp hmem with hold | hnew
        · exact no timer i p msg hold
        · exact step.noRequests inside timer (silent timer) i p msg hnew)
    ⟨inside, by simpa using inv.credits, fun _ _ _ h => absurd h not_mem_nil,
      .refl _ _, fun _ _ _ _ h => absurd h not_mem_nil⟩
  obtain ⟨-, credits, live, successes, -⟩ := along
  refine ⟨⟨live, ?_, successes⟩, credits, ?_⟩
  · rintro i evt msg p rfl - ⟨cl, hi, hfind⟩
    obtain ⟨t, hfound, rfl⟩ := Option.map_eq_some_iff.mp hfind
    have ht := mem_of_find?_eq_some hfound
    have hid : t.transactionID = msg.trId := by simpa using List.find?_some hfound
    refine ⟨fun q msg' hsent hid' => ?_, fun hrelay => ?_⟩
    · obtain ⟨cl', hi', t', ht', ht'id, rfl⟩ := inv.credits.requested i q msg' hsent
      rw [hi] at hi'
      cases hi'
      exact (inv.credits.owned i cl hi).unique t' ht' t ht ((ht'id.trans hid').trans hid.symm)
    · obtain ⟨msg', hsent, hid'⟩ := inv.credits.wired hrelay i cl hi t ht
      exact ⟨msg', hsent, hid'.trans hid⟩
  · intro i cl hi t ht
    apply mem_append.mpr
    rcases SessionTrace.transaction trace inside hi ht with
      ⟨cl₀, hcl₀, t₀, ht₀, hid, -⟩ | ⟨timer, hid⟩
    · exact .inl (hid ▸ inv.drawn i cl₀ hcl₀ t₀ ht₀)
    · right
      rw [hid]
      cases input with
      | tick i now trId => exact mem_singleton.mpr rfl
      | start => exact timer.elim
      | packet i evt => exact timer.elim

theorem FreshSession.creditInvariant (h : FreshSession session) :
    CreditInvariant { session := session } where
  credits :=
    { owned := fun i cl hi => by
        have fresh := h.lists i cl hi
        exact ⟨by simp [fresh.transactionList], by simp [fresh.nextPair]⟩
      requested := by simp
      wired := fun _ i cl hi t ht => by
        simp [(h.lists i cl hi).transactionList] at ht }
  drawn i cl hi t ht := by simp [(h.lists i cl hi).transactionList] at ht

/-- In every run that draws new identifiers and sends requests again with the transaction of their
own pair, every request carries an identifier of its pair that is not canceled, and every response
is credited to the pair that asked. -/
theorem iceFindTransaction_rightlyCredited {env : IceEnvironment} {before : IceRun}
    {input : IceInput} {sent : List (StreamIndex × IceSent)} (fresh : FreshSession session)
    (reaches : IceReaches env
      (fun run input => DistinctIDs run input ∧ RetransmitsOwn run.session input)
      { session := session } before)
    (distinct : DistinctIDs before input) (own : RetransmitsOwn before.session input)
    (returned : iceInput env before.session input = .ok (session', sent)) :
    RightlyCredited before input session' sent := by
  obtain ⟨inside, inv⟩ := reaches.invariant CreditInvariant (fun input inside inv cond returned =>
      ⟨inside.trace (iceInput_trace inside (anyCall_allows env _ input) returned),
        (iceInput_rightlyCredited inside inv cond.1 cond.2 returned).2⟩)
    fresh.inside fresh.creditInvariant
  exact (iceInput_rightlyCredited inside inv distinct own returned).1

/-! ## A canceled check of another pair -/

instance (run : IceRun) (input : IceInput) : Decidable (DistinctIDs run input) :=
  inferInstanceAs (Decidable (∀ id ∈ input.drawn, id ∉ run.drawn))

instance (session : IceSession) : ∀ input, Decidable (RetransmitsOwn session input)
  | .start => .isTrue trivial
  | .packet _ _ => .isTrue trivial
  | .tick i now trId =>
    inferInstanceAs (Decidable (RetransmissionsMeet session i now trId OwnTransactionFirst))

/-- Checks for both pairs, the second while the first is still waiting for its response. -/
def twoChecks : List IceInput := [.start, .tick firstStream 100 [1], .tick firstStream 200 [2]]

/-- Without a cancellation, the first request is sent again with its own identifier. -/
theorem iceFindTransaction_rightlyCredited_twoChecks : ∃ before session' sent,
      iceInput sampleEnvironment before.session (.tick firstStream 320 [4]) = .ok (session', sent) ∧
      sent ≠ [] ∧ RightlyCredited before (.tick firstStream 320 [4]) session' sent := by
  have heval : (callAfter sampleEnvironment
      (fun run input => decide (DistinctIDs run input) && decide (RetransmitsOwn run.session input))
      { session := sampleSession } twoChecks (.tick firstStream 320 [4])).map
        (fun call => call.2.2.isEmpty) = some false := by
    decide +kernel
  obtain ⟨⟨before, session', sent⟩, hcall, hsent⟩ := Option.map_eq_some_iff.mp heval
  obtain ⟨reaches, cond, returned⟩ := callAfter_reaches
    (fun run input => DistinctIDs run input ∧ RetransmitsOwn run.session input)
    (fun run input h => by simpa using h) hcall
  exact ⟨before, session', sent, returned, by simpa using hsent,
    iceFindTransaction_rightlyCredited sampleSession_fresh reaches cond.1 cond.2 returned⟩

/-- A request cancels the check of the second pair; then the first request is sent again with the
identifier of the second pair. -/
theorem iceFindTransaction_otherPair :
    ¬ ∀ (env : IceEnvironment) (session : IceSession) (before : IceRun) (input : IceInput)
        (session' : IceSession) (sent : List (StreamIndex × IceSent)),
        FreshSession session → IceReaches env DistinctIDs { session := session } before →
        DistinctIDs before input → iceInput env before.session input = .ok (session', sent) →
        RightlyCredited before input session' sent := by
  intro h
  have heval : (callAfter sampleEnvironment (fun run input => decide (DistinctIDs run input))
      { session := sampleSession }
      (twoChecks ++ [.packet firstStream (arrival controlledRequest 3 250 [3])])
      (.tick firstStream 320 [4])).map (fun call => decide (RequestsLive call.2.1 call.2.2)) =
        some false := by
    decide +kernel
  obtain ⟨⟨before, session', sent⟩, hcall, hdead⟩ := Option.map_eq_some_iff.mp heval
  obtain ⟨reaches, distinct, returned⟩ := callAfter_reaches DistinctIDs
    (fun run input h => of_decide_eq_true h) hcall
  have credited := h _ _ _ _ _ _ sampleSession_fresh reaches distinct returned
  exact of_decide_eq_false hdead credited.requests

end GrooveIp.Ice
