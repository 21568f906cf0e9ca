import GrooveIp.Lib.Fuelled
import GrooveIp.Ice.Quiet

/-!
# What pairing leaves of a check list

Pairing the candidates (`ice.c:3281–3459`) adds frozen pairs and makes the check list anew. It
keeps the checks that were made before, apart from server reflexive candidates, which give way to
their base.
-/

namespace GrooveIp.Ice

open Lib Stun List

/-- What pairing keeps of a pair. -/
structure PairKept (p p' : IceCandidatePair) : Prop where
  remoteCandidate : p'.remoteCandidate = p.remoteCandidate
  state : p'.state = p.state
  priority : p'.priority = p.priority
  isNominated : p'.isNominated = p.isNominated

/-- What pairing keeps of a check list. -/
structure Paired (cl cl' : IceCheckList) : Prop where
  nextPair : cl.nextPair ≤ cl'.nextPair
  old : ∀ p < cl.nextPair, PairKept (cl.heap p) (cl'.heap p)
  new : ∀ p < cl'.nextPair, cl.nextPair ≤ p → (cl'.heap p).state = .frozen
  localCandidates : cl'.localCandidates = cl.localCandidates
  remoteCandidates : cl'.remoteCandidates = cl.remoteCandidates
  losingPairs : cl'.losingPairs = cl.losingPairs
  queue : cl'.triggeredChecksQueue = cl.triggeredChecksQueue
  validList : cl'.validList.Sublist cl.validList
  localComponentIDs : cl'.localComponentIDs = cl.localComponentIDs
  transactionList : cl'.transactionList = cl.transactionList
  state : cl'.state = cl.state

namespace PairKept

theorem refl (p : IceCandidatePair) : PairKept p p := ⟨rfl, rfl, rfl, rfl⟩

theorem trans {p q r : IceCandidatePair} (h : PairKept p q) (h' : PairKept q r) : PairKept p r where
  remoteCandidate := h'.remoteCandidate.trans h.remoteCandidate
  state := h'.state.trans h.state
  priority := h'.priority.trans h.priority
  isNominated := h'.isNominated.trans h.isNominated

end PairKept

namespace Paired

variable {cl cl' cl'' : IceCheckList}

theorem of_heap (heap : cl'.heap = cl.heap := by rfl)
    (nextPair : cl'.nextPair = cl.nextPair := by rfl)
    (localCandidates : cl'.localCandidates = cl.localCandidates := by rfl)
    (remoteCandidates : cl'.remoteCandidates = cl.remoteCandidates := by rfl)
    (losingPairs : cl'.losingPairs = cl.losingPairs := by rfl)
    (queue : cl'.triggeredChecksQueue = cl.triggeredChecksQueue := by rfl)
    (validList : cl'.validList.Sublist cl.validList := by exact List.Sublist.refl _)
    (localComponentIDs : cl'.localComponentIDs = cl.localComponentIDs := by rfl)
    (transactionList : cl'.transactionList = cl.transactionList := by rfl)
    (state : cl'.state = cl.state := by rfl) : Paired cl cl' := by
  refine ⟨nextPair.ge, fun p _ => ?_, fun p hp hge => ?_, localCandidates, remoteCandidates,
    losingPairs, queue, validList, localComponentIDs, transactionList, state⟩
  · rw [heap]
    exact PairKept.refl _
  · rw [nextPair] at hp
    exact absurd hp (Nat.not_lt.mpr hge)

theorem refl (cl : IceCheckList) : Paired cl cl := of_heap

theorem trans (h : Paired cl cl') (h' : Paired cl' cl'') : Paired cl cl'' where
  nextPair := h.nextPair.trans h'.nextPair
  old p hp := (h.old p hp).trans (h'.old p (hp.trans_le h.nextPair))
  new p hp hge := by
    by_cases hlt : p < cl'.nextPair
    · rw [(h'.old p hlt).state]
      exact h.new p hlt hge
    · exact h'.new p hp (Nat.not_lt.mp hlt)
  localCandidates := h'.localCandidates.trans h.localCandidates
  remoteCandidates := h'.remoteCandidates.trans h.remoteCandidates
  losingPairs := h'.losingPairs.trans h.losingPairs
  queue := h'.queue.trans h.queue
  validList := h'.validList.trans h.validList
  localComponentIDs := h'.localComponentIDs.trans h.localComponentIDs
  transactionList := h'.transactionList.trans h.transactionList
  state := h'.state.trans h.state

/-- A new frozen pair. -/
theorem appendPair (cl : IceCheckList) {pair : IceCandidatePair} (h : pair.state = .frozen) :
    Paired cl (cl.appendPair pair) where
  nextPair := Nat.le_succ _
  old p hp := by
    simpa [IceCheckList.appendPair, Nat.ne_of_lt hp] using PairKept.refl _
  new p hp hge := by
    have heq : p = cl.nextPair := Nat.le_antisymm (Nat.le_of_lt_succ hp) hge
    simp [IceCheckList.appendPair, heq, h]
  localCandidates := rfl
  remoteCandidates := rfl
  losingPairs := rfl
  queue := rfl
  validList := List.Sublist.refl _
  localComponentIDs := rfl
  transactionList := rfl
  state := rfl

theorem updatePair (cl : IceCheckList) (pair : PairRef) {f : IceCandidatePair → IceCandidatePair}
    (h : PairKept (cl.heap pair) (f (cl.heap pair))) : Paired cl (cl.updatePair pair f) where
  nextPair := Nat.le_refl _
  old p _ := by
    by_cases hp : p = pair
    · subst hp
      simpa [IceCheckList.updatePair] using h
    · simpa [IceCheckList.updatePair, hp] using PairKept.refl _
  new _ hp hge := absurd hp (Nat.not_lt.mpr hge)
  localCandidates := rfl
  remoteCandidates := rfl
  losingPairs := rfl
  queue := rfl
  validList := List.Sublist.refl _
  localComponentIDs := rfl
  transactionList := rfl
  state := rfl

end Paired

/-! ## Forming pairs -/

variable {cl : IceCheckList}

/-- A pair of candidates there are keeps the pointers inside. -/
theorem WellFormed.appendPair (h : WellFormed cl) {pair : IceCandidatePair}
    (hl : pair.localCandidate < cl.localCandidates.length)
    (hr : pair.remoteCandidate < cl.remoteCandidates.length) : WellFormed (cl.appendPair pair) where
  pairs p hp := by
    simp only [IceCheckList.appendPair, mem_append, mem_singleton] at hp ⊢
    rcases hp with hp | rfl
    · exact Nat.lt_succ_of_lt (h.pairs p hp)
    · exact Nat.lt_succ_self _
  checkList p hp := mem_append_left _ (h.checkList p hp)
  queue p hp := Nat.lt_succ_of_lt (h.queue p hp)
  validList v hv :=
    ⟨Nat.lt_succ_of_lt (h.validList v hv).1, Nat.lt_succ_of_lt (h.validList v hv).2⟩
  transactions t ht := Nat.lt_succ_of_lt (h.transactions t ht)
  candidates p hp := by
    by_cases heq : p = cl.nextPair
    · simpa [IceCheckList.appendPair, heq] using ⟨hl, hr⟩
    · have hlt : p < cl.nextPair := Nat.lt_of_le_of_ne (Nat.le_of_lt_succ hp) heq
      simpa [IceCheckList.appendPair, heq] using h.candidates p hlt
  bases := h.bases
  components := h.components
  losingPairs := h.losingPairs

theorem iceFormCandidatePairs_fold (session : IceSession) (refs : List (CandidateRef × CandidateRef))
    (cl : IceCheckList)
    (hrefs : ∀ r ∈ refs, r.1 < cl.localCandidates.length ∧ r.2 < cl.remoteCandidates.length)
    (h : WellFormed cl) : Paired cl (refs.foldl (iceFormCandidatePair session) cl) ∧
      WellFormed (refs.foldl (iceFormCandidatePair session) cl) := by
  induction refs generalizing cl with
  | nil => exact ⟨.refl cl, h⟩
  | cons r refs ih =>
    have hr := hrefs r mem_cons_self
    have hrest := fun q hq => hrefs q (mem_cons_of_mem r hq)
    rw [foldl_cons]
    by_cases hform : (cl.localAt r.1).componentID == (cl.remoteAt r.2).componentID &&
        (cl.localAt r.1).taddr.family == (cl.remoteAt r.2).taddr.family
    · have hstep : iceFormCandidatePair session cl r =
          cl.appendPair (icePairNew session cl r.1 r.2) := if_pos hform
      rw [hstep]
      have new : Paired cl (cl.appendPair (icePairNew session cl r.1 r.2)) := .appendPair cl rfl
      have rest := ih (cl.appendPair (icePairNew session cl r.1 r.2)) hrest (h.appendPair hr.1 hr.2)
      exact ⟨new.trans rest.1, rest.2⟩
    · have hstep : iceFormCandidatePair session cl r = cl := if_neg hform
      rw [hstep]
      exact ih cl hrest h

/-- Every pointer the loop visits names a candidate. -/
theorem mem_candidateRefs {r : CandidateRef × CandidateRef} (h : r ∈ candidateRefs cl) :
    r.1 < cl.localCandidates.length ∧ r.2 < cl.remoteCandidates.length := by
  simp only [candidateRefs, mem_flatMap, mem_range, mem_map] at h
  obtain ⟨l, hl, r', hr, rfl⟩ := h
  exact ⟨hl, hr⟩

/-! ## Pruning -/

variable {cl' : IceCheckList}

theorem iceReplaceSrflxByBaseInPair_spec {pair : PairRef} (hp : pair < cl.nextPair)
    (h : WellFormed cl) (hr : iceReplaceSrflxByBaseInPair cl pair = .ok cl') :
    Paired cl cl' ∧ WellFormed cl' ∧ cl'.nextPair = cl.nextPair := by
  unfold iceReplaceSrflxByBaseInPair at hr
  split at hr
  · split at hr
    · cases hr
    · next base hbase =>
      cases hr
      have hin : (cl.heap pair).localCandidate < cl.localCandidates.length :=
        (h.candidates pair hp).1
      have hlt : base < cl.localCandidates.length := by
        apply h.bases (cl.localOf pair) ?_ base hbase
        simp [IceCheckList.localOf, IceCheckList.localAt, hin]
      refine ⟨.updatePair cl pair ⟨rfl, rfl, rfl, rfl⟩, ?_, rfl⟩
      refine { h with candidates := fun p hp' => ?_ }
      by_cases heq : p = pair
      · simpa [IceCheckList.updatePair, heq] using ⟨hlt, (h.candidates pair hp).2⟩
      · simpa [IceCheckList.updatePair, heq] using h.candidates p hp'
  · cases hr
    exact ⟨.refl cl, h, rfl⟩

theorem iceReplaceSrflxByBase_fold (l : List PairRef) (hl : ∀ p ∈ l, p < cl.nextPair)
    (h : WellFormed cl) (hr : l.foldlM iceReplaceSrflxByBaseInPair cl = .ok cl') :
    Paired cl cl' ∧ WellFormed cl' := by
  induction l generalizing cl with
  | nil =>
    obtain rfl := Except.ok.inj hr
    exact ⟨.refl cl, h⟩
  | cons p l ih =>
    rw [foldlM_cons] at hr
    obtain ⟨cl₁, hstep, hr⟩ := bind_eq_ok.mp hr
    have step := iceReplaceSrflxByBaseInPair_spec (hl p mem_cons_self) h hstep
    have rest := ih (fun q hq => by
      rw [step.2.2]
      exact hl q (mem_cons_of_mem p hq)) step.2.1 hr
    exact ⟨step.1.trans rest.1, rest.2⟩

/-- Removing duplicates only takes pairs and valid pairs away. -/
theorem icePruneDuplicatePairs_spec (cl : IceCheckList) (passed rest : List PairRef) :
    Paired cl (icePruneDuplicatePairs cl passed rest) ∧
      (icePruneDuplicatePairs cl passed rest).nextPair = cl.nextPair ∧
      (icePruneDuplicatePairs cl passed rest).heap = cl.heap ∧
      (icePruneDuplicatePairs cl passed rest).pairs.Sublist (passed ++ rest) := by
  have free : ∀ (cl : IceCheckList) (pairs : List PairRef) (pair : PairRef),
      Paired cl (iceFreeCandidatePair { cl with pairs := pairs } pair) := by
    intro cl pairs pair
    have same := Paired.refl cl
    exact { same with validList := filter_sublist }
  induction rest generalizing cl passed with
  | nil =>
    rw [append_nil]
    exact ⟨.of_heap, rfl, rfl, List.Sublist.refl _⟩
  | cons pair rest ih =>
    have skip : (passed ++ rest).Sublist (passed ++ pair :: rest) :=
      (List.Sublist.refl passed).append (sublist_cons_self pair rest)
    have keep := ih cl (passed ++ [pair])
    rw [append_assoc, singleton_append] at keep
    unfold icePruneDuplicatePairs
    split
    · split
      · split
        · exact ⟨free cl _ pair, rfl, rfl, skip⟩
        · have removed := ih (iceFreeCandidatePair cl pair) passed
          exact ⟨(free cl cl.pairs pair).trans removed.1, removed.2.1, removed.2.2.1,
            removed.2.2.2.trans skip⟩
      · exact keep
    · exact keep

/-! ## The check list -/

/-- The order of a check list: no pair before a better one. -/
def Ordered (heap : PairRef → IceCandidatePair) (list : List PairRef) : Prop :=
  list.Pairwise fun p q => (heap q).priority ≤ (heap p).priority

/-- `bctbx_list_insert_sorted` keeps the order. -/
theorem Ordered.insertByPriority {heap : PairRef → IceCandidatePair} {list : List PairRef}
    (h : Ordered heap list) (pair : PairRef) : Ordered heap (insertByPriority heap pair list) := by
  exact List.Pairwise.orderedInsert pair list h

/-- What it holds afterwards. -/
theorem mem_insertByPriority {heap : PairRef → IceCandidatePair} {p pair : PairRef}
    {list : List PairRef} : p ∈ insertByPriority heap pair list ↔ p = pair ∨ p ∈ list :=
  mem_orderedInsert _

/-- The new check list holds pairs, the better ones first. -/
theorem iceCreateCheckList_spec (cl : IceCheckList) :
    Ordered cl.heap (iceCreateCheckList cl).checkList ∧
      ∀ p ∈ (iceCreateCheckList cl).checkList, p ∈ cl.pairs := by
  have fold : ∀ (l acc : List PairRef), Ordered cl.heap acc →
      Ordered cl.heap (l.foldl (fun list pair => insertByPriority cl.heap pair list) acc) ∧
      ∀ p ∈ l.foldl (fun list pair => insertByPriority cl.heap pair list) acc, p ∈ acc ∨ p ∈ l := by
    intro l
    induction l with
    | nil => exact fun acc h => ⟨h, fun p hp => .inl hp⟩
    | cons pair l ih =>
      intro acc h
      have rest := ih (insertByPriority cl.heap pair acc) (h.insertByPriority pair)
      refine ⟨rest.1, fun p hp => ?_⟩
      rcases rest.2 p hp with hp | hp
      · rcases mem_insertByPriority.mp hp with rfl | hp
        · exact .inr mem_cons_self
        · exact .inl hp
      · exact .inr (mem_cons_of_mem _ hp)
  have all := fold cl.pairs [] List.Pairwise.nil
  exact ⟨all.1, fun p hp => (all.2 p hp).resolve_left not_mem_nil⟩

theorem WellFormed.remade (h : WellFormed cl) (paired : Paired cl cl')
    (nextPair : cl'.nextPair = cl.nextPair) (heap : cl'.heap = cl.heap)
    (pairs : cl'.pairs.Sublist cl.pairs) (checkList : ∀ p ∈ cl'.checkList, p ∈ cl'.pairs) :
    WellFormed cl' where
  pairs p hp := nextPair ▸ h.pairs p (pairs.subset hp)
  checkList := checkList
  queue p hp := nextPair ▸ h.queue p (paired.queue ▸ hp)
  validList v hv := nextPair ▸ h.validList v (paired.validList.subset hv)
  transactions t ht := nextPair ▸ h.transactions t (paired.transactionList ▸ ht)
  candidates p hp := by
    rw [heap, paired.localCandidates, paired.remoteCandidates]
    exact h.candidates p (nextPair ▸ hp)
  bases := paired.localCandidates ▸ h.bases
  components := by
    rw [paired.localCandidates, paired.localComponentIDs]
    exact h.components
  losingPairs := paired.losingPairs.trans h.losingPairs

theorem icePruneCandidatePairs_spec {session : IceSession} (h : WellFormed cl)
    (hr : icePruneCandidatePairs session cl = .ok cl') :
    Paired cl cl' ∧ WellFormed cl' ∧ Ordered cl'.heap cl'.checkList := by
  unfold icePruneCandidatePairs at hr
  obtain ⟨cl₁, hbase, hr⟩ := bind_eq_ok.mp hr
  simp only [bind, Except.bind] at hr
  split at hr
  · cases hr
  · cases hr
    have replaced := iceReplaceSrflxByBase_fold cl.pairs h.pairs h hbase
    have pruned := icePruneDuplicatePairs_spec cl₁ [] cl₁.pairs
    have created := iceCreateCheckList_spec (icePruneDuplicatePairs cl₁ [] cl₁.pairs)
    have create : Paired (icePruneDuplicatePairs cl₁ [] cl₁.pairs)
        (iceCreateCheckList (icePruneDuplicatePairs cl₁ [] cl₁.pairs)) := .of_heap
    refine ⟨(replaced.1.trans pruned.1).trans create, ?_, created.1⟩
    exact replaced.2.remade (pruned.1.trans create) pruned.2.1 pruned.2.2.1 pruned.2.2.2 created.2

/-- `ice_check_list_pair_candidates` of a running check list. -/
theorem iceCheckListPairCandidates_spec {session : IceSession} (h : WellFormed cl)
    (running : cl.state = .running) (hr : iceCheckListPairCandidates session cl = .ok cl') :
    Paired cl cl' ∧ WellFormed cl' ∧ Ordered cl'.heap cl'.checkList := by
  rw [iceCheckListPairCandidates, if_pos running] at hr
  have start : Paired cl { cl with connectivityChecksRunning := true } := .of_heap
  have wf : WellFormed { cl with connectivityChecksRunning := true } := h.quiet .of_eq
  have formed := iceFormCandidatePairs_fold session
    (candidateRefs { cl with connectivityChecksRunning := true }) _
    (fun r hr => mem_candidateRefs hr) wf
  obtain ⟨cl₁, hprune, hr⟩ := bind_eq_ok.mp hr
  cases hr
  have pruned := icePruneCandidatePairs_spec formed.2 hprune
  have generate : Paired cl₁ (iceGeneratePairFoundations cl₁) := .of_heap
  exact ⟨((start.trans formed.1).trans pruned.1).trans generate, pruned.2.1.quiet .of_eq,
    pruned.2.2⟩

end GrooveIp.Ice
