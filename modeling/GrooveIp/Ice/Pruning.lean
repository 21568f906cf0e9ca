import Mathlib.Data.List.ProdSigma
import GrooveIp.Ice.Formation
import GrooveIp.Lib.FirstOfClass

/-!
# What pruning leaves of the pairs

Pruning (`ice.c:3304–3392`) is to leave of the pairs with the same candidates the one of highest
priority, of these no more than the limit, and in their order. A pair gives way to the first pair
of the list with the same candidates, and the first pair itself to none. With more pairs than the
limit the links of the check list are read after they were freed.
-/

namespace GrooveIp.Ice

open Lib List

/-! ## The limit -/

/-- `list->prev` of the link of a pair. -/
def linkBefore (list : List PairRef) (pair : PairRef) : Option PairRef :=
  (list.takeWhile (· ≠ pair)).getLast?

/-- Some rounds of the loop that limits the connectivity checks (`ice.c:3384–3390`), from a link on.
-/
def iceRemoveLastPairs (cl : IceCheckList) (list : Option PairRef) : Nat → Except Fault IceCheckList
  | 0 => .ok cl
  | n + 1 =>
    match list with
    | none => .error .nullDereference
    | some pair =>
      let cl := iceFreeCandidatePair { cl with pairs := cl.pairs.erase pair } pair
      if pair ∈ cl.checkList then
        iceRemoveLastPairs { cl with checkList := cl.checkList.erase pair }
          (linkBefore cl.checkList pair) n
      else .error .outOfBounds

theorem iceRemoveLastPairs_succ (cl : IceCheckList) (pair : PairRef) (n : Nat) :
    iceRemoveLastPairs cl (some pair) (n + 1) = .error .outOfBounds := by
  exact if_neg (by simp [iceFreeCandidatePair])

/-- `ice_prune_candidate_pairs` with its last loop written out. -/
theorem icePruneCandidatePairs_eq (session : IceSession) (cl : IceCheckList) :
    icePruneCandidatePairs session cl = (do
      let cl ← cl.pairs.foldlM iceReplaceSrflxByBaseInPair cl
      let cl := iceCreateCheckList (icePruneDuplicatePairs cl [] cl.pairs)
      iceRemoveLastPairs cl cl.checkList.getLast?
        (cl.checkList.length - session.maxConnectivityChecks.toNat)) := by
  unfold icePruneCandidatePairs
  congr 1
  funext cl
  simp only
  generalize iceCreateCheckList (icePruneDuplicatePairs cl [] cl.pairs) = created
  split
  · next hlt =>
    obtain ⟨n, hn⟩ := Nat.exists_eq_add_one.mpr (Nat.sub_pos_of_lt hlt)
    have hne : created.checkList ≠ [] := ne_nil_of_length_pos (by omega)
    rw [hn, List.getLast?_eq_getLast_of_ne_nil hne, iceRemoveLastPairs_succ]
    rfl
  · next hle =>
    rw [Nat.sub_eq_zero_of_le (Nat.not_lt.mp hle), iceRemoveLastPairs]
    rfl

/-! ## The pairs with the same candidates -/

/-- What `ice_compare_candidates` looks at. -/
def candidateKey (c : IceCandidate) : IceCandidateType × IceTransportAddress × UInt16 × UInt32 :=
  (c.type, c.taddr, c.componentID, c.priority)

/-- What `ice_compare_pairs` looks at. -/
def IceCheckList.keyOf (cl : IceCheckList) (pair : PairRef) :=
  (candidateKey (cl.localOf pair), candidateKey (cl.remoteOf pair))

/-- The priority of a pair, as a number. -/
def IceCheckList.rankOf (cl : IceCheckList) (pair : PairRef) : Nat :=
  (cl.heap pair).priority.toNat

theorem iceCompareTransportAddresses_eq_false {ta1 ta2 : IceTransportAddress} :
    iceCompareTransportAddresses ta1 ta2 = false ↔ ta1 = ta2 := by
  cases ta1
  cases ta2
  simp only [iceCompareTransportAddresses, Bool.not_eq_eq_eq_not, Bool.not_false, Bool.and_eq_true,
    beq_iff_eq, IceTransportAddress.mk.injEq]
  tauto

theorem iceCompareCandidates_eq_false {c1 c2 : IceCandidate} :
    iceCompareCandidates c1 c2 = false ↔ candidateKey c1 = candidateKey c2 := by
  simp only [iceCompareCandidates, candidateKey, Bool.not_eq_eq_eq_not, Bool.not_false,
    Bool.and_eq_true, beq_iff_eq, Prod.mk.injEq, Bool.not_true,
      iceCompareTransportAddresses_eq_false]
  tauto

variable {cl : IceCheckList}

theorem iceComparePairs_eq_false {p q : PairRef} :
    iceComparePairs cl p q = false ↔ cl.keyOf p = cl.keyOf q := by
  simp [iceComparePairs, IceCheckList.keyOf, iceCompareCandidates_eq_false]

theorem icePruneDuplicatePairs_pairs (cl : IceCheckList) (passed rest : List PairRef) :
    (icePruneDuplicatePairs cl passed rest).pairs = pruneLoop cl.keyOf cl.rankOf passed rest := by
  induction rest generalizing cl passed with
  | nil => rfl
  | cons pair rest ih =>
    have find : (fun other => !iceComparePairs cl other pair) =
        fun other => decide (cl.keyOf other = cl.keyOf pair) := by
      funext other
      rw [Bool.eq_iff_iff, decide_eq_true_iff, Bool.not_eq_true', iceComparePairs_eq_false]
    rw [icePruneDuplicatePairs, pruneLoop, find]
    cases hfirst : (passed ++ pair :: rest).find? fun other =>
        decide (cl.keyOf other = cl.keyOf pair) with
    | none =>
      have first : firstLike cl.keyOf (passed ++ pair :: rest) pair = pair := by
        rw [firstLike, hfirst]
        rfl
      rw [first, if_neg (Nat.lt_irrefl _)]
      exact ih cl _
    | some other =>
      have first : firstLike cl.keyOf (passed ++ pair :: rest) pair = other := by
        rw [firstLike, hfirst]
        rfl
      rw [first]
      by_cases hlt : cl.rankOf pair < cl.rankOf other
      · have hgt : (cl.heap other).priority > (cl.heap pair).priority :=
          UInt64.lt_iff_toNat_lt.mpr hlt
        simp only [if_pos hlt, if_pos hgt]
        split
        · next hend =>
          rcases hend with rfl | rfl
          · rw [← first] at hlt
            exact absurd hlt (not_outranked_head _ _ _ _)
          · simp [iceFreeCandidatePair, pruneLoop]
        · exact ih (iceFreeCandidatePair cl pair) passed
      · have hle : ¬(cl.heap other).priority > (cl.heap pair).priority :=
          fun h => hlt (UInt64.lt_iff_toNat_lt.mp h)
        simp only [if_neg hlt, if_neg hle]
        exact ih cl _

theorem iceCreateCheckList_perm (cl : IceCheckList) :
    (iceCreateCheckList cl).checkList.Perm cl.pairs := by
  have fold : ∀ l acc : List PairRef,
      (l.foldl (fun list pair => insertByPriority cl.heap pair list) acc).Perm (l ++ acc) := by
    intro l
    induction l with
    | nil => exact fun acc => List.Perm.refl acc
    | cons pair l ih =>
      intro acc
      have insert : (insertByPriority cl.heap pair acc).Perm (pair :: acc) :=
        perm_orderedInsert _ pair acc
      exact (ih _).trans ((insert.append_left l).trans perm_middle)
  have all := fold cl.pairs []
  rwa [append_nil] at all

/-! ## The pairs that are formed -/

/-- The local candidate that a pair has after `ice_replace_srflx_by_base_in_pair`. -/
def IceCheckList.standIn (cl : IceCheckList) (l : CandidateRef) : CandidateRef :=
  if (cl.localAt l).type = .serverReflexive then (cl.localAt l).base.getD l else l

/-- The condition of `ice_form_candidate_pairs`. -/
def IceCheckList.pairable (cl : IceCheckList) (refs : CandidateRef × CandidateRef) : Bool :=
  (cl.localAt refs.1).componentID == (cl.remoteAt refs.2).componentID &&
    (cl.localAt refs.1).taddr.family == (cl.remoteAt refs.2).taddr.family

/-- The candidates that are paired, in the order of their pairs. -/
def pairedRefs (cl : IceCheckList) : List (CandidateRef × CandidateRef) :=
  (candidateRefs cl).filter cl.pairable

/-- What `ice_compare_pairs` will look at. -/
def IceCheckList.refsKey (cl : IceCheckList) (refs : CandidateRef × CandidateRef) :=
  (candidateKey (cl.localAt (cl.standIn refs.1)), candidateKey (cl.remoteAt refs.2))

/-- The priority the pair will have, as a number. -/
def refsRank (role : IceRole) (cl : IceCheckList) (refs : CandidateRef × CandidateRef) : Nat :=
  (icePairPriority role (cl.localAt refs.1).priority (cl.remoteAt refs.2).priority).toNat

/-- The candidates of a pair. -/
def IceCheckList.refsOf (cl : IceCheckList) (pair : PairRef) : CandidateRef × CandidateRef :=
  ((cl.heap pair).localCandidate, (cl.heap pair).remoteCandidate)

/-- What `ice_form_candidate_pairs` has made of some candidates. -/
structure Formed (session : IceSession) (cl cl' : IceCheckList)
    (refs : List (CandidateRef × CandidateRef)) : Prop where
  localCandidates : cl'.localCandidates = cl.localCandidates
  remoteCandidates : cl'.remoteCandidates = cl.remoteCandidates
  below : ∀ p ∈ cl'.pairs, p < cl'.nextPair
  nodup : cl'.pairs.Nodup
  pairs : cl'.pairs.map cl'.heap = refs.map fun r => icePairNew session cl r.1 r.2

theorem Formed.step {session : IceSession} {cl cl' : IceCheckList}
    {refs : List (CandidateRef × CandidateRef)} (h : Formed session cl cl' refs)
    (r : CandidateRef × CandidateRef) :
    Formed session cl (iceFormCandidatePair session cl' r) (refs ++ [r].filter cl.pairable) := by
  have hl : cl'.localAt = cl.localAt := by
    unfold IceCheckList.localAt
    rw [h.localCandidates]
  have hr : cl'.remoteAt = cl.remoteAt := by
    unfold IceCheckList.remoteAt
    rw [h.remoteCandidates]
  by_cases hpair : cl.pairable r = true
  · have hstep : iceFormCandidatePair session cl' r =
        cl'.appendPair (icePairNew session cl r.1 r.2) := by
      unfold iceFormCandidatePair icePairNew
      rw [hl, hr]
      exact if_pos hpair
    rw [hstep, filter_cons_of_pos hpair, filter_nil]
    refine ⟨h.localCandidates, h.remoteCandidates, ?_, ?_, ?_⟩
    · intro p hp
      rcases mem_append.mp hp with hp | hp
      · exact Nat.lt_succ_of_lt (h.below p hp)
      · exact (mem_singleton.mp hp) ▸ Nat.lt_succ_self _
    · refine nodup_append.mpr ⟨h.nodup, nodup_singleton _, ?_⟩
      intro p hp q hq
      exact mem_singleton.mp hq ▸ Nat.ne_of_lt (h.below p hp)
    · have old : cl'.pairs.map (cl'.appendPair (icePairNew session cl r.1 r.2)).heap =
          cl'.pairs.map cl'.heap := by
        refine map_congr_left fun p hp => ?_
        exact if_neg (Nat.ne_of_lt (h.below p hp))
      change (cl'.pairs ++ [cl'.nextPair]).map _ = _
      rw [map_append, old, h.pairs, map_append]
      simp [IceCheckList.appendPair]
  · have hstep : iceFormCandidatePair session cl' r = cl' := by
      unfold iceFormCandidatePair
      rw [hl, hr]
      exact if_neg hpair
    rwa [hstep, filter_cons_of_neg hpair, filter_nil, append_nil]

theorem formed (session : IceSession) (hpairs : cl.pairs = []) :
    Formed session cl (iceFormCandidatePairs session cl) (pairedRefs cl) := by
  have fold : ∀ (l : List (CandidateRef × CandidateRef)) (cl' : IceCheckList)
      (refs : List (CandidateRef × CandidateRef)), Formed session cl cl' refs →
      Formed session cl (l.foldl (iceFormCandidatePair session) cl')
        (refs ++ l.filter cl.pairable) := by
    intro l
    induction l with
    | nil => exact fun cl' refs h => by rwa [filter_nil, append_nil]
    | cons r l ih =>
      intro cl' refs h
      have hnext := ih _ _ (h.step r)
      rwa [append_assoc, ← filter_append] at hnext
  exact fold _ cl [] ⟨rfl, rfl, by simp [hpairs], by simp [hpairs], by simp [hpairs]⟩

/-! ## Bases -/

variable {pair : PairRef}

theorem IceCheckList.updatePair_congr (cl : IceCheckList)
    {f g : IceCandidatePair → IceCandidatePair} (h : f (cl.heap pair) = g (cl.heap pair)) :
    cl.updatePair pair f = cl.updatePair pair g := by
  unfold IceCheckList.updatePair
  rw [h]

theorem IceCheckList.updatePair_self (cl : IceCheckList)
    {f : IceCandidatePair → IceCandidatePair} (h : f (cl.heap pair) = cl.heap pair) :
    cl.updatePair pair f = cl := by
  have heap : (fun p => if p = pair then f (cl.heap pair) else cl.heap p) = cl.heap := by
    funext p
    split
    · next heq => rw [h, heq]
    · rfl
  unfold IceCheckList.updatePair
  rw [heap]

theorem iceReplaceSrflxByBaseInPair_eq
    (hbase : (cl.localOf pair).type = .serverReflexive → (cl.localOf pair).base.isSome) :
    iceReplaceSrflxByBaseInPair cl pair = .ok (cl.updatePair pair fun p =>
        { p with localCandidate := cl.standIn p.localCandidate }) := by
  unfold iceReplaceSrflxByBaseInPair
  split
  · next htype =>
    obtain ⟨base, hsome⟩ := Option.isSome_iff_exists.mp (hbase htype)
    have standIn : cl.standIn (cl.heap pair).localCandidate = base := by
      unfold IceCheckList.localOf at hsome htype
      rw [IceCheckList.standIn, if_pos htype, hsome, Option.getD_some]
    rw [hsome]
    exact congrArg Except.ok (cl.updatePair_congr (by rw [standIn]))
  · next htype =>
    have standIn : cl.standIn (cl.heap pair).localCandidate = (cl.heap pair).localCandidate :=
      if_neg htype
    exact congrArg Except.ok (cl.updatePair_self (by rw [standIn])).symm

theorem iceReplaceSrflxByBase_foldlM {l : List PairRef} (hnd : l.Nodup)
    (hbase : ∀ p ∈ l, (cl.localOf p).type = .serverReflexive → (cl.localOf p).base.isSome) :
    l.foldlM iceReplaceSrflxByBaseInPair cl = .ok { cl with
        heap := fun p =>
          if p ∈ l then
            { cl.heap p with localCandidate := cl.standIn (cl.heap p).localCandidate }
          else cl.heap p } := by
  induction l generalizing cl with
  | nil => simp [pure, Except.pure]
  | cons pair l ih =>
    obtain ⟨hnot, hnd⟩ := nodup_cons.mp hnd
    have other : ∀ p ∈ l, p ≠ pair := fun p hp heq => hnot (heq ▸ hp)
    rw [foldlM_cons, iceReplaceSrflxByBaseInPair_eq (hbase pair mem_cons_self)]
    simp only [bind, Except.bind]
    rw [ih hnd fun p hp => ?_]
    · congr 2
      funext p
      by_cases hp : p = pair
      · subst hp
        simp [IceCheckList.updatePair, hnot]
      · simp [IceCheckList.updatePair, IceCheckList.standIn, IceCheckList.localAt, hp]
    · have hold := hbase p (mem_cons_of_mem pair hp)
      simpa [IceCheckList.localOf, IceCheckList.localAt, IceCheckList.updatePair, other p hp]
        using hold

/-! ## Pruning -/

/-- What pruning is to leave of the pairs that were formed. -/
structure Pruned (session : IceSession) (formed cl : IceCheckList) : Prop where
  subset : ∀ p ∈ cl.checkList, p ∈ formed.pairs
  sorted : Ordered cl.heap cl.checkList
  distinct : cl.checkList.Pairwise fun p q => iceComparePairs cl p q = true
  best : ∀ p ∈ cl.checkList, ∀ q ∈ formed.pairs, iceComparePairs cl p q = false →
    (cl.heap q).priority ≤ (cl.heap p).priority
  limit : cl.checkList.length ≤ session.maxConnectivityChecks.toNat
  highest : ∀ q ∈ formed.pairs, (∃ p ∈ cl.checkList, iceComparePairs cl p q = false) ∨
    cl.checkList.length = session.maxConnectivityChecks.toNat ∧
      ∀ p ∈ cl.checkList, (cl.heap q).priority ≤ (cl.heap p).priority
  same : cl.checkList.Perm cl.pairs

/-- Forming and pruning the pairs touches no link that was freed and leaves what it is to leave. -/
def PrunesPairs (session : IceSession) (cl : IceCheckList) : Prop :=
  ∃ cl', icePruneCandidatePairs session (iceFormCandidatePairs session cl) = .ok cl' ∧
    Pruned session (iceFormCandidatePairs session cl) cl'

/-- Of the candidates whose pairs will be the same, those paired first give the highest priority,
and their classes are within the limit. -/
structure Prunable (session : IceSession) (cl : IceCheckList) : Prop where
  firstBest : ∀ refs ∈ pairedRefs cl, firstLike cl.refsKey (pairedRefs cl) refs = refs ∨
      refsRank session.role cl refs <
        refsRank session.role cl (firstLike cl.refsKey (pairedRefs cl) refs)
  few : ((pairedRefs cl).filter fun refs => firstLike cl.refsKey (pairedRefs cl) refs = refs).length
    ≤ session.maxConnectivityChecks.toNat

/-- The server reflexive candidates have a base in the list. -/
def BasesListed (cl : IceCheckList) : Prop :=
  ∀ c ∈ cl.localCandidates, c.type = .serverReflexive →
    ∃ base < cl.localCandidates.length, c.base = some base

theorem pairedRefs_nodup (cl : IceCheckList) : (pairedRefs cl).Nodup :=
  (nodup_range.product nodup_range).filter _

section Formed

variable {session : IceSession} {cl cl' : IceCheckList} {refs : List (CandidateRef × CandidateRef)}

theorem Formed.refsOf (h : Formed session cl cl' refs) : cl'.pairs.map cl'.refsOf = refs := by
  have hmap : (cl'.pairs.map cl'.heap).map (fun p => (p.localCandidate, p.remoteCandidate)) =
      (refs.map fun r => icePairNew session cl r.1 r.2).map
        fun p => (p.localCandidate, p.remoteCandidate) := by rw [h.pairs]
  rw [map_map, map_map] at hmap
  exact hmap.trans (map_id refs)

theorem Formed.rankOf (h : Formed session cl cl' refs) {p : PairRef} (hp : p ∈ cl'.pairs) :
    cl'.rankOf p = refsRank session.role cl (cl'.refsOf p) := by
  have hmem : cl'.heap p ∈ refs.map fun r => icePairNew session cl r.1 r.2 :=
    h.pairs ▸ mem_map_of_mem hp
  obtain ⟨r, -, hr⟩ := mem_map.mp hmem
  simp only [IceCheckList.rankOf, IceCheckList.refsOf, refsRank, ← hr, icePairNew]

end Formed

/-! ## When pruning leaves what it is to leave -/

/-- The check list after `ice_replace_srflx_by_base_in_pair`. -/
def IceCheckList.withBases (cl : IceCheckList) : IceCheckList :=
  { cl with
    heap := fun p =>
      if p ∈ cl.pairs then
        { cl.heap p with localCandidate := cl.standIn (cl.heap p).localCandidate }
      else cl.heap p }

/-- The check list without the duplicates. -/
def IceCheckList.withoutDuplicates (cl : IceCheckList) : IceCheckList :=
  iceCreateCheckList (icePruneDuplicatePairs cl [] cl.pairs)

section Pruning

variable {session : IceSession} {cl cl' : IceCheckList} {refs : List (CandidateRef × CandidateRef)}

theorem withoutDuplicates_pairs (cl : IceCheckList) :
    cl.withoutDuplicates.pairs = survivors cl.keyOf cl.rankOf cl.pairs :=
  (icePruneDuplicatePairs_pairs cl [] cl.pairs).trans (pruneLoop_eq _ _ _)

theorem withoutDuplicates_checkList (cl : IceCheckList) :
    cl.withBases.withoutDuplicates.checkList.Perm
      (survivors cl.withBases.keyOf cl.withBases.rankOf cl.pairs) := by
  have perm : cl.withBases.withoutDuplicates.checkList.Perm cl.withBases.withoutDuplicates.pairs :=
    iceCreateCheckList_perm _
  rwa [withoutDuplicates_pairs] at perm

theorem withoutDuplicates_keyOf (cl : IceCheckList) : cl.withoutDuplicates.keyOf = cl.keyOf := by
  obtain ⟨paired, -, heap, -⟩ := icePruneDuplicatePairs_spec cl [] cl.pairs
  funext p
  unfold IceCheckList.keyOf IceCheckList.localOf IceCheckList.remoteOf IceCheckList.localAt
    IceCheckList.remoteAt
  change (candidateKey ((icePruneDuplicatePairs cl [] cl.pairs).localCandidates.getD
    ((icePruneDuplicatePairs cl [] cl.pairs).heap p).localCandidate _), candidateKey
      ((icePruneDuplicatePairs cl [] cl.pairs).remoteCandidates.getD
        ((icePruneDuplicatePairs cl [] cl.pairs).heap p).remoteCandidate _)) = _
  rw [heap, paired.localCandidates, paired.remoteCandidates]

theorem withoutDuplicates_heap (cl : IceCheckList) : cl.withoutDuplicates.heap = cl.heap :=
  (icePruneDuplicatePairs_spec cl [] cl.pairs).2.2.1

theorem Formed.keyOf_withBases (h : Formed session cl cl' refs) {p : PairRef} (hp : p ∈ cl'.pairs) :
    cl'.withBases.keyOf p = cl.refsKey (cl'.refsOf p) := by
  have hl : cl'.localAt = cl.localAt := by
    unfold IceCheckList.localAt
    rw [h.localCandidates]
  have hr : cl'.remoteAt = cl.remoteAt := by
    unfold IceCheckList.remoteAt
    rw [h.remoteCandidates]
  have standIn : cl'.standIn = cl.standIn := by
    unfold IceCheckList.standIn
    rw [hl]
  change (candidateKey (cl'.localAt (cl'.withBases.heap p).localCandidate),
    candidateKey (cl'.remoteAt (cl'.withBases.heap p).remoteCandidate)) = _
  simp only [IceCheckList.withBases, if_pos hp, hl, hr, standIn]
  rfl

theorem Formed.rankOf_withBases (h : Formed session cl cl' refs) {p : PairRef}
    (hp : p ∈ cl'.pairs) : cl'.withBases.rankOf p = refsRank session.role cl (cl'.refsOf p) := by
  rw [← h.rankOf hp]
  simp only [IceCheckList.withBases, IceCheckList.rankOf, if_pos hp]

theorem Formed.survivors_refsOf (h : Formed session cl cl' refs) :
    (survivors cl'.withBases.keyOf cl'.withBases.rankOf cl'.pairs).map cl'.refsOf =
      survivors cl.refsKey (refsRank session.role cl) refs := by
  rw [survivors_congr (fun p => h.keyOf_withBases) (fun p => h.rankOf_withBases),
    ← survivors_map, h.refsOf]

theorem Formed.survivors_pairwise (h : Formed session cl cl' refs) :
    ((survivors cl'.withBases.keyOf cl'.withBases.rankOf cl'.pairs).Pairwise fun p q =>
        cl'.withBases.keyOf p ≠ cl'.withBases.keyOf q) ↔
      (survivors cl.refsKey (refsRank session.role cl) refs).Pairwise fun r s =>
        cl.refsKey r ≠ cl.refsKey s := by
  rw [← h.survivors_refsOf, pairwise_map]
  refine List.Pairwise.iff_of_mem fun {p q} hp hq => ?_
  rw [h.keyOf_withBases (mem_of_mem_filter hp), h.keyOf_withBases (mem_of_mem_filter hq)]

theorem Formed.bases (h : Formed session cl cl' (pairedRefs cl)) (hbases : BasesListed cl)
    {p : PairRef} (hp : p ∈ cl'.pairs) :
    (cl'.localOf p).type = .serverReflexive → (cl'.localOf p).base.isSome := by
  intro htype
  have hmem : cl'.refsOf p ∈ pairedRefs cl := h.refsOf ▸ mem_map_of_mem hp
  have hlt : (cl'.heap p).localCandidate < cl.localCandidates.length :=
    (mem_candidateRefs (mem_of_mem_filter hmem)).1
  have hin : cl'.localOf p ∈ cl.localCandidates := by
    simp [IceCheckList.localOf, IceCheckList.localAt, h.localCandidates, hlt]
  obtain ⟨base, -, hbase⟩ := hbases _ hin htype
  exact Option.isSome_iff_exists.mpr ⟨base, hbase⟩

theorem Formed.prune (h : Formed session cl cl' (pairedRefs cl)) (hbases : BasesListed cl) :
    icePruneCandidatePairs session cl' =
      if cl'.withBases.withoutDuplicates.checkList.length > session.maxConnectivityChecks.toNat then
        .error .outOfBounds
      else .ok cl'.withBases.withoutDuplicates := by
  unfold icePruneCandidatePairs
  rw [iceReplaceSrflxByBase_foldlM h.nodup fun p hp => h.bases hbases hp]
  rfl

theorem Formed.distinct_iff (h : Formed session cl cl' (pairedRefs cl)) :
    (cl'.withBases.withoutDuplicates.checkList.Pairwise fun p q =>
        iceComparePairs cl'.withBases.withoutDuplicates p q = true) ↔
      ∀ r ∈ pairedRefs cl, firstLike cl.refsKey (pairedRefs cl) r = r ∨ refsRank session.role cl r <
          refsRank session.role cl (firstLike cl.refsKey (pairedRefs cl) r) := by
  rw [← survivors_pairwise_iff (pairedRefs_nodup cl), ← h.survivors_pairwise,
    ← (withoutDuplicates_checkList cl').pairwise_iff fun hne => hne.symm]
  refine List.Pairwise.iff fun {p q} => ?_
  rw [← withoutDuplicates_keyOf, ne_eq, ← iceComparePairs_eq_false, Bool.not_eq_false]

theorem Formed.length_checkList (h : Formed session cl cl' (pairedRefs cl)) :
    cl'.withBases.withoutDuplicates.checkList.length =
      (survivors cl.refsKey (refsRank session.role cl) (pairedRefs cl)).length := by
  rw [(withoutDuplicates_checkList cl').length_eq, ← h.survivors_refsOf, length_map]

theorem Formed.pruned (h : Formed session cl cl' (pairedRefs cl))
    (hdistinct : cl'.withBases.withoutDuplicates.checkList.Pairwise fun p q =>
      iceComparePairs cl'.withBases.withoutDuplicates p q = true)
    (hlimit : cl'.withBases.withoutDuplicates.checkList.length ≤
      session.maxConnectivityChecks.toNat) :
    Pruned session cl' cl'.withBases.withoutDuplicates := by
  have mem : ∀ {p}, p ∈ cl'.withBases.withoutDuplicates.checkList ↔
      p ∈ survivors cl'.withBases.keyOf cl'.withBases.rankOf cl'.pairs :=
    (withoutDuplicates_checkList cl').mem_iff
  have equal : ∀ {p q}, iceComparePairs cl'.withBases.withoutDuplicates p q = false ↔
      cl'.withBases.keyOf p = cl'.withBases.keyOf q := by
    intro p q
    rw [iceComparePairs_eq_false, withoutDuplicates_keyOf]
  have first := (survivors_pairwise_iff h.nodup).mp
    (h.survivors_pairwise.mpr ((survivors_pairwise_iff (pairedRefs_nodup cl)).mpr
      (h.distinct_iff.mp hdistinct)))
  refine ⟨fun p hp => mem_of_mem_filter (mem.mp hp), (iceCreateCheckList_spec _).1, hdistinct,
    ?_, hlimit, ?_, iceCreateCheckList_perm _⟩
  · intro p hp q hq hpq
    have hkey := equal.mp hpq
    obtain ⟨hin, hkept⟩ := mem_filter.mp (mem.mp hp)
    have hfirst := (first p hin).resolve_right (by simpa using hkept)
    rw [withoutDuplicates_heap]
    rcases first q hq with heq | hlt
    · have hqp : q = p := by rw [← heq, ← firstLike_eq_of_key hin hkey, hfirst]
      rw [hqp]
      exact UInt64.le_refl _
    · rw [← firstLike_eq_of_key hin hkey, hfirst] at hlt
      exact UInt64.le_iff_toNat_le.mpr (Nat.le_of_lt hlt)
  · intro q hq
    exact .inl ⟨_, mem.mpr (firstLike_mem_survivors hq), equal.mpr key_firstLike⟩

theorem PrunesPairs.prunable (hpairs : cl.pairs = []) (hbases : BasesListed cl)
    (hprunes : PrunesPairs session cl) : Prunable session cl := by
  have h := formed session hpairs
  obtain ⟨cl', hok, hpruned⟩ := hprunes
  rw [h.prune hbases] at hok
  split at hok
  · cases hok
  · next hle =>
    cases hok
    have hfirst := h.distinct_iff.mp hpruned.distinct
    refine ⟨hfirst, ?_⟩
    rw [← survivors_eq_firsts hfirst, ← h.length_checkList]
    exact hpruned.limit

theorem Prunable.prunesPairs (hpairs : cl.pairs = []) (hbases : BasesListed cl)
    (hprunable : Prunable session cl) : PrunesPairs session cl := by
  have h := formed session hpairs
  have hfew := hprunable.few
  rw [← survivors_eq_firsts hprunable.firstBest, ← h.length_checkList] at hfew
  refine ⟨_, ?_, h.pruned (h.distinct_iff.mpr hprunable.firstBest) hfew⟩
  rw [h.prune hbases, if_neg (by omega)]

/-- Pruning leaves what it is to leave exactly when, of the candidates whose pairs will be the same,
those paired first give the highest priority, and their classes are within the limit. -/
theorem prunesPairs_iff (hpairs : cl.pairs = []) (hbases : BasesListed cl) :
    PrunesPairs session cl ↔ Prunable session cl :=
  ⟨PrunesPairs.prunable hpairs hbases, Prunable.prunesPairs hpairs hbases⟩

end Pruning

/-! ## Some candidates -/

/-- A host candidate that will stand at `ref`. -/
def candidateAt (ip : List UInt8) (ref : CandidateRef) : IceCandidate :=
  iceCandidateNew 10 .host ⟨ip, 5004, 2⟩ 1 ref

/-- What a server sees of a host candidate. -/
def seenCandidate (ip : List UInt8) (base : CandidateRef) : IceCandidate :=
  { iceCandidateNew 10 .serverReflexive ⟨ip, 5004, 2⟩ 1 base with base := some base }

/-- A check list that has not paired its candidates yet. -/
def unpairedList (localCandidates remoteCandidates : List IceCandidate) : IceCheckList where
  heap := fun _ =>
    { role := .controlling, localCandidate := 0, remoteCandidate := 0, state := .frozen
      priority := 0 }
  localCandidates := localCandidates
  remoteCandidates := remoteCandidates

/-- A session that makes no more than some checks. -/
def limitedSession (maxConnectivityChecks : UInt8) : IceSession where
  streams := fun _ => none
  localUfrag := []
  localPwd := []
  tieBreaker := 0
  maxConnectivityChecks := maxConnectivityChecks

/-- `prunesPairs_iff` for a reflexive candidate behind its base and two remote candidates. -/
theorem prunesPairs_behindBase : PrunesPairs (limitedSession 2)
      (unpairedList [candidateAt [49] 0, seenCandidate [50] 0]
        [candidateAt [51] 0, candidateAt [52] 1]) :=
  (prunesPairs_iff rfl (by unfold BasesListed; decide)).mpr ⟨by decide +kernel, by decide +kernel⟩

/-- With two pairs and a limit of one a freed link is read, and a reflexive candidate in front of
its base leaves two equal pairs. -/
theorem pairs_prunedWrong : ¬PrunesPairs (limitedSession 1)
        (unpairedList [candidateAt [49] 0] [candidateAt [51] 0, candidateAt [52] 1]) ∧
      ¬PrunesPairs (limitedSession 100)
        (unpairedList [seenCandidate [50] 1, candidateAt [49] 1] [candidateAt [51] 0]) := by
  constructor
  · intro h
    have few := (h.prunable rfl (by unfold BasesListed; decide)).few
    exact absurd few (by decide +kernel)
  · intro h
    have firstBest := (h.prunable rfl (by unfold BasesListed; decide)).firstBest
    exact absurd firstBest (by decide +kernel)

end GrooveIp.Ice
