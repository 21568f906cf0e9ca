import GrooveIp.Ice.Formation

/-!
# The pairs that are checked first

For every foundation of a check list one pair leaves the frozen state
(`ice_compute_pairs_states`, `ice.c:3393–3447`): the pair with the lowest component identifier, and
of several with that the one of the highest priority. The loop looks for a pair whose identifier is
lower and whose priority is higher at once, and in a list in the order of the priorities there is
none behind the first pair of the foundation.
-/

namespace GrooveIp.Ice

open List IceCheckList

/-! ## What should wait -/

/-- For every foundation one pair waits, the best of those with the lowest component identifier, and
all the others are frozen. -/
structure WaitsForLowest (cl cl' : IceCheckList) : Prop where
  one : ∀ foundation ∈ cl.checkList.map cl.foundationOf, ∃! pair, pair ∈ cl.checkList ∧
    cl.foundationOf pair = foundation ∧ (cl'.heap pair).state = .waiting
  lowest : ∀ pair ∈ cl.checkList, (cl'.heap pair).state = .waiting →
    ∀ other ∈ cl.checkList, cl.foundationOf other = cl.foundationOf pair →
      (cl.localOf pair).componentID < (cl.localOf other).componentID ∨
        (cl.localOf pair).componentID = (cl.localOf other).componentID ∧
          (cl.heap other).priority ≤ (cl.heap pair).priority
  frozen : ∀ pair ∈ cl.checkList, (cl'.heap pair).state = .waiting ∨ (cl'.heap pair).state = .frozen

/-- The pairs of a foundation. -/
def IceCheckList.foundationPairs (cl : IceCheckList) (foundation : IcePairFoundation) :
    List PairRef :=
  cl.checkList.filter fun pair => cl.foundationOf pair == foundation

/-- The first pair of every foundation has the lowest component identifier; if that is the invalid
one, all of its pairs have it, and one priority. -/
def LowestFirst (cl : IceCheckList) : Prop :=
  ∀ foundation first rest, cl.foundationPairs foundation = first :: rest → ∀ other ∈ rest,
    (cl.localOf first).componentID ≤ (cl.localOf other).componentID ∧
      ((cl.localOf first).componentID = iceInvalidComponentID →
        (cl.localOf other).componentID = iceInvalidComponentID ∧
          (cl.heap other).priority = (cl.heap first).priority)

variable {cl : IceCheckList}

/-! ## The foundations -/

variable {foundation : IcePairFoundation}

theorem mem_iceGeneratePairFoundations (hnone : cl.foundations = []) :
    foundation ∈ (iceGeneratePairFoundations cl).foundations ↔
      foundation ∈ cl.checkList.map cl.foundationOf := by
  have hfold : ∀ (pairs : List PairRef) (list : List IcePairFoundation),
      foundation ∈ pairs.foldl (fun list pair =>
        if cl.foundationOf pair ∈ list then list else list ++ [cl.foundationOf pair]) list ↔
        foundation ∈ list ∨ foundation ∈ pairs.map cl.foundationOf := by
    intro pairs
    induction pairs with
    | nil => simp
    | cons pair pairs ih =>
      intro list
      rw [foldl_cons, ih, map_cons, mem_cons]
      split
      · next hmem =>
        constructor
        · rintro (h | h)
          · exact .inl h
          · exact .inr (.inr h)
        · rintro (h | rfl | h)
          · exact .inl h
          · exact .inl hmem
          · exact .inr h
      · rw [mem_append, mem_singleton, or_assoc]
  unfold iceGeneratePairFoundations
  rw [hfold, hnone]
  simp

/-! ## The pair of one foundation -/

/-- The pair the loop ends with: the first one with a valid component identifier, or the last. -/
def firstValid (cl : IceCheckList) : List PairRef → Option PairRef
  | [] => none
  | pair :: rest =>
    if (cl.localOf pair).componentID = iceInvalidComponentID then
      (firstValid cl rest).or (some pair)
    else some pair

variable {pairs : List PairRef} {pair : PairRef}

theorem mem_of_firstValid (h : firstValid cl pairs = some pair) : pair ∈ pairs := by
  induction pairs with
  | nil => cases h
  | cons first rest ih =>
    rw [firstValid] at h
    split at h
    · cases hrest : firstValid cl rest with
      | none =>
        rw [hrest] at h
        cases h
        exact mem_cons_self
      | some p =>
        rw [hrest] at h ih
        exact mem_cons_of_mem _ (ih h)
    · cases h
      exact mem_cons_self

theorem exists_firstValid (cl : IceCheckList) (h : pairs ≠ []) :
    ∃ pair, firstValid cl pairs = some pair := by
  cases pairs with
  | nil => exact absurd rfl h
  | cons first rest =>
    rw [firstValid]
    split
    · cases firstValid cl rest with
      | none => exact ⟨first, rfl⟩
      | some p => exact ⟨p, rfl⟩
    · exact ⟨first, rfl⟩

section Loop

variable {foundation : IcePairFoundation} {pairs : List PairRef} {fc : LowestComponentPair}

theorem iceFindLowest_foldl_valid (hvalid : fc.componentID ≠ iceInvalidComponentID)
    (hworse : ∀ pair ∈ pairs, cl.foundationOf pair = foundation →
      (cl.heap pair).priority ≤ fc.priority) :
    pairs.foldl (iceFindLowestComponentIDPair cl foundation) fc = fc := by
  induction pairs with
  | nil => rfl
  | cons pair pairs ih =>
    obtain ⟨hpair, hrest⟩ := forall_mem_cons.mp hworse
    have hstep : iceFindLowestComponentIDPair cl foundation fc pair = fc := by
      unfold iceFindLowestComponentIDPair
      rw [if_neg]
      intro h
      simp only [Bool.and_eq_true, beq_iff_eq, Bool.or_eq_true, decide_eq_true_eq] at h
      obtain ⟨hfoundation, hinvalid | ⟨-, hbetter⟩⟩ := h
      · exact hvalid hinvalid
      · exact absurd (hpair hfoundation) (UInt64.not_le.mpr hbetter)
    rw [foldl_cons, hstep]
    exact ih hrest

theorem iceFindLowest_foldl (hordered : Ordered cl.heap pairs)
    (hinvalid : fc.componentID = iceInvalidComponentID) :
    (pairs.foldl (iceFindLowestComponentIDPair cl foundation) fc).pair =
      (firstValid cl (pairs.filter fun pair => cl.foundationOf pair == foundation)).or fc.pair := by
  induction pairs generalizing fc with
  | nil => rfl
  | cons pair pairs ih =>
    obtain ⟨hworse, hordered⟩ := pairwise_cons.mp hordered
    rw [foldl_cons, filter_cons]
    by_cases hfoundation : cl.foundationOf pair = foundation
    · have hstep : iceFindLowestComponentIDPair cl foundation fc pair =
          ⟨some pair, (cl.localOf pair).componentID, (cl.heap pair).priority⟩ := by
        unfold iceFindLowestComponentIDPair
        simp [hfoundation, hinvalid]
      rw [hstep, if_pos (beq_iff_eq.mpr hfoundation), firstValid]
      split
      · next hpair =>
        rw [ih hordered hpair]
        cases firstValid cl _ <;> rfl
      · next hpair =>
        rw [iceFindLowest_foldl_valid hpair fun other hother _ => hworse other hother]
        rfl
    · have hstep : iceFindLowestComponentIDPair cl foundation fc pair = fc := by
        unfold iceFindLowestComponentIDPair
        simp [hfoundation]
      rw [hstep, if_neg (by simpa using hfoundation), ih hordered hinvalid]

end Loop

/-! ## All foundations -/

/-- The check list with other states of the pairs. -/
def IceCheckList.withStates (cl : IceCheckList) (state : PairRef → IceCandidatePairState) :
    IceCheckList :=
  { cl with heap := fun pair => { cl.heap pair with state := state pair } }

theorem firstValid_congr (cl cl' : IceCheckList) (h : cl'.localOf = cl.localOf)
    (pairs : List PairRef) : firstValid cl' pairs = firstValid cl pairs := by
  induction pairs with
  | nil => rfl
  | cons pair pairs ih => rw [firstValid, firstValid, ih, h]

theorem iceSetLowest_withStates (hordered : Ordered cl.heap cl.checkList)
    (state : PairRef → IceCandidatePairState) (foundation : IcePairFoundation) :
    iceSetLowestComponentIDPairToWaiting (cl.withStates state) foundation =
      cl.withStates fun pair =>
        if firstValid cl (cl.foundationPairs foundation) = some pair then .waiting
        else state pair := by
  have hpair : ((cl.withStates state).checkList.foldl
      (iceFindLowestComponentIDPair (cl.withStates state) foundation) {}).pair =
      firstValid cl (cl.foundationPairs foundation) := by
    have hordered' : Ordered (cl.withStates state).heap (cl.withStates state).checkList := hordered
    have hinvalid : ({} : LowestComponentPair).componentID = iceInvalidComponentID := rfl
    rw [iceFindLowest_foldl hordered' hinvalid, firstValid_congr cl (cl.withStates state) rfl,
      Option.or_none]
    rfl
  unfold iceSetLowestComponentIDPairToWaiting
  rw [hpair]
  cases firstValid cl (cl.foundationPairs foundation) with
  | none => simp
  | some first =>
    have hheap : ((cl.withStates state).setPairState first .waiting).heap =
        (cl.withStates fun pair => if some first = some pair then .waiting else state pair).heap := by
      funext pair
      by_cases h : first = pair
      · subst h
        simp [withStates, setPairState, updatePair]
      · simp [withStates, setPairState, updatePair, h,
          Ne.symm h]
    exact congrArg (fun heap => { cl with heap }) hheap

theorem iceSetLowest_foldl (hordered : Ordered cl.heap cl.checkList)
    (state : PairRef → IceCandidatePairState) (foundations : List IcePairFoundation) :
    foundations.foldl iceSetLowestComponentIDPairToWaiting (cl.withStates state) =
      cl.withStates fun pair =>
        if ∃ foundation ∈ foundations,
            firstValid cl (cl.foundationPairs foundation) = some pair then .waiting
        else state pair := by
  induction foundations generalizing state with
  | nil => simp
  | cons foundation foundations ih =>
    rw [foldl_cons, iceSetLowest_withStates hordered, ih]
    refine congrArg cl.withStates (funext fun pair => ?_)
    by_cases hrest : ∃ foundation ∈ foundations,
        firstValid cl (cl.foundationPairs foundation) = some pair
    · rw [if_pos hrest, if_pos]
      obtain ⟨other, hother, h⟩ := hrest
      exact ⟨other, mem_cons_of_mem _ hother, h⟩
    · rw [if_neg hrest]
      refine if_congr ?_ rfl rfl
      simp [hrest]

theorem iceComputePairsStates_state (hordered : Ordered cl.heap cl.checkList)
    (hnone : cl.foundations = []) (hpair : pair ∈ cl.checkList) :
    ((iceComputePairsStates (iceGeneratePairFoundations cl)).heap pair).state =
      if firstValid cl (cl.foundationPairs (cl.foundationOf pair)) = some pair then .waiting
      else (cl.heap pair).state := by
  let cl₁ := iceGeneratePairFoundations cl
  have hordered₁ : Ordered cl₁.heap cl₁.checkList := hordered
  have hrun := iceSetLowest_foldl hordered₁ (fun pair => (cl.heap pair).state) cl₁.foundations
  have hstate := congrArg (fun cl : IceCheckList => (cl.heap pair).state) hrun
  refine Eq.trans hstate (if_congr ?_ rfl rfl)
  constructor
  · rintro ⟨foundation, -, hfirst⟩
    rw [firstValid_congr cl cl₁ rfl] at hfirst
    have hfirst : firstValid cl (cl.foundationPairs foundation) = some pair := hfirst
    have hsame := (mem_filter.mp (mem_of_firstValid hfirst)).2
    rwa [beq_iff_eq.mp hsame]
  · intro hfirst
    refine ⟨cl.foundationOf pair, ?_, (firstValid_congr cl cl₁ rfl _).trans hfirst⟩
    exact (mem_iceGeneratePairFoundations hnone).mpr (mem_map_of_mem hpair)

/-! ## The states that follow -/

theorem mem_foundationPairs : pair ∈ cl.foundationPairs foundation ↔
      pair ∈ cl.checkList ∧ cl.foundationOf pair = foundation := by
  rw [foundationPairs, mem_filter, beq_iff_eq]

theorem firstValid_of_invalid
    (h : ∀ pair ∈ pairs, (cl.localOf pair).componentID = iceInvalidComponentID) :
    firstValid cl pairs = pairs.getLast? := by
  induction pairs with
  | nil => rfl
  | cons pair pairs ih =>
    obtain ⟨hpair, hrest⟩ := forall_mem_cons.mp h
    rw [firstValid, if_pos hpair, ih hrest, List.getLast?_cons]
    cases pairs.getLast? <;> rfl

theorem invalid_of_firstValid (h : firstValid cl pairs = some pair)
    (hinvalid : (cl.localOf pair).componentID = iceInvalidComponentID) :
    ∀ other ∈ pairs, (cl.localOf other).componentID = iceInvalidComponentID := by
  induction pairs with
  | nil => exact forall_mem_nil _
  | cons first rest ih =>
    rw [firstValid] at h
    split at h
    · next hfirst =>
      cases hrest : firstValid cl rest with
      | none =>
        have hnil : rest = [] := Classical.byContradiction fun hne => by
          obtain ⟨p, hp⟩ := exists_firstValid cl hne
          rw [hrest] at hp
          cases hp
        rw [hnil]
        exact forall_mem_singleton.mpr hfirst
      | some p =>
        rw [hrest] at h
        exact forall_mem_cons.mpr ⟨hfirst, ih (hrest.trans h)⟩
    · next hfirst =>
      cases h
      exact absurd hinvalid hfirst

theorem LowestFirst.lowest (h : LowestFirst cl) (hordered : Ordered cl.heap cl.checkList)
    (hpair : firstValid cl (cl.foundationPairs foundation) = some pair) :
    ∀ other ∈ cl.foundationPairs foundation,
      (cl.localOf pair).componentID < (cl.localOf other).componentID ∨
        (cl.localOf pair).componentID = (cl.localOf other).componentID ∧
          (cl.heap other).priority ≤ (cl.heap pair).priority := by
  have hsorted : Ordered cl.heap (cl.foundationPairs foundation) := List.Pairwise.filter _ hordered
  cases hpairs : cl.foundationPairs foundation with
  | nil => exact forall_mem_nil _
  | cons first rest =>
    have hlow := h foundation first rest hpairs
    rw [hpairs] at hpair hsorted
    obtain ⟨hworse, -⟩ := pairwise_cons.mp hsorted
    by_cases hfirst : (cl.localOf first).componentID = iceInvalidComponentID
    · -- All pairs have one component identifier and one priority.
      have hall : ∀ other ∈ first :: rest, (cl.localOf other).componentID = iceInvalidComponentID ∧
            (cl.heap other).priority = (cl.heap first).priority :=
        forall_mem_cons.mpr ⟨⟨hfirst, rfl⟩, fun other hother => (hlow other hother).2 hfirst⟩
      obtain ⟨hinvalid, hsame⟩ := hall pair (mem_of_firstValid hpair)
      intro other hother
      obtain ⟨hotherInvalid, hotherSame⟩ := hall other hother
      exact .inr ⟨hinvalid.trans hotherInvalid.symm, UInt64.le_of_eq (hotherSame.trans hsame.symm)⟩
    · rw [GrooveIp.Ice.firstValid, if_neg hfirst] at hpair
      cases hpair
      refine forall_mem_cons.mpr ⟨.inr ⟨rfl, UInt64.le_refl _⟩, fun other hother => ?_⟩
      rcases UInt16.lt_or_eq_of_le (hlow other hother).1 with hlt | heq
      · exact .inl hlt
      · exact .inr ⟨heq, hworse other hother⟩

theorem lowestFirst_of_lowest (hordered : Ordered cl.heap cl.checkList)
    (h : ∀ foundation pair, firstValid cl (cl.foundationPairs foundation) = some pair →
      ∀ other ∈ cl.foundationPairs foundation,
        (cl.localOf pair).componentID < (cl.localOf other).componentID ∨
          (cl.localOf pair).componentID = (cl.localOf other).componentID ∧
            (cl.heap other).priority ≤ (cl.heap pair).priority) : LowestFirst cl := by
  intro foundation first rest hpairs
  have hsorted : Ordered cl.heap (cl.foundationPairs foundation) := List.Pairwise.filter _ hordered
  obtain ⟨pair, hpair⟩ := exists_firstValid cl (cons_ne_nil first rest)
  have hbest := h foundation pair (hpairs ▸ hpair)
  rw [hpairs] at hbest hsorted
  obtain ⟨hworse, -⟩ := pairwise_cons.mp hsorted
  by_cases hfirst : (cl.localOf first).componentID = iceInvalidComponentID
  · have hinvalid : (cl.localOf pair).componentID = iceInvalidComponentID := by
      rcases hbest first mem_cons_self with hlt | ⟨heq, -⟩
      · rw [hfirst] at hlt
        exact absurd hlt (UInt16.not_lt.mpr (UInt16.zero_le))
      · exact heq.trans hfirst
    have hall := invalid_of_firstValid hpair hinvalid
    -- The last pair is found, which is not better than any other.
    rw [firstValid_of_invalid hall] at hpair
    obtain ⟨init, hinit⟩ : ∃ init, first :: rest = init ++ [pair] :=
      List.getLast?_eq_some_iff.mp hpair
    intro other hother
    have hmem := mem_cons_of_mem first hother
    refine ⟨UInt16.le_of_eq (hfirst.trans (hall other hmem).symm), fun _ => ⟨hall other hmem, ?_⟩⟩
    have hlast : (cl.heap pair).priority ≤ (cl.heap other).priority := by
      rw [hinit] at hsorted hmem
      rcases mem_append.mp hmem with h | h
      · exact (pairwise_append.mp hsorted).2.2 other h pair mem_cons_self
      · rw [mem_singleton.mp h]
        exact UInt64.le_refl _
    have hfirstBest : (cl.heap first).priority ≤ (cl.heap pair).priority := by
      rcases hbest first mem_cons_self with hlt | ⟨-, hle⟩
      · rw [hfirst] at hlt
        exact absurd hlt (UInt16.not_lt.mpr (UInt16.zero_le))
      · exact hle
    exact UInt64.le_antisymm (hworse other hother) (UInt64.le_trans hfirstBest hlast)
  · rw [GrooveIp.Ice.firstValid, if_neg hfirst] at hpair
    cases hpair
    intro other hother
    refine ⟨?_, fun hinvalid => absurd hinvalid hfirst⟩
    rcases hbest other (mem_cons_of_mem _ hother) with hlt | ⟨heq, -⟩
    · exact UInt16.le_of_lt hlt
    · exact UInt16.le_of_eq heq

/-- Exactly when the first pair of every foundation has the lowest component identifier, the pairs
wait that the standard says. -/
theorem waitsForLowest_iff (hfrozen : ∀ pair ∈ cl.checkList, (cl.heap pair).state = .frozen)
    (hordered : Ordered cl.heap cl.checkList) (hnone : cl.foundations = []) :
    WaitsForLowest cl (iceComputePairsStates (iceGeneratePairFoundations cl)) ↔ LowestFirst cl := by
  have hstate : ∀ pair ∈ cl.checkList,
      ((iceComputePairsStates (iceGeneratePairFoundations cl)).heap pair).state =
        if firstValid cl (cl.foundationPairs (cl.foundationOf pair)) = some pair then .waiting
        else .frozen := fun pair hpair =>
    (iceComputePairsStates_state hordered hnone hpair).trans (by rw [hfrozen pair hpair])
  have hwaits : ∀ pair ∈ cl.checkList,
      ((iceComputePairsStates (iceGeneratePairFoundations cl)).heap pair).state = .waiting ↔
        firstValid cl (cl.foundationPairs (cl.foundationOf pair)) = some pair := fun pair hpair => by
    rw [hstate pair hpair]
    split <;> simp [*]
  constructor
  · intro h
    refine lowestFirst_of_lowest hordered fun foundation pair hpair other hother => ?_
    obtain ⟨hin, rfl⟩ := mem_foundationPairs.mp (mem_of_firstValid hpair)
    obtain ⟨hother, hsame⟩ := mem_foundationPairs.mp hother
    exact h.lowest pair hin ((hwaits pair hin).mpr hpair) other hother hsame
  · intro h
    refine ⟨fun foundation hfoundation => ?_, fun pair hin hwait other hother hsame => ?_,
      fun pair hin => ?_⟩
    · obtain ⟨some₁, hsome, rfl⟩ := mem_map.mp hfoundation
      obtain ⟨pair, hpair⟩ := exists_firstValid cl
        (ne_nil_of_mem (mem_foundationPairs.mpr ⟨hsome, rfl⟩))
      obtain ⟨hin, hsame⟩ := mem_foundationPairs.mp (mem_of_firstValid hpair)
      refine ⟨pair, ⟨hin, hsame, (hwaits pair hin).mpr (by rwa [hsame])⟩, ?_⟩
      rintro other ⟨hother, hotherSame, hwait⟩
      have hfound := (hwaits other hother).mp hwait
      rw [hotherSame, hpair] at hfound
      exact (Option.some.inj hfound).symm
    · exact h.lowest hordered ((hwaits pair hin).mp hwait) other
        (mem_foundationPairs.mpr ⟨hother, hsame⟩)
    · rw [hstate pair hin]
      split
      · exact .inl rfl
      · exact .inr rfl

/-- Two components of one host, checked against two components of a peer with these priorities. -/
def twoComponents (first second : UInt32) (checkList : List PairRef) : IceCheckList :=
  let host (componentID : UInt16) (priority : UInt32) : IceCandidate :=
    { foundation := [49], taddr := ⟨[49], 5004, 2⟩, type := .host, priority, componentID
      base := none }
  let cl : IceCheckList :=
    { heap := fun _ =>
        { role := .controlling, localCandidate := 0, remoteCandidate := 0, state := .frozen
          priority := 0 }
      localCandidates := [host 1 2130706431, host 2 2130706430]
      remoteCandidates := [host 1 first, host 2 second]
      checkList }
  let session : IceSession :=
    { streams := fun _ => none, localUfrag := [], localPwd := [], tieBreaker := 0 }
  { cl with heap := fun pair => icePairNew session cl pair pair }

/-- `waitsForLowest_iff` when the peer prefers the first component. -/
theorem waitsForLowest_firstComponent : WaitsForLowest (twoComponents 2 1 [0, 1])
      (iceComputePairsStates (iceGeneratePairFoundations (twoComponents 2 1 [0, 1]))) := by
  refine (waitsForLowest_iff (by decide) (by unfold Ordered; decide +kernel) rfl).mpr ?_
  intro foundation first rest hpairs other hother
  have hall : (twoComponents 2 1 [0, 1]).foundationPairs ⟨[49], [49]⟩ = [0, 1] := by decide
  have hfoundation : foundation = ⟨[49], [49]⟩ := by
    obtain ⟨hin, rfl⟩ := mem_foundationPairs.mp (hpairs ▸ mem_cons_self)
    have hone : ∀ pair ∈ [0, 1], (twoComponents 2 1 [0, 1]).foundationOf pair = ⟨[49], [49]⟩ := by
      decide
    exact hone first hin
  rw [hfoundation, hall] at hpairs
  cases hpairs
  rw [mem_singleton.mp hother]
  decide

/-- When the peer prefers the second component, a pair of that waits. -/
theorem waitsForSecondComponent : ¬∀ cl : IceCheckList,
    (∀ pair ∈ cl.checkList, (cl.heap pair).state = .frozen) → Ordered cl.heap cl.checkList →
    cl.foundations = [] →
      WaitsForLowest cl (iceComputePairsStates (iceGeneratePairFoundations cl)) := by
  intro h
  have hwaits := h (twoComponents 1 2 [1, 0]) (by decide) (by unfold Ordered; decide +kernel) rfl
  have hlow := hwaits.lowest 1 (by decide) (by decide +kernel) 0 (by decide) (by decide +kernel)
  exact absurd hlow (by decide +kernel)

end GrooveIp.Ice
