import GrooveIp.Ice.Pruning
import GrooveIp.Lib.Knockout

/-!
# Redundant candidates

Of two local candidates with one transport address and one base the one of the lower priority is
freed, until there are no such two (`ice_check_list_eliminate_redundant_candidates`,
`ice.c:3158–3194`). A candidate points to its base, so a host candidate must outlive those that are
based on it. It does as long as it has the higher priority, but `128 - componentID` in the priority
(`ice.c:2819–2826`) sets all the bits above when the identifier is larger.
-/

namespace GrooveIp.Ice

open Lib List

/-! ## The loops -/

/-- `ice_find_redundant_candidate` (`ice.c:3158`), where zero is a match. -/
def iceFindRedundantCandidate (cl : IceCheckList) (c1 c2 : CandidateRef) : Bool :=
  if c1 = c2 then true
  else !(!iceCompareTransportAddresses (cl.localAt c1).taddr (cl.localAt c2).taddr &&
    (cl.localAt c1).base == (cl.localAt c2).base)

/-- The loop over the links (`ice.c:3176–3190`); with the list that is left if a candidate was
freed. -/
def iceFreeRedundantCandidate (cl : IceCheckList) (localCandidates : List CandidateRef) :
    List CandidateRef → Option (List CandidateRef)
  | [] => none
  | candidate :: rest =>
    match localCandidates.find? fun other => !iceFindRedundantCandidate cl other candidate with
    | some other =>
      if (cl.localAt other).priority < (cl.localAt candidate).priority then
        some (localCandidates.erase other)
      else some (localCandidates.erase candidate)
    | none => iceFreeRedundantCandidate cl localCandidates rest

/-- What makes candidates redundant: the transport address and the base. -/
def IceCheckList.placeOf (cl : IceCheckList) (candidate : CandidateRef) :
    IceTransportAddress × Option CandidateRef :=
  ((cl.localAt candidate).taddr, (cl.localAt candidate).base)

/-- The priority of a local candidate. -/
def IceCheckList.preferenceOf (cl : IceCheckList) (candidate : CandidateRef) : Nat :=
  (cl.localAt candidate).priority.toNat

theorem iceFindRedundantCandidate_eq (cl : IceCheckList) (c1 c2 : CandidateRef) :
    (!iceFindRedundantCandidate cl c1 c2) =
      decide (c1 ≠ c2 ∧ cl.placeOf c1 = cl.placeOf c2) := by
  unfold iceFindRedundantCandidate IceCheckList.placeOf
  by_cases hsame : c1 = c2
  · simp [hsame]
  · by_cases htaddr : (cl.localAt c1).taddr = (cl.localAt c2).taddr
    · have hcompare := iceCompareTransportAddresses_eq_false.mpr htaddr
      rw [if_neg hsame, hcompare]
      by_cases hbase : (cl.localAt c1).base = (cl.localAt c2).base <;> simp [hsame, htaddr, hbase]
    · have hcompare : iceCompareTransportAddresses (cl.localAt c1).taddr (cl.localAt c2).taddr =
          true :=
        eq_true_of_ne_false fun h => htaddr (iceCompareTransportAddresses_eq_false.mp h)
      simp [hsame, htaddr, hcompare]

theorem iceFreeRedundantCandidate_eq (cl : IceCheckList) (localCandidates : List CandidateRef) :
    iceFreeRedundantCandidate cl localCandidates localCandidates =
      (loserOf cl.placeOf cl.preferenceOf localCandidates).map localCandidates.erase := by
  have hrival : ∀ candidate, (localCandidates.find? fun other =>
      !iceFindRedundantCandidate cl other candidate) =
        rivalOf cl.placeOf localCandidates candidate := fun candidate =>
    congrArg (localCandidates.find? ·)
      (funext fun other => iceFindRedundantCandidate_eq cl other candidate)
  have hloop : ∀ links, iceFreeRedundantCandidate cl localCandidates links =
      ((links.find? fun a => (rivalOf cl.placeOf localCandidates a).isSome).bind fun a =>
        (rivalOf cl.placeOf localCandidates a).map fun b =>
          if cl.preferenceOf b < cl.preferenceOf a then b else a).map localCandidates.erase := by
    intro links
    induction links with
    | nil => rfl
    | cons candidate rest ih =>
      rw [iceFreeRedundantCandidate, hrival]
      cases hother : rivalOf cl.placeOf localCandidates candidate with
      | none => rw [List.find?_cons_of_neg (by simp [hother]), ih]
      | some other =>
        rw [List.find?_cons_of_pos (by simp [hother]), Option.bind_some, hother]
        have hless : (cl.localAt other).priority < (cl.localAt candidate).priority ↔
            cl.preferenceOf other < cl.preferenceOf candidate := UInt32.lt_iff_toNat_lt
        simp only [Option.map_some, hless]
        split <;> rfl
  rw [hloop]
  unfold loserOf
  simp only [bind, Option.map_eq_bind, Function.comp_def, pure]

/-- The outer loop (`ice.c:3173–3192`), which goes on as long as a candidate was freed. -/
def iceFreeRedundantCandidates (cl : IceCheckList) (localCandidates : List CandidateRef) :
    List CandidateRef :=
  match _h : iceFreeRedundantCandidate cl localCandidates localCandidates with
  | none => localCandidates
  | some left => iceFreeRedundantCandidates cl left
termination_by localCandidates.length
decreasing_by
  rw [iceFreeRedundantCandidate_eq] at _h
  obtain ⟨a, hloser, rfl⟩ := Option.map_eq_some_iff.mp _h
  have hmem := (loserOf_spec hloser).1
  have hpos := length_pos_of_mem hmem
  rw [length_erase_of_mem hmem]
  omega

/-- `ice_check_list_eliminate_redundant_candidates` (`ice.c:3164`): the candidates that are left. A
candidate that was freed keeps its number. -/
def iceCheckListEliminateRedundantCandidates (cl : IceCheckList) : List CandidateRef :=
  if cl.state = .running then
    iceFreeRedundantCandidates cl (List.range cl.localCandidates.length)
  else List.range cl.localCandidates.length

theorem iceFreeRedundantCandidates_eq (cl : IceCheckList) (localCandidates : List CandidateRef) :
    iceFreeRedundantCandidates cl localCandidates =
      knockout cl.placeOf cl.preferenceOf localCandidates := by
  induction hlen : localCandidates.length using Nat.strongRecOn generalizing localCandidates with
  | ind n ih =>
    have hstep := iceFreeRedundantCandidate_eq cl localCandidates
    rw [iceFreeRedundantCandidates]
    split
    · next hnone =>
      rw [hnone] at hstep
      exact (knockout_of_none (Option.map_eq_none_iff.mp hstep.symm)).symm
    · next left hleft =>
      rw [hleft] at hstep
      obtain ⟨a, hloser, rfl⟩ := Option.map_eq_some_iff.mp hstep.symm
      have hmem := (loserOf_spec hloser).1
      have hpos := length_pos_of_mem hmem
      rw [knockout_of_some hloser]
      exact ih _ (by rw [← hlen, length_erase_of_mem hmem]; omega) _ rfl

/-! ## Gathered candidates -/

/-- The check lists that adding local candidates makes of a fresh one, each candidate with a base
that is a host candidate of the list, or none. -/
inductive Gathered (afInet6 : Int) : IceCheckList → Prop
  | start {cl : IceCheckList} (hnone : cl.localCandidates = []) (hrunning : cl.state = .running) :
    Gathered afInet6 cl
  | add {cl : IceCheckList} (h : Gathered afInet6 cl) (type : IceCandidateType)
    (taddr : IceTransportAddress) (componentID : UInt16) {base : Option CandidateRef}
    (hbase : ∀ b, base = some b → b < cl.localCandidates.length ∧ (cl.localAt b).type = .host) :
    Gathered afInet6 (iceAddLocalCandidate afInet6 cl type taddr componentID base).1

/-- Of two candidates at one place one is left, of each place the best, in their order, and the base
of every one that is left. -/
structure EliminatesRedundant (cl : IceCheckList) (left : List CandidateRef) : Prop where
  distinct : ∀ r ∈ left, ∀ s ∈ left, (cl.localAt r).taddr = (cl.localAt s).taddr →
    (cl.localAt r).base = (cl.localAt s).base → r = s
  best : ∀ r < cl.localCandidates.length, ∃ s ∈ left,
    (cl.localAt s).taddr = (cl.localAt r).taddr ∧ (cl.localAt s).base = (cl.localAt r).base ∧
      (cl.localAt r).priority ≤ (cl.localAt s).priority
  order : left.Sublist (List.range cl.localCandidates.length)
  bases : ∀ r ∈ left, ∀ b, (cl.localAt r).base = some b → b ∈ left

/-- A candidate at the transport address of its base has a lower priority than that. -/
def BasesPreferred (cl : IceCheckList) : Prop :=
  ∀ r < cl.localCandidates.length, ∀ b, (cl.localAt r).base = some b → b ≠ r →
    (cl.localAt r).taddr = (cl.localAt b).taddr → (cl.localAt r).priority < (cl.localAt b).priority

section Gathering

variable {afInet6 : Int} {cl : IceCheckList}

/-- What holds of gathered candidates. -/
structure WellGathered (afInet6 : Int) (cl : IceCheckList) : Prop where
  running : cl.state = .running
  priority : ∀ r < cl.localCandidates.length,
    (cl.localAt r).priority = iceComputeCandidatePriority afInet6 (cl.localAt r)
  host : ∀ r < cl.localCandidates.length, (cl.localAt r).type = .host → (cl.localAt r).base = some r
  base : ∀ r < cl.localCandidates.length, ∀ b, (cl.localAt r).base = some b →
    b ≤ r ∧ (cl.localAt b).base = some b ∧ (cl.localAt b).type = .host

/-- The candidate that is added. -/
def newLocalCandidate (afInet6 : Int) (cl : IceCheckList) (type : IceCandidateType)
    (taddr : IceTransportAddress) (componentID : UInt16) (base : Option CandidateRef) :
    IceCandidate :=
  { iceCandidateNew afInet6 type taddr componentID cl.localCandidates.length with
    base := if type = .host then some cl.localCandidates.length else base }

/-- A candidate is added unless the list is full or has its like. -/
theorem iceAddLocalCandidate_eq (afInet6 : Int) (cl : IceCheckList) (type : IceCandidateType)
    (taddr : IceTransportAddress) (componentID : UInt16) (base : Option CandidateRef) :
    iceAddLocalCandidate afInet6 cl type taddr componentID base =
      if cl.localCandidates.length ≥ iceMaxNbCandidates then (cl, none)
      else if cl.localCandidates.any fun other =>
          !iceCompareCandidates other (newLocalCandidate afInet6 cl type taddr componentID base)
        then (cl, none)
      else
        ({ cl with
            localComponentIDs := iceAddComponentID cl.localComponentIDs componentID
            localCandidates := cl.localCandidates ++
              [newLocalCandidate afInet6 cl type taddr componentID base] },
          some cl.localCandidates.length) := by
  let candidate := iceCandidateNew afInet6 type taddr componentID cl.localCandidates.length
  have hnew : (if candidate.base.isNone then { candidate with base } else candidate) =
      newLocalCandidate afInet6 cl type taddr componentID base := by
    by_cases hhost : type = .host <;> simp [candidate, newLocalCandidate, iceCandidateNew, hhost]
  rw [← hnew]
  rfl

theorem Gathered.wellGathered (h : Gathered afInet6 cl) : WellGathered afInet6 cl := by
  induction h with
  | @start cl hnone hrunning =>
    refine ⟨hrunning, fun r hr => ?_, fun r hr => ?_, fun r hr => ?_⟩ <;>
      exact absurd hr (by rw [hnone]; exact Nat.not_lt_zero r)
  | @add cl h type taddr componentID base hbase ih =>
    rw [iceAddLocalCandidate_eq]
    split
    · exact ih
    split
    · exact ih
    let new := newLocalCandidate afInet6 cl type taddr componentID base
    have htype : new.type = type := rfl
    have hnewBase : new.base = if type = .host then some cl.localCandidates.length else base := rfl
    let cl' : IceCheckList :=
      { cl with
        localComponentIDs := iceAddComponentID cl.localComponentIDs componentID
        localCandidates := cl.localCandidates ++ [new] }
    have hold : ∀ r < cl.localCandidates.length, cl'.localAt r = cl.localAt r := fun r hr => by
      simp [cl', IceCheckList.localAt, List.getElem?_append_left hr]
    have hlast : cl'.localAt cl.localCandidates.length = new := by
      simp [cl', IceCheckList.localAt]
    have hplace : ∀ r < cl'.localCandidates.length,
        r < cl.localCandidates.length ∨ r = cl.localCandidates.length := fun r hr =>
      Nat.lt_or_eq_of_le (Nat.lt_succ_iff.mp (by simpa [cl'] using hr))
    refine ⟨ih.running, fun r hr => ?_, fun r hr => ?_, fun r hr b => ?_⟩
    · rcases hplace r hr with hr | rfl
      · rw [hold r hr]
        exact ih.priority r hr
      · rw [hlast]
        rfl
    · rcases hplace r hr with hr | rfl
      · rw [hold r hr]
        exact ih.host r hr
      · rw [hlast, htype, hnewBase]
        exact fun hhost => if_pos hhost
    · rcases hplace r hr with hr | rfl
      · rw [hold r hr]
        intro hb
        obtain ⟨hle, hself, hhost⟩ := ih.base r hr b hb
        rw [hold b (Nat.lt_of_le_of_lt hle hr)]
        exact ⟨hle, hself, hhost⟩
      · rw [hlast, hnewBase]
        split
        · next hhost =>
          rintro ⟨⟩
          rw [hlast, hnewBase, if_pos hhost, htype]
          exact ⟨Nat.le_refl _, rfl, hhost⟩
        · intro hb
          obtain ⟨hbl, hhost⟩ := hbase b hb
          rw [hold b hbl]
          exact ⟨Nat.le_of_lt hbl, ih.host b hbl hhost, hhost⟩

theorem Gathered.left_eq (h : Gathered afInet6 cl) : iceCheckListEliminateRedundantCandidates cl =
      knockout cl.placeOf cl.preferenceOf (List.range cl.localCandidates.length) := by
  rw [iceCheckListEliminateRedundantCandidates, if_pos h.wellGathered.running,
    iceFreeRedundantCandidates_eq]

theorem Gathered.find?_place (h : Gathered afInet6 cl) {b : CandidateRef}
    (hb : b < cl.localCandidates.length) (hself : (cl.localAt b).base = some b) :
    (List.range cl.localCandidates.length).find? (fun r => cl.placeOf r = cl.placeOf b) =
      some b := by
  refine List.find?_range_eq_some.mpr ⟨decide_eq_true rfl, mem_range.mpr hb, fun r hr => ?_⟩
  rw [Bool.not_eq_true', decide_eq_false_iff_not]
  intro hplace
  have hle := (h.wellGathered.base r (Nat.lt_trans hr hb) b
    ((congrArg Prod.snd hplace).trans hself)).1
  exact Nat.not_lt_of_le hle hr

theorem EliminatesRedundant.basesPreferred (h : Gathered afInet6 cl)
    (helim : EliminatesRedundant cl (iceCheckListEliminateRedundantCandidates cl)) :
    BasesPreferred cl := by
  rw [h.left_eq] at helim
  intro r hr b hb hne htaddr
  obtain ⟨hle, hself, -⟩ := h.wellGathered.base r hr b hb
  have hbl : b < cl.localCandidates.length := Nat.lt_of_le_of_lt hle hr
  obtain ⟨s, hs, -, hsbase, -⟩ := helim.best r hr
  have hkept := helim.bases s hs b (hsbase.trans hb)
  exact (first_mem_knockout_iff nodup_range (h.find?_place hbl hself)).mp hkept r
    (mem_range.mpr hr) hne.symm (Prod.ext htaddr (hb.trans hself.symm))

theorem BasesPreferred.eliminatesRedundant (h : Gathered afInet6 cl)
    (hpreferred : BasesPreferred cl) :
    EliminatesRedundant cl (iceCheckListEliminateRedundantCandidates cl) := by
  let refs := List.range cl.localCandidates.length
  rw [h.left_eq]
  refine ⟨fun r hr s hs htaddr hbase => eq_of_mem_knockout hr hs (Prod.ext htaddr hbase), ?_,
    knockout_sublist refs, ?_⟩
  · intro r hr
    obtain ⟨s, hs, hplace, hle⟩ : ∃ s ∈ knockout cl.placeOf cl.preferenceOf refs,
        cl.placeOf s = cl.placeOf r ∧ cl.preferenceOf r ≤ cl.preferenceOf s :=
      exists_mem_knockout (mem_range.mpr hr)
    exact ⟨s, hs, congrArg Prod.fst hplace, congrArg Prod.snd hplace, hle⟩
  · intro r hr b hb
    have hrl := mem_range.mp ((knockout_sublist refs).subset hr)
    obtain ⟨hle, hself, -⟩ := h.wellGathered.base r hrl b hb
    have hbl : b < cl.localCandidates.length := Nat.lt_of_le_of_lt hle hrl
    refine (first_mem_knockout_iff nodup_range (h.find?_place hbl hself)).mpr
      fun s hs hne hplace => ?_
    have hsbase : (cl.localAt s).base = some b := (congrArg Prod.snd hplace).trans hself
    exact hpreferred s (mem_range.mp hs) b hsbase hne.symm (congrArg Prod.fst hplace)

/-- Exactly when the bases are preferred, what is redundant is eliminated and nothing else. -/
theorem eliminatesRedundant_iff (h : Gathered afInet6 cl) :
    EliminatesRedundant cl (iceCheckListEliminateRedundantCandidates cl) ↔ BasesPreferred cl :=
  ⟨EliminatesRedundant.basesPreferred h, BasesPreferred.eliminatesRedundant h⟩

theorem le_iceComputeCandidatePriority {candidate : IceCandidate} (htype : candidate.type = .host) :
    126 * 2 ^ 24 ≤ (iceComputeCandidatePriority afInet6 candidate).toNat := by
  unfold iceComputeCandidatePriority
  rw [htype, UInt32.or_assoc, UInt32.or_assoc, UInt32.toNat_or]
  exact Nat.left_le_or

theorem iceComputeCandidatePriority_lt {candidate : IceCandidate} (htype : candidate.type ≠ .host)
    (hsmall : candidate.componentID ≤ 128) :
    (iceComputeCandidatePriority afInet6 candidate).toNat < 126 * 2 ^ 24 := by
  unfold iceComputeCandidatePriority
  have hpreference : (typePreference candidate.type <<< (24 : UInt32)).toNat =
      (typePreference candidate.type).toNat * 2 ^ 24 ∧
        (typePreference candidate.type).toNat ≤ 110 := by
    cases htype' : candidate.type
    · exact absurd htype' htype
    all_goals decide
  have hfamily : (if candidate.taddr.family = afInet6 then (1 : UInt32) <<< (7 : UInt32)
      else 0).toNat < 2 ^ 24 := by
    split <;> decide
  have hcomponent : ((128 : UInt32) - candidate.componentID.toUInt32).toNat < 2 ^ 24 := by
    have hle : candidate.componentID.toUInt32 ≤ 128 := by
      have := UInt16.le_iff_toNat_le.mp hsmall
      exact this
    rw [UInt32.toNat_sub_of_le _ _ hle]
    have : (128 : UInt32).toNat = 128 := rfl
    omega
  rw [UInt32.or_assoc, UInt32.or_assoc, UInt32.toNat_or, UInt32.toNat_or, UInt32.toNat_or,
    hpreference.1]
  have hlow := Nat.or_lt_two_pow (show ((65535 : UInt32) <<< (8 : UInt32)).toNat < 2 ^ 24 by decide)
    (Nat.or_lt_two_pow hfamily hcomponent)
  have hsum := Nat.shiftLeft_add_eq_or_of_lt hlow (typePreference candidate.type).toNat
  rw [Nat.shiftLeft_eq] at hsum
  omega

theorem Gathered.basesPreferred (h : Gathered afInet6 cl)
    (hsmall : ∀ r < cl.localCandidates.length, (cl.localAt r).componentID ≤ 128) :
    BasesPreferred cl := by
  intro r hr b hb hne _
  have hgathered := h.wellGathered
  obtain ⟨hle, -, hhost⟩ := hgathered.base r hr b hb
  have htype : (cl.localAt r).type ≠ .host := fun hrHost => by
    rw [hgathered.host r hr hrHost] at hb
    exact hne (Option.some.inj hb).symm
  rw [hgathered.priority r hr, hgathered.priority b (Nat.lt_of_le_of_lt hle hr),
    UInt32.lt_iff_toNat_lt]
  exact Nat.lt_of_lt_of_le (iceComputeCandidatePriority_lt htype (hsmall r hr))
    (le_iceComputeCandidatePriority hhost)

end Gathering

/-- A host candidate and what a server sees of it at the same address. -/
def seenAtHost (componentID : UInt16) : IceCheckList :=
  let fresh : IceCheckList :=
    { heap := fun _ =>
        { role := .controlling, localCandidate := 0, remoteCandidate := 0, state := .frozen
          priority := 0 } }
  let host := (iceAddLocalCandidate 10 fresh .host ⟨[49], 5004, 2⟩ componentID none).1
  (iceAddLocalCandidate 10 host .serverReflexive ⟨[49], 5004, 2⟩ componentID (some 0)).1

theorem gathered_seenAtHost (componentID : UInt16) : Gathered 10 (seenAtHost componentID) := by
  refine .add (.add (.start rfl rfl) .host _ componentID (fun _ h => by cases h)) _ _ componentID ?_
  rintro b ⟨⟩
  exact ⟨Nat.lt_succ_self 0, rfl⟩

/-- `eliminatesRedundant_iff` for the first component. -/
theorem eliminatesRedundant_firstComponent :
    EliminatesRedundant (seenAtHost 1) (iceCheckListEliminateRedundantCandidates (seenAtHost 1)) := by
  exact (eliminatesRedundant_iff (gathered_seenAtHost 1)).mpr
    ((gathered_seenAtHost 1).basesPreferred (by decide))

/-- The host candidate of a component with a large identifier is freed. -/
theorem base_freed : ¬∀ (afInet6 : Int) (cl : IceCheckList), Gathered afInet6 cl →
    EliminatesRedundant cl (iceCheckListEliminateRedundantCandidates cl) := by
  intro h
  have hpreferred := (h 10 _ (gathered_seenAtHost 129)).basesPreferred (gathered_seenAtHost 129)
  exact absurd (hpreferred 1 (by decide) 0 (by decide) (by decide) (by decide)) (by decide)

end GrooveIp.Ice
