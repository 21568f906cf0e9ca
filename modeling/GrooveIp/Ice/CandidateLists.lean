import GrooveIp.Ice.RedundantCandidates
import GrooveIp.Ice.Calls

/-!
# Candidate lists under remote input

Candidates come with the session description of the peer (`ice_add_remote_candidate`,
`ice.c:2913–2962`), with its binding requests (`ice.c:1962–1985`) and with its binding responses
(`ice.c:2208–2238`). The limit of the remote candidates is checked on the local ones, a type that is
not known leaves a NULL candidate that is written to, and so does a discovered candidate that finds
the list of the local ones full.
-/

namespace GrooveIp.Ice

open Lib Stun List

/-! ## The inputs -/

/-- The type `ice_candidate_new` takes a text for (`ice.c:2832–2847`), `none` where it returns
NULL. -/
def iceCandidateTypeOf (type : List UInt8) : Option IceCandidateType :=
  let text (s : String) : List UInt8 := s.toList.map fun c => c.toNat.toUInt8
  if type = text "host" then some .host
  else if type = text "srflx" then some .serverReflexive
  else if type = text "prflx" then some .peerReflexive
  else if type = text "relay" then some .relayed
  else none

/-- `ice_add_remote_candidate` (`ice.c:2913`) with a text for the type. The foundation of a NULL
candidate is written, if nothing of it was read before. -/
def iceAddRemoteCandidateOfType (afInet6 : Int) (cl : IceCheckList) (type : List UInt8)
    (taddr : IceTransportAddress) (componentID : UInt16) (priority : UInt32)
    (foundation : List UInt8) (isDefault : Bool) :
    Except Fault (IceCheckList × Option CandidateRef) :=
  if cl.localCandidates.length ≥ iceMaxNbCandidates then .ok (cl, none)
  else
    match iceCandidateTypeOf type with
    | none => .error .nullDereference
    | some type =>
      .ok (iceAddRemoteCandidate afInet6 cl type taddr componentID priority foundation isDefault)

/-- What a peer can make the candidate lists of a check list grow with. -/
inductive CandidateInput where
  | description (type : List UInt8) (taddr : IceTransportAddress) (componentID : UInt16)
    (priority : UInt32) (foundation : List UInt8) (isDefault : Bool)
  | request (session : IceSession) (evt : IceEvent) (msg : MSStunMessage)
  | response (session : IceSession) (i : StreamIndex) (now : MSTimeSpec) (msg : MSStunMessage)
    (pair : PairRef)

variable (env : IceEnvironment)

/-- A candidate of a description, the learning of a binding request with its triggered pair, and the
discovery of a response with its valid pair. -/
def takeCandidate (cl : IceCheckList) : CandidateInput → Except Fault IceCheckList
  | .description type taddr componentID priority foundation isDefault =>
    (·.1) <$> iceAddRemoteCandidateOfType env.afInet6 cl type taddr componentID priority foundation
      isDefault
  | .request session evt msg => .ok (iceAcceptBindingRequest env session cl evt msg)
  | .response session i now msg pair => do
    let (cl, candidate) ← iceDiscoverPeerReflexiveCandidate env cl pair msg
    return (iceConstructValidPair session i cl now candidate pair).1

/-! ## Bounded lists -/

/-- The candidate that `ice_add_remote_candidate` looks up. -/
def newRemoteCandidate (afInet6 : Int) (cl : IceCheckList) (type : IceCandidateType)
    (taddr : IceTransportAddress) (componentID : UInt16) (priority : UInt32) : IceCandidate :=
  let candidate := iceCandidateNew afInet6 type taddr componentID cl.remoteCandidates.length
  if priority ≠ 0 then { candidate with priority } else candidate

/-- No more candidates than the limit, and no two alike. -/
structure Bounded (candidates : List IceCandidate) : Prop where
  few : candidates.length ≤ iceMaxNbCandidates
  distinct : candidates.Pairwise fun c1 c2 => iceCompareCandidates c1 c2 = true

/-- Both lists of a check list are bounded. -/
structure CandidatesBounded (cl : IceCheckList) : Prop where
  localCandidates : Bounded cl.localCandidates
  remoteCandidates : Bounded cl.remoteCandidates

/-- A run without a fault in which the lists are bounded all the time. -/
def StaysBounded (cl : IceCheckList) : List CandidateInput → Prop
  | [] => CandidatesBounded cl
  | input :: inputs => CandidatesBounded cl ∧
    ∃ cl', takeCandidate env cl input = .ok cl' ∧ StaysBounded cl' inputs

/-- An input finds room: a described candidate has a known type and its like or a place in the
remote list, an unknown source a place there, and an unknown mapped address one in the local list.
While that is full no remote candidate is looked at. -/
def FindsRoom (cl : IceCheckList) : CandidateInput → Prop
  | .description type taddr componentID priority _ _ =>
    cl.localCandidates.length < iceMaxNbCandidates → ∃ known, iceCandidateTypeOf type = some known ∧
      ((∀ other ∈ cl.remoteCandidates, iceCompareCandidates other
          (newRemoteCandidate env.afInet6 cl known taddr componentID priority) = true) →
        cl.remoteCandidates.length < iceMaxNbCandidates)
  | .request _ evt _ =>
    cl.localCandidates.length < iceMaxNbCandidates → ∀ componentID,
      iceGetComponentID evt = some componentID →
      iceFindCandidate cl.remoteCandidates (env.toTransportAddress evt.sourceAddr) componentID =
        none → cl.remoteCandidates.length < iceMaxNbCandidates
  | .response _ _ _ msg pair =>
    iceFindCandidate cl.localCandidates (env.toTransportAddress msg.xorMappedAddress)
        (cl.localOf pair).componentID = none → cl.localCandidates.length < iceMaxNbCandidates

/-- Every input of a run finds room. -/
def AllFindRoom (cl : IceCheckList) : List CandidateInput → Prop
  | [] => True
  | input :: inputs => FindsRoom env cl input ∧
    ∀ cl', takeCandidate env cl input = .ok cl' → AllFindRoom cl' inputs

/-! ## Adding -/

section Adding

variable {candidates : List IceCandidate} {candidate : IceCandidate}

theorem Bounded.append (h : Bounded candidates)
    (hnew : ∀ other ∈ candidates, iceCompareCandidates other candidate = true) :
    Bounded (candidates ++ [candidate]) ↔ candidates.length < iceMaxNbCandidates := by
  constructor
  · intro h
    have hfew := h.few
    rw [length_append, length_singleton] at hfew
    exact hfew
  · intro hroom
    refine ⟨by rw [length_append]; exact hroom, ?_⟩
    refine pairwise_append.mpr ⟨h.distinct, pairwise_singleton _ _, ?_⟩
    intro other hother c hc
    rw [mem_singleton.mp hc]
    exact hnew other hother

theorem iceCompareCandidates_of_find {taddr : IceTransportAddress} {componentID : UInt16}
    (hnone : iceFindCandidate candidates taddr componentID = none)
    (htaddr : candidate.taddr = taddr) (hcomponent : candidate.componentID = componentID) :
    ∀ other ∈ candidates, iceCompareCandidates other candidate = true := by
  intro other hother
  refine eq_true_of_ne_false fun heq => ?_
  have hkey := iceCompareCandidates_eq_false.mp heq
  simp only [candidateKey, Prod.mk.injEq] at hkey
  obtain ⟨-, hsameTaddr, hsameComponent, -⟩ := hkey
  have hmiss := List.findIdx?_eq_none_iff.mp hnone other hother
  have hcompare := iceCompareTransportAddresses_eq_false.mpr (hsameTaddr.trans htaddr)
  rw [hcompare, hsameComponent, hcomponent] at hmiss
  simp at hmiss

end Adding

theorem iceAddRemoteCandidate_eq (afInet6 : Int) (cl : IceCheckList) (type : IceCandidateType)
    (taddr : IceTransportAddress) (componentID : UInt16) (priority : UInt32)
    (foundation : List UInt8) (isDefault : Bool) :
    iceAddRemoteCandidate afInet6 cl type taddr componentID priority foundation isDefault =
      if cl.localCandidates.length ≥ iceMaxNbCandidates then (cl, none)
      else if cl.remoteCandidates.any fun other => !iceCompareCandidates other
          (newRemoteCandidate afInet6 cl type taddr componentID priority) then (cl, none)
      else
        ({ cl with
            remoteComponentIDs := iceAddComponentID cl.remoteComponentIDs componentID
            remoteCandidates := cl.remoteCandidates ++
              [{ newRemoteCandidate afInet6 cl type taddr componentID priority with
                foundation, isDefault }] }, some cl.remoteCandidates.length) := rfl

theorem iceAddRemoteCandidate_bounded {afInet6 : Int} {cl : IceCheckList} (h : CandidatesBounded cl)
    (hlocal : cl.localCandidates.length < iceMaxNbCandidates) (type : IceCandidateType)
    (taddr : IceTransportAddress) (componentID : UInt16) (priority : UInt32)
    (foundation : List UInt8) (isDefault : Bool) : CandidatesBounded
        (iceAddRemoteCandidate afInet6 cl type taddr componentID priority foundation isDefault).1 ↔
      ((∀ other ∈ cl.remoteCandidates, iceCompareCandidates other
          (newRemoteCandidate afInet6 cl type taddr componentID priority) = true) →
        cl.remoteCandidates.length < iceMaxNbCandidates) := by
  rw [iceAddRemoteCandidate_eq, if_neg (by omega)]
  split
  · next hlike =>
    obtain ⟨other, hother, heq⟩ := any_eq_true.mp hlike
    refine iff_of_true h fun hnew => ?_
    rw [hnew other hother] at heq
    cases heq
  · next hnone =>
    have hnew : ∀ other ∈ cl.remoteCandidates, iceCompareCandidates other
        (newRemoteCandidate afInet6 cl type taddr componentID priority) = true := by
      simpa using hnone
    have happend : Bounded (cl.remoteCandidates ++
        [{ newRemoteCandidate afInet6 cl type taddr componentID priority with
          foundation, isDefault }]) ↔ cl.remoteCandidates.length < iceMaxNbCandidates :=
      h.remoteCandidates.append hnew
    rw [forall_prop_of_true hnew, ← happend]
    exact ⟨fun h => h.remoteCandidates, fun hremote => ⟨h.localCandidates, hremote⟩⟩

/-! ## The lists of a check list -/

section Frames

variable {cl : IceCheckList}

/-- Both candidate lists. -/
def IceCheckList.candidates (cl : IceCheckList) : List IceCandidate × List IceCandidate :=
  (cl.localCandidates, cl.remoteCandidates)

theorem CandidatesBounded.congr {cl' : IceCheckList} (h : cl'.candidates = cl.candidates) :
    CandidatesBounded cl' ↔ CandidatesBounded cl := by
  obtain ⟨hlocal, hremote⟩ := Prod.mk.inj h
  constructor
  · intro h
    exact ⟨hlocal ▸ h.localCandidates, hremote ▸ h.remoteCandidates⟩
  · intro h
    exact ⟨hlocal ▸ h.localCandidates, hremote ▸ h.remoteCandidates⟩

theorem candidates_triggerPair (cl : IceCheckList) (pair : PairRef) :
    (triggerPair cl pair).candidates = cl.candidates := by
  unfold triggerPair iceCheckListQueueTriggeredCheck
  split <;> rfl

variable (session : IceSession)

theorem candidates_iceFindOrAddPair (cl : IceCheckList) (list : List PairRef) (l r : CandidateRef) :
    (iceFindOrAddPair session cl list l r).1.candidates = cl.candidates := by
  unfold iceFindOrAddPair
  split <;> rfl

theorem candidates_iceTriggerNewPair (cl : IceCheckList)
    (l r : CandidateRef) : (iceTriggerNewPair session cl l r).1.candidates = cl.candidates := by
  unfold iceTriggerNewPair
  rw [candidates_triggerPair]
  refine Eq.trans ?_ (candidates_iceFindOrAddPair session cl cl.pairs l r)
  split <;> rfl

theorem candidates_iceTriggerKnownPair (cl : IceCheckList) (pair : PairRef) :
    (iceTriggerKnownPair cl pair).candidates = cl.candidates := by
  unfold iceTriggerKnownPair
  cases (cl.heap pair).state with
  | waiting | frozen | failed => exact candidates_triggerPair cl pair
  | succeeded => rfl
  | inProgress =>
    dsimp only
    split
    · rfl
    split
    · rfl
    · exact candidates_triggerPair _ pair

theorem candidates_iceTriggerConnectivityCheck (env : IceEnvironment) (session : IceSession)
    (cl : IceCheckList) (evt : IceEvent) (prflxCandidate : Option CandidateRef)
    (taddr : IceTransportAddress) :
    (iceTriggerConnectivityCheck env session cl evt prflxCandidate taddr).1.candidates =
      cl.candidates := by
  unfold iceTriggerConnectivityCheck
  dsimp only
  split
  · rfl
  split
  · rfl
  split
  · exact candidates_iceTriggerNewPair session cl _ _
  · exact candidates_iceTriggerKnownPair cl _

theorem candidates_iceConstructValidPair (i : StreamIndex)
    (cl : IceCheckList) (now : MSTimeSpec) (candidate : CandidateRef) (pair : PairRef) :
    (iceConstructValidPair session i cl now candidate pair).1.candidates = cl.candidates := by
  have hfind := candidates_iceFindOrAddPair session cl cl.checkList candidate
    (cl.heap pair).remoteCandidate
  unfold iceConstructValidPair
  dsimp only
  split
  · exact hfind
  · refine Eq.trans ?_ hfind
    split <;> rfl

theorem candidates_iceAcceptBindingRequest (env : IceEnvironment) (session : IceSession)
    (cl : IceCheckList) (evt : IceEvent) (msg : MSStunMessage) :
    (iceAcceptBindingRequest env session cl evt msg).candidates =
      (iceLearnPeerReflexiveCandidate env cl evt msg
        (env.toTransportAddress evt.sourceAddr)).1.candidates := by
  have htrigger := candidates_iceTriggerConnectivityCheck env session
    (iceLearnPeerReflexiveCandidate env cl evt msg (env.toTransportAddress evt.sourceAddr)).1 evt
    (iceLearnPeerReflexiveCandidate env cl evt msg (env.toTransportAddress evt.sourceAddr)).2
    (env.toTransportAddress evt.sourceAddr)
  unfold iceAcceptBindingRequest
  dsimp only
  split
  · next heq =>
    rw [heq] at htrigger
    exact htrigger
  · next cl' pair heq =>
    rw [heq] at htrigger
    have hquiet := iceUpdateNominatedFlagOnBindingRequest_quiet session cl' msg pair
    exact (Prod.ext hquiet.localCandidates hquiet.remoteCandidates).trans htrigger

end Frames

/-! ## One input -/

section Inputs

variable {env : IceEnvironment} {cl : IceCheckList}

theorem description_bounded_iff (h : CandidatesBounded cl) (type : List UInt8)
    (taddr : IceTransportAddress) (componentID : UInt16) (priority : UInt32)
    (foundation : List UInt8) (isDefault : Bool) : (∃ cl', takeCandidate env cl
        (.description type taddr componentID priority foundation isDefault) = .ok cl' ∧
          CandidatesBounded cl') ↔
      FindsRoom env cl (.description type taddr componentID priority foundation isDefault) := by
  unfold takeCandidate iceAddRemoteCandidateOfType FindsRoom
  dsimp only
  by_cases hlocal : cl.localCandidates.length < iceMaxNbCandidates
  · rw [if_neg (by omega), forall_prop_of_true hlocal]
    cases iceCandidateTypeOf type with
    | none => simp [Functor.map, Except.map]
    | some known =>
      have hadd : CandidatesBounded (iceAddRemoteCandidate env.afInet6 cl known taddr componentID
          priority foundation isDefault).1 ↔ _ := iceAddRemoteCandidate_bounded h hlocal known taddr
        componentID priority foundation isDefault
      constructor
      · rintro ⟨_, ⟨⟩, hbounded⟩
        exact ⟨known, rfl, hadd.mp hbounded⟩
      · rintro ⟨_, ⟨⟩, hroom⟩
        exact ⟨_, rfl, hadd.mpr hroom⟩
  · rw [if_pos (by omega)]
    exact iff_of_true ⟨cl, rfl, h⟩ fun hroom => absurd hroom hlocal

theorem request_bounded_iff (h : CandidatesBounded cl) (session : IceSession) (evt : IceEvent)
    (msg : MSStunMessage) :
    (∃ cl', takeCandidate env cl (.request session evt msg) = .ok cl' ∧ CandidatesBounded cl') ↔
      FindsRoom env cl (.request session evt msg) := by
  have htake : (∃ cl', takeCandidate env cl (.request session evt msg) = .ok cl' ∧
      CandidatesBounded cl') ↔ CandidatesBounded (iceLearnPeerReflexiveCandidate env cl evt msg
        (env.toTransportAddress evt.sourceAddr)).1 := by
    rw [← CandidatesBounded.congr (candidates_iceAcceptBindingRequest env session cl evt msg)]
    constructor
    · rintro ⟨_, ⟨⟩, hbounded⟩
      exact hbounded
    · exact fun hbounded => ⟨_, rfl, hbounded⟩
  have hroom : FindsRoom env cl (.request session evt msg) ↔
      (cl.localCandidates.length < iceMaxNbCandidates → ∀ componentID,
        iceGetComponentID evt = some componentID →
        iceFindCandidate cl.remoteCandidates (env.toTransportAddress evt.sourceAddr) componentID =
          none → cl.remoteCandidates.length < iceMaxNbCandidates) := Iff.rfl
  rw [htake, hroom]
  unfold iceLearnPeerReflexiveCandidate
  cases iceGetComponentID evt with
  | none => exact iff_of_true h fun _ _ hnone => by cases hnone
  | some componentID =>
    dsimp only
    cases hfind : iceFindCandidate cl.remoteCandidates (env.toTransportAddress evt.sourceAddr)
        componentID with
    | some r =>
      refine iff_of_true h ?_
      rintro - _ ⟨⟩ hnone
      rw [hfind] at hnone
      cases hnone
    | none =>
      by_cases hlocal : cl.localCandidates.length < iceMaxNbCandidates
      · have hnew : ∀ other ∈ cl.remoteCandidates, iceCompareCandidates other
            (newRemoteCandidate env.afInet6 cl .peerReflexive
              (env.toTransportAddress evt.sourceAddr) componentID msg.priority) = true := by
          refine iceCompareCandidates_of_find hfind ?_ ?_ <;>
            (unfold newRemoteCandidate; dsimp only; split <;> rfl)
        rw [iceAddRemoteCandidate_bounded h hlocal, forall_prop_of_true hnew,
          forall_prop_of_true hlocal]
        constructor
        · rintro hroom _ ⟨⟩ -
          exact hroom
        · exact fun hroom => hroom componentID rfl hfind
      · rw [iceAddRemoteCandidate_eq, if_pos (by omega)]
        exact iff_of_true h fun hroom => absurd hroom hlocal

theorem response_bounded_iff (h : CandidatesBounded cl) (session : IceSession) (i : StreamIndex)
    (now : MSTimeSpec) (msg : MSStunMessage) (pair : PairRef) :
    (∃ cl', takeCandidate env cl (.response session i now msg pair) = .ok cl' ∧
        CandidatesBounded cl') ↔ FindsRoom env cl (.response session i now msg pair) := by
  have htake : (∃ cl', takeCandidate env cl (.response session i now msg pair) = .ok cl' ∧
      CandidatesBounded cl') ↔ ∃ found, iceDiscoverPeerReflexiveCandidate env cl pair msg =
        .ok found ∧ CandidatesBounded found.1 := by
    unfold takeCandidate
    dsimp only
    cases iceDiscoverPeerReflexiveCandidate env cl pair msg with
    | error fault => simp [bind, Except.bind]
    | ok found =>
      have hsame := candidates_iceConstructValidPair session i found.1 now found.2 pair
      constructor
      · rintro ⟨_, ⟨⟩, hbounded⟩
        exact ⟨found, rfl, (CandidatesBounded.congr hsame).mp hbounded⟩
      · rintro ⟨_, ⟨⟩, hbounded⟩
        exact ⟨_, rfl, (CandidatesBounded.congr hsame).mpr hbounded⟩
  rw [htake]
  unfold iceDiscoverPeerReflexiveCandidate FindsRoom
  dsimp only
  cases hfind : iceFindCandidate cl.localCandidates (env.toTransportAddress msg.xorMappedAddress)
      (cl.localOf pair).componentID with
  | some candidate =>
    refine iff_of_true ⟨_, rfl, h⟩ fun hnone => ?_
    cases hnone
  | none =>
    let new := newLocalCandidate env.afInet6 cl .peerReflexive
      (env.toTransportAddress msg.xorMappedAddress) (cl.localOf pair).componentID
      (some (cl.heap pair).localCandidate)
    have hnew : ∀ other ∈ cl.localCandidates, iceCompareCandidates other new = true :=
      iceCompareCandidates_of_find hfind rfl rfl
    have hunlike : ¬(cl.localCandidates.any fun other => !iceCompareCandidates other new) = true := by
      simpa using hnew
    rw [iceAddLocalCandidate_eq, if_neg hunlike, forall_prop_of_true rfl]
    by_cases hroom : cl.localCandidates.length < iceMaxNbCandidates
    · rw [if_neg (by omega)]
      obtain ⟨foundation, generator, hfoundation⟩ := iceComputeCandidateFoundation_last
        { cl with localComponentIDs :=
          iceAddComponentID cl.localComponentIDs (cl.localOf pair).componentID } new
      have hnew' : ∀ other ∈ cl.localCandidates,
          iceCompareCandidates other { new with foundation } = true := hnew
      have happend : Bounded (cl.localCandidates ++ [{ new with foundation }]) :=
        (h.localCandidates.append hnew').mpr hroom
      refine iff_of_true ⟨_, rfl, ?_⟩ hroom
      rw [hfoundation]
      exact ⟨happend, h.remoteCandidates⟩
    · rw [if_pos (by omega)]
      refine iff_of_false ?_ hroom
      rintro ⟨_, ⟨⟩, -⟩

theorem takeCandidate_bounded_iff (h : CandidatesBounded cl) (input : CandidateInput) :
    (∃ cl', takeCandidate env cl input = .ok cl' ∧ CandidatesBounded cl') ↔
      FindsRoom env cl input := by
  cases input with
  | description => exact description_bounded_iff h _ _ _ _ _ _
  | request => exact request_bounded_iff h _ _ _
  | response => exact response_bounded_iff h _ _ _ _ _

/-! ## Runs -/

/-- The lists stay bounded, and no NULL candidate is used, exactly when every input finds room. -/
theorem staysBounded_iff (h : CandidatesBounded cl) (inputs : List CandidateInput) :
    StaysBounded env cl inputs ↔ AllFindRoom env cl inputs := by
  induction inputs generalizing cl with
  | nil => exact iff_of_true h trivial
  | cons input inputs ih =>
    constructor
    · rintro ⟨-, cl', htake, hrest⟩
      have hbounded : CandidatesBounded cl' := by
        cases inputs with
        | nil => exact hrest
        | cons => exact hrest.1
      refine ⟨(takeCandidate_bounded_iff h input).mp ⟨cl', htake, hbounded⟩, fun cl'' htake' => ?_⟩
      rw [htake] at htake'
      cases htake'
      exact (ih hbounded).mp hrest
    · rintro ⟨hroom, hrest⟩
      obtain ⟨cl', htake, hbounded⟩ := (takeCandidate_bounded_iff h input).mpr hroom
      exact ⟨h, cl', htake, (ih hbounded).mpr (hrest cl' htake)⟩

end Inputs

/-- Host candidates of a description, at one address and these ports. -/
def describedHosts (ports : List Int) : List CandidateInput :=
  ports.map fun port =>
    .description [0x68, 0x6f, 0x73, 0x74] ⟨[49], port, 2⟩ 1 2130706431 [49] false

/-- An environment whose conversions of addresses are of no matter here. -/
def plainEnvironment : IceEnvironment where
  hmacSha1 := fun _ _ => Vector.replicate 20 0
  toTransportAddress := fun _ => ⟨[], 0, 2⟩
  toStunAddress := fun _ => ⟨.v4 0 0, 1⟩
  afInet := 2
  afInet6 := 10

/-- A check list without candidates. -/
def emptyList : IceCheckList where
  heap := fun _ =>
    { role := .controlling, localCandidate := 0, remoteCandidate := 0, state := .frozen
      priority := 0 }

theorem emptyList_bounded : CandidatesBounded emptyList :=
  ⟨⟨Nat.zero_le _, .nil⟩, ⟨Nat.zero_le _, .nil⟩⟩

/-- `staysBounded_iff` for two candidates. -/
theorem staysBounded_twoHosts :
    StaysBounded plainEnvironment emptyList (describedHosts [5004, 5005]) := by
  refine (staysBounded_iff emptyList_bounded _).mpr ⟨fun _ => ⟨.host, rfl, fun _ => by decide⟩, ?_⟩
  rintro _ ⟨⟩
  refine ⟨fun _ => ⟨.host, rfl, fun _ => by decide⟩, ?_⟩
  rintro _ ⟨⟩
  trivial

theorem StaysBounded.run {env : IceEnvironment} {cl : IceCheckList} {inputs : List CandidateInput}
    (h : StaysBounded env cl inputs) :
    ∃ cl', inputs.foldlM (takeCandidate env) cl = .ok cl' ∧ CandidatesBounded cl' := by
  induction inputs generalizing cl with
  | nil => exact ⟨cl, rfl, h⟩
  | cons input inputs ih =>
    obtain ⟨-, cl₁, htake, hrest⟩ := h
    obtain ⟨cl', hrun, hbounded⟩ := ih hrest
    refine ⟨cl', ?_, hbounded⟩
    rw [foldlM_cons, htake]
    exact hrun

/-- A description with seventeen candidates is taken as a whole. -/
theorem remoteCandidates_unbounded : ¬∀ (env : IceEnvironment) (cl : IceCheckList)
    (inputs : List CandidateInput), CandidatesBounded cl → StaysBounded env cl inputs := by
  intro h
  have hlength : ((describedHosts ((List.range 17).map Int.ofNat)).foldlM
      (takeCandidate plainEnvironment) emptyList).toOption.map (·.remoteCandidates.length) =
        some 17 := by
    decide +kernel
  obtain ⟨cl', hrun, hbounded⟩ := (h plainEnvironment emptyList _ emptyList_bounded).run
  rw [hrun] at hlength
  have hmany : cl'.remoteCandidates.length = 17 := Option.some.inj hlength
  exact absurd hbounded.remoteCandidates.few (by rw [hmany]; decide)

end GrooveIp.Ice
