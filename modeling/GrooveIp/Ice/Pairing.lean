import Mathlib.Data.List.Sort
import GrooveIp.Ice.Session

/-!
# Candidates, pairs and the check list

How candidates are compared and added (`ice.c:2822–2960`), the priority of a pair
(`ice.c:315–332, 743–774`), and how a session pairs its candidates when it starts
(`ice.c:3275–3495`). A pair that was freed keeps its number and its contents; a read behind
the end of a freed link is a fault.
-/

namespace GrooveIp.Ice

open Lib Stun

/-! ## Pointers -/

/-- What `ms_new0` leaves of a candidate; nothing points outside of the candidate lists. -/
def nullCandidate : IceCandidate where
  taddr := ⟨[], 0, 0⟩
  type := .host
  priority := 0
  componentID := 0
  base := none

variable (afInet6 : Int) (session : IceSession) (cl : IceCheckList)

/-- The local candidate a pointer names. -/
def IceCheckList.localAt (ref : CandidateRef) : IceCandidate :=
  cl.localCandidates.getD ref nullCandidate

/-- The remote candidate a pointer names. -/
def IceCheckList.remoteAt (ref : CandidateRef) : IceCandidate :=
  cl.remoteCandidates.getD ref nullCandidate

/-- `pair->local`. -/
def IceCheckList.localOf (pair : PairRef) : IceCandidate :=
  cl.localAt (cl.heap pair).localCandidate

/-- `pair->remote`. -/
def IceCheckList.remoteOf (pair : PairRef) : IceCandidate :=
  cl.remoteAt (cl.heap pair).remoteCandidate

/-- Write the fields of one pair. -/
def IceCheckList.updatePair (pair : PairRef)
    (f : IceCandidatePair → IceCandidatePair) : IceCheckList :=
  { cl with heap := fun p => if p = pair then f (cl.heap pair) else cl.heap p }

/-- `ice_pair_set_state` (`ice.c:441`). -/
def IceCheckList.setPairState (pair : PairRef) (state : IceCandidatePairState) : IceCheckList :=
  cl.updatePair pair fun p => { p with state := state }

/-- The check lists of a session, in the order of its table. -/
def IceSession.setStream (i : StreamIndex) (cl : IceCheckList) : IceSession :=
  { session with streams := fun j => if j = i then some cl else session.streams j }

/-! ## Comparing -/

/-- `ice_compare_transport_addresses` (`ice.c:3312`). -/
def iceCompareTransportAddresses (ta1 ta2 : IceTransportAddress) : Bool :=
  !(ta1.family == ta2.family && ta1.port == ta2.port && ta1.ip == ta2.ip)

/-- `ice_compare_candidates` (`ice.c:3319`). -/
def iceCompareCandidates (c1 c2 : IceCandidate) : Bool :=
  !(c1.type == c2.type && !iceCompareTransportAddresses c1.taddr c2.taddr &&
    c1.componentID == c2.componentID && c1.priority == c2.priority)

/-- `ice_compare_pairs` (`ice.c:3327`). -/
def iceComparePairs (p1 p2 : PairRef) : Bool :=
  !(!iceCompareCandidates (cl.localOf p1) (cl.localOf p2) &&
    !iceCompareCandidates (cl.remoteOf p1) (cl.remoteOf p2))

/-- `ice_find_pair_in_valid_list` (`ice.c:2970`). -/
def iceFindPairInValidList (validPair : IceValidCandidatePair) (pair : PairRef) : Bool :=
  !(!iceCompareTransportAddresses (cl.localOf validPair.valid).taddr (cl.localOf pair).taddr &&
    (cl.localOf validPair.valid).componentID == (cl.localOf pair).componentID &&
    !iceCompareTransportAddresses (cl.remoteOf validPair.valid).taddr (cl.remoteOf pair).taddr &&
    (cl.remoteOf validPair.valid).componentID == (cl.remoteOf pair).componentID)

/-! ## Priorities -/

/-- The formula of `ice_compute_pair_priority` (`ice.c:315`). -/
def icePairPriority (role : IceRole) (localPriority remotePriority : UInt32) : UInt64 :=
  let G : UInt64 := match role with
    | .controlling => localPriority.toUInt64
    | .controlled => remotePriority.toUInt64
  let D : UInt64 := match role with
    | .controlling => remotePriority.toUInt64
    | .controlled => localPriority.toUInt64
  (min G D <<< (32 : UInt64)) ||| (max G D <<< (1 : UInt64)) ||| (if G > D then 1 else 0)

/-- The priority of a pair whose candidates are those of the pair, under a role. -/
def IceCheckList.currentPriority (role : IceRole) (pair : PairRef) : UInt64 :=
  icePairPriority role (cl.localOf pair).priority (cl.remoteOf pair).priority

/-- `ice_check_list_compute_pair_priorities` (`ice.c:743`). -/
def iceCheckListComputePairPriorities (role : IceRole) (cl : IceCheckList) : IceCheckList :=
  cl.pairs.foldl (fun cl pair =>
    cl.updatePair pair fun p => { p with priority := cl.currentPriority role pair }) cl

/-- `ice_session_set_role` (`ice.c:767`). -/
def iceSessionSetRole (role : IceRole) : IceSession :=
  if session.role ≠ role then
    { session with
      role := role
      streams := fun i => (session.streams i).map (iceCheckListComputePairPriorities role) }
  else session

/-- `bctbx_list_insert_sorted` with `ice_compare_pair_priorities` (`ice.c:3275`): in front of
the first pair whose priority is not larger. -/
def insertByPriority (heap : PairRef → IceCandidatePair) (pair : PairRef) (list : List PairRef) :
    List PairRef :=
  list.orderedInsert (fun new other => (heap other).priority ≤ (heap new).priority) pair

/-! ## Pairs -/

/-- `ice_pair_new` (`ice.c:334`). -/
def icePairNew (l r : CandidateRef) : IceCandidatePair where
  role := session.role
  localCandidate := l
  remoteCandidate := r
  state := .frozen
  priority := icePairPriority session.role (cl.localAt l).priority (cl.remoteAt r).priority
  isDefault := (cl.localAt l).isDefault && (cl.remoteAt r).isDefault
  retryWithDummyMessageIntegrity := !session.checkMessageIntegrity

/-- A new pair at the end of `cl->pairs`; its number is the old `nextPair`. -/
def IceCheckList.appendPair (pair : IceCandidatePair) : IceCheckList :=
  { cl with
    heap := fun p => if p = cl.nextPair then pair else cl.heap p
    nextPair := cl.nextPair + 1
    pairs := cl.pairs ++ [cl.nextPair] }

/-- The candidates `ice_form_candidate_pairs` looks at, in its order. -/
def candidateRefs : List (CandidateRef × CandidateRef) :=
  (List.range cl.localCandidates.length).flatMap fun l =>
    (List.range cl.remoteCandidates.length).map fun r => (l, r)

/-- One step of `ice_form_candidate_pairs`. -/
def iceFormCandidatePair (refs : CandidateRef × CandidateRef) : IceCheckList :=
  if (cl.localAt refs.1).componentID == (cl.remoteAt refs.2).componentID &&
      (cl.localAt refs.1).taddr.family == (cl.remoteAt refs.2).taddr.family then
    cl.appendPair (icePairNew session cl refs.1 refs.2)
  else cl

/-- `ice_form_candidate_pairs` (`ice.c:3281`). -/
def iceFormCandidatePairs : IceCheckList :=
  (candidateRefs cl).foldl (iceFormCandidatePair session) cl

/-- `ice_replace_srflx_by_base_in_pair` (`ice.c:3304`). -/
def iceReplaceSrflxByBaseInPair (pair : PairRef) : Except Fault IceCheckList :=
  if (cl.localOf pair).type = .serverReflexive then
    match (cl.localOf pair).base with
    | none => .error .nullDereference
    | some base => .ok (cl.updatePair pair fun p => { p with localCandidate := base })
  else .ok cl

/-- `ice_free_candidate_pair` (`ice.c:368`): the pair leaves the check list, and the valid pairs
with its addresses go too. -/
def iceFreeCandidatePair (pair : PairRef) : IceCheckList :=
  { cl with
    checkList := cl.checkList.filter (· ≠ pair)
    validList := cl.validList.filter fun validPair => iceFindPairInValidList cl validPair pair }

/-- The loop of `ice_prune_candidate_pairs` over the duplicates (`ice.c:3360–3366`), between the
pairs passed and those to come; a removed first or last pair ends it. -/
def icePruneDuplicatePairs (cl : IceCheckList) (passed : List PairRef) : List PairRef → IceCheckList
  | [] => { cl with pairs := passed }
  | pair :: rest =>
    match (passed ++ pair :: rest).find? fun other => !iceComparePairs cl other pair with
    | some other =>
      if (cl.heap other).priority > (cl.heap pair).priority then
        if passed = [] ∨ rest = [] then
          iceFreeCandidatePair { cl with pairs := passed ++ rest } pair
        else icePruneDuplicatePairs (iceFreeCandidatePair cl pair) passed rest
      else icePruneDuplicatePairs cl (passed ++ [pair]) rest
    | none => icePruneDuplicatePairs cl (passed ++ [pair]) rest

/-- The check list made of all pairs (`ice.c:3369–3371`). -/
def iceCreateCheckList : IceCheckList :=
  { cl with checkList := cl.pairs.foldl (fun list pair => insertByPriority cl.heap pair list) [] }

/-- `ice_prune_candidate_pairs` (`ice.c:3354`). With more pairs than the limit, the link of the
last one is read after `ice_free_candidate_pair` has freed it. -/
def icePruneCandidatePairs : Except Fault IceCheckList := do
  let cl ← cl.pairs.foldlM iceReplaceSrflxByBaseInPair cl
  let cl := iceCreateCheckList (icePruneDuplicatePairs cl [] cl.pairs)
  if cl.checkList.length > session.maxConnectivityChecks.toNat then
    throw .outOfBounds
  return cl

/-- The foundation of a pair. -/
def IceCheckList.foundationOf (pair : PairRef) : IcePairFoundation :=
  ⟨(cl.localOf pair).foundation, (cl.remoteOf pair).foundation⟩

/-- `ice_generate_pair_foundations_list` (`ice.c:3400`) over the check list. -/
def iceGeneratePairFoundations : IceCheckList :=
  { cl with
    foundations := cl.checkList.foldl (fun list pair =>
      if cl.foundationOf pair ∈ list then list else list ++ [cl.foundationOf pair])
      cl.foundations }

/-- `Foundation_Pair_Priority_ComponentID` without the foundation. -/
structure LowestComponentPair where
  pair : Option PairRef := none
  componentID : UInt16 := iceInvalidComponentID
  priority : UInt64 := 0

/-- `ice_find_lowest_componentid_pair_with_specified_foundation` (`ice.c:3418`). -/
def iceFindLowestComponentIDPair (foundation : IcePairFoundation)
    (fc : LowestComponentPair) (pair : PairRef) : LowestComponentPair :=
  if cl.foundationOf pair == foundation && (fc.componentID == iceInvalidComponentID ||
      ((cl.localOf pair).componentID < fc.componentID &&
        (cl.heap pair).priority > fc.priority)) then
    ⟨some pair, (cl.localOf pair).componentID, (cl.heap pair).priority⟩
  else fc

/-- `ice_set_lowest_componentid_pair_with_foundation_to_waiting_state` (`ice.c:3428`). -/
def iceSetLowestComponentIDPairToWaiting (foundation : IcePairFoundation) : IceCheckList :=
  match (cl.checkList.foldl (iceFindLowestComponentIDPair cl foundation) {}).pair with
  | some pair => cl.setPairState pair .waiting
  | none => cl

/-- `ice_compute_pairs_states` (`ice.c:3443`). -/
def iceComputePairsStates : IceCheckList :=
  cl.foundations.foldl iceSetLowestComponentIDPairToWaiting cl

/-! ## Starting -/

/-- `ice_check_list_pair_candidates` (`ice.c:3449`). -/
def iceCheckListPairCandidates : Except Fault IceCheckList :=
  if cl.state = .running then do
    let cl := iceFormCandidatePairs session { cl with connectivityChecksRunning := true }
    let cl ← icePruneCandidatePairs session cl
    return iceGeneratePairFoundations cl
  else .ok cl

/-- The pairing of the check list at one place of the table. -/
def pairStream (i : StreamIndex) : Except Fault IceSession :=
  match session.streams i with
  | none => .ok session
  | some cl => do return session.setStream i (← iceCheckListPairCandidates session cl)

/-- The first check list in a state. -/
def iceFindCheckListFromState (state : IceCheckListState) : Option StreamIndex :=
  (List.finRange iceSessionMaxCheckLists).find? fun i =>
    (session.streams i).any fun cl => cl.state == state

/-- `ice_session_pair_candidates` (`ice.c:3461`). -/
def iceSessionPairCandidates : Except Fault IceSession :=
  match iceFindCheckListFromState session .running with
  | none => .ok session
  | some first => do
    let session ← (List.finRange iceSessionMaxCheckLists).foldlM pairStream session
    return match session.streams first with
      | none => session
      | some cl => session.setStream first (iceComputePairsStates cl)

/-- `ice_session_start_connectivity_checks` (`ice.c:3484`). -/
def iceSessionStartConnectivityChecks : Except Fault IceSession := do
  let session ← iceSessionPairCandidates session
  return { session with state := .running }

/-! ## Candidates -/

/-- The values of `type_preference_values` (`ice.c:185`). -/
def typePreference : IceCandidateType → UInt32
  | .host => 126
  | .serverReflexive => 100
  | .peerReflexive => 110
  | .relayed => 0

/-- `ice_compute_candidate_priority` (`ice.c:2819`); `AF_INET6` is a number of the platform. -/
def iceComputeCandidatePriority (candidate : IceCandidate) : UInt32 :=
  (typePreference candidate.type <<< (24 : UInt32)) ||| ((65535 : UInt32) <<< (8 : UInt32)) |||
    (if candidate.taddr.family = afInet6 then (1 : UInt32) <<< (7 : UInt32) else 0) |||
    (128 - candidate.componentID.toUInt32)

/-- `ice_candidate_new` (`ice.c:2828`) for a candidate that will stand at `ref`. -/
def iceCandidateNew (type : IceCandidateType) (taddr : IceTransportAddress)
    (componentID : UInt16) (ref : CandidateRef) : IceCandidate :=
  let candidate : IceCandidate :=
    { taddr := taddr, type := type, priority := 0, componentID := componentID
      base := if type = .host then some ref else none }
  { candidate with priority := iceComputeCandidatePriority afInet6 candidate }

/-- `ice_add_componentID` (`ice.c:2875`). -/
def iceAddComponentID (list : List UInt16) (componentID : UInt16) : List UInt16 :=
  if componentID ∈ list then list else list ++ [componentID]

/-- `ice_add_local_candidate` (`ice.c:2887`); with the pointer to the new candidate, or NULL. -/
def iceAddLocalCandidate (type : IceCandidateType)
    (taddr : IceTransportAddress) (componentID : UInt16) (base : Option CandidateRef) :
    IceCheckList × Option CandidateRef :=
  if cl.localCandidates.length ≥ iceMaxNbCandidates then (cl, none)
  else
    let candidate := iceCandidateNew afInet6 type taddr componentID cl.localCandidates.length
    let candidate :=
      if candidate.base.isNone then { candidate with base := base } else candidate
    if cl.localCandidates.any fun other => !iceCompareCandidates other candidate then (cl, none)
    else
      ({ cl with
          localComponentIDs := iceAddComponentID cl.localComponentIDs componentID
          localCandidates := cl.localCandidates ++ [candidate] }, some cl.localCandidates.length)

/-- `ice_add_remote_candidate` (`ice.c:2913`); it looks at the number of local candidates. The
permission a TURN server is asked for is not part of the state. -/
def iceAddRemoteCandidate (type : IceCandidateType)
    (taddr : IceTransportAddress) (componentID : UInt16) (priority : UInt32)
    (foundation : List UInt8) (isDefault : Bool) : IceCheckList × Option CandidateRef :=
  if cl.localCandidates.length ≥ iceMaxNbCandidates then (cl, none)
  else
    let candidate := iceCandidateNew afInet6 type taddr componentID cl.remoteCandidates.length
    let candidate :=
      if priority ≠ 0 then { candidate with priority := priority } else candidate
    if cl.remoteCandidates.any fun other => !iceCompareCandidates other candidate then (cl, none)
    else
      ({ cl with
          remoteComponentIDs := iceAddComponentID cl.remoteComponentIDs componentID
          remoteCandidates := cl.remoteCandidates ++
            [{ candidate with foundation := foundation, isDefault := isDefault }] },
        some cl.remoteCandidates.length)

end GrooveIp.Ice
