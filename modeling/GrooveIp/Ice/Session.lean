import GrooveIp.Stun.Message

/-!
# ICE sessions and check lists

The records of `mediastreamer2/ice.h:47–267`. A pair is reached through pointers from
several lists of its check list at once, so a check list owns the pairs it has allocated and
a pointer is the number of the allocation. Candidates are only ever appended while checks
run; a pointer to one is its place in the local or the remote list. Times are counted in
milliseconds. The requests to STUN and TURN servers and the sockets are not part of the state.
-/

namespace GrooveIp.Ice

open Stun

/-- `IceRole` (`ice.h:47`). -/
inductive IceRole where
  | controlling
  | controlled
  deriving DecidableEq, Repr

/-- `IceCandidateType` (`ice.h:57`), the kinds a candidate can have. -/
inductive IceCandidateType where
  | host
  | serverReflexive
  | peerReflexive
  | relayed
  deriving DecidableEq, Repr

/-- `IceCandidatePairState` (`ice.h:71`). -/
inductive IceCandidatePairState where
  | waiting
  | inProgress
  | succeeded
  | failed
  | frozen
  deriving DecidableEq, Repr

/-- `IceCheckListState` (`ice.h:84`). -/
inductive IceCheckListState where
  | running
  | completed
  | failed
  deriving DecidableEq, Repr

/-- `IceSessionState` (`ice.h:93`). -/
inductive IceSessionState where
  | stopped
  | running
  | completed
  | failed
  deriving DecidableEq, Repr

/-- `UInt96`: the twelve bytes of a STUN transaction identifier. -/
abbrev UInt96 := List UInt8

/-- `MSTimeSpec` in milliseconds, the unit of `ice_compare_time` (`ice.c:4218`). -/
abbrev MSTimeSpec := Int

/-- A pointer to a candidate: its place in the candidate list. -/
abbrev CandidateRef := Nat

/-- A pointer to a pair: the number of its allocation. -/
abbrev PairRef := Nat

/-- `ICE_SESSION_MAX_CHECK_LISTS` (`ice.h:39`). -/
def iceSessionMaxCheckLists : Nat := 8

/-- `ICE_MAX_NB_CANDIDATES` (`ice.c:37`). -/
def iceMaxNbCandidates : Nat := 16

/-- `ICE_INVALID_COMPONENTID` (`ice.c:45`). -/
def iceInvalidComponentID : UInt16 := 0

/-- `ICE_DEFAULT_RTO_DURATION` (`ice.c:49`). -/
def iceDefaultRtoDuration : Int := 200

/-- `ICE_NOMINATION_DELAY` (`ice.c:52`). -/
def iceNominationDelay : Int := 1000

/-- `ICE_MAX_RETRANSMISSIONS` (`ice.c:53`). -/
def iceMaxRetransmissions : Nat := 7

/-- `ICE_MAX_RETRANSMISSIONS_FOR_NOMINATIONS` (`ice.c:54`). -/
def iceMaxRetransmissionsForNominations : Nat := 5

/-- `IceTransportAddress` (`ice.h:164`). -/
structure IceTransportAddress where
  ip : List UInt8
  port : Int
  family : Int
  deriving DecidableEq, Repr

/-- `IceCandidate` (`ice.h:174`). -/
structure IceCandidate where
  foundation : List UInt8 := []
  taddr : IceTransportAddress
  type : IceCandidateType
  priority : UInt32
  componentID : UInt16
  base : Option CandidateRef
  isDefault : Bool := false
  deriving DecidableEq, Repr

/-- `IceCandidatePair` (`ice.h:187`). -/
structure IceCandidatePair where
  role : IceRole
  localCandidate : CandidateRef
  remoteCandidate : CandidateRef
  state : IceCandidatePairState
  priority : UInt64
  transmissionTime : MSTimeSpec := 0
  rto : Int := iceDefaultRtoDuration
  retransmissions : Nat := 0
  isDefault : Bool := false
  useCandidate : Bool := false
  isNominated : Bool := false
  nominationPending : Bool := false
  hasCanceledTransaction : Bool := false
  nominationFailing : Bool := false
  retryWithDummyMessageIntegrity : Bool := false
  useDummyHmac : Bool := false
  deriving DecidableEq, Repr

/-- `IcePairFoundation` (`ice.h:211`). -/
structure IcePairFoundation where
  localFoundation : List UInt8
  remoteFoundation : List UInt8
  deriving DecidableEq, Repr

/-- `IceValidCandidatePair` (`ice.h:216`). -/
structure IceValidCandidatePair where
  valid : PairRef
  generatedFrom : PairRef
  lastKeepalive : MSTimeSpec
  selected : Bool
  deriving DecidableEq, Repr

/-- `IceTransaction` (`ice.h:223`). -/
structure IceTransaction where
  transactionID : UInt96
  pair : PairRef
  canceled : Bool := false
  deriving DecidableEq, Repr

/-- `IceCheckList` (`ice.h:235`); `heap` holds the pairs allocated so far, `nextPair` is the
first number that is free. The defaults are those of `ice_check_list_init`. -/
structure IceCheckList where
  heap : PairRef → IceCandidatePair
  nextPair : PairRef := 0
  remoteUfrag : Option (List UInt8) := none
  remotePwd : Option (List UInt8) := none
  localCandidates : List IceCandidate := []
  remoteCandidates : List IceCandidate := []
  pairs : List PairRef := []
  losingPairs : List PairRef := []
  triggeredChecksQueue : List PairRef := []
  checkList : List PairRef := []
  validList : List IceValidCandidatePair := []
  foundations : List IcePairFoundation := []
  localComponentIDs : List UInt16 := []
  remoteComponentIDs : List UInt16 := []
  transactionList : List IceTransaction := []
  state : IceCheckListState := .running
  taTime : MSTimeSpec := 0
  keepaliveTime : MSTimeSpec := 0
  foundationGenerator : UInt32 := 1
  gatheringStartTime : MSTimeSpec := 0
  nominationDelayStartTime : MSTimeSpec := 0
  gatheringCandidates : Bool := false
  gatheringFinished : Bool := false
  nominationDelayRunning : Bool := false
  connectivityChecksRunning : Bool := false
  nominationInProgress : Bool := false

/-- The position of a check list in the session's table. -/
abbrev StreamIndex := Fin iceSessionMaxCheckLists

/-- `IceSession` (`ice.h:105`); the defaults are those of `ice_session_init`. -/
structure IceSession where
  streams : StreamIndex → Option IceCheckList
  localUfrag : List UInt8
  localPwd : List UInt8
  remoteUfrag : Option (List UInt8) := none
  remotePwd : Option (List UInt8) := none
  role : IceRole := .controlling
  state : IceSessionState := .stopped
  tieBreaker : UInt64
  ta : Int := 40
  eventTime : MSTimeSpec := 0
  checkMessageIntegrity : Bool := true
  sendEvent : Bool := false
  maxConnectivityChecks : UInt8 := 100
  keepaliveTimeout : UInt8 := 15
  forcedRelay : Bool := false

end GrooveIp.Ice
