import GrooveIp.Lib.Memory
import GrooveIp.Zrtp.RetainedSecrets

/-!
# Turning into responder

What a channel does with a Commit (`stateMachine.c`): the contention with its own Commit,
`bzrtp_turnIntoResponder` and the first call of the state after it. The public value of a DHPart is
written with as many bytes as the key agreement of the channel asks for, from the buffer that was
allocated for the one the DHPart was created for.
-/

namespace GrooveIp.Zrtp

open Lib

/-- `MSGTYPE_DHPART1` and `MSGTYPE_DHPART2`. -/
inductive DHPartType where
  | dhPart1
  | dhPart2
  deriving DecidableEq, Repr

/-- What `bzrtp_packetBuild` writes into the string of a DHPart. -/
structure DHPartString (Id : Type) where
  messageType : DHPartType
  H1 : List UInt8
  ids : DHPartIDs Id
  pv : List UInt8
  sequenceNumber : Nat

/-- A `bzrtpPacket_t` with a `bzrtpDHPartMessage_t`; `pv` is the whole buffer. -/
structure DHPartPacket (Id : Type) where
  messageType : DHPartType
  H1 : List UInt8
  ids : DHPartIDs Id
  pv : List UInt8
  packetString : Option (DHPartString Id)

/-- The fields of `bzrtpCommitMessage_t` the contention looks at. -/
structure CommitMessage where
  algos : CommitAlgos
  hvi : List UInt8
  nonce : List UInt8

/-- The states in which a Commit may be accepted: `state_discovery_waitingForHelloAck` and
`state_keyAgreement_sendingCommit`. -/
inductive AcceptingState where
  | waitingForHelloAck
  | sendingCommit
  deriving DecidableEq, Repr

/-- The states a channel is in before and after. -/
inductive ChannelState where
  | accepting (state : AcceptingState)
  | responderSendingDHPart1
  | responderSendingConfirm1
  deriving DecidableEq, Repr

/-- The fields of `bzrtpContext_t` and `bzrtpChannelContext_t` that matter for a Commit: the lists of the
own Hello, whether there is a ZRTPSess, the MiTM flags of the two Hellos, and the fields of the channel.
`keyAgreementAlgo` is the one the DH context was created for, `keys` whether the keys of the responder
have been derived. -/
structure ResponderChannel (Id : Type) where
  supported : SupportedTypes
  zrtpSess : Bool
  selfM : Bool
  peerM : Bool
  keyAgreementAlgo : UInt8
  stateMachine : ChannelState
  role : Role
  timerOn : Bool
  crypto : ChannelCrypto
  responderCachedSecretHash : CachedSecretHash Id
  initiatorAuxsecretID : Id
  responderAuxsecretID : Id
  keys : Bool
  selfSequenceNumber : Nat
  selfCommit : Option CommitMessage
  selfDHPart : Option (DHPartPacket Id)
  selfConfirm : Bool

/-- The codes these functions return; `ok` is zero. -/
inductive ResponderCode where
  | ok
  | invalidContext
  | builderInvalidContext
  | parserInvalidMessage
  deriving DecidableEq, Repr

/-- What becomes of a Commit: it is dropped for the own one, or a code is returned. -/
inductive CommitOutcome (Id : Type) where
  | dropped
  | returned (channel : ResponderChannel Id) (code : ResponderCode)

variable {Id : Type}

/-! ## The first call of the next state -/

/-- `computeKeyAgreementPrivateValueLength`. -/
def computeKeyAgreementPrivateValueLength (keyAgreementAlgo : UInt8) : Nat :=
  if keyAgreementAlgo = zrtpKeyAgreementDH3k then 384
  else if keyAgreementAlgo = zrtpKeyAgreementDH2k then 256
  else if keyAgreementAlgo = zrtpKeyAgreementX255 then 32
  else if keyAgreementAlgo = zrtpKeyAgreementX448 then 56
  else if keyAgreementAlgo = zrtpKeyAgreementEC25 then 64
  else if keyAgreementAlgo = zrtpKeyAgreementEC38 then 96
  else if keyAgreementAlgo = zrtpKeyAgreementEC52 then 132
  else 0

/-- `bzrtp_packetBuild` of a DHPart; `none` is `BZRTP_BUILDER_ERROR_INVALIDCONTEXT`. -/
def buildDHPart (keyAgreementAlgo : UInt8) (packet : DHPartPacket Id) (sequenceNumber : Nat) :
    Except Fault (Option (DHPartPacket Id)) :=
  let pvLength := computeKeyAgreementPrivateValueLength keyAgreementAlgo
  if pvLength = 0 then .ok none
  else do
    let pv ← readBytes packet.pv 0 pvLength
    .ok (some { packet with
      packetString := some ⟨packet.messageType, packet.H1, packet.ids, pv, sequenceNumber⟩ })

variable (channel : ResponderChannel Id)

/-- The end of the first call of `state_confirmation_responderSendingConfirm1`: a Confirm1 is created,
built and sent. -/
def sendConfirm1 : Except Fault (ResponderChannel Id × ResponderCode) :=
  let channel := { channel with timerOn := false }
  if channel.keys = false then .ok (channel, .builderInvalidContext)
  else if channel.crypto.cipherEncryptionFunction = none ∨ channel.crypto.hmacFunction = none then
    .error .nullDereference
  else
    .ok ({ channel with
      selfConfirm := true, selfSequenceNumber := channel.selfSequenceNumber + 1 }, .ok)

/-- The first call of `state_confirmation_responderSendingConfirm1`; in multistream mode
`bzrtp_computeS0MultiStreamMode` derives the keys. -/
def responderSendingConfirm1 : Except Fault (ResponderChannel Id × ResponderCode) :=
  if channel.crypto.keyAgreementAlgo = zrtpKeyAgreementMult then
    if channel.zrtpSess = false then .ok (channel, .invalidContext)
    else if channel.crypto.hashFunction = none ∨ channel.crypto.hmacFunction = none then
      .error .nullDereference
    else sendConfirm1 { channel with keys := true }
  else if channel.crypto.keyAgreementAlgo = zrtpKeyAgreementPrsh then sendConfirm1 channel
  else if channel.keys = false then .ok (channel, .invalidContext)
  else sendConfirm1 channel

/-- The first call of `state_keyAgreement_responderSendingDHPart1`. -/
def responderSendingDHPart1 : ResponderChannel Id × ResponderCode :=
  if channel.selfDHPart.isNone then (channel, .invalidContext)
  else ({ channel with timerOn := false }, .ok)

/-! ## Commits -/

/-- The algorithms of a Commit are adopted and the pointers updated, whatever the update returns. -/
def adoptAlgos (crypto : ChannelCrypto) (commit : CommitAlgos) : ChannelCrypto :=
  (bzrtpUpdateCryptoFunctionPointers { crypto with
    hashAlgo := commit.hashAlgo
    cipherAlgo := commit.cipherAlgo
    authTagAlgo := commit.authTagAlgo
    keyAgreementAlgo := commit.keyAgreementAlgo
    sasAlgo := commit.sasAlgo }).1

/-- The ids of the DHPart1 of a responder, after the swap. -/
def responderIDs (auxsecretID : Id) : DHPartIDs Id where
  rs1ID := channel.responderCachedSecretHash.rs1ID
  rs2ID := channel.responderCachedSecretHash.rs2ID
  auxsecretID := auxsecretID
  pbxsecretID := channel.responderCachedSecretHash.pbxsecretID

/-- The end of `bzrtp_turnIntoResponder`. -/
def enterResponder : Except Fault (ResponderChannel Id × ResponderCode) :=
  if channel.crypto.keyAgreementAlgo = zrtpKeyAgreementPrsh ∨
      channel.crypto.keyAgreementAlgo = zrtpKeyAgreementMult then
    responderSendingConfirm1 { channel with stateMachine := .responderSendingConfirm1 }
  else .ok (responderSendingDHPart1 { channel with stateMachine := .responderSendingDHPart1 })

/-- `bzrtp_turnIntoResponder`. -/
def bzrtpTurnIntoResponder (commit : CommitAlgos) :
    Except Fault (ResponderChannel Id × ResponderCode) :=
  let channel := { channel with
    timerOn := false, role := .responder, crypto := adoptAlgos channel.crypto commit }
  match channel.selfDHPart with
  | none => enterResponder channel
  | some packet => do
    let channel := { channel with
      initiatorAuxsecretID := channel.responderAuxsecretID
      responderAuxsecretID := channel.initiatorAuxsecretID }
    let packet := { packet with
      messageType := .dhPart1
      ids := responderIDs channel channel.responderAuxsecretID
      packetString := none }
    match ← buildDHPart channel.crypto.keyAgreementAlgo packet channel.selfSequenceNumber with
    | none => .ok ({ channel with selfDHPart := some packet }, .builderInvalidContext)
    | some packet => enterResponder { channel with
        selfDHPart := some packet, selfSequenceNumber := channel.selfSequenceNumber + 1 }

/-- The role after the contention of `state_keyAgreement_sendingCommit`. -/
def contentionRole (selfCommit peerCommit : CommitMessage) : Role :=
  let selfAlgo := selfCommit.algos.keyAgreementAlgo
  let peerAlgo := peerCommit.algos.keyAgreementAlgo
  if peerAlgo ≠ selfAlgo then
    if peerAlgo ≠ zrtpKeyAgreementPrsh ∧ selfAlgo = zrtpKeyAgreementPrsh then .responder
    else channel.role
  else if peerAlgo = zrtpKeyAgreementPrsh ∧ (channel.selfM = true ∨ channel.peerM = true) then
    if channel.selfM then .responder else channel.role
  else if selfAlgo = zrtpKeyAgreementPrsh ∨ selfAlgo = zrtpKeyAgreementMult then
    if selfCommit.nonce < peerCommit.nonce then .responder else channel.role
  else if selfCommit.hvi < peerCommit.hvi then .responder
  else channel.role

/-- A Commit as it arrives: the names of its algorithms, and its hvi or nonce. -/
structure CommitString where
  names : AlgoFamily → List UInt8
  hvi : List UInt8
  nonce : List UInt8

/-- The key agreements `bzrtp_packetParser` has a length of a Commit for. -/
def commitKeyAgreements : List UInt8 :=
  [zrtpKeyAgreementDH2k, zrtpKeyAgreementX255, zrtpKeyAgreementX448, zrtpKeyAgreementEC25,
    zrtpKeyAgreementDH3k, zrtpKeyAgreementEC38, zrtpKeyAgreementEC52, zrtpKeyAgreementPrsh,
    zrtpKeyAgreementMult]

/-- The algorithms `bzrtp_packetParser` reads from a Commit, unknown names as `ZRTP_UNSET_ALGO`; an
unknown key agreement is refused. -/
def parseCommitAlgos (names : AlgoFamily → List UInt8) : Option CommitAlgos :=
  let algo := fun family => bzrtpCryptoAlgoTypeStringToInt (names family) family
  if algo .keyAgreement ∈ commitKeyAgreements then
    some ⟨algo .hash, algo .cipherBlock, algo .authTag, algo .keyAgreement, algo .sas⟩
  else none

/-- A Commit arrives in one of the accepting states. -/
def receiveCommit (state : AcceptingState) (channel : ResponderChannel Id) (commit : CommitString) :
    Except Fault (CommitOutcome Id) :=
  match parseCommitAlgos commit.names with
  | none => .ok (.returned channel .parserInvalidMessage)
  | some algos =>
    match state with
    | .waitingForHelloAck => do
      let (channel, code) ← bzrtpTurnIntoResponder channel algos
      .ok (.returned channel code)
    | .sendingCommit =>
      match channel.selfCommit with
      | none => .error .nullDereference
      | some selfCommit =>
        match contentionRole channel selfCommit ⟨algos, commit.hvi, commit.nonce⟩ with
        | .initiator => .ok .dropped
        | .responder => do
          let (channel, code) ← bzrtpTurnIntoResponder
            { channel with role := .responder, selfCommit := none } algos
          .ok (.returned channel code)

/-! ## After the Hello -/

/-- What `bzrtp_responseToHelloMessage` takes from elsewhere: the ids and the images of the channel, the
bytes of its public value, the MiTM flags, and whether there is a ZRTPSess. -/
structure HelloDraws (Id : Type) where
  H1 : List UInt8
  dhPart2IDs : DHPartIDs Id
  responderCachedSecretHash : CachedSecretHash Id
  initiatorAuxsecretID : Id
  responderAuxsecretID : Id
  publicValue : Nat → UInt8
  selfM : Bool
  peerM : Bool
  zrtpSess : Bool
  selfSequenceNumber : Nat
  timerOn : Bool

/-- The channel after the Hello of the peer, when an agreement was found: in multistream mode without a
DHPart, or with a DHPart2 for the key agreement. -/
def channelAfterHello (zrtpContext : BzrtpContext) (peerHello : SupportedTypes) (draws : HelloDraws Id)
    (state : AcceptingState) : Option (ResponderChannel Id) :=
  match bzrtpCryptoAlgoAgreement zrtpContext initialChannelCrypto peerHello with
  | (crypto, .ok) =>
    let channel : ResponderChannel Id := {
      supported := zrtpContext.supported
      zrtpSess := draws.zrtpSess
      selfM := draws.selfM
      peerM := draws.peerM
      keyAgreementAlgo := crypto.keyAgreementAlgo
      stateMachine := .accepting state
      role := .initiator
      timerOn := draws.timerOn
      crypto := crypto
      responderCachedSecretHash := draws.responderCachedSecretHash
      initiatorAuxsecretID := draws.initiatorAuxsecretID
      responderAuxsecretID := draws.responderAuxsecretID
      keys := false
      selfSequenceNumber := draws.selfSequenceNumber
      selfCommit := none
      selfDHPart := none
      selfConfirm := false }
    if zrtpKeyAgreementMult ∈ peerHello .keyAgreement ∧ draws.zrtpSess = true then
      some { channel with
        crypto := { crypto with keyAgreementAlgo := zrtpKeyAgreementMult, keyAgreementLength := 0 } }
    else
      let pv := (List.range crypto.keyAgreementLength).map draws.publicValue
      some { channel with
        selfDHPart := some ⟨.dhPart2, draws.H1, draws.dhPart2IDs, pv,
          some ⟨.dhPart2, draws.H1, draws.dhPart2IDs, pv, 0⟩⟩ }
  | _ => none

/-- What the other events leave alone while a Commit may still be accepted: a repeated Hello, a HelloACK
(upon which a Commit is created), the timer, and messages that are refused. A Confirm1 in multistream
mode may derive the keys. -/
structure Quiet (channel channel' : ResponderChannel Id) : Prop where
  accepting : ∃ state state', channel.stateMachine = .accepting state ∧
    channel'.stateMachine = .accepting state'
  same : ∃ timerOn keys selfSequenceNumber selfCommit, channel' = { channel with
    stateMachine := channel'.stateMachine
    timerOn := timerOn
    keys := keys
    selfSequenceNumber := selfSequenceNumber
    selfCommit := selfCommit }

/-- The states of a channel that has taken a Hello, as long as Commits may be accepted. -/
inductive Reached : ResponderChannel Id → Prop
  | hello {build : KeyAgreementAlgoList} {calls : List (AlgoFamily × List UInt8)}
      {peerHello : SupportedTypes} {draws : HelloDraws Id} {state : AcceptingState}
      {channel : ResponderChannel Id}
      (hello : channelAfterHello (configuredContext build calls) peerHello draws state =
        some channel) : Reached channel
  | quiet {channel channel' : ResponderChannel Id} (reached : Reached channel)
      (quiet : Quiet channel channel') : Reached channel'
  | commit {channel channel' : ResponderChannel Id} {state : AcceptingState} {message : CommitString}
      {code : ResponderCode} (reached : Reached channel)
      (accepting : channel.stateMachine = .accepting state)
      (received : receiveCommit state channel message = .ok (.returned channel' code)) :
      Reached channel'

end GrooveIp.Zrtp
