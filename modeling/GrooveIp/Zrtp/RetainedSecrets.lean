import GrooveIp.Zrtp.Agreement

/-!
# Retained secrets of ZRTP

The secrets two endpoints keep of each other (`stateMachine.c`): their ids, computed when a Hello
arrives, the ids in a DHPart message, and the comparisons by which the initiator and the responder
find out which of them they have in common. The HMAC is any function to ids.
-/

namespace GrooveIp.Zrtp

/-- `BZRTP_ROLE_INITIATOR` and `BZRTP_ROLE_RESPONDER`. -/
inductive Role where
  | initiator
  | responder
  deriving DecidableEq, Repr

/-- What a retained secret is hashed with for its id: the name of a role, or the last hash image of an
endpoint for an auxiliary secret. -/
inductive SecretLabel where
  | role (role : Role)
  | image (H3 : List UInt8)
  deriving DecidableEq, Repr

/-- The retained secrets there are ids for. -/
inductive SecretName where
  | rs1
  | rs2
  | auxsecret
  | pbxsecret
  deriving DecidableEq, Repr

/-- The `hmacFunction` that goes with a hash, for a key and the first eight bytes of the output. -/
abbrev IdFunction (Id : Type) := HashFunction → List UInt8 → SecretLabel → Id

/-- What `bctbx_rng_get` gives for the ids of secrets there are not. -/
abbrev IdDraws (Id : Type) := SecretName → Role → Id

/-- `cachedSecrets_t`; a NULL pointer is `none`. -/
structure CachedSecret where
  rs1 : Option (List UInt8)
  rs2 : Option (List UInt8)
  auxsecret : Option (List UInt8) := none
  pbxsecret : Option (List UInt8) := none
  previouslyVerifiedSas : Bool := false
  deriving DecidableEq, Repr

/-- `cachedSecretsHash_t`. -/
structure CachedSecretHash (Id : Type) where
  rs1ID : Id
  rs2ID : Id
  pbxsecretID : Id

/-- The ids of a DHPart message. -/
structure DHPartIDs (Id : Type) where
  rs1ID : Id
  rs2ID : Id
  auxsecretID : Id
  pbxsecretID : Id

/-- The fields of `bzrtpContext_t` and `bzrtpChannelContext_t` for retained secrets. -/
structure SecretContext (Id : Type) where
  cachedSecret : CachedSecret
  initiatorCachedSecretHash : CachedSecretHash Id
  responderCachedSecretHash : CachedSecretHash Id
  initiatorAuxsecretID : Id
  responderAuxsecretID : Id
  cacheMismatchFlag : Bool := false
  auxSecretMismatch : Bool := true

variable {Id : Type}

/-! ## Ids -/

/-- The id of a secret, or a random one. -/
def secretID (hmacFunction : IdFunction Id) (hash : HashFunction) (draw : Id)
    (secret : Option (List UInt8)) (label : SecretLabel) : Id :=
  match secret with
  | some key => hmacFunction hash key label
  | none => draw

/-- The ids of a role. -/
def cachedSecretHash (hmacFunction : IdFunction Id) (hash : HashFunction) (draws : IdDraws Id)
    (secrets : CachedSecret) (role : Role) : CachedSecretHash Id where
  rs1ID := secretID hmacFunction hash (draws .rs1 role) secrets.rs1 (.role role)
  rs2ID := secretID hmacFunction hash (draws .rs2 role) secrets.rs2 (.role role)
  pbxsecretID := secretID hmacFunction hash (draws .pbxsecret role) secrets.pbxsecret (.role role)

/-- The part of `bzrtp_responseToHelloMessage` (`stateMachine.c:1719–1770`) for the retained secrets,
when they have been read from the cache; a transient auxiliary secret is appended. -/
def helloSecrets (hmacFunction : IdFunction Id) (hash : HashFunction) (draws : IdDraws Id)
    (selfH3 peerH3 : List UInt8) (cached : CachedSecret)
    (transientAuxSecret : Option (List UInt8)) : SecretContext Id :=
  let secrets := match transientAuxSecret with
    | some transient => { cached with auxsecret := some (cached.auxsecret.getD [] ++ transient) }
    | none => cached
  { cachedSecret := secrets
    initiatorCachedSecretHash := cachedSecretHash hmacFunction hash draws secrets .initiator
    responderCachedSecretHash := cachedSecretHash hmacFunction hash draws secrets .responder
    initiatorAuxsecretID := secretID hmacFunction hash (draws .auxsecret .initiator)
      secrets.auxsecret (.image selfH3)
    responderAuxsecretID := secretID hmacFunction hash (draws .auxsecret .responder)
      secrets.auxsecret (.image peerH3) }

variable (context : SecretContext Id)

/-- The ids `bzrtp_createZrtpPacket` (`packetParser.c:1244`) puts in a DHPart2. -/
def dhPart2IDs : DHPartIDs Id where
  rs1ID := context.initiatorCachedSecretHash.rs1ID
  rs2ID := context.initiatorCachedSecretHash.rs2ID
  auxsecretID := context.initiatorAuxsecretID
  pbxsecretID := context.initiatorCachedSecretHash.pbxsecretID

/-- The swap of the auxiliary ids in `bzrtp_turnIntoResponder` (`stateMachine.c:1599`). -/
def swapAuxsecretIDs : SecretContext Id :=
  { context with
    initiatorAuxsecretID := context.responderAuxsecretID
    responderAuxsecretID := context.initiatorAuxsecretID }

/-- The ids `bzrtp_turnIntoResponder` (`stateMachine.c:1607`) puts in a DHPart1, after the swap. -/
def dhPart1IDs : DHPartIDs Id where
  rs1ID := context.responderCachedSecretHash.rs1ID
  rs2ID := context.responderCachedSecretHash.rs2ID
  auxsecretID := context.responderAuxsecretID
  pbxsecretID := context.responderCachedSecretHash.pbxsecretID

/-! ## Comparisons -/

/-- `cachedSecret.rs1` is freed. -/
def SecretContext.eraseRs1 : SecretContext Id :=
  { context with cachedSecret := { context.cachedSecret with rs1 := none } }

/-- `cachedSecret.rs2` is freed. -/
def SecretContext.eraseRs2 : SecretContext Id :=
  { context with cachedSecret := { context.cachedSecret with rs2 := none } }

variable [DecidableEq Id]

/-- The initiator compares its rs1 and then its rs2 with the ids of a DHPart1
(`stateMachine.c:502–532`). -/
def matchDHPart1Rs (dhPart1Message : DHPartIDs Id) : SecretContext Id :=
  let context :=
    if context.cachedSecret.rs1.isSome then
      if context.responderCachedSecretHash.rs1ID ≠ dhPart1Message.rs1ID then
        if context.responderCachedSecretHash.rs1ID ≠ dhPart1Message.rs2ID then
          { context.eraseRs1 with cacheMismatchFlag := true }
        else context
      else context
    else context
  if context.cacheMismatchFlag && context.cachedSecret.rs2.isSome then
    if context.responderCachedSecretHash.rs2ID ≠ dhPart1Message.rs1ID then
      if context.responderCachedSecretHash.rs2ID ≠ dhPart1Message.rs2ID then context.eraseRs2
      else { context with cacheMismatchFlag := false }
    else { context with cacheMismatchFlag := false }
  else context

variable (dhPart2Message : DHPartIDs Id)

/-- The first step of the responder (`stateMachine.c:790`): its rs1 and rs2 against the rs1 id of a
DHPart2, with `cacheMatchFlag`. -/
def matchInitiatorRs1 : SecretContext Id × Bool :=
  if context.cachedSecret.rs1.isSome then
    if context.initiatorCachedSecretHash.rs1ID ≠ dhPart2Message.rs1ID then
      if context.cachedSecret.rs2.isSome then
        if context.initiatorCachedSecretHash.rs2ID = dhPart2Message.rs1ID then
          (context.eraseRs1, true)
        else (context, false)
      else (context, false)
    else (context, true)
  else (context, false)

/-- The second step (`stateMachine.c:811`): its rs1 and rs2 against the rs2 id. -/
def matchInitiatorRs2 (cacheMatchFlag : Bool) (dhPart2Message : DHPartIDs Id) : SecretContext Id :=
  if context.cachedSecret.rs1.isSome && !cacheMatchFlag then
    if context.initiatorCachedSecretHash.rs1ID ≠ dhPart2Message.rs2ID then
      let context := context.eraseRs1
      if context.cachedSecret.rs2.isSome then
        if context.initiatorCachedSecretHash.rs2ID ≠ dhPart2Message.rs2ID then
          { context.eraseRs2 with cacheMismatchFlag := true }
        else context
      else { context with cacheMismatchFlag := true }
    else context
  else context

/-- The responder compares its rs1 and rs2 with the ids of a DHPart2. -/
def matchDHPart2Rs : SecretContext Id :=
  let (context, cacheMatchFlag) := matchInitiatorRs1 context dhPart2Message
  matchInitiatorRs2 context cacheMatchFlag dhPart2Message

/-- The auxiliary secret of a role is compared (`stateMachine.c:534`, `stateMachine.c:838`). -/
def matchAuxsecret (auxsecretID : Id) (message : DHPartIDs Id) : SecretContext Id :=
  if context.cachedSecret.auxsecret.isSome then
    if auxsecretID ≠ message.auxsecretID then
      { context with cachedSecret := { context.cachedSecret with auxsecret := none } }
    else { context with auxSecretMismatch := false }
  else context

/-- The PBX secret of a role is compared (`stateMachine.c:544`, `stateMachine.c:848`). -/
def matchPbxsecret (pbxsecretID : Id) (message : DHPartIDs Id) : SecretContext Id :=
  if context.cachedSecret.pbxsecret.isSome && pbxsecretID ≠ message.pbxsecretID then
    { context with cachedSecret := { context.cachedSecret with pbxsecret := none } }
  else context

/-- After a mismatch the SAS is no longer taken for verified (`stateMachine.c:553`,
`stateMachine.c:857`). -/
def resetVerifiedSas : SecretContext Id :=
  if context.cacheMismatchFlag then
    { context with cachedSecret := { context.cachedSecret with previouslyVerifiedSas := false } }
  else context

/-- What the initiator makes of a DHPart1 (`state_keyAgreement_sendingCommit`). -/
def matchDHPart1 (message : DHPartIDs Id) : SecretContext Id :=
  let context := matchDHPart1Rs context message
  let context := matchAuxsecret context context.responderAuxsecretID message
  let context := matchPbxsecret context context.responderCachedSecretHash.pbxsecretID message
  resetVerifiedSas context

/-- What the responder makes of a DHPart2 (`state_keyAgreement_responderSendingDHPart1`). -/
def matchDHPart2 (message : DHPartIDs Id) : SecretContext Id :=
  let context := matchDHPart2Rs context message
  let context := matchAuxsecret context context.initiatorAuxsecretID message
  let context := matchPbxsecret context context.initiatorCachedSecretHash.pbxsecretID message
  resetVerifiedSas context

/-- The s1 of `bzrtp_computeS0DHMMode` (`stateMachine.c:1897`): rs1, or else rs2. -/
def s1 : Option (List UInt8) :=
  context.cachedSecret.rs1.or context.cachedSecret.rs2

end GrooveIp.Zrtp
