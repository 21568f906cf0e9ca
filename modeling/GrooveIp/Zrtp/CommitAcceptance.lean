import GrooveIp.Zrtp.Responder

/-!
# Which Commits are accepted

A responder is to commit to what was negotiated only, and a refused Commit is to leave it as it was.
`bzrtp_turnIntoResponder` looks at neither: the algorithms of a Commit must be right by themselves.
-/

namespace GrooveIp.Zrtp

open Lib

variable {Id : Type}

/-! ## Function pointers -/

/-- `hashLength` of a hash algorithm. -/
def hashLengthOf (hashAlgo : UInt8) : Nat :=
  if hashAlgo = zrtpHashS256 then 32 else if hashAlgo = zrtpHashS384 then 48 else 0

/-- The cipher functions of a cipher. -/
def cipherFunctionOf (cipherAlgo : UInt8) : Option CipherFunction :=
  if cipherAlgo = zrtpCipherAES1 then some .aes128Cfb
  else if cipherAlgo = zrtpCipherAES3 then some .aes256Cfb
  else none

/-- `cipherKeyLength` of a cipher. -/
def cipherKeyLengthOf (cipherAlgo : UInt8) : Nat :=
  if cipherAlgo = zrtpCipherAES1 then 16 else if cipherAlgo = zrtpCipherAES3 then 32 else 0

/-- The function of a SAS rendering. -/
def sasFunctionOf (sasAlgo : UInt8) : Option SasFunction :=
  if sasAlgo = zrtpSasB32 then some .base32
  else if sasAlgo = zrtpSasB256 then some .base256
  else none

/-- `sasLength` of a SAS rendering. -/
def sasLengthOf (sasAlgo : UInt8) : Nat :=
  if sasAlgo = zrtpSasB32 then 5 else if sasAlgo = zrtpSasB256 then 32 else 0

/-- The pointers and lengths of a channel are those of its algorithms. -/
structure PointersMatch (crypto : ChannelCrypto) : Prop where
  hashFunction : crypto.hashFunction = hmacFunctionOf crypto.hashAlgo
  hmacFunction : crypto.hmacFunction = hmacFunctionOf crypto.hashAlgo
  hashLength : crypto.hashLength = hashLengthOf crypto.hashAlgo
  encryption : crypto.cipherEncryptionFunction = cipherFunctionOf crypto.cipherAlgo
  decryption : crypto.cipherDecryptionFunction = cipherFunctionOf crypto.cipherAlgo
  cipherKeyLength : crypto.cipherKeyLength = cipherKeyLengthOf crypto.cipherAlgo
  keyAgreementLength : crypto.keyAgreementLength =
    computeKeyAgreementPrivateValueLength crypto.keyAgreementAlgo
  sasFunction : crypto.sasFunction = sasFunctionOf crypto.sasAlgo
  sasLength : crypto.sasLength = sasLengthOf crypto.sasAlgo

theorem adoptAlgos_algo (crypto : ChannelCrypto) (commit : CommitAlgos) :
    (adoptAlgos crypto commit).algo = commit.algo := by
  rw [adoptAlgos, bzrtpUpdateCryptoFunctionPointers_algo]
  ext family
  cases family <;> rfl

/-- The key agreement of a Commit is adopted. -/
@[simp] theorem adoptAlgos_keyAgreementAlgo (crypto : ChannelCrypto) (commit : CommitAlgos) :
    (adoptAlgos crypto commit).keyAgreementAlgo = commit.keyAgreementAlgo :=
  congrFun (adoptAlgos_algo crypto commit) .keyAgreement

variable {crypto : ChannelCrypto} {commit : CommitAlgos}

/-- The hashes, ciphers and SAS renderings there are functions for. -/
structure HasFunctions (commit : CommitAlgos) : Prop where
  hash : commit.hashAlgo = zrtpHashS256 ∨ commit.hashAlgo = zrtpHashS384
  cipher : commit.cipherAlgo = zrtpCipherAES1 ∨ commit.cipherAlgo = zrtpCipherAES3
  sas : commit.sasAlgo = zrtpSasB32 ∨ commit.sasAlgo = zrtpSasB256

theorem HasFunctions.pointersMatch (h : HasFunctions commit)
    (sized : commit.keyAgreementAlgo ∈ sizedKeyAgreements) :
    PointersMatch (adoptAlgos crypto commit) := by
  obtain ⟨hash, cipher, authTag, keyAgreement, sas⟩ := commit
  obtain ⟨hhash, hcipher, hsas⟩ := h
  simp only [sizedKeyAgreements, List.mem_cons, List.not_mem_nil, or_false] at *
  rcases hhash with rfl | rfl <;> rcases hcipher with rfl | rfl <;> rcases hsas with rfl | rfl <;>
    rcases sized with rfl | rfl | rfl | rfl <;> constructor <;> rfl

theorem HasFunctions.pointersMatch_mult_iff (h : HasFunctions commit)
    (mult : commit.keyAgreementAlgo = zrtpKeyAgreementMult) :
    PointersMatch (adoptAlgos crypto commit) ↔ crypto.keyAgreementLength = 0 ∧
      crypto.sasFunction = sasFunctionOf commit.sasAlgo ∧
      crypto.sasLength = sasLengthOf commit.sasAlgo := by
  obtain ⟨hash, cipher, authTag, keyAgreement, sas⟩ := commit
  obtain ⟨hhash, hcipher, hsas⟩ := h
  subst mult
  rcases hhash with rfl | rfl <;> rcases hcipher with rfl | rfl <;>
  · constructor
    · intro hmatch
      exact ⟨hmatch.keyAgreementLength, hmatch.sasFunction, hmatch.sasLength⟩
    · rintro ⟨hlength, hfunction, hlen⟩
      constructor
      all_goals first | rfl | assumption

/-! ## Channels that wait for a Commit -/

/-- What a Hello leaves for good: the lists are well configured, a DHPart has a public value of its key
agreement, and without one the channel is in multistream mode. -/
structure AfterHello (channel : ResponderChannel Id) : Prop where
  configured : ∃ build, ∀ family, WellConfigured build family (channel.supported family)
  dhPart : ∀ packet, channel.selfDHPart = some packet →
    channel.keyAgreementAlgo ∈ sizedKeyAgreements ∧
      packet.pv.length = computeKeyAgreementPrivateValueLength channel.keyAgreementAlgo
  multistream : channel.selfDHPart = none →
    channel.zrtpSess = true ∧ channel.crypto.keyAgreementLength = 0

/-- What holds of a channel as long as a Commit may be accepted: in multistream mode none has been. -/
structure Awaiting (channel : ResponderChannel Id) : Prop extends AfterHello channel where
  initiator : channel.selfDHPart = none → channel.role = .initiator

theorem updateKeyAgreementLength_length {c c' : ChannelCrypto}
    (h : updateKeyAgreementLength c = some c') : c'.keyAgreementAlgo ∈ sizedKeyAgreements ∧
      c'.keyAgreementLength = computeKeyAgreementPrivateValueLength c'.keyAgreementAlgo := by
  simp only [updateKeyAgreementLength] at h
  split_ifs at h with h₁ h₂ h₃ h₄ <;> cases h <;> simp only [*] <;> decide

theorem updateSasFunction_length {c c' : ChannelCrypto} (h : updateSasFunction c = some c') :
    c'.keyAgreementAlgo = c.keyAgreementAlgo ∧ c'.keyAgreementLength = c.keyAgreementLength := by
  simp only [updateSasFunction] at h
  split_ifs at h <;> cases h <;> exact ⟨rfl, rfl⟩

theorem bzrtpUpdateCryptoFunctionPointers_length {channel crypto : ChannelCrypto}
    (h : bzrtpUpdateCryptoFunctionPointers channel = (crypto, .ok)) :
    crypto.keyAgreementAlgo ∈ sizedKeyAgreements ∧
      crypto.keyAgreementLength = computeKeyAgreementPrivateValueLength crypto.keyAgreementAlgo := by
  unfold bzrtpUpdateCryptoFunctionPointers at h
  split at h
  · simp at h
  · split at h
    · simp at h
    · split at h
      · simp at h
      · next c₃ h₃ =>
        split at h
        · simp at h
        · next c₄ h₄ =>
          obtain ⟨rfl, -⟩ := Prod.mk.inj h
          rw [(updateSasFunction_length h₄).1, (updateSasFunction_length h₄).2]
          exact updateKeyAgreementLength_length h₃

theorem bzrtpCryptoAlgoAgreement_ok {zrtpContext : BzrtpContext} {channel crypto : ChannelCrypto}
    {peer : SupportedTypes} (h : bzrtpCryptoAlgoAgreement zrtpContext channel peer = (crypto, .ok)) :
    ∃ chosen, bzrtpUpdateCryptoFunctionPointers chosen = (crypto, .ok) := by
  unfold bzrtpCryptoAlgoAgreement at h
  split at h
  · simp at h
  · split at h
    · simp at h
    · split at h
      · unfold agreeOnCipher at h
        split at h
        · simp at h
        · split at h
          · simp at h
          · unfold agreeOnHash at h
            split at h
            · simp at h
            · split at h
              · simp at h
              · unfold agreeOnTagAndSas at h
                split at h
                · simp at h
                · split at h
                  · simp at h
                  · exact ⟨_, h⟩
      · simp at h

variable {state : AcceptingState}

theorem awaiting_hello {build : KeyAgreementAlgoList}
    {calls : List (AlgoFamily × List UInt8)} {peerHello : SupportedTypes} {draws : HelloDraws Id}
    {channel : ResponderChannel Id}
    (h : channelAfterHello (configuredContext build calls) peerHello draws state = some channel) :
    Awaiting channel := by
  unfold channelAfterHello at h
  split at h
  · next crypto hagreement =>
    obtain ⟨chosen, hchosen⟩ := bzrtpCryptoAlgoAgreement_ok hagreement
    obtain ⟨hsized, hlength⟩ := bzrtpUpdateCryptoFunctionPointers_length hchosen
    have configured := configuredContext_wellConfigured build calls
    split at h
    · next hmult =>
      cases h
      exact ⟨⟨⟨build, configured⟩, by simp, fun _ => ⟨hmult.2, rfl⟩⟩, fun _ => rfl⟩
    · cases h
      refine ⟨⟨⟨build, configured⟩, ?_, by simp⟩, by simp⟩
      intro packet hpacket
      cases hpacket
      exact ⟨hsized, by simpa using hlength⟩
  · simp at h

variable {channel' : ResponderChannel Id}

theorem Awaiting.quiet {channel : ResponderChannel Id} (awaiting : Awaiting channel)
    (quiet : Quiet channel channel') : Awaiting channel' := by
  obtain ⟨timerOn, keys, selfSequenceNumber, selfCommit, hsame⟩ := quiet.same
  rw [hsame]
  exact ⟨⟨awaiting.configured, awaiting.dhPart, awaiting.multistream⟩, awaiting.initiator⟩

/-! ## The cases of `bzrtp_turnIntoResponder` -/

theorem diffieHellman_of_pvLength {keyAgreementAlgo : UInt8}
    (h : computeKeyAgreementPrivateValueLength keyAgreementAlgo ≠ 0) :
    ¬ (keyAgreementAlgo = zrtpKeyAgreementPrsh ∨ keyAgreementAlgo = zrtpKeyAgreementMult) := by
  rintro (rfl | rfl) <;> exact h (by decide)

section Cases

variable {channel : ResponderChannel Id} {packet : DHPartPacket Id}

/-- The channel once the algorithms of a Commit have been adopted. -/
def adopted (channel : ResponderChannel Id) (commit : CommitAlgos) : ResponderChannel Id :=
  { channel with timerOn := false, role := .responder, crypto := adoptAlgos channel.crypto commit }

theorem turn_unbuilt (hpacket : channel.selfDHPart = some packet)
    (hzero : computeKeyAgreementPrivateValueLength commit.keyAgreementAlgo = 0) :
    bzrtpTurnIntoResponder channel commit = .ok ({ adopted channel commit with
      initiatorAuxsecretID := channel.responderAuxsecretID
      responderAuxsecretID := channel.initiatorAuxsecretID
      selfDHPart := some { packet with
        messageType := .dhPart1
        ids := responderIDs channel channel.initiatorAuxsecretID
        packetString := none } }, .builderInvalidContext) := by
  simp only [bzrtpTurnIntoResponder, hpacket, buildDHPart, adoptAlgos_keyAgreementAlgo, hzero,
    if_true]
  rfl

theorem turn_outOfBounds (hpacket : channel.selfDHPart = some packet)
    (hshort : packet.pv.length < computeKeyAgreementPrivateValueLength commit.keyAgreementAlgo) :
    bzrtpTurnIntoResponder channel commit = .error .outOfBounds := by
  have hne : computeKeyAgreementPrivateValueLength commit.keyAgreementAlgo ≠ 0 := by omega
  have hread := readBytes_of_lt (by omega : 0 < computeKeyAgreementPrivateValueLength
    commit.keyAgreementAlgo) (by omega : packet.pv.length < 0 + _)
  simp only [bzrtpTurnIntoResponder, hpacket, buildDHPart, adoptAlgos_keyAgreementAlgo, hne, if_false,
    hread]
  rfl

theorem turn_dhPart1 (hpacket : channel.selfDHPart = some packet)
    (hne : computeKeyAgreementPrivateValueLength commit.keyAgreementAlgo ≠ 0)
    (hle : computeKeyAgreementPrivateValueLength commit.keyAgreementAlgo ≤ packet.pv.length) :
    ∃ channel', bzrtpTurnIntoResponder channel commit = .ok (channel', .ok) ∧
      channel'.stateMachine = .responderSendingDHPart1 ∧
      channel'.crypto = adoptAlgos channel.crypto commit ∧
      ∃ packet' string, channel'.selfDHPart = some packet' ∧ packet'.packetString = some string ∧
        string.messageType = .dhPart1 ∧ string.pv =
          packet.pv.take (computeKeyAgreementPrivateValueLength commit.keyAgreementAlgo) := by
  have hread := readBytes_of_le (by omega : 0 + computeKeyAgreementPrivateValueLength
    commit.keyAgreementAlgo ≤ packet.pv.length)
  have hdh := diffieHellman_of_pvLength hne
  simp only [bzrtpTurnIntoResponder, hpacket, buildDHPart, adoptAlgos_keyAgreementAlgo, hne, if_false,
    hread, enterResponder, hdh, responderSendingDHPart1, Option.isNone_some, bind, Except.bind,
    Bool.false_eq_true]
  exact ⟨_, rfl, rfl, rfl, _, _, rfl, rfl, rfl, rfl⟩

theorem turn_noDHPart (hnone : channel.selfDHPart = none)
    (hdh : ¬ (commit.keyAgreementAlgo = zrtpKeyAgreementPrsh ∨
      commit.keyAgreementAlgo = zrtpKeyAgreementMult)) :
    bzrtpTurnIntoResponder channel commit = .ok ({ adopted channel commit with
      stateMachine := .responderSendingDHPart1 }, .invalidContext) := by
  simp [bzrtpTurnIntoResponder, hnone, enterResponder, adoptAlgos_keyAgreementAlgo, hdh, responderSendingDHPart1, adopted]

theorem sendConfirm1_cases (channel : ResponderChannel Id) :
    (∃ fault, sendConfirm1 channel = .error fault) ∨
      sendConfirm1 channel = .ok ({ channel with timerOn := false }, .builderInvalidContext) ∨
      (channel.crypto.cipherEncryptionFunction ≠ none ∧ channel.crypto.hmacFunction ≠ none ∧
        sendConfirm1 channel = .ok ({ channel with
          timerOn := false
          selfConfirm := true
          selfSequenceNumber := channel.selfSequenceNumber + 1 }, .ok)) := by
  unfold sendConfirm1
  dsimp only
  split_ifs with hkeys hnull
  · exact .inr (.inl rfl)
  · exact .inl ⟨_, rfl⟩
  · rw [not_or] at hnull
    exact .inr (.inr ⟨hnull.1, hnull.2, rfl⟩)

theorem turn_confirm1_cases (hnone : channel.selfDHPart = none)
    (hmode : commit.keyAgreementAlgo = zrtpKeyAgreementPrsh ∨
      commit.keyAgreementAlgo = zrtpKeyAgreementMult) :
    (∃ fault, bzrtpTurnIntoResponder channel commit = .error fault) ∨
      ∃ channel' code, bzrtpTurnIntoResponder channel commit = .ok (channel', code) ∧
        channel'.role = .responder ∧ channel'.stateMachine = .responderSendingConfirm1 ∧
        channel'.crypto = adoptAlgos channel.crypto commit ∧
        channel'.selfCommit = channel.selfCommit := by
  simp only [bzrtpTurnIntoResponder, hnone, enterResponder, adoptAlgos_keyAgreementAlgo, hmode, if_true]
  have sent (channel₁ : ResponderChannel Id) (hrole : channel₁.role = .responder)
      (hstate : channel₁.stateMachine = .responderSendingConfirm1)
      (hcrypto : channel₁.crypto = adoptAlgos channel.crypto commit)
      (hcommit : channel₁.selfCommit = channel.selfCommit) :
      (∃ fault, sendConfirm1 channel₁ = .error fault) ∨
        ∃ channel' code, sendConfirm1 channel₁ = .ok (channel', code) ∧
          channel'.role = .responder ∧ channel'.stateMachine = .responderSendingConfirm1 ∧
          channel'.crypto = adoptAlgos channel.crypto commit ∧
          channel'.selfCommit = channel.selfCommit := by
    rcases sendConfirm1_cases channel₁ with hfault | hrefused | ⟨-, -, hsent⟩
    · exact .inl hfault
    · exact .inr ⟨_, _, hrefused, hrole, hstate, hcrypto, hcommit⟩
    · exact .inr ⟨_, _, hsent, hrole, hstate, hcrypto, hcommit⟩
  unfold responderSendingConfirm1
  split
  · split
    · exact .inr ⟨_, _, rfl, rfl, rfl, rfl, rfl⟩
    · split
      · exact .inl ⟨_, rfl⟩
      · exact sent _ rfl rfl rfl rfl
  · split
    · exact sent _ rfl rfl rfl rfl
    · split
      · exact .inr ⟨_, _, rfl, rfl, rfl, rfl, rfl⟩
      · exact sent _ rfl rfl rfl rfl

/-- What the turn into a responder does, where nothing faults. -/
inductive Turned (channel : ResponderChannel Id) (commit : CommitAlgos) :
    ResponderChannel Id → ResponderCode → Prop
  | unbuilt {packet : DHPartPacket Id} (hpart : channel.selfDHPart = some packet)
      (hzero : computeKeyAgreementPrivateValueLength commit.keyAgreementAlgo = 0) :
      Turned channel commit { adopted channel commit with
        initiatorAuxsecretID := channel.responderAuxsecretID
        responderAuxsecretID := channel.initiatorAuxsecretID
        selfDHPart := some { packet with
          messageType := .dhPart1
          ids := responderIDs channel channel.initiatorAuxsecretID
          packetString := none } } .builderInvalidContext
  | dhPart1 {packet : DHPartPacket Id} {channel' : ResponderChannel Id}
      (hpart : channel.selfDHPart = some packet)
      (hne : computeKeyAgreementPrivateValueLength commit.keyAgreementAlgo ≠ 0)
      (hstate : channel'.stateMachine = .responderSendingDHPart1)
      (hcrypto : channel'.crypto = adoptAlgos channel.crypto commit) :
      Turned channel commit channel' .ok
  | confirm1 {channel' : ResponderChannel Id} {code : ResponderCode}
      (hpart : channel.selfDHPart = none) (hrole : channel'.role = .responder)
      (hstate : channel'.stateMachine = .responderSendingConfirm1)
      (hcrypto : channel'.crypto = adoptAlgos channel.crypto commit)
      (hcommit : channel'.selfCommit = channel.selfCommit) : Turned channel commit channel' code
  | noDHPart (hpart : channel.selfDHPart = none) :
      Turned channel commit { adopted channel commit with
        stateMachine := .responderSendingDHPart1 } .invalidContext

theorem turned {channel' : ResponderChannel Id} {code : ResponderCode}
    (hturn : bzrtpTurnIntoResponder channel commit = .ok (channel', code)) :
    Turned channel commit channel' code := by
  cases hpart : channel.selfDHPart with
  | some packet =>
    by_cases hzero : computeKeyAgreementPrivateValueLength commit.keyAgreementAlgo = 0
    · rw [turn_unbuilt hpart hzero] at hturn
      cases hturn
      exact .unbuilt hpart hzero
    · by_cases hle : computeKeyAgreementPrivateValueLength commit.keyAgreementAlgo ≤ packet.pv.length
      · obtain ⟨channel'', hturn', hstate, hcrypto, -⟩ := turn_dhPart1 hpart hzero hle
        rw [hturn'] at hturn
        cases hturn
        exact .dhPart1 hpart hzero hstate hcrypto
      · rw [turn_outOfBounds hpart (by omega)] at hturn
        simp at hturn
  | none =>
    by_cases hmode : commit.keyAgreementAlgo = zrtpKeyAgreementPrsh ∨
        commit.keyAgreementAlgo = zrtpKeyAgreementMult
    · rcases turn_confirm1_cases hpart hmode with ⟨fault, hfault⟩ |
        ⟨channel'', code', hturn', hrole, hstate, hcrypto, hcommit⟩
      · simp [hfault] at hturn
      · rw [hturn'] at hturn
        cases hturn
        exact .confirm1 hpart hrole hstate hcrypto hcommit
    · rw [turn_noDHPart hpart hmode] at hturn
      cases hturn
      exact .noDHPart hpart

theorem turn_mult (hnone : channel.selfDHPart = none) (hsess : channel.zrtpSess = true)
    (hmult : commit.keyAgreementAlgo = zrtpKeyAgreementMult) (hfunctions : HasFunctions commit) :
    ∃ channel', bzrtpTurnIntoResponder channel commit = .ok (channel', .ok) ∧
      channel'.crypto = adoptAlgos channel.crypto commit := by
  have present : (adoptAlgos channel.crypto commit).hashFunction ≠ none ∧
      (adoptAlgos channel.crypto commit).hmacFunction ≠ none ∧
      (adoptAlgos channel.crypto commit).cipherEncryptionFunction ≠ none := by
    obtain ⟨hash, cipher, authTag, keyAgreement, sas⟩ := commit
    obtain ⟨hhash, hcipher, -⟩ := hfunctions
    subst hmult
    rcases hhash with rfl | rfl <;> rcases hcipher with rfl | rfl <;>
      refine ⟨?_, ?_, ?_⟩ <;> simp [adoptAlgos, bzrtpUpdateCryptoFunctionPointers, updateHashFunction,
        updateCipherFunction, updateKeyAgreementLength, zrtpHashS256, zrtpHashS384, zrtpCipherAES1,
        zrtpCipherAES3, zrtpKeyAgreementMult, zrtpKeyAgreementDH2k, zrtpKeyAgreementDH3k,
        zrtpKeyAgreementX255, zrtpKeyAgreementX448]
  obtain ⟨hhash, hhmac, hcipher⟩ := present
  refine ⟨{ adopted channel commit with
    stateMachine := .responderSendingConfirm1
    keys := true
    selfConfirm := true
    selfSequenceNumber := channel.selfSequenceNumber + 1 }, ?_, rfl⟩
  simp [bzrtpTurnIntoResponder, hnone, enterResponder, hmult, responderSendingConfirm1, hsess, hhash,
    hhmac, sendConfirm1, hcipher, adopted]

end Cases

/-! ## Commitments -/

/-- An accepted Commit is one to what was negotiated. -/
structure Settled (channel channel' : ResponderChannel Id) : Prop where
  supported : ∀ family, channel'.crypto.algo family ∈ channel.supported family ∨
    channel'.crypto.algo family ∈ bzrtpUtilsGetMandatoryCryptoTypes family
  keyAgreement : channel.selfDHPart.isSome ∧
      channel'.crypto.keyAgreementAlgo = channel.keyAgreementAlgo ∨
    channel'.crypto.keyAgreementAlgo = zrtpKeyAgreementMult
  pointers : PointersMatch channel'.crypto
  dhPart1 : ∀ packet, channel.selfDHPart = some packet →
    ∃ packet' string, channel'.selfDHPart = some packet' ∧ packet'.packetString = some string ∧
      string.messageType = .dhPart1 ∧
      string.pv = packet.pv.take channel'.crypto.keyAgreementLength ∧
      string.pv.length = channel'.crypto.keyAgreementLength

/-- A refused Commit leaves the role, the algorithms, the timer and the own packets as they were. -/
structure Unchanged (channel channel' : ResponderChannel Id) : Prop where
  role : channel'.role = channel.role
  algo : channel'.crypto.algo = channel.crypto.algo
  timer : channel'.timerOn = channel.timerOn
  selfCommit : channel'.selfCommit = channel.selfCommit
  selfDHPart : channel'.selfDHPart = channel.selfDHPart
  selfConfirm : channel'.selfConfirm = channel.selfConfirm

/-- A Commit to what was negotiated: algorithms of the own Hello, and the key agreement of the own
DHPart, or in multistream mode Mult and the SAS rendering there already is. -/
structure Negotiated (channel : ResponderChannel Id) (commit : CommitAlgos) : Prop where
  supported : ∀ family, commit.algo family ∈ channel.supported family
  dhPart : channel.selfDHPart.isSome → commit.keyAgreementAlgo = channel.keyAgreementAlgo
  multistream : channel.selfDHPart = none → commit.keyAgreementAlgo = zrtpKeyAgreementMult ∧
    channel.crypto.sasFunction = sasFunctionOf commit.sasAlgo ∧
    channel.crypto.sasLength = sasLengthOf commit.sasAlgo

/-- An earlier refused Commit has already left the channel as this one does. -/
structure AlreadyRefused (channel : ResponderChannel Id) (commit : CommitAlgos) : Prop where
  unsized : computeKeyAgreementPrivateValueLength commit.keyAgreementAlgo = 0
  role : channel.role = .responder
  algo : channel.crypto.algo = commit.algo
  timer : channel.timerOn = false
  dhPart : ∃ packet, channel.selfDHPart = some packet ∧ packet.messageType = .dhPart1 ∧
    packet.ids = responderIDs channel channel.initiatorAuxsecretID ∧ packet.packetString = none

variable {channel : ResponderChannel Id}

theorem AfterHello.hasFunctions (h : AfterHello channel)
    (supported : ∀ family, commit.algo family ∈ channel.supported family) :
    HasFunctions commit := by
  obtain ⟨build, configured⟩ := h.configured
  have available (family : AlgoFamily) := (configured family).available _ (supported family)
  constructor
  · simpa [bzrtpUtilsGetAvailableCryptoTypes, CommitAlgos.algo] using available .hash
  · simpa [bzrtpUtilsGetAvailableCryptoTypes, CommitAlgos.algo] using available .cipherBlock
  · simpa [bzrtpUtilsGetAvailableCryptoTypes, CommitAlgos.algo] using available .sas

theorem AfterHello.supported_of_settled (h : AfterHello channel)
    (crypto : channel'.crypto = adoptAlgos channel.crypto commit)
    (settled : Settled channel channel') (family : AlgoFamily) :
    commit.algo family ∈ channel.supported family := by
  obtain ⟨build, configured⟩ := h.configured
  have hfamily := settled.supported family
  rw [crypto, adoptAlgos_algo] at hfamily
  rcases hfamily with hfamily | hfamily
  · exact hfamily
  · exact (configured family).mandatory _ hfamily

/-- A Commit is accepted properly exactly when it is one to what was negotiated. -/
theorem AfterHello.settled_iff (h : AfterHello channel) :
    (∃ channel', bzrtpTurnIntoResponder channel commit = .ok (channel', .ok) ∧
      Settled channel channel') ↔ Negotiated channel commit := by
  constructor
  · rintro ⟨channel', hturn, settled⟩
    cases turned hturn with
    | dhPart1 hpart hne hstate hcrypto =>
      have hkey := settled.keyAgreement
      rw [hcrypto, adoptAlgos_keyAgreementAlgo] at hkey
      have hnot := mt Or.inr (diffieHellman_of_pvLength hne)
      exact ⟨h.supported_of_settled hcrypto settled, fun _ => (hkey.resolve_right hnot).2,
        fun hnone => by simp [hpart] at hnone⟩
    | confirm1 hpart hrole hstate hcrypto hcommit =>
      have supported := h.supported_of_settled hcrypto settled
      have hkey := settled.keyAgreement
      rw [hcrypto, adoptAlgos_keyAgreementAlgo] at hkey
      have hmult := hkey.resolve_left (by simp [hpart])
      have pointers := settled.pointers
      rw [hcrypto, (h.hasFunctions supported).pointersMatch_mult_iff hmult] at pointers
      exact ⟨supported, fun hsome => by simp [hpart] at hsome, fun _ => ⟨hmult, pointers.2⟩⟩
  · intro negotiated
    have functions := h.hasFunctions negotiated.supported
    have supported (channel' : ResponderChannel Id)
        (hcrypto : channel'.crypto = adoptAlgos channel.crypto commit) (family : AlgoFamily) :
        channel'.crypto.algo family ∈ channel.supported family ∨
          channel'.crypto.algo family ∈ bzrtpUtilsGetMandatoryCryptoTypes family := by
      rw [hcrypto, adoptAlgos_algo]
      exact .inl (negotiated.supported family)
    cases hpart : channel.selfDHPart with
    | some packet =>
      have hkey := negotiated.dhPart (by simp [hpart])
      obtain ⟨hsized, hlength⟩ := h.dhPart packet hpart
      rw [← hkey] at hsized hlength
      have pointers : PointersMatch (adoptAlgos channel.crypto commit) :=
        functions.pointersMatch hsized
      have hne : computeKeyAgreementPrivateValueLength commit.keyAgreementAlgo ≠ 0 := by
        have all : ∀ v ∈ sizedKeyAgreements, computeKeyAgreementPrivateValueLength v ≠ 0 := by
          decide +kernel
        exact all _ hsized
      obtain ⟨channel', hturn, -, hcrypto, packet', string, hpacket', hstring, htype, hpv⟩ :=
        turn_dhPart1 hpart hne (by omega)
      have hpvLength : channel'.crypto.keyAgreementLength =
          computeKeyAgreementPrivateValueLength commit.keyAgreementAlgo := by
        rw [hcrypto, pointers.keyAgreementLength, adoptAlgos_keyAgreementAlgo]
      refine ⟨channel', hturn, supported channel' hcrypto, .inl ⟨by simp [hpart], ?_⟩,
        hcrypto ▸ pointers, ?_⟩
      · rw [hcrypto, adoptAlgos_keyAgreementAlgo]
        exact hkey
      · intro packet₁ hpacket₁
        obtain rfl := Option.some.inj (hpart.symm.trans hpacket₁)
        refine ⟨packet', string, hpacket', hstring, htype, ?_, ?_⟩
        · rw [hpv, hpvLength]
        · rw [hpv, hpvLength, List.length_take]
          omega
    | none =>
      obtain ⟨hmult, hsas⟩ := negotiated.multistream hpart
      obtain ⟨hsess, hlength⟩ := h.multistream hpart
      obtain ⟨channel', hturn, hcrypto⟩ := turn_mult hpart hsess hmult functions
      refine ⟨channel', hturn, supported channel' hcrypto, .inr ?_, ?_, by simp [hpart]⟩
      · rw [hcrypto, adoptAlgos_keyAgreementAlgo]
        exact hmult
      · rw [hcrypto]
        exact (functions.pointersMatch_mult_iff hmult).mpr ⟨hlength, hsas⟩

theorem Awaiting.unchanged_iff (h : Awaiting channel) :
    (∃ channel' code, bzrtpTurnIntoResponder channel commit = .ok (channel', code) ∧ code ≠ .ok ∧
      Unchanged channel channel') ↔ AlreadyRefused channel commit := by
  constructor
  · rintro ⟨channel', code, hturn, hcode, unchanged⟩
    have initiates (hpart : channel.selfDHPart = none) (hrole : channel'.role = .responder) :
        False := by
      rw [unchanged.role, h.initiator hpart] at hrole
      cases hrole
    cases turned hturn with
    | @unbuilt packet hpart hzero =>
      have hpacket := unchanged.selfDHPart
      rw [hpart] at hpacket
      have hpacket := Option.some.inj hpacket
      refine ⟨hzero, unchanged.role.symm, ?_, unchanged.timer.symm, packet, hpart, ?_, ?_, ?_⟩
      · rw [← unchanged.algo]
        exact adoptAlgos_algo _ _
      · rw [← hpacket]
      · rw [← hpacket]
      · rw [← hpacket]
    | dhPart1 => exact absurd rfl hcode
    | confirm1 hpart hrole => exact (initiates hpart hrole).elim
    | noDHPart hpart => exact (initiates hpart rfl).elim
  · rintro ⟨hzero, hrole, halgo, htimer, packet, hpart, htype, hids, hstring⟩
    refine ⟨_, _, turn_unbuilt hpart hzero, by simp, hrole.symm, ?_, htimer.symm, rfl, ?_, rfl⟩
    · rw [halgo]
      exact adoptAlgos_algo _ _
    · rw [hpart, ← htype, ← hids, ← hstring]

/-! ## Reached channels -/

variable {code : ResponderCode}

theorem AfterHello.turn (h : AfterHello channel)
    (hturn : bzrtpTurnIntoResponder channel commit = .ok (channel', code))
    (accepting : channel'.stateMachine = .accepting state) : Awaiting channel' := by
  cases turned hturn with
  | @unbuilt packet hpart hzero =>
    refine ⟨⟨h.configured, ?_, by simp⟩, by simp⟩
    intro packet' hpacket'
    cases hpacket'
    exact h.dhPart packet hpart
  | dhPart1 hpart hne hstate => simp [hstate] at accepting
  | confirm1 hpart hrole hstate => simp [hstate] at accepting
  | noDHPart => simp at accepting

theorem Reached.awaiting (reached : Reached channel)
    (accepting : channel.stateMachine = .accepting state) : Awaiting channel := by
  induction reached generalizing state with
  | hello hello => exact awaiting_hello hello
  | quiet reached quiet ih =>
    obtain ⟨state, _, hstate, _⟩ := quiet.accepting
    exact (ih hstate).quiet quiet
  | commit reached before received ih =>
    have h := ih before
    unfold receiveCommit at received
    split at received
    · obtain ⟨rfl, -⟩ := CommitOutcome.returned.inj (Except.ok.inj received)
      exact h
    · split at received
      · simp only [bind, Except.bind] at received
        split at received
        · simp at received
        · next result hturn =>
          obtain ⟨rfl, rfl⟩ := CommitOutcome.returned.inj (Except.ok.inj received)
          exact h.toAfterHello.turn hturn accepting
      · split at received
        · simp at received
        · split at received
          · simp at received
          · simp only [bind, Except.bind] at received
            split at received
            · simp at received
            · next result hturn =>
              obtain ⟨rfl, rfl⟩ := CommitOutcome.returned.inj (Except.ok.inj received)
              apply AfterHello.turn _ hturn accepting
              exact ⟨h.configured, h.dhPart, h.multistream⟩

theorem turn_selfCommit
    (hturn : bzrtpTurnIntoResponder channel commit = .ok (channel', code)) (hcode : code ≠ .ok) :
    channel'.selfCommit = channel.selfCommit := by
  cases turned hturn with
  | unbuilt => rfl
  | dhPart1 => exact absurd rfl hcode
  | confirm1 hpart hrole hstate hcrypto hcommit => exact hcommit
  | noDHPart => rfl

/-- What is to hold of what becomes of a Commit: it is dropped, or the channel is settled, or refuses it
and is as before. -/
def CommitsTo (channel : ResponderChannel Id) : Except Fault (CommitOutcome Id) → Prop
  | .error _ => False
  | .ok .dropped => True
  | .ok (.returned channel' code) =>
    if code = .ok then Settled channel channel' else Unchanged channel channel'

/-- When a Commit does no harm: it is not parsed, or it loses against the own one (which must be there),
or it is one to what was negotiated, or an earlier refused one has left the channel as this one does. -/
def Harmless (state : AcceptingState) (channel : ResponderChannel Id) (message : CommitString) : Prop :=
  ∀ algos, parseCommitAlgos message.names = some algos → match state with
    | .waitingForHelloAck => Negotiated channel algos ∨ AlreadyRefused channel algos
    | .sendingCommit => ∃ selfCommit, channel.selfCommit = some selfCommit ∧
      (contentionRole channel selfCommit ⟨algos, message.hvi, message.nonce⟩ = .responder →
        Negotiated channel algos)

/-- In every state in which a Commit may be accepted, and for every Commit: the responder commits to what
was negotiated, and refuses without a trace, exactly when the Commit is harmless by itself. -/
theorem receiveCommit_commitsTo_iff {state : AcceptingState} (message : CommitString)
    (reached : Reached channel) (accepting : channel.stateMachine = .accepting state) :
    CommitsTo channel (receiveCommit state channel message) ↔ Harmless state channel message := by
  have h := reached.awaiting accepting
  unfold receiveCommit Harmless
  cases hparse : parseCommitAlgos message.names with
  | none => simpa [CommitsTo] using (⟨rfl, rfl, rfl, rfl, rfl, rfl⟩ : Unchanged channel channel)
  | some algos =>
    simp only [Option.some.injEq, forall_eq']
    cases state with
    | waitingForHelloAck =>
      rw [← h.settled_iff, ← h.unchanged_iff]
      cases hturn : bzrtpTurnIntoResponder channel algos with
      | error fault => simp [CommitsTo, bind, Except.bind]
      | ok result =>
        obtain ⟨channel', code⟩ := result
        by_cases hcode : code = .ok <;> simp [CommitsTo, bind, Except.bind, hcode]
    | sendingCommit =>
      cases hcommit : channel.selfCommit with
      | none => simp [CommitsTo]
      | some selfCommit =>
        simp only [Option.some.injEq, exists_eq_left']
        cases hrole : contentionRole channel selfCommit ⟨algos, message.hvi, message.nonce⟩ with
        | initiator => simp [CommitsTo]
        | responder =>
          let channel₁ : ResponderChannel Id := { channel with role := .responder, selfCommit := none }
          have h₁ : AfterHello channel₁ := ⟨h.configured, h.dhPart, h.multistream⟩
          have hnegotiated : Negotiated channel₁ algos ↔ Negotiated channel algos :=
            ⟨fun h => ⟨h.supported, h.dhPart, h.multistream⟩,
              fun h => ⟨h.supported, h.dhPart, h.multistream⟩⟩
          have hsettled (channel' : ResponderChannel Id) :
              Settled channel₁ channel' ↔ Settled channel channel' :=
            ⟨fun h => ⟨h.supported, h.keyAgreement, h.pointers, h.dhPart1⟩,
              fun h => ⟨h.supported, h.keyAgreement, h.pointers, h.dhPart1⟩⟩
          rw [← hnegotiated, ← h₁.settled_iff]
          cases hturn : bzrtpTurnIntoResponder channel₁ algos with
          | error fault => simp [CommitsTo, bind, Except.bind, channel₁]
          | ok result =>
            obtain ⟨channel', code⟩ := result
            by_cases hcode : code = .ok
            · simp [CommitsTo, bind, Except.bind, channel₁, hcode, ← hsettled]
            · -- the own Commit has been freed
              have hfreed : ¬ Unchanged channel channel' := by
                intro unchanged
                have hnone := turn_selfCommit hturn hcode
                rw [unchanged.selfCommit, hcommit] at hnone
                simp [channel₁] at hnone
              simp [CommitsTo, bind, Except.bind, channel₁, hcode, hfreed]

/-- What two endpoints that nobody configured agree on. -/
def plainCrypto : ChannelCrypto where
  hashAlgo := zrtpHashS256
  cipherAlgo := zrtpCipherAES1
  authTagAlgo := zrtpAuthTagHS32
  keyAgreementAlgo := zrtpKeyAgreementX255
  sasAlgo := zrtpSasB32
  hashFunction := some .sha256
  hmacFunction := some .sha256
  hashLength := 32
  cipherEncryptionFunction := some .aes128Cfb
  cipherDecryptionFunction := some .aes128Cfb
  cipherKeyLength := 16
  keyAgreementLength := 32
  sasFunction := some .base32
  sasLength := 5

/-- Such a channel, waiting for a HelloACK or a Commit. -/
def plainChannel : ResponderChannel Unit where
  supported := (configuredContext ⟨true, true⟩ []).supported
  zrtpSess := false
  selfM := false
  peerM := false
  keyAgreementAlgo := zrtpKeyAgreementX255
  stateMachine := .accepting .waitingForHelloAck
  role := .initiator
  timerOn := true
  crypto := plainCrypto
  responderCachedSecretHash := ⟨(), (), ()⟩
  initiatorAuxsecretID := ()
  responderAuxsecretID := ()
  keys := false
  selfSequenceNumber := 1
  selfCommit := none
  selfDHPart := some ⟨.dhPart2, [], ⟨(), (), (), ()⟩, (List.range 32).map fun _ => 7,
    some ⟨.dhPart2, [], ⟨(), (), (), ()⟩, (List.range 32).map fun _ => 7, 0⟩⟩
  selfConfirm := false

theorem plainChannel_reached : Reached plainChannel := by
  let draws : HelloDraws Unit := {
    H1 := [], dhPart2IDs := ⟨(), (), (), ()⟩, responderCachedSecretHash := ⟨(), (), ()⟩
    initiatorAuxsecretID := (), responderAuxsecretID := (), publicValue := fun _ => 7
    selfM := false, peerM := false, zrtpSess := false, selfSequenceNumber := 1, timerOn := true }
  have hello : channelAfterHello (configuredContext ⟨true, true⟩ [])
      (bzrtpUtilsGetAvailableCryptoTypes ⟨true, true⟩) draws .waitingForHelloAck =
        some plainChannel := by
    rfl
  exact .hello hello

/-- A Commit for the algorithms of the channel, but for a cipher of this name. -/
def commitFor (cipher : String) : CommitString where
  names := fun
    | .hash => algoName "S256"
    | .cipherBlock => algoName cipher
    | .authTag => algoName "HS32"
    | .keyAgreement => algoName "X255"
    | .sas => algoName "B32 "
  hvi := []
  nonce := []

/-- The Commit for its own cipher. -/
theorem receiveCommit_commitsTo_aes :
    CommitsTo plainChannel (receiveCommit .waitingForHelloAck plainChannel (commitFor "AES1")) ↔
      Harmless .waitingForHelloAck plainChannel (commitFor "AES1") :=
  receiveCommit_commitsTo_iff (commitFor "AES1") plainChannel_reached rfl

/-- A Commit for Twofish is accepted, which the own Hello does not list. -/
theorem receiveCommit_twofish :
    ¬∀ (channel : ResponderChannel Unit) (state : AcceptingState) (message : CommitString),
      Reached channel → channel.stateMachine = .accepting state →
        CommitsTo channel (receiveCommit state channel message) := by
  intro h
  have hcommits := h plainChannel .waitingForHelloAck (commitFor "2FS1") plainChannel_reached rfl
  have hparse : parseCommitAlgos (commitFor "2FS1").names = some ⟨zrtpHashS256, zrtpCipher2FS1,
      zrtpAuthTagHS32, zrtpKeyAgreementX255, zrtpSasB32⟩ := by decide +kernel
  have hpart : plainChannel.selfDHPart = some _ := rfl
  obtain ⟨channel', hturn, -, hcrypto, -⟩ := turn_dhPart1 hpart
    (by decide : computeKeyAgreementPrivateValueLength (⟨zrtpHashS256, zrtpCipher2FS1,
      zrtpAuthTagHS32, zrtpKeyAgreementX255, zrtpSasB32⟩ : CommitAlgos).keyAgreementAlgo ≠ 0)
    (by decide)
  have hreturned : receiveCommit .waitingForHelloAck plainChannel (commitFor "2FS1") =
      .ok (.returned channel' .ok) := by
    simp [receiveCommit, hparse, hturn, bind, Except.bind]
  rw [hreturned] at hcommits
  have settled : Settled plainChannel channel' := hcommits
  have hcipher := settled.supported .cipherBlock
  rw [hcrypto, adoptAlgos_algo] at hcipher
  revert hcipher
  decide +kernel

end GrooveIp.Zrtp
