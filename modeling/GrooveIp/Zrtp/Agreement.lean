import GrooveIp.Zrtp.Algorithms
import Mathlib.Tactic.SplitIfs

/-!
# ZRTP algorithm agreement

`bzrtp_setSupportedCryptoTypes` (`bzrtp.c:700–733`), the algorithm lists of a Hello
(`packetParser.c:256–286,786–818,1147–1173`), `bzrtp_cryptoAlgoAgreement` and
`bzrtp_updateCryptoFunctionPointers` (`cryptoUtils.c:307–542`). The five lists of a context
or a Hello are taken by family, with their counts as the lengths. The pointers a function
is given are not NULL.
-/

namespace GrooveIp.Zrtp

open List

/-- `supportedHash`, `supportedCipher`, `supportedAuthTag`, `supportedKeyAgreement` and
`supportedSas`, with `hc`, `cc`, `ac`, `kc` and `sc`. -/
abbrev SupportedTypes := AlgoFamily → List UInt8

/-- `bzrtpContext_t`, the lists of supported types. -/
structure BzrtpContext where
  supported : SupportedTypes

/-- `bzrtp_createBzrtpContext`: everything the build has. -/
def bzrtpCreateBzrtpContext (build : KeyAgreementAlgoList) : BzrtpContext where
  supported := bzrtpUtilsGetAvailableCryptoTypes build

/-- `bzrtp_setSupportedCryptoTypes`. -/
def bzrtpSetSupportedCryptoTypes (build : KeyAgreementAlgoList) (zrtpContext : BzrtpContext)
    (family : AlgoFamily) (supportedTypes : List UInt8) : BzrtpContext where
  supported := fun other =>
    if other = family then
      bzrtpAddMandatoryCryptoTypesIfNeeded family
        (selectCommonAlgo supportedTypes (bzrtpUtilsGetAvailableCryptoTypes build family))
    else zrtpContext.supported other

/-- A fresh context after a sequence of calls of `bzrtp_setSupportedCryptoTypes`. -/
def configuredContext (build : KeyAgreementAlgoList) (calls : List (AlgoFamily × List UInt8)) :
    BzrtpContext :=
  calls.foldl (fun zrtpContext call =>
    bzrtpSetSupportedCryptoTypes build zrtpContext call.1 call.2) (bzrtpCreateBzrtpContext build)

variable (zrtpContext : BzrtpContext) (channel : ChannelCrypto) (peerHelloMessage : SupportedTypes)

/-- The lists `bzrtp_createZrtpPacket` puts in a Hello. -/
def helloTypes : SupportedTypes := zrtpContext.supported

/-- The names `bzrtp_packetBuild` writes for them. -/
def helloNames (hello : SupportedTypes) (family : AlgoFamily) : List (List UInt8) :=
  (hello family).map bzrtpCryptoAlgoTypeIntToString

/-- The lists `bzrtp_packetParser` makes of the names. -/
def parsedHelloTypes (names : AlgoFamily → List (List UInt8)) : SupportedTypes := fun family =>
  bzrtpAddMandatoryCryptoTypesIfNeeded family
    ((names family).map fun name => bzrtpCryptoAlgoTypeStringToInt name family)

/-- The lists of the Hello of a context, as its peer gets them. -/
def receivedHelloTypes : SupportedTypes :=
  parsedHelloTypes (helloNames (helloTypes zrtpContext))

/-! ## The algorithms of a channel -/

/-- `bctbx_sha256` and `bctbx_sha384`; the HMAC goes with the same names. -/
inductive HashFunction where
  | sha256
  | sha384
  deriving DecidableEq, Repr

/-- `bctbx_aes128Cfb*` and `bctbx_aes256Cfb*`. -/
inductive CipherFunction where
  | aes128Cfb
  | aes256Cfb
  deriving DecidableEq, Repr

/-- `bzrtp_base32` and `bzrtp_base256`. -/
inductive SasFunction where
  | base32
  | base256
  deriving DecidableEq, Repr

/-- The algorithm fields of `bzrtpChannelContext_t`; a NULL pointer is `none`. -/
structure ChannelCrypto where
  hashAlgo : UInt8
  cipherAlgo : UInt8
  authTagAlgo : UInt8
  keyAgreementAlgo : UInt8
  sasAlgo : UInt8
  hashFunction : Option HashFunction
  hmacFunction : Option HashFunction
  hashLength : Nat
  cipherEncryptionFunction : Option CipherFunction
  cipherDecryptionFunction : Option CipherFunction
  cipherKeyLength : Nat
  keyAgreementLength : Nat
  sasFunction : Option SasFunction
  sasLength : Nat
  deriving DecidableEq, Repr

/-- The algorithm chosen in a family. -/
def ChannelCrypto.algo : AlgoFamily → UInt8
  | .hash => channel.hashAlgo
  | .cipherBlock => channel.cipherAlgo
  | .authTag => channel.authTagAlgo
  | .keyAgreement => channel.keyAgreementAlgo
  | .sas => channel.sasAlgo

/-- The algorithm fields `bzrtp_initChannelContext` leaves. -/
def initialChannelCrypto : ChannelCrypto where
  hashAlgo := zrtpUnsetAlgo
  cipherAlgo := zrtpUnsetAlgo
  authTagAlgo := zrtpUnsetAlgo
  keyAgreementAlgo := zrtpUnsetAlgo
  sasAlgo := zrtpUnsetAlgo
  hashFunction := none
  hmacFunction := none
  hashLength := 0
  cipherEncryptionFunction := none
  cipherDecryptionFunction := none
  cipherKeyLength := 0
  keyAgreementLength := 0
  sasFunction := none
  sasLength := 0

/-- `ZRTP_CRYPTOAGREEMENT_*` (`cryptoUtils.h`); `ok` is zero. -/
inductive CryptoAgreementCode where
  | ok
  | invalidContext
  | invalidCipher
  | invalidHash
  | invalidAuthTag
  | invalidSas
  | invalidMessage
  | noCommonAlgoFound
  deriving DecidableEq, Repr

/-- The switch on the hash algorithm. -/
def updateHashFunction : Option ChannelCrypto :=
  if channel.hashAlgo = zrtpHashS256 then
    some { channel with
      hashFunction := some .sha256, hmacFunction := some .sha256, hashLength := 32 }
  else if channel.hashAlgo = zrtpHashS384 then
    some { channel with
      hashFunction := some .sha384, hmacFunction := some .sha384, hashLength := 48 }
  else if channel.hashAlgo = zrtpUnsetAlgo then
    some { channel with hashFunction := none, hmacFunction := none, hashLength := 0 }
  else none

/-- The switch on the cipher. -/
def updateCipherFunction : Option ChannelCrypto :=
  if channel.cipherAlgo = zrtpCipherAES1 then
    some { channel with
      cipherEncryptionFunction := some .aes128Cfb, cipherDecryptionFunction := some .aes128Cfb
      cipherKeyLength := 16 }
  else if channel.cipherAlgo = zrtpCipherAES3 then
    some { channel with
      cipherEncryptionFunction := some .aes256Cfb, cipherDecryptionFunction := some .aes256Cfb
      cipherKeyLength := 32 }
  else if channel.cipherAlgo = zrtpUnsetAlgo then
    some { channel with
      cipherEncryptionFunction := none, cipherDecryptionFunction := none, cipherKeyLength := 0 }
  else none

/-- The switch on the key agreement, which only sets the length of the public value. -/
def updateKeyAgreementLength : Option ChannelCrypto :=
  if channel.keyAgreementAlgo = zrtpKeyAgreementDH2k then
    some { channel with keyAgreementLength := 256 }
  else if channel.keyAgreementAlgo = zrtpKeyAgreementDH3k then
    some { channel with keyAgreementLength := 384 }
  else if channel.keyAgreementAlgo = zrtpKeyAgreementX255 then
    some { channel with keyAgreementLength := 32 }
  else if channel.keyAgreementAlgo = zrtpKeyAgreementX448 then
    some { channel with keyAgreementLength := 56 }
  else none

/-- The switch on the SAS rendering. -/
def updateSasFunction : Option ChannelCrypto :=
  if channel.sasAlgo = zrtpSasB32 then
    some { channel with sasFunction := some .base32, sasLength := 5 }
  else if channel.sasAlgo = zrtpSasB256 then
    some { channel with sasFunction := some .base256, sasLength := 32 }
  else if channel.sasAlgo = zrtpUnsetAlgo then
    some { channel with sasFunction := none, sasLength := 0 }
  else none

/-- `bzrtp_updateCryptoFunctionPointers`: a failure keeps what was updated before it. -/
def bzrtpUpdateCryptoFunctionPointers : ChannelCrypto × CryptoAgreementCode :=
  match updateHashFunction channel with
  | none => (channel, .invalidHash)
  | some channel =>
    match updateCipherFunction channel with
    | none => (channel, .invalidCipher)
    | some channel =>
      match updateKeyAgreementLength channel with
      | none => (channel, .invalidCipher)
      | some channel =>
        match updateSasFunction channel with
        | none => (channel, .invalidSas)
        | some channel => (channel, .ok)

/-! ## Agreement -/

/-- Which of the two preferred key agreements is taken: the faster one when they differ. -/
def keyAgreementChoice (selfChoice peerChoice : UInt8) : UInt8 :=
  if selfChoice = peerChoice then selfChoice
  else if peerChoice < selfChoice then peerChoice
  else selfChoice

/-- The cipher for a list of common ones; EC38 asks for AES256 or AES192. -/
def cipherChoice (keyAgreementAlgo : UInt8) (commonCipherType : List UInt8) : Option UInt8 :=
  if keyAgreementAlgo = zrtpKeyAgreementEC38 then
    if zrtpCipherAES3 ∈ commonCipherType then some zrtpCipherAES3
    else if zrtpCipherAES2 ∈ commonCipherType then some zrtpCipherAES2
    else none
  else commonCipherType.head?

/-- The hash for a list of common ones; EC38 asks for SHA384. -/
def hashChoice (keyAgreementAlgo : UInt8) (commonHashType : List UInt8) : Option UInt8 :=
  if keyAgreementAlgo = zrtpKeyAgreementEC38 then
    if zrtpHashS384 ∈ commonHashType then some zrtpHashS384 else none
  else commonHashType.head?

/-- The choice of the authentication tag and the SAS rendering, and the pointers. -/
def agreeOnTagAndSas : ChannelCrypto × CryptoAgreementCode :=
  match selectCommonAlgo (zrtpContext.supported .authTag) (peerHelloMessage .authTag) with
  | [] => (channel, .invalidAuthTag)
  | authTagAlgo :: _ =>
    match selectCommonAlgo (zrtpContext.supported .sas) (peerHelloMessage .sas) with
    | [] => ({ channel with authTagAlgo := authTagAlgo }, .invalidSas)
    | sasAlgo :: _ =>
      bzrtpUpdateCryptoFunctionPointers
        { channel with authTagAlgo := authTagAlgo, sasAlgo := sasAlgo }

/-- The choice of the hash, and what follows it. -/
def agreeOnHash : ChannelCrypto × CryptoAgreementCode :=
  match selectCommonAlgo (zrtpContext.supported .hash) (peerHelloMessage .hash) with
  | [] => (channel, .invalidHash)
  | commonHashType =>
    match hashChoice channel.keyAgreementAlgo commonHashType with
    | none => ({ channel with hashAlgo := zrtpUnsetAlgo }, .invalidHash)
    | some hashAlgo =>
      agreeOnTagAndSas zrtpContext { channel with hashAlgo := hashAlgo } peerHelloMessage

/-- The choice of the cipher, and what follows it. -/
def agreeOnCipher : ChannelCrypto × CryptoAgreementCode :=
  match selectCommonAlgo (zrtpContext.supported .cipherBlock) (peerHelloMessage .cipherBlock) with
  | [] => (channel, .invalidCipher)
  | commonCipherType =>
    match cipherChoice channel.keyAgreementAlgo commonCipherType with
    | none => ({ channel with cipherAlgo := zrtpUnsetAlgo }, .invalidCipher)
    | some cipherAlgo =>
      agreeOnHash zrtpContext { channel with cipherAlgo := cipherAlgo } peerHelloMessage

/-- `bzrtp_cryptoAlgoAgreement`. The common types in the peer's order are empty only together
with those in the own order. -/
def bzrtpCryptoAlgoAgreement : ChannelCrypto × CryptoAgreementCode :=
  if zrtpContext.supported .keyAgreement = [] then (channel, .invalidContext)
  else if peerHelloMessage .keyAgreement = [] then (channel, .invalidMessage)
  else
    match selectCommonAlgo (zrtpContext.supported .keyAgreement) (peerHelloMessage .keyAgreement),
      selectCommonAlgo (peerHelloMessage .keyAgreement) (zrtpContext.supported .keyAgreement) with
    | selfChoice :: _, peerChoice :: _ =>
      agreeOnCipher zrtpContext
        { channel with keyAgreementAlgo := keyAgreementChoice selfChoice peerChoice }
        peerHelloMessage
    | _, _ => (channel, .noCommonAlgoFound)

/-- The algorithms `bzrtp_createZrtpPacket` puts in a Commit. -/
structure CommitAlgos where
  hashAlgo : UInt8
  cipherAlgo : UInt8
  authTagAlgo : UInt8
  keyAgreementAlgo : UInt8
  sasAlgo : UInt8
  deriving DecidableEq, Repr

/-- The Commit of a channel (`packetParser.c:1196–1200`). -/
def commitAlgos : CommitAlgos where
  hashAlgo := channel.hashAlgo
  cipherAlgo := channel.cipherAlgo
  authTagAlgo := channel.authTagAlgo
  keyAgreementAlgo := channel.keyAgreementAlgo
  sasAlgo := channel.sasAlgo

/-- The algorithm a Commit names in a family. -/
def CommitAlgos.algo (commit : CommitAlgos) : AlgoFamily → UInt8
  | .hash => commit.hashAlgo
  | .cipherBlock => commit.cipherAlgo
  | .authTag => commit.authTagAlgo
  | .keyAgreement => commit.keyAgreementAlgo
  | .sas => commit.sasAlgo

/-- The algorithms of a Commit, as its receiver parses them (`packetParser.c:344–383`). -/
def receivedCommitAlgos (commit : CommitAlgos) : CommitAlgos :=
  let received := fun family =>
    bzrtpCryptoAlgoTypeStringToInt (bzrtpCryptoAlgoTypeIntToString (commit.algo family)) family
  { hashAlgo := received .hash
    cipherAlgo := received .cipherBlock
    authTagAlgo := received .authTag
    keyAgreementAlgo := received .keyAgreement
    sasAlgo := received .sas }

/-! ## What every configured context has -/

/-- The list of a family in a configured context: implemented types, all the mandatory ones
among them, none twice, and no more than the slots hold. -/
structure WellConfigured (build : KeyAgreementAlgoList) (family : AlgoFamily)
    (types : List UInt8) : Prop where
  available : ∀ v ∈ types, v ∈ bzrtpUtilsGetAvailableCryptoTypes build family
  mandatory : ∀ v ∈ bzrtpUtilsGetMandatoryCryptoTypes family, v ∈ types
  nodup : types.Nodup
  length : types.length ≤ 7

theorem wellConfigured_available (build : KeyAgreementAlgoList) (family : AlgoFamily) :
    WellConfigured build family (bzrtpUtilsGetAvailableCryptoTypes build family) := by
  obtain ⟨x255, x448⟩ := build
  constructor
  · exact fun v hv => hv
  all_goals cases family <;> cases x255 <;> cases x448 <;> decide +kernel

theorem wellConfigured_set (build : KeyAgreementAlgoList) (family : AlgoFamily)
    (types : List UInt8) : WellConfigured build family (bzrtpAddMandatoryCryptoTypesIfNeeded family
      (selectCommonAlgo types (bzrtpUtilsGetAvailableCryptoTypes build family))) := by
  constructor
  · intro v hv
    rcases mem_bzrtpAddMandatoryCryptoTypesIfNeeded hv with hv | hv
    · exact (selectCommonAlgo_sound hv).2
    · exact (wellConfigured_available build family).mandatory v hv
  · exact fun v hv => mandatory_mem_bzrtpAddMandatoryCryptoTypesIfNeeded family _ hv
  · exact bzrtpAddMandatoryCryptoTypesIfNeeded_nodup family _
  · exact bzrtpAddMandatoryCryptoTypesIfNeeded_length family _

/-- After any sequence of calls every list is well configured. -/
theorem configuredContext_wellConfigured (build : KeyAgreementAlgoList)
    (calls : List (AlgoFamily × List UInt8)) (family : AlgoFamily) :
    WellConfigured build family ((configuredContext build calls).supported family) := by
  unfold configuredContext
  have start := wellConfigured_available build family
  change WellConfigured build family ((bzrtpCreateBzrtpContext build).supported family) at start
  generalize bzrtpCreateBzrtpContext build = zrtpContext at start
  induction calls generalizing zrtpContext with
  | nil => exact start
  | cons call calls ih =>
    apply ih
    by_cases h : family = call.1
    · simpa only [bzrtpSetSupportedCryptoTypes, h, ↓reduceIte] using
        wellConfigured_set build call.1 call.2
    · simpa only [bzrtpSetSupportedCryptoTypes, h, ↓reduceIte] using start

variable {build : KeyAgreementAlgoList}

/-- A Hello reaches the peer with the lists of the context: each name is read back, and
nothing mandatory is left to add. -/
theorem receivedHelloTypes_eq {zrtpContext : BzrtpContext}
    (h : ∀ family, WellConfigured build family (zrtpContext.supported family)) :
    receivedHelloTypes zrtpContext = zrtpContext.supported := by
  ext1 family
  have hread : (helloNames (helloTypes zrtpContext) family).map
      (fun name => bzrtpCryptoAlgoTypeStringToInt name family) = zrtpContext.supported family := by
    rw [helloNames, map_map, helloTypes]
    calc
      _ = (zrtpContext.supported family).map id := by
        apply map_congr_left
        intro v hv
        exact bzrtpCryptoAlgoTypeStringToInt_intToString
          (available_named ((h family).available v hv))
      _ = _ := map_id _
  rw [receivedHelloTypes, parsedHelloTypes, hread]
  exact bzrtpAddMandatoryCryptoTypesIfNeeded_id (h family).nodup (h family).length
    (h family).mandatory

variable {selfBuild peerBuild : KeyAgreementAlgoList}

theorem selectCommonAlgo_cons {family : AlgoFamily} {selfTypes peerTypes : List UInt8}
    (hs : WellConfigured selfBuild family selfTypes)
    (hp : WellConfigured peerBuild family peerTypes) :
    ∃ v rest, selectCommonAlgo selfTypes peerTypes = v :: rest ∧ v ∈ selfTypes ∧ v ∈ peerTypes ∧
      selfTypes.find? (fun v => decide (v ∈ peerTypes)) = some v := by
  obtain ⟨m, hm⟩ : ∃ m, m ∈ bzrtpUtilsGetMandatoryCryptoTypes family := by
    cases family <;> exact ⟨_, mem_cons_self⟩
  have hhead := selectCommonAlgo_head selfTypes peerTypes
  cases hc : selectCommonAlgo selfTypes peerTypes with
  | nil =>
    rw [hc] at hhead
    have hnone := List.find?_eq_none.mp hhead.symm m (hs.mandatory m hm)
    simp [hp.mandatory m hm] at hnone
  | cons v rest =>
    have hv := selectCommonAlgo_sound (hc ▸ mem_cons_self : v ∈ selectCommonAlgo _ _)
    rw [hc] at hhead
    exact ⟨v, rest, rfl, hv.1, hv.2, hhead.symm⟩

/-! ## The pointer update -/

variable {c c' : ChannelCrypto}

theorem updateHashFunction_algo (h : updateHashFunction c = some c') : c'.algo = c.algo := by
  simp only [updateHashFunction] at h
  split_ifs at h <;> cases h <;> ext family <;> cases family <;> rfl

theorem updateCipherFunction_algo (h : updateCipherFunction c = some c') : c'.algo = c.algo := by
  simp only [updateCipherFunction] at h
  split_ifs at h <;> cases h <;> ext family <;> cases family <;> rfl

theorem updateKeyAgreementLength_algo (h : updateKeyAgreementLength c = some c') :
    c'.algo = c.algo := by
  simp only [updateKeyAgreementLength] at h
  split_ifs at h <;> cases h <;> ext family <;> cases family <;> rfl

theorem updateSasFunction_algo (h : updateSasFunction c = some c') : c'.algo = c.algo := by
  simp only [updateSasFunction] at h
  split_ifs at h <;> cases h <;> ext family <;> cases family <;> rfl

/-- Updating the pointers leaves the chosen algorithms alone. -/
theorem bzrtpUpdateCryptoFunctionPointers_algo :
    (bzrtpUpdateCryptoFunctionPointers channel).1.algo = channel.algo := by
  unfold bzrtpUpdateCryptoFunctionPointers
  split
  · rfl
  · next c₁ h₁ =>
    have a₁ := updateHashFunction_algo h₁
    split
    · exact a₁
    · next c₂ h₂ =>
      have a₂ := (updateCipherFunction_algo h₂).trans a₁
      split
      · exact a₂
      · next c₃ h₃ =>
        have a₃ := (updateKeyAgreementLength_algo h₃).trans a₂
        split
        · exact a₃
        · next c₄ h₄ => exact (updateSasFunction_algo h₄).trans a₃

/-- The hash algorithms `bzrtp_updateCryptoFunctionPointers` has a case for. -/
def implementedHashes : List UInt8 := [zrtpHashS256, zrtpHashS384, zrtpUnsetAlgo]

/-- The ciphers it has a case for. -/
def implementedCiphers : List UInt8 := [zrtpCipherAES1, zrtpCipherAES3, zrtpUnsetAlgo]

/-- The key agreements it has a length for, all of them Diffie-Hellman types. -/
def sizedKeyAgreements : List UInt8 :=
  [zrtpKeyAgreementDH2k, zrtpKeyAgreementDH3k, zrtpKeyAgreementX255, zrtpKeyAgreementX448]

/-- The SAS renderings it has a case for. -/
def implementedSas : List UInt8 := [zrtpSasB32, zrtpSasB256, zrtpUnsetAlgo]

theorem updateHashFunction_eq_none :
    updateHashFunction c = none ↔ c.algo .hash ∉ implementedHashes := by
  simp only [updateHashFunction, implementedHashes, ChannelCrypto.algo, mem_cons]
  split_ifs <;> simp_all

theorem updateCipherFunction_eq_none :
    updateCipherFunction c = none ↔ c.algo .cipherBlock ∉ implementedCiphers := by
  simp only [updateCipherFunction, implementedCiphers, ChannelCrypto.algo, mem_cons]
  split_ifs <;> simp_all

theorem updateKeyAgreementLength_eq_none :
    updateKeyAgreementLength c = none ↔ c.algo .keyAgreement ∉ sizedKeyAgreements := by
  simp only [updateKeyAgreementLength, sizedKeyAgreements, ChannelCrypto.algo, mem_cons]
  split_ifs <;> simp_all

theorem updateSasFunction_eq_none : updateSasFunction c = none ↔ c.algo .sas ∉ implementedSas := by
  simp only [updateSasFunction, implementedSas, ChannelCrypto.algo, mem_cons]
  split_ifs <;> simp_all

theorem bzrtpUpdateCryptoFunctionPointers_ok_iff :
    (bzrtpUpdateCryptoFunctionPointers channel).2 = .ok ↔
      channel.algo .hash ∈ implementedHashes ∧ channel.algo .cipherBlock ∈ implementedCiphers ∧
      channel.algo .keyAgreement ∈ sizedKeyAgreements ∧ channel.algo .sas ∈ implementedSas := by
  unfold bzrtpUpdateCryptoFunctionPointers
  split
  · next h₁ =>
    have := updateHashFunction_eq_none.mp h₁
    simp [this]
  · next c₁ h₁ =>
    have hash : channel.algo .hash ∈ implementedHashes := by
      by_contra hcon
      simp [updateHashFunction_eq_none.mpr hcon] at h₁
    have a₁ := updateHashFunction_algo h₁
    split
    · next h₂ =>
      have := updateCipherFunction_eq_none.mp h₂
      rw [a₁] at this
      simp [this]
    · next c₂ h₂ =>
      have cipher : c₁.algo .cipherBlock ∈ implementedCiphers := by
        by_contra hcon
        simp [updateCipherFunction_eq_none.mpr hcon] at h₂
      have a₂ := (updateCipherFunction_algo h₂).trans a₁
      split
      · next h₃ =>
        have := updateKeyAgreementLength_eq_none.mp h₃
        rw [a₂] at this
        simp [this]
      · next c₃ h₃ =>
        have agreement : c₂.algo .keyAgreement ∈ sizedKeyAgreements := by
          by_contra hcon
          simp [updateKeyAgreementLength_eq_none.mpr hcon] at h₃
        have a₃ := (updateKeyAgreementLength_algo h₃).trans a₂
        rw [a₁] at cipher
        rw [a₂] at agreement
        split
        · next h₄ =>
          have := updateSasFunction_eq_none.mp h₄
          rw [a₃] at this
          simp [this]
        · next c₄ h₄ =>
          have sas : c₃.algo .sas ∈ implementedSas := by
            by_contra hcon
            simp [updateSasFunction_eq_none.mpr hcon] at h₄
          rw [a₃] at sas
          simp [hash, cipher, agreement, sas]

/-! ## Symmetry -/

/-- The key agreement an endpoint would take by its own order of preference. -/
def preferredKeyAgreement (self peer : SupportedTypes) : Option UInt8 :=
  (self .keyAgreement).find? fun v => decide (v ∈ peer .keyAgreement)

theorem available_sized {v : UInt8}
    (h : v ∈ bzrtpUtilsGetAvailableCryptoTypes build .keyAgreement) :
    v = zrtpKeyAgreementMult ∨ (v ∈ sizedKeyAgreements ∧ v < zrtpKeyAgreementMult) := by
  revert v
  obtain ⟨x255, x448⟩ := build
  cases x255 <;> cases x448 <;> decide +kernel

theorem available_implemented {v : UInt8} :
    (v ∈ bzrtpUtilsGetAvailableCryptoTypes build .hash → v ∈ implementedHashes) ∧
      (v ∈ bzrtpUtilsGetAvailableCryptoTypes build .cipherBlock → v ∈ implementedCiphers) ∧
      (v ∈ bzrtpUtilsGetAvailableCryptoTypes build .sas → v ∈ implementedSas) := by
  simp only [bzrtpUtilsGetAvailableCryptoTypes, implementedHashes, implementedCiphers,
    implementedSas, mem_cons]
  tauto

theorem keyAgreementChoice_comm (a b : UInt8) :
    keyAgreementChoice a b = keyAgreementChoice b a := by
  unfold keyAgreementChoice
  by_cases h : a = b
  · rw [h]
  · have hne : ¬b = a := fun h' => h h'.symm
    rw [if_neg h, if_neg hne]
    rcases UInt8.lt_or_lt_of_ne h with hlt | hlt
    · rw [if_pos hlt, if_neg (UInt8.lt_asymm hlt)]
    · rw [if_pos hlt, if_neg (UInt8.lt_asymm hlt)]

theorem keyAgreementChoice_eq_mult {a b : UInt8}
    (ha : a ∈ bzrtpUtilsGetAvailableCryptoTypes selfBuild .keyAgreement)
    (hb : b ∈ bzrtpUtilsGetAvailableCryptoTypes peerBuild .keyAgreement) :
    keyAgreementChoice a b = zrtpKeyAgreementMult ↔
      a = zrtpKeyAgreementMult ∧ b = zrtpKeyAgreementMult := by
  constructor
  · intro h
    unfold keyAgreementChoice at h
    split_ifs at h with hab hlt
    · exact ⟨h, hab ▸ h⟩
    · rcases available_sized ha with ha | ha
      · exact ⟨ha, h⟩
      · exact absurd (UInt8.lt_trans (h ▸ hlt) ha.2) (UInt8.lt_irrefl _)
    · rcases available_sized hb with hb | hb
      · exact ⟨h, hb⟩
      · exact absurd (h ▸ hb.2) hlt
  · rintro ⟨rfl, rfl⟩
    rfl

theorem keyAgreementChoice_cases (a b : UInt8) :
    keyAgreementChoice a b = a ∨ keyAgreementChoice a b = b := by
  unfold keyAgreementChoice
  split_ifs <;> simp

variable {self : BzrtpContext} {peer : SupportedTypes}

/-- The last step of `bzrtp_cryptoAlgoAgreement` between two configured endpoints: the pointers are
updated for a type of each family that both support, the preferred common hash among them. -/
theorem bzrtpCryptoAlgoAgreement_eq
    (hs : ∀ family, WellConfigured selfBuild family (self.supported family))
    (hp : ∀ family, WellConfigured peerBuild family (peer family)) : ∃ chosen selfChoice peerChoice,
      bzrtpCryptoAlgoAgreement self channel peer = bzrtpUpdateCryptoFunctionPointers chosen ∧
      preferredKeyAgreement self.supported peer = some selfChoice ∧
      preferredKeyAgreement peer self.supported = some peerChoice ∧
      chosen.keyAgreementAlgo = keyAgreementChoice selfChoice peerChoice ∧
      (keyAgreementChoice selfChoice peerChoice = zrtpKeyAgreementMult ↔
        selfChoice = zrtpKeyAgreementMult ∧ peerChoice = zrtpKeyAgreementMult) ∧
      (self.supported .hash).find? (fun v => decide (v ∈ peer .hash)) = some chosen.hashAlgo ∧
      ∀ family, chosen.algo family ∈ self.supported family ∧ chosen.algo family ∈ peer family := by
  obtain ⟨selfChoice, _, hsc, hss, hsp, hsf⟩ :=
    selectCommonAlgo_cons (hs .keyAgreement) (hp .keyAgreement)
  obtain ⟨peerChoice, _, hpc, hpp, hps, hpf⟩ :=
    selectCommonAlgo_cons (hp .keyAgreement) (hs .keyAgreement)
  obtain ⟨cipher, _, hc, hcs, hcp, -⟩ := selectCommonAlgo_cons (hs .cipherBlock) (hp .cipherBlock)
  obtain ⟨hash, _, hh, hhs, hhp, hhf⟩ := selectCommonAlgo_cons (hs .hash) (hp .hash)
  obtain ⟨authTag, _, ha, has, hap, -⟩ := selectCommonAlgo_cons (hs .authTag) (hp .authTag)
  obtain ⟨sas, _, hr, hrs, hrp, -⟩ := selectCommonAlgo_cons (hs .sas) (hp .sas)
  have hmult := keyAgreementChoice_eq_mult ((hs .keyAgreement).available _ hss)
    ((hp .keyAgreement).available _ hpp)
  have hcases := keyAgreementChoice_cases selfChoice peerChoice
  have hkey : keyAgreementChoice selfChoice peerChoice ∈ self.supported .keyAgreement ∧
      keyAgreementChoice selfChoice peerChoice ∈ peer .keyAgreement := by
    rcases hcases with hk | hk <;> rw [hk]
    · exact ⟨hss, hsp⟩
    · exact ⟨hps, hpp⟩
  have hEC38 : keyAgreementChoice selfChoice peerChoice ≠ zrtpKeyAgreementEC38 := by
    have hsized := available_sized ((hs .keyAgreement).available _ hkey.1)
    intro heq
    rw [heq] at hsized
    revert hsized
    decide
  refine ⟨{ channel with
    keyAgreementAlgo := keyAgreementChoice selfChoice peerChoice, cipherAlgo := cipher
    hashAlgo := hash, authTagAlgo := authTag, sasAlgo := sas },
    selfChoice, peerChoice, ?_, hsf, hpf, rfl, hmult, hhf, ?_⟩
  · simp [bzrtpCryptoAlgoAgreement, ne_nil_of_mem hss, ne_nil_of_mem hpp, hsc, hpc, agreeOnCipher, hc, cipherChoice, hEC38, agreeOnHash, hh, hashChoice, agreeOnTagAndSas, ha, hr]
  · intro family
    cases family
    · exact ⟨hhs, hhp⟩
    · exact ⟨hcs, hcp⟩
    · exact ⟨has, hap⟩
    · exact hkey
    · exact ⟨hrs, hrp⟩

/-- What `bzrtp_cryptoAlgoAgreement` leaves between two configured endpoints: in each family an
algorithm both support, and success unless both would first take Mult. -/
theorem bzrtpCryptoAlgoAgreement_spec
    (hs : ∀ family, WellConfigured selfBuild family (self.supported family))
    (hp : ∀ family, WellConfigured peerBuild family (peer family)) : ∃ selfChoice peerChoice,
      preferredKeyAgreement self.supported peer = some selfChoice ∧
      preferredKeyAgreement peer self.supported = some peerChoice ∧
      (bzrtpCryptoAlgoAgreement self channel peer).1.keyAgreementAlgo =
        keyAgreementChoice selfChoice peerChoice ∧
      (∀ family, (bzrtpCryptoAlgoAgreement self channel peer).1.algo family ∈
        self.supported family ∧
        (bzrtpCryptoAlgoAgreement self channel peer).1.algo family ∈ peer family) ∧
      ((bzrtpCryptoAlgoAgreement self channel peer).2 = .ok ↔
        ¬(selfChoice = zrtpKeyAgreementMult ∧ peerChoice = zrtpKeyAgreementMult)) := by
  obtain ⟨chosen, selfChoice, peerChoice, hresult, hsf, hpf, hkey, hmult, -, hboth⟩ :=
    bzrtpCryptoAlgoAgreement_eq channel hs hp
  have halgo := bzrtpUpdateCryptoFunctionPointers_algo chosen
  refine ⟨selfChoice, peerChoice, hsf, hpf, ?_, ?_, ?_⟩
  · rw [hresult, ← hkey]
    exact congrFun halgo .keyAgreement
  · rw [hresult, halgo]
    exact hboth
  · rw [hresult, bzrtpUpdateCryptoFunctionPointers_ok_iff, ← hmult, ← hkey]
    have hhash := available_implemented.1 ((hs .hash).available _ (hboth .hash).1)
    have hcipher :=
      available_implemented.2.1 ((hs .cipherBlock).available _ (hboth .cipherBlock).1)
    have hsas := available_implemented.2.2 ((hs .sas).available _ (hboth .sas).1)
    have hsized := available_sized ((hs .keyAgreement).available _ (hboth .keyAgreement).1)
    constructor
    · rintro ⟨-, -, h, -⟩ hkeyMult
      change chosen.keyAgreementAlgo ∈ sizedKeyAgreements at h
      rw [hkeyMult] at h
      revert h
      decide
    · intro h
      exact ⟨hhash, hcipher, (hsized.resolve_left h).1, hsas⟩

theorem updateCipherFunction_hmacFunction (h : updateCipherFunction c = some c') :
    c'.hmacFunction = c.hmacFunction := by
  simp only [updateCipherFunction] at h
  split_ifs at h <;> cases h <;> rfl

theorem updateKeyAgreementLength_hmacFunction (h : updateKeyAgreementLength c = some c') :
    c'.hmacFunction = c.hmacFunction := by
  simp only [updateKeyAgreementLength] at h
  split_ifs at h <;> cases h <;> rfl

theorem updateSasFunction_hmacFunction (h : updateSasFunction c = some c') :
    c'.hmacFunction = c.hmacFunction := by
  simp only [updateSasFunction] at h
  split_ifs at h <;> cases h <;> rfl

theorem bzrtpUpdateCryptoFunctionPointers_ofHash {c₁ : ChannelCrypto}
    (h : updateHashFunction c = some c₁) :
    (bzrtpUpdateCryptoFunctionPointers c).1.hmacFunction = c₁.hmacFunction := by
  simp only [bzrtpUpdateCryptoFunctionPointers, h]
  split
  · rfl
  · next c₂ h₂ =>
    have a₂ := updateCipherFunction_hmacFunction h₂
    split
    · exact a₂
    · next c₃ h₃ =>
      have a₃ := (updateKeyAgreementLength_hmacFunction h₃).trans a₂
      split
      · exact a₃
      · next c₄ h₄ => exact (updateSasFunction_hmacFunction h₄).trans a₃

/-- The HMAC that goes with a hash algorithm. -/
def hmacFunctionOf (hashAlgo : UInt8) : Option HashFunction :=
  if hashAlgo = zrtpHashS256 then some .sha256
  else if hashAlgo = zrtpHashS384 then some .sha384
  else none

theorem bzrtpUpdateCryptoFunctionPointers_hmacFunction {channel : ChannelCrypto}
    (hash : channel.hashAlgo ∈ implementedHashes) :
    (bzrtpUpdateCryptoFunctionPointers channel).1.hmacFunction =
      hmacFunctionOf channel.hashAlgo := by
  cases hc : updateHashFunction channel with
  | none => exact absurd hash (updateHashFunction_eq_none.mp hc)
  | some channel₁ =>
    rw [bzrtpUpdateCryptoFunctionPointers_ofHash hc]
    simp only [updateHashFunction] at hc
    unfold hmacFunctionOf
    split_ifs at hc ⊢ <;> cases hc <;> rfl

/-- The preferred hash of an endpoint among those its peer has. -/
def preferredHash (self peer : SupportedTypes) : Option UInt8 :=
  (self .hash).find? fun v => decide (v ∈ peer .hash)

/-- An endpoint uses the HMAC of its preferred hash. -/
theorem bzrtpCryptoAlgoAgreement_hmacFunction
    (hs : ∀ family, WellConfigured selfBuild family (self.supported family))
    (hp : ∀ family, WellConfigured peerBuild family (peer family)) :
    ∃ hash ∈ bzrtpUtilsGetAvailableCryptoTypes selfBuild .hash,
      preferredHash self.supported peer = some hash ∧
      (bzrtpCryptoAlgoAgreement self channel peer).1.hmacFunction = hmacFunctionOf hash := by
  obtain ⟨chosen, _, _, hresult, -, -, -, -, hhash, hboth⟩ :=
    bzrtpCryptoAlgoAgreement_eq channel hs hp
  have havailable := (hs .hash).available _ (hboth .hash).1
  rw [hresult]
  exact ⟨chosen.hashAlgo, havailable, hhash,
    bzrtpUpdateCryptoFunctionPointers_hmacFunction (available_implemented.1 havailable)⟩

/-- The key agreements that are Diffie-Hellman exchanges. -/
def diffieHellmanTypes : List UInt8 :=
  [zrtpKeyAgreementDH2k, zrtpKeyAgreementX255, zrtpKeyAgreementEC25, zrtpKeyAgreementX448,
    zrtpKeyAgreementDH3k, zrtpKeyAgreementEC38, zrtpKeyAgreementEC52]

/-- Two endpoints agree: both calls succeed with one key agreement, a Diffie-Hellman type, each
side chose from what both support, and a Commit of either reaches the other with algorithms
that one supports. -/
structure Agreed (selfContext peerContext : BzrtpContext)
    (selfResult peerResult : ChannelCrypto × CryptoAgreementCode) : Prop where
  selfSucceeds : selfResult.2 = .ok
  peerSucceeds : peerResult.2 = .ok
  sameKeyAgreement : selfResult.1.keyAgreementAlgo = peerResult.1.keyAgreementAlgo
  diffieHellman : selfResult.1.keyAgreementAlgo ∈ diffieHellmanTypes
  selfSupported : ∀ family, selfResult.1.algo family ∈ selfContext.supported family ∧
    selfResult.1.algo family ∈ peerContext.supported family
  peerSupported : ∀ family, peerResult.1.algo family ∈ selfContext.supported family ∧
    peerResult.1.algo family ∈ peerContext.supported family
  selfCommit : ∀ family,
    (receivedCommitAlgos (commitAlgos selfResult.1)).algo family ∈ peerContext.supported family
  peerCommit : ∀ family,
    (receivedCommitAlgos (commitAlgos peerResult.1)).algo family ∈ selfContext.supported family

theorem receivedCommitAlgos_algo {channel : ChannelCrypto} {family : AlgoFamily}
    (h : channel.algo family ∈ bzrtpUtilsGetAvailableCryptoTypes build family) :
    (receivedCommitAlgos (commitAlgos channel)).algo family = channel.algo family := by
  have hread := bzrtpCryptoAlgoTypeStringToInt_intToString (available_named h)
  cases family <;> exact hread

theorem sized_diffieHellman : ∀ v ∈ sizedKeyAgreements, v ∈ diffieHellmanTypes := by
  decide +kernel

/-- Each side runs `bzrtp_cryptoAlgoAgreement` on the Hello of the other. They agree exactly
when Mult is not the preferred common key agreement on both sides. -/
theorem bzrtpCryptoAlgoAgreement_agreed_iff (selfBuild peerBuild : KeyAgreementAlgoList)
    (selfCalls peerCalls : List (AlgoFamily × List UInt8))
    (selfChannel peerChannel : ChannelCrypto) :
    let self := configuredContext selfBuild selfCalls
    let peer := configuredContext peerBuild peerCalls
    Agreed self peer (bzrtpCryptoAlgoAgreement self selfChannel (receivedHelloTypes peer))
        (bzrtpCryptoAlgoAgreement peer peerChannel (receivedHelloTypes self)) ↔
      ¬(preferredKeyAgreement self.supported peer.supported = some zrtpKeyAgreementMult ∧
        preferredKeyAgreement peer.supported self.supported = some zrtpKeyAgreementMult) := by
  intro self peer
  have hs : ∀ family, WellConfigured selfBuild family (self.supported family) :=
    configuredContext_wellConfigured selfBuild selfCalls
  have hp : ∀ family, WellConfigured peerBuild family (peer.supported family) :=
    configuredContext_wellConfigured peerBuild peerCalls
  rw [receivedHelloTypes_eq hs, receivedHelloTypes_eq hp]
  obtain ⟨a, b, ha, hb, hkey, hsupported, hok⟩ := bzrtpCryptoAlgoAgreement_spec selfChannel hs hp
  obtain ⟨b', a', hb', ha', hkey', hsupported', hok'⟩ :=
    bzrtpCryptoAlgoAgreement_spec peerChannel hp hs
  obtain rfl : b = b' := Option.some.inj (hb.symm.trans hb')
  obtain rfl : a = a' := Option.some.inj (ha.symm.trans ha')
  rw [ha, hb, Option.some.injEq, Option.some.injEq]
  constructor
  · intro h
    exact hok.mp h.selfSucceeds
  · intro h
    constructor
    · exact hok.mpr h
    · exact hok'.mpr fun h' => h h'.symm
    · rw [hkey, hkey', keyAgreementChoice_comm]
    · have havailable := (hs .keyAgreement).available _ (hsupported .keyAgreement).1
      apply sized_diffieHellman
      refine ((available_sized havailable).resolve_left fun hmult => ?_).1
      change (bzrtpCryptoAlgoAgreement self selfChannel peer.supported).1.keyAgreementAlgo =
        zrtpKeyAgreementMult at hmult
      rw [hkey, keyAgreementChoice_eq_mult
        ((hs .keyAgreement).available _ (mem_of_find?_eq_some ha))
        ((hp .keyAgreement).available _ (mem_of_find?_eq_some hb))] at hmult
      exact h hmult
    · exact hsupported
    · exact fun family => (hsupported' family).symm
    · intro family
      rw [receivedCommitAlgos_algo ((hs family).available _ (hsupported family).1)]
      exact (hsupported family).2
    · intro family
      rw [receivedCommitAlgos_algo ((hp family).available _ (hsupported' family).1)]
      exact (hsupported' family).2

/-- Two lists that start with different types and then both have Mult: it is taken on both
sides, and both calls fail. -/
theorem bzrtpCryptoAlgoAgreement_multFirst : ¬∀ (selfBuild peerBuild : KeyAgreementAlgoList)
      (selfCalls peerCalls : List (AlgoFamily × List UInt8))
      (selfChannel peerChannel : ChannelCrypto),
      let self := configuredContext selfBuild selfCalls
      let peer := configuredContext peerBuild peerCalls
      (self.supported .keyAgreement).head? ≠ some zrtpKeyAgreementMult →
      (peer.supported .keyAgreement).head? ≠ some zrtpKeyAgreementMult →
      Agreed self peer (bzrtpCryptoAlgoAgreement self selfChannel (receivedHelloTypes peer))
        (bzrtpCryptoAlgoAgreement peer peerChannel (receivedHelloTypes self)) := by
  intro h
  have hagreed := h ⟨true, true⟩ ⟨true, true⟩
    [(.keyAgreement, [zrtpKeyAgreementX255, zrtpKeyAgreementMult, zrtpKeyAgreementDH3k])]
    [(.keyAgreement, [zrtpKeyAgreementDH2k, zrtpKeyAgreementMult, zrtpKeyAgreementDH3k])]
    initialChannelCrypto initialChannelCrypto (by decide) (by decide)
  have hcode := hagreed.selfSucceeds
  revert hcode
  decide

end GrooveIp.Zrtp
