import Mathlib.Data.List.Chain
import GrooveIp.Zrtp.SecretMatching

/-!
# Key continuity

The caches of two endpoints over a sequence of sessions. A session ends with the update of
`bzrtp_updateCachedSecrets` on both sides or on one of them only; a cache that missed an update still
shares a secret with the other one, since that one has kept its previous rs1 as its rs2.
-/

namespace GrooveIp.Zrtp

open SecretContext (eraseRs1 eraseRs2)

variable {Id Shared : Type}

/-! ## Auxiliary and PBX secrets -/

section OtherSecrets

variable [DecidableEq Id] {hmacFunction : IdFunction Id} {initiator responder : SecretEndpoint Id}

/-- The auxiliary secret of an endpoint: the cached one with the one it was given appended. -/
def SecretEndpoint.auxsecret (self : SecretEndpoint Id) : Option (List UInt8) :=
  match self.transientAuxSecret with
  | some transient => some (self.cached.auxsecret.getD [] ++ transient)
  | none => self.cached.auxsecret

/-- The value both have, or none. -/
def common (secret secret' : Option (List UInt8)) : Option (List UInt8) :=
  if secret = secret' then secret else none

theorem common_comm (secret secret' : Option (List UInt8)) :
    common secret secret' = common secret' secret := by
  unfold common
  by_cases heq : secret = secret'
  · simp [heq]
  · rw [if_neg heq, if_neg (Ne.symm heq)]

theorem erase_eq_common {draws' : IdDraws Id} (ideal : IdealIds hmacFunction draws')
    (draws : IdDraws Id) (hash : HashFunction) (name : SecretName) (role role' : Role)
    (label : SecretLabel) (secret secret' : Option (List UInt8)) :
    (if secret.isSome ∧ secretID hmacFunction hash (draws name role) secret label ≠
        secretID hmacFunction hash (draws' name role') secret' label then none else secret) =
      common secret secret' := by
  cases secret with
  | none =>
    unfold common
    simp
  | some key =>
    have hid := secretID_eq_iff ideal hash hash (draws name role) name role' key secret' label
    unfold common
    by_cases heq : secret' = some key
    · have hsame := hid.mpr ⟨rfl, heq⟩
      simp [hsame, heq]
    · have hne := mt hid.mp (by simp [heq])
      have heq' : ¬ some key = secret' := fun h => heq h.symm
      simp [hne, heq']

omit [DecidableEq Id] in
theorem hello_others (hmacFunction : IdFunction Id) (self peer : SecretEndpoint Id) :
    (self.hello hmacFunction peer).cachedSecret.auxsecret = self.auxsecret ∧
      (self.hello hmacFunction peer).cachedSecret.pbxsecret = self.cached.pbxsecret := by
  unfold SecretEndpoint.hello helloSecrets SecretEndpoint.auxsecret
  cases self.transientAuxSecret <;> exact ⟨rfl, rfl⟩

omit [DecidableEq Id] in
theorem hello_auxsecretID (hmacFunction : IdFunction Id) (self peer : SecretEndpoint Id) :
    (self.hello hmacFunction peer).initiatorAuxsecretID =
        secretID hmacFunction self.hash (self.draws .auxsecret .initiator) self.auxsecret
          (.image self.H3) ∧ (self.hello hmacFunction peer).responderAuxsecretID =
        secretID hmacFunction self.hash (self.draws .auxsecret .responder) self.auxsecret
          (.image peer.H3) := by
  unfold SecretEndpoint.hello helloSecrets SecretEndpoint.auxsecret
  cases self.transientAuxSecret <;> exact ⟨rfl, rfl⟩

omit [DecidableEq Id] in
theorem hello_pbxsecretID (hmacFunction : IdFunction Id) (self peer : SecretEndpoint Id) :
    (self.hello hmacFunction peer).initiatorCachedSecretHash.pbxsecretID =
        secretID hmacFunction self.hash (self.draws .pbxsecret .initiator) self.cached.pbxsecret
          (.role .initiator) ∧
      (self.hello hmacFunction peer).responderCachedSecretHash.pbxsecretID =
        secretID hmacFunction self.hash (self.draws .pbxsecret .responder) self.cached.pbxsecret
          (.role .responder) := by
  unfold SecretEndpoint.hello helloSecrets
  cases self.transientAuxSecret <;> exact ⟨rfl, rfl⟩

/-- The comparisons of rs1 and rs2 leave the rest of the context alone. -/
structure SameOthers (context context' : SecretContext Id) : Prop where
  auxsecret : context'.cachedSecret.auxsecret = context.cachedSecret.auxsecret
  pbxsecret : context'.cachedSecret.pbxsecret = context.cachedSecret.pbxsecret
  initiatorAuxsecretID : context'.initiatorAuxsecretID = context.initiatorAuxsecretID
  responderAuxsecretID : context'.responderAuxsecretID = context.responderAuxsecretID
  initiatorHash : context'.initiatorCachedSecretHash = context.initiatorCachedSecretHash
  responderHash : context'.responderCachedSecretHash = context.responderCachedSecretHash

variable (context : SecretContext Id)

theorem matchDHPart1Rs_others (message : DHPartIDs Id) :
    SameOthers context (matchDHPart1Rs context message) := by
  unfold matchDHPart1Rs eraseRs1 eraseRs2
  constructor <;> dsimp only <;> split_ifs <;> rfl

theorem matchDHPart2Rs_others (message : DHPartIDs Id) :
    SameOthers context (matchDHPart2Rs context message) := by
  have first : SameOthers context (matchInitiatorRs1 context message).1 := by
    unfold matchInitiatorRs1 eraseRs1
    constructor <;> split_ifs <;> rfl
  have second (context : SecretContext Id) (cacheMatchFlag : Bool) :
      SameOthers context (matchInitiatorRs2 context cacheMatchFlag message) := by
    unfold matchInitiatorRs2 eraseRs1 eraseRs2
    constructor <;> dsimp only <;> split_ifs <;> rfl
  have last := second (matchInitiatorRs1 context message).1 (matchInitiatorRs1 context message).2
  exact ⟨last.1.trans first.1, last.2.trans first.2, last.3.trans first.3, last.4.trans first.4,
    last.5.trans first.5, last.6.trans first.6⟩

theorem matchOthers_secrets (message : DHPartIDs Id) (auxsecretID pbxsecretID : Id) :
    let context' :=
      resetVerifiedSas (matchPbxsecret (matchAuxsecret context auxsecretID message) pbxsecretID message)
    context'.cachedSecret.auxsecret =
        (if context.cachedSecret.auxsecret.isSome ∧ auxsecretID ≠ message.auxsecretID then none
        else context.cachedSecret.auxsecret) ∧ context'.cachedSecret.pbxsecret =
        (if context.cachedSecret.pbxsecret.isSome ∧ pbxsecretID ≠ message.pbxsecretID then none
        else context.cachedSecret.pbxsecret) := by
  simp only [matchAuxsecret, matchPbxsecret, resetVerifiedSas]
  split_ifs <;> simp_all

theorem matchAuxsecret_hash (auxsecretID : Id) (message : DHPartIDs Id) :
    (matchAuxsecret context auxsecretID message).initiatorCachedSecretHash =
        context.initiatorCachedSecretHash ∧
      (matchAuxsecret context auxsecretID message).responderCachedSecretHash =
        context.responderCachedSecretHash := by
  unfold matchAuxsecret
  split_ifs <;> exact ⟨rfl, rfl⟩

theorem initiatorOutcome_others (ideal : IdealIds hmacFunction responder.draws)
    (same : initiator.hash = responder.hash) :
    (initiatorOutcome hmacFunction initiator responder).cachedSecret.auxsecret =
        common initiator.auxsecret responder.auxsecret ∧
      (initiatorOutcome hmacFunction initiator responder).cachedSecret.pbxsecret =
        common initiator.cached.pbxsecret responder.cached.pbxsecret := by
  have others := matchDHPart1Rs_others (initiator.hello hmacFunction responder)
    (dhPart1IDs (swapAuxsecretIDs (responder.hello hmacFunction initiator)))
  obtain ⟨haux, hpbx⟩ := hello_others hmacFunction initiator responder
  obtain ⟨-, hauxID⟩ := hello_auxsecretID hmacFunction initiator responder
  obtain ⟨hauxID', -⟩ := hello_auxsecretID hmacFunction responder initiator
  obtain ⟨-, hpbxID⟩ := hello_pbxsecretID hmacFunction initiator responder
  obtain ⟨-, hpbxID'⟩ := hello_pbxsecretID hmacFunction responder initiator
  unfold initiatorOutcome matchDHPart1
  constructor
  · rw [(matchOthers_secrets _ _ _ _).1, others.auxsecret, others.responderAuxsecretID, haux, hauxID]
    rw [same]
    have erased := erase_eq_common ideal initiator.draws responder.hash .auxsecret .responder
      .initiator (.image responder.H3) initiator.auxsecret responder.auxsecret
    rw [← hauxID'] at erased
    exact erased
  · rw [(matchOthers_secrets _ _ _ _).2, others.pbxsecret, (matchAuxsecret_hash _ _ _).2,
      others.responderHash, hpbx, hpbxID]
    rw [same]
    have erased := erase_eq_common ideal initiator.draws responder.hash .pbxsecret .responder
      .responder (.role .responder) initiator.cached.pbxsecret responder.cached.pbxsecret
    rw [← hpbxID'] at erased
    exact erased

theorem responderOutcome_others (ideal : IdealIds hmacFunction initiator.draws)
    (same : initiator.hash = responder.hash) :
    (responderOutcome hmacFunction initiator responder).cachedSecret.auxsecret =
        common initiator.auxsecret responder.auxsecret ∧
      (responderOutcome hmacFunction initiator responder).cachedSecret.pbxsecret =
        common initiator.cached.pbxsecret responder.cached.pbxsecret := by
  have others := matchDHPart2Rs_others (swapAuxsecretIDs (responder.hello hmacFunction initiator))
    (dhPart2IDs (initiator.hello hmacFunction responder))
  obtain ⟨haux, hpbx⟩ := hello_others hmacFunction responder initiator
  obtain ⟨-, hauxID⟩ := hello_auxsecretID hmacFunction responder initiator
  obtain ⟨hauxID', -⟩ := hello_auxsecretID hmacFunction initiator responder
  obtain ⟨hpbxID, -⟩ := hello_pbxsecretID hmacFunction responder initiator
  obtain ⟨hpbxID', -⟩ := hello_pbxsecretID hmacFunction initiator responder
  unfold responderOutcome matchDHPart2
  constructor
  · rw [(matchOthers_secrets _ _ _ _).1, others.auxsecret, others.initiatorAuxsecretID, common_comm]
    -- after the swap the responder compares the id for the last hash image of its peer
    rw [show (swapAuxsecretIDs (responder.hello hmacFunction initiator)).cachedSecret.auxsecret =
        responder.auxsecret from haux,
      show (swapAuxsecretIDs (responder.hello hmacFunction initiator)).initiatorAuxsecretID =
        _ from hauxID, ← same]
    have erased := erase_eq_common ideal responder.draws initiator.hash .auxsecret .responder
      .initiator (.image initiator.H3) responder.auxsecret initiator.auxsecret
    rw [← hauxID'] at erased
    exact erased
  · rw [(matchOthers_secrets _ _ _ _).2, others.pbxsecret, (matchAuxsecret_hash _ _ _).1,
      others.initiatorHash, common_comm]
    rw [show (swapAuxsecretIDs (responder.hello hmacFunction initiator)).cachedSecret.pbxsecret =
        responder.cached.pbxsecret from hpbx,
      show (swapAuxsecretIDs
          (responder.hello hmacFunction initiator)).initiatorCachedSecretHash.pbxsecretID =
        _ from hpbxID, ← same]
    have erased := erase_eq_common ideal responder.draws initiator.hash .pbxsecret .initiator
      .initiator (.role .initiator) responder.cached.pbxsecret initiator.cached.pbxsecret
    rw [← hpbxID'] at erased
    exact erased

end OtherSecrets

/-! ## Updates -/

/-- `bzrtp_computeS0DHMMode` and the derivation of the retained secret: a function of what both sides
share in a session (the DH result, the ZIDs, the hash of the messages) and of s1, s2 and s3. -/
abbrev RetainedSecretFunction (Shared : Type) :=
  HashFunction → Shared → Option (List UInt8) → Option (List UInt8) → Option (List UInt8) → List UInt8

/-- The new retained secret of an endpoint. -/
def newRetainedSecret (derive : RetainedSecretFunction Shared) (hash : HashFunction) (shared : Shared)
    (context : SecretContext Id) : List UInt8 :=
  derive hash shared (s1 context) context.cachedSecret.auxsecret context.cachedSecret.pbxsecret

/-- `bzrtp_updateCachedSecrets` in DHM mode, on the cache: nothing after a mismatch; else the rs1 that
is left in the context, if any, is written as rs2. -/
def bzrtpUpdateCachedSecrets (context : SecretContext Id) (rs1 : List UInt8) (cache : CachedSecret) :
    CachedSecret :=
  if context.cacheMismatchFlag then cache
  else { cache with rs1 := some rs1, rs2 := context.cachedSecret.rs1 }

/-! ## Sessions -/

/-- The two endpoints. -/
inductive Side where
  | near
  | far
  deriving DecidableEq, Repr

/-- The peer of an endpoint. -/
def Side.other : Side → Side
  | .near => .far
  | .far => .near

/-- The caches that a session updates. -/
inductive Updated where
  | both
  | only (side : Side)
  deriving DecidableEq, Repr

/-- Whether the cache of an endpoint is among them. -/
def Updated.covers : Updated → Side → Bool
  | .both, _ => true
  | .only updated, side => updated = side

/-- A DH session: who is the initiator, what each endpoint has besides its cache, what they share in the
end, and which caches are updated. -/
structure DHSession (Id Shared : Type) where
  initiator : Side
  hash : Side → HashFunction
  draws : Side → IdDraws Id
  H3 : Side → List UInt8
  transientAuxSecret : Side → Option (List UInt8)
  shared : Shared
  updated : Updated

open DHSession

/-- The caches of the two endpoints. -/
abbrev Caches := Side → CachedSecret

/-- An endpoint in a session. -/
def DHSession.endpoint (session : DHSession Id Shared) (caches : Caches) (side : Side) :
    SecretEndpoint Id where
  hash := session.hash side
  draws := session.draws side
  H3 := session.H3 side
  cached := caches side
  transientAuxSecret := session.transientAuxSecret side

variable [DecidableEq Id]

/-- What the comparisons leave an endpoint with. -/
def DHSession.outcome (hmacFunction : IdFunction Id) (session : DHSession Id Shared) (caches : Caches)
    (side : Side) : SecretContext Id :=
  if side = session.initiator then
    initiatorOutcome hmacFunction (session.endpoint caches side) (session.endpoint caches side.other)
  else
    responderOutcome hmacFunction (session.endpoint caches side.other) (session.endpoint caches side)

/-- The caches after a session. -/
def DHSession.run (hmacFunction : IdFunction Id) (derive : RetainedSecretFunction Shared)
    (session : DHSession Id Shared) (caches : Caches) : Caches := fun side =>
  let context := session.outcome hmacFunction caches side
  if session.updated.covers side then
    bzrtpUpdateCachedSecrets context
      (newRetainedSecret derive (session.hash side) session.shared context) (caches side)
  else caches side

/-- The caches after a sequence of sessions. -/
def runSessions (hmacFunction : IdFunction Id) (derive : RetainedSecretFunction Shared) :
    List (DHSession Id Shared) → Caches → Caches
  | [], caches => caches
  | session :: sessions, caches =>
    runSessions hmacFunction derive sessions (session.run hmacFunction derive caches)

variable {hmacFunction : IdFunction Id} {derive : RetainedSecretFunction Shared}
  {session : DHSession Id Shared} {caches : Caches}

omit [DecidableEq Id] in
theorem Side.eq_or_other (side initiator : Side) : side = initiator ∨ side = initiator.other := by
  cases side <;> cases initiator <;> simp [Side.other]

/-- The endpoints of a session used one hash, and ids that are ideal. -/
structure DHSession.Sound (hmacFunction : IdFunction Id) (session : DHSession Id Shared) : Prop where
  sameHash : ∀ side side', session.hash side = session.hash side'
  ideal : ∀ side, IdealIds hmacFunction (session.draws side)

omit [DecidableEq Id] in
theorem DHSession.Sound.endpoint_ideal (sound : session.Sound hmacFunction) (caches : Caches)
    (side : Side) : IdealIds hmacFunction (session.endpoint caches side).draws := sound.ideal side

omit [DecidableEq Id] in
theorem DHSession.Sound.endpoint_hash (sound : session.Sound hmacFunction) (caches : Caches)
    (side side' : Side) :
    (session.endpoint caches side).hash = (session.endpoint caches side').hash :=
  sound.sameHash side side'

/-- What a session is to find: a secret that both sides use as s1, the same auxiliary and PBX secrets,
and no mismatch. -/
structure Found (hmacFunction : IdFunction Id) (session : DHSession Id Shared) (caches : Caches) :
    Prop where
  secret : ∃ key, ∀ side, s1 (session.outcome hmacFunction caches side) = some key
  auxsecret : ∃ secret, ∀ side,
    (session.outcome hmacFunction caches side).cachedSecret.auxsecret = secret
  pbxsecret : ∃ secret, ∀ side,
    (session.outcome hmacFunction caches side).cachedSecret.pbxsecret = secret
  silent : ∀ side, (session.outcome hmacFunction caches side).cacheMismatchFlag = false

theorem DHSession.outcome_forall (p : SecretContext Id → Prop)
    (initiator : p (initiatorOutcome hmacFunction (session.endpoint caches session.initiator)
      (session.endpoint caches session.initiator.other)))
    (responder : p (responderOutcome hmacFunction (session.endpoint caches session.initiator)
      (session.endpoint caches session.initiator.other))) (side : Side) :
    p (session.outcome hmacFunction caches side) := by
  have hother : session.initiator.other ≠ session.initiator ∧
      session.initiator.other.other = session.initiator := by
    cases session.initiator <;> simp [Side.other]
  unfold outcome
  rcases side.eq_or_other session.initiator with rfl | rfl
  · rwa [if_pos rfl]
  · rwa [if_neg hother.1, hother.2]

theorem DHSession.Sound.found (sound : session.Sound hmacFunction)
    (ordered : ∀ side, (caches side).Ordered)
    (share : ∀ side, Share (caches side) (caches side.other)) :
    Found hmacFunction session caches := by
  have ideal := sound.endpoint_ideal caches
  have same := sound.endpoint_hash caches
  have ordered (side : Side) : (session.endpoint caches side).cached.Ordered := ordered side
  have shared : Share (session.endpoint caches session.initiator).cached
      (session.endpoint caches session.initiator.other).cached := share session.initiator
  have agree := secretsAgree_of_hash_eq (ideal session.initiator) (ideal session.initiator.other)
    (ordered _) (ordered _) (same _ _)
  have hfirst : ∃ key, s1 (initiatorOutcome hmacFunction (session.endpoint caches session.initiator)
      (session.endpoint caches session.initiator.other)) = some key := by
    obtain ⟨hs1, -⟩ := initiatorOutcome_spec (ideal session.initiator.other)
      (ordered session.initiator)
    rw [recognised, if_pos (same _ _)] at hs1
    rw [hs1, ← Option.ne_none_iff_exists']
    exact fun hnone => sharedSecret_eq_none_iff.mp hnone shared
  have aux := initiatorOutcome_others (ideal session.initiator.other)
    (same session.initiator session.initiator.other)
  have aux' := responderOutcome_others (ideal session.initiator)
    (same session.initiator session.initiator.other)
  constructor
  · obtain ⟨key, hkey⟩ := hfirst
    exact ⟨key, outcome_forall (fun context => s1 context = some key) hkey
      ((agree.same shared).symm.trans hkey)⟩
  · exact ⟨_, outcome_forall (fun context => context.cachedSecret.auxsecret = _)
      aux.1 aux'.1⟩
  · exact ⟨_, outcome_forall (fun context => context.cachedSecret.pbxsecret = _)
      aux.2 aux'.2⟩
  · apply outcome_forall fun context => context.cacheMismatchFlag = false
    · exact Bool.eq_false_iff.mpr fun hwarns => (agree.initiatorWarns.mp hwarns).2 shared
    · exact Bool.eq_false_iff.mpr fun hwarns => (agree.responderWarns.mp hwarns).2 shared

/-! ## Continuity -/

/-- Both caches have the same rs1. -/
def Synced (caches : Caches) (key : List UInt8) : Prop := ∀ side, (caches side).rs1 = some key

/-- One cache has been updated alone: what it has as rs2 is the rs1 of the other one. -/
structure Ahead (caches : Caches) (side : Side) (key : List UInt8) : Prop where
  rs1 : (caches side).rs1.isSome
  rs2 : (caches side).rs2 = some key
  other : (caches side.other).rs1 = some key

/-- The caches after a session with these updates, and before any. -/
def Continues (caches : Caches) : Updated → Prop
  | .both => ∃ key, Synced caches key
  | .only side => ∃ key, Ahead caches side key

variable {updated : Updated}

theorem Continues.share (continues : Continues caches updated) :
    (∀ side, (caches side).Ordered) ∧ ∀ side, Share (caches side) (caches side.other) := by
  cases updated with
  | both =>
    obtain ⟨key, synced⟩ := continues
    constructor
    · intro side _
      rw [synced side]
      rfl
    · exact fun side => ⟨key, .inl (synced side), .inl (synced side.other)⟩
  | only ahead =>
    obtain ⟨key, hrs1, hrs2, hother⟩ := continues
    constructor
    · intro side _
      rcases side.eq_or_other ahead with rfl | rfl
      · exact hrs1
      · rw [hother]
        rfl
    · have hshare : Share (caches ahead) (caches ahead.other) := ⟨key, .inr hrs2, .inl hother⟩
      intro side
      rcases side.eq_or_other ahead with rfl | rfl
      · exact hshare
      · have hback : ahead.other.other = ahead := by cases ahead <;> rfl
        rw [hback]
        exact share_comm.mp hshare

theorem DHSession.Sound.keeps (sound : session.Sound hmacFunction) {key : List UInt8}
    (synced : Synced caches key) (side : Side) :
    (session.outcome hmacFunction caches side).cachedSecret.rs1 = some key := by
  have ideal := sound.endpoint_ideal caches
  have same := sound.endpoint_hash caches
  have rs1 (side : Side) : (session.endpoint caches side).cached.rs1 = some key := synced side
  have ordered (side : Side) : (session.endpoint caches side).cached.Ordered := by
    intro _
    rw [rs1]
    rfl
  apply outcome_forall fun context => context.cachedSecret.rs1 = some key
  · obtain ⟨-, hkept, -⟩ := initiatorOutcome_spec (ideal session.initiator.other)
      (ordered session.initiator)
    have holds : (session.endpoint caches session.initiator.other).cached.Holds key := .inl (rs1 _)
    rw [recognised, if_pos (same _ _), rs1] at hkept
    simpa [Option.filter_some, holds] using hkept
  · obtain ⟨-, hkept, -⟩ := responderOutcome_spec (ideal session.initiator)
      (ordered session.initiator.other)
    rw [recognised, if_pos (same _ _), rs1, rs1] at hkept
    exact hkept rfl

theorem DHSession.run_updated {side : Side} (updated : session.updated.covers side = true)
    (silent : (session.outcome hmacFunction caches side).cacheMismatchFlag = false) :
    session.run hmacFunction derive caches side = { caches side with
      rs1 := some (newRetainedSecret derive (session.hash side) session.shared
        (session.outcome hmacFunction caches side))
      rs2 := (session.outcome hmacFunction caches side).cachedSecret.rs1 } := by
  simp [run, updated, bzrtpUpdateCachedSecrets, silent]

theorem Found.synced (found : Found hmacFunction session caches)
    (sound : session.Sound hmacFunction) (updated : session.updated = .both) :
    ∃ key, Synced (session.run hmacFunction derive caches) key := by
  obtain ⟨key, hkey⟩ := found.secret
  obtain ⟨auxsecret, haux⟩ := found.auxsecret
  obtain ⟨pbxsecret, hpbx⟩ := found.pbxsecret
  refine ⟨derive (session.hash .near) session.shared (some key) auxsecret pbxsecret, ?_⟩
  intro side
  rw [run_updated (by simp [updated, Updated.covers]) (found.silent side)]
  simp only [newRetainedSecret, hkey, haux, hpbx, sound.sameHash side .near]

theorem Synced.ahead {key : List UInt8} {side : Side} (synced : Synced caches key)
    (found : Found hmacFunction session caches) (sound : session.Sound hmacFunction)
    (updated : session.updated = .only side) :
    Ahead (session.run hmacFunction derive caches) side key := by
  have hrun : session.run hmacFunction derive caches side = _ :=
    run_updated (by simp [updated, Updated.covers]) (found.silent side)
  have hother : session.run hmacFunction derive caches side.other = caches side.other := by
    have hne : side ≠ side.other := by cases side <;> simp [Side.other]
    simp [run, updated, Updated.covers, hne]
  constructor
  · rw [hrun]
    rfl
  · rw [hrun]
    exact sound.keeps synced side
  · rw [hother]
    exact synced side.other

theorem Continues.run (derive : RetainedSecretFunction Shared)
    (continues : Continues caches updated) (sound : session.Sound hmacFunction)
    (losses : updated = .both ∨ session.updated = .both) :
    Continues (session.run hmacFunction derive caches) session.updated := by
  have found := sound.found continues.share.1 continues.share.2
  cases hupdated : session.updated with
  | both => exact found.synced sound hupdated
  | only side =>
    rw [hupdated] at losses
    obtain rfl := losses.resolve_right (by simp)
    obtain ⟨key, synced⟩ := continues
    exact ⟨key, synced.ahead found sound hupdated⟩

/-- No two one-sided sessions follow each other. -/
def NoTwoLosses (sessions : List (DHSession Id Shared)) : Prop :=
  sessions.IsChain fun session next => session.updated = .both ∨ next.updated = .both

theorem Continues.runSessions (derive : RetainedSecretFunction Shared)
    (sessions : List (DHSession Id Shared)) (continues : Continues caches updated)
    (sound : ∀ session ∈ sessions, session.Sound hmacFunction)
    (first : ∀ next ∈ sessions.head?, updated = .both ∨ next.updated = .both)
    (losses : NoTwoLosses sessions) :
    ∃ updated', Continues (runSessions hmacFunction derive sessions caches) updated' := by
  induction sessions generalizing caches updated with
  | nil => exact ⟨updated, continues⟩
  | cons session sessions ih =>
    have hnext := continues.run derive (sound session (by simp)) (first session rfl)
    have hlosses := List.isChain_cons.mp losses
    exact ih hnext (fun next hmem => sound next (List.mem_cons_of_mem _ hmem))
      (fun next hmem => hlosses.1 next hmem) hlosses.2

/-- Key continuity survives a lost update: with one list of hashes, caches that start with a common rs1
and no two one-sided sessions in a row, every session finds a common secret, no side raises a cache
mismatch, and after an update of both caches their rs1 are equal. -/
theorem keyContinuity (derive : RetainedSecretFunction Shared)
    (nearBuild farBuild : KeyAgreementAlgoList) (nearCalls farCalls : List (AlgoFamily × List UInt8))
    (sessions : List (DHSession Id Shared)) (caches : Caches) :
    let near := configuredContext nearBuild nearCalls
    let far := configuredContext farBuild farCalls
    near.supported .hash = far.supported .hash →
    (∀ session ∈ sessions, helloHash near far = some (session.hash .near) ∧
      helloHash far near = some (session.hash .far)) →
    (∀ session ∈ sessions, ∀ side, IdealIds hmacFunction (session.draws side)) →
    NoTwoLosses sessions →
    (caches .near).rs1.isSome → (caches .far).rs1 = (caches .near).rs1 →
      ∀ before session after, sessions = before ++ session :: after →
        let reached := runSessions hmacFunction derive before caches
        Share (reached .near) (reached .far) ∧ Found hmacFunction session reached ∧
          (session.updated = .both →
            (session.run hmacFunction derive reached .near).rs1 =
              (session.run hmacFunction derive reached .far).rs1) := by
  intro near far hash hashes ideal losses start equal before session after hsessions reached
  have sound (session : DHSession Id Shared) (hmem : session ∈ sessions) :
      session.Sound hmacFunction := by
    have heq : session.hash .near = session.hash .far := by
      apply (helloHash_eq_iff (hashes session hmem).1 (hashes session hmem).2).mpr
      rw [preferredHash, preferredHash, hash]
    refine ⟨fun side side' => ?_, ideal session hmem⟩
    cases side <;> cases side' <;> simp [heq]
  obtain ⟨key, hkey⟩ := Option.isSome_iff_exists.mp start
  have synced : Synced caches key := by
    intro side
    cases side
    · exact hkey
    · exact equal.trans hkey
  have hlosses : NoTwoLosses before := by
    rw [hsessions] at losses
    exact losses.left_of_append
  have continues : Continues caches .both := ⟨key, synced⟩
  obtain ⟨updated, continues⟩ := continues.runSessions derive before
    (fun session hmem => sound session (by simp [hsessions, hmem])) (fun _ _ => .inl rfl) hlosses
  have found : Found hmacFunction session reached :=
    (sound session (by simp [hsessions])).found continues.share.1 continues.share.2
  refine ⟨continues.share.2 .near, found, fun hupdated => ?_⟩
  obtain ⟨key', synced'⟩ := found.synced (sound session (by simp [hsessions])) hupdated
  exact (synced' .near).trans (synced' .far).symm

/-- A session between two endpoints that nobody configured. -/
def plainSession (initiator : Side) (updated : Updated) : DHSession TaggedId Unit where
  initiator := initiator
  hash := fun _ => .sha256
  draws := fun _ _ _ => none
  H3 := fun _ => []
  transientAuxSecret := fun _ => none
  shared := ()
  updated := updated

/-- A derivation that takes what it is given apart. -/
def plainDerive : RetainedSecretFunction Unit := fun _ _ s1 s2 s3 =>
  0 :: (s1.getD [] ++ s2.getD [] ++ s3.getD [])

/-- A session that updates the cache of the initiator only, and one the other way round that updates
both. -/
theorem keyContinuity_lost :
    let caches : Caches := fun _ => ⟨some [1], none, none, none, false⟩
    let reached := runSessions taggedHmac plainDerive [plainSession .near (.only .near)] caches
    Share (reached .near) (reached .far) ∧ Found taggedHmac (plainSession .far .both) reached ∧
      ((plainSession .far .both).updated = .both →
        ((plainSession .far .both).run taggedHmac plainDerive reached .near).rs1 =
          ((plainSession .far .both).run taggedHmac plainDerive reached .far).rs1) :=
  keyContinuity plainDerive ⟨true, true⟩ ⟨true, true⟩ [] []
    [plainSession .near (.only .near), plainSession .far .both]
    (fun _ => ⟨some [1], none, none, none, false⟩) rfl (by
      intro session hmem
      have hplain : session.hash = fun _ => .sha256 := by
        rcases List.mem_pair.mp hmem with rfl | rfl <;> rfl
      rw [hplain]
      decide +kernel) (by
      intro session hmem side
      rcases List.mem_pair.mp hmem with rfl | rfl <;> exact taggedHmac_ideal)
    (by simp [NoTwoLosses, plainSession]) rfl rfl _ _ [] rfl

end GrooveIp.Zrtp
