import GrooveIp.Zrtp.RetainedSecrets

/-!
# What two endpoints have in common

The comparisons of ids find the secrets that two caches share: both sides take the first one of the
initiator that the responder has, as long as they computed the ids with the same hash.
-/

namespace GrooveIp.Zrtp

open SecretContext Option CachedSecret

variable {Id : Type}

/-! ## Shared secrets -/

/-- A secret is one of the two retained ones. -/
def CachedSecret.Holds (secrets : CachedSecret) (key : List UInt8) : Prop :=
  secrets.rs1 = some key ∨ secrets.rs2 = some key

instance (secrets : CachedSecret) (key : List UInt8) : Decidable (secrets.Holds key) :=
  inferInstanceAs (Decidable (_ ∨ _))

/-- The first retained secret of the initiator that the responder has. -/
def sharedSecret (initiator responder : CachedSecret) : Option (List UInt8) :=
  (initiator.rs1.filter responder.Holds).or (initiator.rs2.filter responder.Holds)

/-- Two caches have a retained secret in common. -/
def Share (self peer : CachedSecret) : Prop := ∃ key, self.Holds key ∧ peer.Holds key

variable {self peer : CachedSecret}

/-- Sharing does not depend on the side. -/
theorem share_comm : Share self peer ↔ Share peer self := by
  simp only [Share, and_comm]

/-- There is a shared secret when the caches share one. -/
theorem sharedSecret_eq_none_iff {initiator responder : CachedSecret} :
    sharedSecret initiator responder = none ↔ ¬ Share initiator responder := by
  simp only [sharedSecret, or_eq_none_iff, filter_eq_none_iff, decide_eq_true_eq, Share,
    not_exists, not_and]
  constructor
  · rintro ⟨hrs1, hrs2⟩ key (hkey | hkey)
    · exact hrs1 key hkey
    · exact hrs2 key hkey
  · intro h
    exact ⟨fun key hkey => h key (.inl hkey), fun key hkey => h key (.inr hkey)⟩

/-! ## Ids -/

/-- The HMAC is injective, and what is drawn is not one of its values. -/
structure IdealIds (hmacFunction : IdFunction Id) (draws : IdDraws Id) : Prop where
  injective : ∀ hash key label hash' key' label',
    hmacFunction hash key label = hmacFunction hash' key' label' →
      hash = hash' ∧ key = key' ∧ label = label'
  fresh : ∀ name role hash key label, draws name role ≠ hmacFunction hash key label

/-- The id of a secret is the one of the peer when both used the same hash on the same secret. -/
theorem secretID_eq_iff {hmacFunction : IdFunction Id} {draws : IdDraws Id}
    (ideal : IdealIds hmacFunction draws) (hash hash' : HashFunction) (draw : Id) (name : SecretName)
    (role : Role) (key : List UInt8) (secret : Option (List UInt8)) (label : SecretLabel) :
    secretID hmacFunction hash draw (some key) label =
        secretID hmacFunction hash' (draws name role) secret label ↔
      hash = hash' ∧ secret = some key := by
  cases secret with
  | none =>
    simp only [secretID, reduceCtorEq, and_false, iff_false]
    exact fun heq => ideal.fresh name role hash key label heq.symm
  | some other =>
    simp only [secretID, Option.some.injEq]
    constructor
    · intro heq
      obtain ⟨hhash, hkey, -⟩ := ideal.injective _ _ _ _ _ _ heq
      exact ⟨hhash, hkey.symm⟩
    · rintro ⟨rfl, rfl⟩
      rfl

/-- The ids of a message tell which of the own secrets are held. -/
structure IdsTell (own : CachedSecret) (hash : CachedSecretHash Id) (message : DHPartIDs Id)
    (held : CachedSecret) : Prop where
  rs1_rs1 : ∀ key, own.rs1 = some key → (hash.rs1ID = message.rs1ID ↔ held.rs1 = some key)
  rs1_rs2 : ∀ key, own.rs1 = some key → (hash.rs1ID = message.rs2ID ↔ held.rs2 = some key)
  rs2_rs1 : ∀ key, own.rs2 = some key → (hash.rs2ID = message.rs1ID ↔ held.rs1 = some key)
  rs2_rs2 : ∀ key, own.rs2 = some key → (hash.rs2ID = message.rs2ID ↔ held.rs2 = some key)

/-- The secrets of the peer, as far as their ids can be recognised. -/
def recognised (hash hash' : HashFunction) (peer : CachedSecret) : CachedSecret :=
  if hash = hash' then peer else ⟨none, none, none, none, false⟩

theorem idsTell {hmacFunction : IdFunction Id} {draws' : IdDraws Id}
    (ideal : IdealIds hmacFunction draws') (draws : IdDraws Id) (hash hash' : HashFunction)
    (own peer : CachedSecret) (role : Role) (message : DHPartIDs Id)
    (rs1 : message.rs1ID = (cachedSecretHash hmacFunction hash' draws' peer role).rs1ID)
    (rs2 : message.rs2ID = (cachedSecretHash hmacFunction hash' draws' peer role).rs2ID) :
    IdsTell own (cachedSecretHash hmacFunction hash draws own role) message
      (recognised hash hash' peer) := by
  have known (secret : CachedSecret → Option (List UInt8)) (key : List UInt8)
      (hnone : secret ⟨none, none, none, none, false⟩ = none) :
      (hash = hash' ∧ secret peer = some key) ↔ secret (recognised hash hash' peer) = some key := by
    unfold recognised
    split
    · next heq => simp [heq]
    · next hne => simp [hne, hnone]
  constructor <;> intro key hkey <;> simp only [rs1, rs2, cachedSecretHash, hkey]
  · exact (secretID_eq_iff ideal ..).trans (known CachedSecret.rs1 key rfl)
  · exact (secretID_eq_iff ideal ..).trans (known CachedSecret.rs2 key rfl)
  · exact (secretID_eq_iff ideal ..).trans (known CachedSecret.rs1 key rfl)
  · exact (secretID_eq_iff ideal ..).trans (known CachedSecret.rs2 key rfl)

/-! ## Comparisons -/

section Comparisons

variable [DecidableEq Id] {context : SecretContext Id} {message : DHPartIDs Id} {held : CachedSecret}

theorem matchDHPart1Rs_spec
    (tell : IdsTell context.cachedSecret context.responderCachedSecretHash message held)
    (hflag : context.cacheMismatchFlag = false)
    (hrs2 : context.cachedSecret.rs2.isSome → context.cachedSecret.rs1.isSome) :
    s1 (matchDHPart1Rs context message) = sharedSecret context.cachedSecret held ∧
      (matchDHPart1Rs context message).cachedSecret.rs1 =
        context.cachedSecret.rs1.filter held.Holds ∧
      ((matchDHPart1Rs context message).cacheMismatchFlag = true ↔
        context.cachedSecret.rs1.isSome ∧ sharedSecret context.cachedSecret held = none) := by
  have rs1_held (key : List UInt8) (hkey : context.cachedSecret.rs1 = some key) :
      held.Holds key ↔ ¬ (context.responderCachedSecretHash.rs1ID ≠ message.rs1ID ∧
        context.responderCachedSecretHash.rs1ID ≠ message.rs2ID) := by
    rw [Holds, ← tell.rs1_rs1 key hkey, ← tell.rs1_rs2 key hkey]
    tauto
  have rs2_held (key : List UInt8) (hkey : context.cachedSecret.rs2 = some key) :
      held.Holds key ↔ ¬ (context.responderCachedSecretHash.rs2ID ≠ message.rs1ID ∧
        context.responderCachedSecretHash.rs2ID ≠ message.rs2ID) := by
    rw [Holds, ← tell.rs2_rs1 key hkey, ← tell.rs2_rs2 key hkey]
    tauto
  have nested {α : Type} (p q : Prop) [Decidable p] [Decidable q] (x y : α) :
      (if p then if q then x else y else y) = if p ∧ q then x else y := by
    by_cases p <;> by_cases q <;> simp [*]
  unfold matchDHPart1Rs
  simp only [nested]
  cases hrs1 : context.cachedSecret.rs1 with
  | none =>
    have hrs2' : context.cachedSecret.rs2 = none := by
      cases hsecond : context.cachedSecret.rs2 with
      | none => rfl
      | some key => simp [hrs1, hsecond] at hrs2
    simp [hrs1, hrs2', hflag, s1, sharedSecret]
  | some key =>
    by_cases hheld : held.Holds key
    · have hkeep := (rs1_held key hrs1).mp hheld
      simp [hkeep, hrs1, hflag, s1, sharedSecret, filter_some, hheld]
    · have herase := Decidable.of_not_not (mt (rs1_held key hrs1).mpr hheld)
      cases hrs2' : context.cachedSecret.rs2 with
      | none =>
        simp [herase, hrs1, hrs2', eraseRs1, s1, sharedSecret, filter_some, hheld]
      | some key' =>
        by_cases hheld' : held.Holds key'
        · have hkeep' := (rs2_held key' hrs2').mp hheld'
          simp [herase, hkeep', hrs1, hrs2', eraseRs1, s1, sharedSecret,
            filter_some, hheld, hheld']
        · have herase' := Decidable.of_not_not (mt (rs2_held key' hrs2').mpr hheld')
          simp [herase, herase', hrs1, hrs2', eraseRs1, eraseRs2, s1,
            sharedSecret, filter_some, hheld, hheld']

omit [DecidableEq Id] in
theorem filter_holds_eq_none {own : CachedSecret} {secret : Option (List UInt8)}
    (hrs1 : ∀ key, own.rs1 = some key → secret ≠ some key)
    (hrs2 : ∀ key, own.rs2 = some key → secret ≠ some key) : secret.filter own.Holds = none := by
  simp only [filter_eq_none_iff, decide_eq_true_eq]
  rintro key hkey (hholds | hholds)
  · exact hrs1 key hholds hkey
  · exact hrs2 key hholds hkey

/-- The responder takes the first secret of the initiator that it has, and keeps an rs1 that both
have. -/
theorem matchDHPart2Rs_spec
    (tell : IdsTell context.cachedSecret context.initiatorCachedSecretHash message held)
    (hflag : context.cacheMismatchFlag = false)
    (hrs2 : context.cachedSecret.rs2.isSome → context.cachedSecret.rs1.isSome) :
    s1 (matchDHPart2Rs context message) = sharedSecret held context.cachedSecret ∧
      (held.rs1 = context.cachedSecret.rs1 →
        (matchDHPart2Rs context message).cachedSecret.rs1 = context.cachedSecret.rs1) ∧
      ((matchDHPart2Rs context message).cacheMismatchFlag = true ↔
        context.cachedSecret.rs1.isSome ∧ sharedSecret held context.cachedSecret = none) := by
  unfold matchDHPart2Rs matchInitiatorRs1
  cases hrs1 : context.cachedSecret.rs1 with
  | none =>
    have hrs2' : context.cachedSecret.rs2 = none := by
      cases hsecond : context.cachedSecret.rs2 with
      | none => rfl
      | some key => simp [hrs1, hsecond] at hrs2
    have hnone (secret : Option (List UInt8)) : secret.filter context.cachedSecret.Holds = none :=
      filter_holds_eq_none (by simp [hrs1]) (by simp [hrs2'])
    simp [matchInitiatorRs2, hrs1, hrs2', hflag, s1, sharedSecret, hnone]
  | some key =>
    have holds : context.cachedSecret.Holds key := .inl hrs1
    by_cases h11 : context.initiatorCachedSecretHash.rs1ID = message.rs1ID
    · have hheld := (tell.rs1_rs1 key hrs1).mp h11
      simp [matchInitiatorRs2, h11, hrs1, hflag, s1, sharedSecret, hheld, filter_some, holds]
    · have hheld := mt (tell.rs1_rs1 key hrs1).mpr h11
      by_cases h21 : context.cachedSecret.rs2.isSome = true ∧
          context.initiatorCachedSecretHash.rs2ID = message.rs1ID
      · -- the second secret is the first one of the initiator
        obtain ⟨key', hsecond⟩ := isSome_iff_exists.mp h21.1
        have hheld' := (tell.rs2_rs1 key' hsecond).mp h21.2
        have holds' : context.cachedSecret.Holds key' := .inr hsecond
        have hne : key' ≠ key := fun heq => hheld (heq ▸ hheld')
        simp [matchInitiatorRs2, h11, h21.2, hsecond, hflag, eraseRs1, s1,
          sharedSecret, hheld', filter_some, holds', hne]
      · have hfirst : held.rs1.filter context.cachedSecret.Holds = none := by
          apply filter_holds_eq_none
          · intro other hother
            rw [hrs1] at hother
            cases hother
            exact hheld
          · intro other hother heq
            exact h21 ⟨by simp [hother], (tell.rs2_rs1 other hother).mpr heq⟩
        have hrest : (if context.cachedSecret.rs2.isSome = true then
            if context.initiatorCachedSecretHash.rs2ID = message.rs1ID then (context.eraseRs1, true)
            else (context, false)
          else (context, false)) = (context, false) := by
          by_cases hsome : context.cachedSecret.rs2.isSome = true
          · have hid : ¬ context.initiatorCachedSecretHash.rs2ID = message.rs1ID :=
              fun hid => h21 ⟨hsome, hid⟩
            simp [hid]
          · simp [hsome]
        simp only [isSome_some, ne_eq, h11, not_false_eq_true, if_true, hrest]
        by_cases h12 : context.initiatorCachedSecretHash.rs1ID = message.rs2ID
        · have hheld' := (tell.rs1_rs2 key hrs1).mp h12
          simp [matchInitiatorRs2, h12, hrs1, hflag, s1, sharedSecret, hfirst, hheld',
            filter_some, holds]
        · have hheld₂ := mt (tell.rs1_rs2 key hrs1).mpr h12
          cases hsecond : context.cachedSecret.rs2 with
          | none =>
            have hnone : held.rs2.filter context.cachedSecret.Holds = none := by
              apply filter_holds_eq_none
              · intro other hother
                rw [hrs1] at hother
                cases hother
                exact hheld₂
              · simp [hsecond]
            simp [matchInitiatorRs2, h12, hrs1, hsecond, eraseRs1, s1, sharedSecret,
              hfirst, hnone, hheld]
          | some key' =>
            have holds' : context.cachedSecret.Holds key' := .inr hsecond
            by_cases h22 : context.initiatorCachedSecretHash.rs2ID = message.rs2ID
            · have hheld' := (tell.rs2_rs2 key' hsecond).mp h22
              simp [matchInitiatorRs2, h12, h22, hrs1, hsecond, hflag, eraseRs1, s1,
                sharedSecret, hfirst, hheld', filter_some, holds', hheld]
            · have hnone : held.rs2.filter context.cachedSecret.Holds = none := by
                apply filter_holds_eq_none
                · intro other hother
                  rw [hrs1] at hother
                  cases hother
                  exact hheld₂
                · intro other hother heq
                  rw [hsecond] at hother
                  cases hother
                  exact h22 ((tell.rs2_rs2 _ hsecond).mpr heq)
              simp [matchInitiatorRs2, h12, h22, hrs1, hsecond, eraseRs1,
                eraseRs2, s1, sharedSecret, hfirst, hnone, hheld]

/-! ## The other secrets -/

theorem matchOthers_eq (context : SecretContext Id) (message : DHPartIDs Id)
    (auxsecretID pbxsecretID : Id) :
    let context' :=
      resetVerifiedSas (matchPbxsecret (matchAuxsecret context auxsecretID message) pbxsecretID message)
    context'.cachedSecret.rs1 = context.cachedSecret.rs1 ∧
      context'.cachedSecret.rs2 = context.cachedSecret.rs2 ∧
      context'.cacheMismatchFlag = context.cacheMismatchFlag := by
  simp only [matchAuxsecret, matchPbxsecret, resetVerifiedSas]
  split_ifs <;> simp

theorem matchDHPart1_eq (context : SecretContext Id) (message : DHPartIDs Id) :
    s1 (matchDHPart1 context message) = s1 (matchDHPart1Rs context message) ∧
      (matchDHPart1 context message).cachedSecret.rs1 =
        (matchDHPart1Rs context message).cachedSecret.rs1 ∧
      (matchDHPart1 context message).cacheMismatchFlag =
        (matchDHPart1Rs context message).cacheMismatchFlag := by
  obtain ⟨hrs1, hrs2, hflag⟩ := matchOthers_eq (matchDHPart1Rs context message) message
    (matchDHPart1Rs context message).responderAuxsecretID
    (matchAuxsecret (matchDHPart1Rs context message)
      (matchDHPart1Rs context message).responderAuxsecretID message).responderCachedSecretHash.pbxsecretID
  refine ⟨?_, hrs1, hflag⟩
  simp only [matchDHPart1, hrs1, hrs2, s1]

theorem matchDHPart2_eq (context : SecretContext Id) (message : DHPartIDs Id) :
    s1 (matchDHPart2 context message) = s1 (matchDHPart2Rs context message) ∧
      (matchDHPart2 context message).cachedSecret.rs1 =
        (matchDHPart2Rs context message).cachedSecret.rs1 ∧
      (matchDHPart2 context message).cacheMismatchFlag =
        (matchDHPart2Rs context message).cacheMismatchFlag := by
  obtain ⟨hrs1, hrs2, hflag⟩ := matchOthers_eq (matchDHPart2Rs context message) message
    (matchDHPart2Rs context message).initiatorAuxsecretID
    (matchAuxsecret (matchDHPart2Rs context message)
      (matchDHPart2Rs context message).initiatorAuxsecretID message).initiatorCachedSecretHash.pbxsecretID
  refine ⟨?_, hrs1, hflag⟩
  simp only [matchDHPart2, hrs1, hrs2, s1]

end Comparisons

/-! ## Two endpoints -/

/-- An endpoint that has taken its peer's Hello: the hash of its channel, its random ids, its last hash
image, what it has cached for the peer and the auxiliary secret it was given. -/
structure SecretEndpoint (Id : Type) where
  hash : HashFunction
  draws : IdDraws Id
  H3 : List UInt8
  cached : CachedSecret
  transientAuxSecret : Option (List UInt8) := none

/-- What `bzrtp_responseToHelloMessage` leaves an endpoint with. -/
def SecretEndpoint.hello (hmacFunction : IdFunction Id) (self peer : SecretEndpoint Id) :
    SecretContext Id :=
  helloSecrets hmacFunction self.hash self.draws self.H3 peer.H3 self.cached self.transientAuxSecret

/-- A second retained secret comes with a first one. -/
def CachedSecret.Ordered (secrets : CachedSecret) : Prop := secrets.rs2.isSome → secrets.rs1.isSome

instance (secrets : CachedSecret) : Decidable secrets.Ordered :=
  inferInstanceAs (Decidable (_ → _))

variable [DecidableEq Id] {hmacFunction : IdFunction Id} {initiator responder : SecretEndpoint Id}

/-- The initiator after the DHPart1 of its peer. -/
def initiatorOutcome (hmacFunction : IdFunction Id) (initiator responder : SecretEndpoint Id) :
    SecretContext Id :=
  matchDHPart1 (initiator.hello hmacFunction responder)
    (dhPart1IDs (swapAuxsecretIDs (responder.hello hmacFunction initiator)))

/-- The responder after the DHPart2 of its peer. -/
def responderOutcome (hmacFunction : IdFunction Id) (initiator responder : SecretEndpoint Id) :
    SecretContext Id :=
  matchDHPart2 (swapAuxsecretIDs (responder.hello hmacFunction initiator))
    (dhPart2IDs (initiator.hello hmacFunction responder))

omit [DecidableEq Id] in
theorem hello_cachedSecret (hmacFunction : IdFunction Id) (self peer : SecretEndpoint Id) :
    (self.hello hmacFunction peer).cachedSecret.rs1 = self.cached.rs1 ∧
      (self.hello hmacFunction peer).cachedSecret.rs2 = self.cached.rs2 := by
  unfold SecretEndpoint.hello helloSecrets
  cases self.transientAuxSecret <;> exact ⟨rfl, rfl⟩

theorem sharedSecret_congr {self' peer' : CachedSecret} (hrs1 : self.rs1 = self'.rs1)
    (hrs2 : self.rs2 = self'.rs2) (hrs1' : peer.rs1 = peer'.rs1) (hrs2' : peer.rs2 = peer'.rs2) :
    sharedSecret self peer = sharedSecret self' peer' := by
  have holds (key : List UInt8) : peer.Holds key ↔ peer'.Holds key := by
    rw [Holds, Holds, hrs1', hrs2']
  simp only [sharedSecret, hrs1, hrs2, holds]

theorem recognised_congr (hash hash' : HashFunction) {peer' : CachedSecret}
    (hrs1 : peer.rs1 = peer'.rs1) (hrs2 : peer.rs2 = peer'.rs2) :
    (recognised hash hash' peer).rs1 = (recognised hash hash' peer').rs1 ∧
      (recognised hash hash' peer).rs2 = (recognised hash hash' peer').rs2 := by
  unfold recognised
  split
  · exact ⟨hrs1, hrs2⟩
  · exact ⟨rfl, rfl⟩

/-- The initiator takes the first of its secrets that it recognises. -/
theorem initiatorOutcome_spec (ideal : IdealIds hmacFunction responder.draws)
    (ordered : initiator.cached.Ordered) :
    let held := recognised initiator.hash responder.hash responder.cached
    s1 (initiatorOutcome hmacFunction initiator responder) = sharedSecret initiator.cached held ∧
      (initiatorOutcome hmacFunction initiator responder).cachedSecret.rs1 =
        initiator.cached.rs1.filter held.Holds ∧
      ((initiatorOutcome hmacFunction initiator responder).cacheMismatchFlag = true ↔
        initiator.cached.rs1.isSome ∧ sharedSecret initiator.cached held = none) := by
  intro held
  obtain ⟨hrs1, hrs2⟩ := hello_cachedSecret hmacFunction initiator responder
  obtain ⟨hrs1', hrs2'⟩ := hello_cachedSecret hmacFunction responder initiator
  obtain ⟨hheld1, hheld2⟩ :=
    recognised_congr initiator.hash responder.hash hrs1' hrs2'
  have tell := idsTell ideal initiator.draws initiator.hash responder.hash
    (initiator.hello hmacFunction responder).cachedSecret
    (responder.hello hmacFunction initiator).cachedSecret .responder
    (dhPart1IDs (swapAuxsecretIDs (responder.hello hmacFunction initiator))) rfl rfl
  have ordered' : (initiator.hello hmacFunction responder).cachedSecret.rs2.isSome →
      (initiator.hello hmacFunction responder).cachedSecret.rs1.isSome := by
    rw [hrs1, hrs2]
    exact ordered
  obtain ⟨hs1, hkept, hflag⟩ := matchDHPart1Rs_spec tell rfl ordered'
  rw [sharedSecret_congr hrs1 hrs2 hheld1 hheld2] at hs1 hflag
  rw [hrs1] at hkept hflag
  simp only [Holds, hheld1, hheld2] at hkept
  obtain ⟨hs1', hrs1'', hflag'⟩ := matchDHPart1_eq (initiator.hello hmacFunction responder)
    (dhPart1IDs (swapAuxsecretIDs (responder.hello hmacFunction initiator)))
  refine ⟨hs1'.trans hs1, hrs1''.trans hkept, ?_⟩
  rw [initiatorOutcome, hflag']
  exact hflag

/-- The responder takes the first of the secrets of the initiator that it recognises as its own. -/
theorem responderOutcome_spec (ideal : IdealIds hmacFunction initiator.draws)
    (ordered : responder.cached.Ordered) :
    let held := recognised responder.hash initiator.hash initiator.cached
    s1 (responderOutcome hmacFunction initiator responder) = sharedSecret held responder.cached ∧
      (held.rs1 = responder.cached.rs1 →
        (responderOutcome hmacFunction initiator responder).cachedSecret.rs1 =
          responder.cached.rs1) ∧
      ((responderOutcome hmacFunction initiator responder).cacheMismatchFlag = true ↔
        responder.cached.rs1.isSome ∧ sharedSecret held responder.cached = none) := by
  intro held
  obtain ⟨hrs1, hrs2⟩ := hello_cachedSecret hmacFunction responder initiator
  obtain ⟨hrs1', hrs2'⟩ := hello_cachedSecret hmacFunction initiator responder
  obtain ⟨hheld1, hheld2⟩ :=
    recognised_congr responder.hash initiator.hash hrs1' hrs2'
  have tell := idsTell ideal responder.draws responder.hash initiator.hash
    (responder.hello hmacFunction initiator).cachedSecret
    (initiator.hello hmacFunction responder).cachedSecret .initiator
    (dhPart2IDs (initiator.hello hmacFunction responder)) rfl rfl
  have ordered' : (responder.hello hmacFunction initiator).cachedSecret.rs2.isSome →
      (responder.hello hmacFunction initiator).cachedSecret.rs1.isSome := by
    rw [hrs1, hrs2]
    exact ordered
  have swapped : IdsTell (swapAuxsecretIDs (responder.hello hmacFunction initiator)).cachedSecret
      (swapAuxsecretIDs (responder.hello hmacFunction initiator)).initiatorCachedSecretHash
      (dhPart2IDs (initiator.hello hmacFunction responder))
      (recognised responder.hash initiator.hash
        (initiator.hello hmacFunction responder).cachedSecret) := tell
  obtain ⟨hs1, hkept, hflag⟩ := matchDHPart2Rs_spec swapped rfl ordered'
  simp only [swapAuxsecretIDs] at hs1 hkept hflag
  rw [sharedSecret_congr hheld1 hheld2 hrs1 hrs2] at hs1 hflag
  rw [hrs1, hheld1] at hkept
  rw [hrs1] at hflag
  obtain ⟨hs1', hrs1'', hflag'⟩ := matchDHPart2_eq
    (swapAuxsecretIDs (responder.hello hmacFunction initiator))
    (dhPart2IDs (initiator.hello hmacFunction responder))
  refine ⟨hs1'.trans hs1, fun heq => hrs1''.trans (hkept heq), ?_⟩
  rw [responderOutcome, hflag']
  exact hflag

/-! ## Agreement -/

/-- The hash of an endpoint is the one of `bzrtp_cryptoAlgoAgreement` on the Hello of its peer. -/
def helloHash (self peer : BzrtpContext) : Option HashFunction :=
  (bzrtpCryptoAlgoAgreement self initialChannelCrypto (receivedHelloTypes peer)).1.hmacFunction

/-- Two configured endpoints compute their ids with one hash when they prefer the same one. -/
theorem helloHash_eq_iff {selfBuild peerBuild : KeyAgreementAlgoList}
    {selfCalls peerCalls : List (AlgoFamily × List UInt8)} {hash hash' : HashFunction} :
    let self := configuredContext selfBuild selfCalls
    let peer := configuredContext peerBuild peerCalls
    helloHash self peer = some hash → helloHash peer self = some hash' →
      (hash = hash' ↔ preferredHash self.supported peer.supported =
        preferredHash peer.supported self.supported) := by
  intro self peer h h'
  have hs : ∀ family, WellConfigured selfBuild family (self.supported family) :=
    configuredContext_wellConfigured selfBuild selfCalls
  have hp : ∀ family, WellConfigured peerBuild family (peer.supported family) :=
    configuredContext_wellConfigured peerBuild peerCalls
  rw [helloHash, receivedHelloTypes_eq hp] at h
  rw [helloHash, receivedHelloTypes_eq hs] at h'
  obtain ⟨algo, havailable, hprefers, hhmac⟩ :=
    bzrtpCryptoAlgoAgreement_hmacFunction initialChannelCrypto hs hp
  obtain ⟨algo', havailable', hprefers', hhmac'⟩ :=
    bzrtpCryptoAlgoAgreement_hmacFunction initialChannelCrypto hp hs
  rw [hprefers, hprefers', Option.some.injEq]
  rw [hhmac] at h
  rw [hhmac'] at h'
  have known (v : UInt8) (hv : v = zrtpHashS256 ∨ v = zrtpHashS384) (own : HashFunction)
      (hown : hmacFunctionOf v = some own) :
      own = if v = zrtpHashS256 then .sha256 else .sha384 := by
    rcases hv with rfl | rfl <;> exact (Option.some.inj hown).symm
  have both : ∀ v ∈ bzrtpUtilsGetAvailableCryptoTypes selfBuild .hash,
      v = zrtpHashS256 ∨ v = zrtpHashS384 := by
    simp [bzrtpUtilsGetAvailableCryptoTypes]
  have hv := both algo havailable
  have hv' := both algo' havailable'
  rw [known algo hv hash h, known algo' hv' hash' h']
  rcases hv with rfl | rfl <;> rcases hv' with rfl | rfl <;> decide

/-- What the comparisons are to find out: both sides take the same secret when they share one, and
each of them warns when it has a secret and they share none. -/
structure SecretsAgree (hmacFunction : IdFunction Id) (initiator responder : SecretEndpoint Id) :
    Prop where
  same : Share initiator.cached responder.cached →
    s1 (initiatorOutcome hmacFunction initiator responder) =
      s1 (responderOutcome hmacFunction initiator responder)
  initiatorWarns : (initiatorOutcome hmacFunction initiator responder).cacheMismatchFlag = true ↔
    initiator.cached.rs1.isSome ∧ ¬ Share initiator.cached responder.cached
  responderWarns : (responderOutcome hmacFunction initiator responder).cacheMismatchFlag = true ↔
    responder.cached.rs1.isSome ∧ ¬ Share initiator.cached responder.cached

/-- Two endpoints that used the same hash agree. -/
theorem secretsAgree_of_hash_eq (idealInitiator : IdealIds hmacFunction initiator.draws)
    (idealResponder : IdealIds hmacFunction responder.draws)
    (orderedInitiator : initiator.cached.Ordered) (orderedResponder : responder.cached.Ordered)
    (same : initiator.hash = responder.hash) : SecretsAgree hmacFunction initiator responder := by
  obtain ⟨hs1, -, hflag⟩ := initiatorOutcome_spec idealResponder orderedInitiator
  obtain ⟨hs1', -, hflag'⟩ := responderOutcome_spec idealInitiator orderedResponder
  simp only [recognised, same, if_true] at hs1 hs1' hflag hflag'
  rw [sharedSecret_eq_none_iff] at hflag hflag'
  exact ⟨fun _ => hs1.trans hs1'.symm, hflag, hflag'⟩

omit [DecidableEq Id] in
theorem Share.rs1_isSome (share : Share self peer) (ordered : self.Ordered) :
    self.rs1.isSome := by
  obtain ⟨key, hrs1 | hrs2, -⟩ := share
  · simp [hrs1]
  · exact ordered (by simp [hrs2])

omit [DecidableEq Id] in
theorem Share.of_recognised {own : CachedSecret} {hash hash' : HashFunction}
    (share : Share own (recognised hash hash' peer)) : Share own peer := by
  unfold recognised at share
  split at share
  · exact share
  · obtain ⟨key, -, hkey | hkey⟩ := share <;> cases hkey

omit [DecidableEq Id] in
theorem sharedSecret_empty (own : CachedSecret) :
    sharedSecret own ⟨none, none, none, none, false⟩ = none := by
  rw [sharedSecret_eq_none_iff]
  rintro ⟨key, -, hkey | hkey⟩ <;> cases hkey

/-- For every content of the two caches and all configurations, the matching agrees exactly when both
sides prefer the same hash or the caches share nothing. -/
theorem retainedSecrets_agree_iff (initiatorBuild responderBuild : KeyAgreementAlgoList)
    (initiatorCalls responderCalls : List (AlgoFamily × List UInt8)) :
    let initiatorContext := configuredContext initiatorBuild initiatorCalls
    let responderContext := configuredContext responderBuild responderCalls
    helloHash initiatorContext responderContext = some initiator.hash →
    helloHash responderContext initiatorContext = some responder.hash →
    IdealIds hmacFunction initiator.draws → IdealIds hmacFunction responder.draws →
    initiator.cached.Ordered → responder.cached.Ordered →
      (SecretsAgree hmacFunction initiator responder ↔
        preferredHash initiatorContext.supported responderContext.supported =
            preferredHash responderContext.supported initiatorContext.supported ∨
          ¬ Share initiator.cached responder.cached) := by
  intro initiatorContext responderContext hash hash' ideal ideal' ordered ordered'
  rw [← helloHash_eq_iff hash hash']
  obtain ⟨hs1, -, hflag⟩ := initiatorOutcome_spec ideal' ordered
  obtain ⟨hs1', -, hflag'⟩ := responderOutcome_spec ideal ordered'
  constructor
  · intro hagree
    by_contra hcon
    obtain ⟨hne, hshare⟩ := not_or.mp hcon
    have hshare := not_not.mp hshare
    -- the initiator does not recognise the secret that both have
    simp only [recognised, hne, if_false, sharedSecret_empty, and_true] at hflag
    have hwarns := hflag.mpr (hshare.rs1_isSome ordered)
    exact (hagree.initiatorWarns.mp hwarns).2 hshare
  · rintro (heq | hshare)
    · exact secretsAgree_of_hash_eq ideal ideal' ordered ordered' heq
    · have hnone : sharedSecret initiator.cached
          (recognised initiator.hash responder.hash responder.cached) = none :=
        sharedSecret_eq_none_iff.mpr (mt Share.of_recognised hshare)
      have hnone' : sharedSecret (recognised responder.hash initiator.hash initiator.cached)
          responder.cached = none :=
        sharedSecret_eq_none_iff.mpr fun share =>
          hshare (share_comm.mp (share_comm.mp share).of_recognised)
      constructor
      · exact fun share => absurd share hshare
      · simpa [hnone, hshare] using hflag
      · simpa [hnone', hshare] using hflag'

/-- An id that tells everything it was made of, or that it was drawn. -/
abbrev TaggedId := Option (HashFunction × List UInt8 × SecretLabel)

/-- The HMAC to such ids. -/
def taggedHmac : IdFunction TaggedId := fun hash key label => some (hash, key, label)

/-- It is as injective as can be. -/
theorem taggedHmac_ideal : IdealIds taggedHmac fun _ _ => none where
  injective := by
    intro hash key label hash' key' label' heq
    simpa [taggedHmac] using heq
  fresh := by
    intro name role hash key label heq
    cases heq

/-- An endpoint with one retained secret. -/
def endpointWith (hash : HashFunction) (key : List UInt8) : SecretEndpoint TaggedId where
  hash := hash
  draws := fun _ _ => none
  H3 := []
  cached := ⟨some key, none, none, none, false⟩

/-- Two endpoints that nobody configured have the same preferred hash. -/
theorem retainedSecrets_agree_unconfigured :
    SecretsAgree taggedHmac (endpointWith .sha256 [1]) (endpointWith .sha256 [1]) ↔
      preferredHash (configuredContext ⟨true, true⟩ []).supported
          (configuredContext ⟨true, true⟩ []).supported =
        preferredHash (configuredContext ⟨true, true⟩ []).supported
          (configuredContext ⟨true, true⟩ []).supported ∨
      ¬ Share (endpointWith .sha256 [1]).cached (endpointWith .sha256 [1]).cached :=
  retainedSecrets_agree_iff ⟨true, true⟩ ⟨true, true⟩ [] [] (by decide +kernel)
    (by decide +kernel) taggedHmac_ideal taggedHmac_ideal (by decide) (by decide)

/-- An initiator that prefers SHA384 and a responder that prefers SHA256 do not recognise the secret
they have in common, and both warn of a mismatch. -/
theorem retainedSecrets_hashOrder : ¬∀ (initiatorBuild responderBuild : KeyAgreementAlgoList)
      (initiatorCalls responderCalls : List (AlgoFamily × List UInt8))
      (initiator responder : SecretEndpoint TaggedId),
      let initiatorContext := configuredContext initiatorBuild initiatorCalls
      let responderContext := configuredContext responderBuild responderCalls
      helloHash initiatorContext responderContext = some initiator.hash →
      helloHash responderContext initiatorContext = some responder.hash →
      IdealIds taggedHmac initiator.draws → IdealIds taggedHmac responder.draws →
      initiator.cached.Ordered → responder.cached.Ordered →
        SecretsAgree taggedHmac initiator responder := by
  intro h
  have hagree := h ⟨true, true⟩ ⟨true, true⟩ [(.hash, [zrtpHashS384, zrtpHashS256])] []
    (endpointWith .sha384 [1]) (endpointWith .sha256 [1]) (by decide +kernel) (by decide +kernel)
    taggedHmac_ideal taggedHmac_ideal (by decide) (by decide)
  have hwarns : (initiatorOutcome taggedHmac (endpointWith .sha384 [1])
      (endpointWith .sha256 [1])).cacheMismatchFlag = true := by decide
  exact (hagree.initiatorWarns.mp hwarns).2 ⟨[1], .inl rfl, .inl rfl⟩

end GrooveIp.Zrtp
