import Mathlib.Data.List.Pairwise
import GrooveIp.Lime.Message

/-!
# Use of LIME keys

Which key and initialisation vector each encryption of a run uses. A key is derived after the message
it was used for and written back, so that no later message and no other device meets it again; the text
and the content type of one message for one device are encrypted with the same key and vector.
-/

namespace GrooveIp.Lime

open List
open CacheRow (put sndKey)

variable {crypto : Crypto} {stray : Stray}

/-- A call of `lime_createMultipartMessage`: its arguments and what it meets. -/
structure Call where
  stray : Stray
  now : Int
  writable : Nat → Bool
  contentType : Option Bytes
  message : Option Bytes
  selfURI : String
  peerURI : String

variable (call : Call)

/-- The message of a call. -/
def Call.create (crypto : Crypto) (cache : Cache) : Created :=
  createMultipartMessage crypto call.stray call.now call.writable cache call.contentType
    call.message call.selfURI call.peerURI

/-- The keys a call encrypts with, each of which it derives afterwards. -/
def Call.keys (cache : Cache) : List LimeKey :=
  if (getSelfZID call.stray cache call.selfURI).isSome ∧ call.message.isSome ∧
      call.contentType.isSome then
    (getCachedSndKeysByURI cache call.now call.selfURI call.peerURI).toOption.getD []
  else []

/-- The encryptions of a run, each with the number of its call. -/
def encryptions (crypto : Crypto) (cache : Cache) : (first : Nat) → List Call →
    List (Nat × Encryption)
  | _, [] => []
  | first, call :: calls =>
    (call.create crypto cache).encryptions.map (first, ·) ++
      encryptions crypto (call.create crypto cache).cache (first + 1) calls

/-- The keys that are derived in a run. -/
def derivations (crypto : Crypto) (cache : Cache) : List Call → List LimeKey
  | [] => []
  | call :: calls =>
    call.keys cache ++ derivations crypto (call.create crypto cache).cache calls

/-- The sender keys of a cache. -/
def Cache.senderKeys (cache : Cache) : List LimeKey :=
  cache.rows.filterMap fun row => row.sndKey.map Prod.fst

/-- Two encryptions with the same key and the same vector. -/
def SameKeyIv (e e' : Encryption) : Prop := e.aesKey = e'.aesKey ∧ e.iv = e'.iv

/-- What `lime_deriveKey` hashes, key and data. -/
def LimeKey.hmacInput (key : LimeKey) : Bytes × Bytes := (key.key, deriveInput key)

/-- The key that is derived from a key. -/
def derivedFrom (crypto : Crypto) (key : LimeKey) : Bytes :=
  crypto.hmacSha256 key.key (deriveInput key)

/-- The HMAC has distinct outputs for the distinct inputs among these derivations. -/
def DistinctOutputs (crypto : Crypto) (derived : List LimeKey) : Prop :=
  ∀ k ∈ derived, ∀ k' ∈ derived, derivedFrom crypto k = derivedFrom crypto k' →
    k.hmacInput = k'.hmacInput

/-- The sender keys of a cache are distinct. -/
def DistinctKeys (cache : Cache) : Prop :=
  cache.senderKeys.Pairwise fun k k' => k.key ≠ k'.key

/-- No derivation gives a sender key of the cache. -/
def Underived (crypto : Crypto) (cache : Cache) (derived : List LimeKey) : Prop :=
  ∀ k ∈ derived, ∀ k' ∈ cache.senderKeys, derivedFrom crypto k ≠ k'.key

/-! ## Keys of the cache -/

variable {key : LimeKey}

theorem sndKey_spec {row : CacheRow} {validity : Int}
    (h : row.sndKey = some (key, validity)) : key.key.length = 32 ∧ key.zuid = row.zuid := by
  unfold sndKey at h
  dsimp only at h
  split at h
  · next hcols =>
    cases h
    exact ⟨hcols.2.1, rfl⟩
  · cases h

variable {cache : Cache}

/-- The key of a sender key has 32 bytes. -/
theorem length_of_mem_senderKeys (h : key ∈ cache.senderKeys) : key.key.length = 32 := by
  simp only [Cache.senderKeys, mem_filterMap, Option.map_eq_some_iff, Prod.exists,
    exists_and_right, exists_eq_right] at h
  obtain ⟨row, -, validity, hkey⟩ := h
  exact (sndKey_spec hkey).1

/-- The sender keys are in the order of their `zuid`. -/
theorem senderKeys_sorted (cache : Cache) :
    cache.senderKeys.Pairwise fun k k' => k.zuid < k'.zuid := by
  refine List.Pairwise.filterMap _ ?_ (pairwise_map.mp cache.sorted)
  intro row row' hlt key hkey key' hkey'
  simp only [Option.map_eq_some_iff, Prod.exists, exists_and_right, exists_eq_right] at hkey hkey'
  obtain ⟨validity, hkey⟩ := hkey
  obtain ⟨validity', hkey'⟩ := hkey'
  rw [(sndKey_spec hkey).2, (sndKey_spec hkey').2]
  exact hlt

theorem getCachedSndKeysByURI_sublist {now : Int} {selfURI peerURI : String}
    {peerKeys : List LimeKey} (h : getCachedSndKeysByURI cache now selfURI peerURI = .ok peerKeys) :
    peerKeys.Sublist cache.senderKeys := by
  unfold getCachedSndKeysByURI at h
  dsimp only at h
  split at h
  · cases h
  · cases h
    have hrows : ((cache.verified selfURI peerURI).filterMap sndKey).Sublist
        (cache.rows.filterMap sndKey) := by
      apply List.Sublist.filterMap
      exact filter_sublist
    have hkeys : cache.senderKeys = (cache.rows.filterMap sndKey).map Prod.fst := by
      simp [Cache.senderKeys, map_filterMap]
    rw [hkeys, ← filterMap_eq_map]
    refine List.Sublist.trans ?_ (hrows.filterMap _)
    rw [filterMap_eq_map]
    induction (cache.verified selfURI peerURI).filterMap sndKey with
    | nil => exact List.Sublist.slnil
    | cons found rest ih =>
      rw [filterMap_cons, map_cons]
      split
      · exact ih.cons _
      · next key heq =>
        split at heq
        · cases heq
          exact ih.cons_cons _
        · cases heq

/-- The keys of a call are among the sender keys, in their order. -/
theorem Call.keys_sublist (cache : Cache) : (call.keys cache).Sublist cache.senderKeys := by
  unfold Call.keys
  split
  · cases hkeys : getCachedSndKeysByURI cache call.now call.selfURI call.peerURI with
    | error status => exact nil_sublist _
    | ok peerKeys => exact getCachedSndKeysByURI_sublist hkeys
  · exact nil_sublist _

/-- A call encrypts a text and a content type with each of its keys, and derives and stores each of
them. -/
theorem Call.create_spec (crypto : Crypto) (cache : Cache) :
    (∃ message contentType selfZid, (call.create crypto cache).encryptions =
      (call.keys cache).flatMap fun key =>
        [encryptionOf key .text message selfZid,
         encryptionOf key .contentType contentType selfZid]) ∧ (call.create crypto cache).cache =
      storeDerived crypto call.writable cache (call.keys cache) := by
  unfold Call.create createMultipartMessage Call.keys
  cases hself : getSelfZID call.stray cache call.selfURI with
  | none => simp [storeDerived]
  | some selfZid =>
    cases hmessage : call.message with
    | none => simp [storeDerived]
    | some message =>
      cases hcontent : call.contentType with
      | none => simp [storeDerived]
      | some contentType =>
        cases hkeys : getCachedSndKeysByURI cache call.now call.selfURI call.peerURI with
        | error status => simp [storeDerived, Except.toOption]
        | ok peerKeys =>
          refine ⟨⟨counted message, counted contentType, selfZid, ?_⟩, ?_⟩ <;>
            simp [Except.toOption]

theorem mem_senderKeys_cacheWrite {written : LimeKey}
    (h : key ∈ (cacheWrite cache true .sender written).senderKeys) :
    (key ∈ cache.senderKeys ∧ key.zuid ≠ written.zuid) ∨
      (key.zuid = written.zuid ∧ key.key = written.key) := by
  simp only [Cache.senderKeys, cacheWrite, if_true, mem_filterMap, mem_map,
    Option.map_eq_some_iff, Prod.exists, exists_and_right, exists_eq_right,
    exists_exists_and_eq_and] at h ⊢
  obtain ⟨row, hrow, validity, hkey⟩ := h
  have hzuid := (sndKey_spec hkey).2
  rw [CacheRow.zuid_put] at hzuid
  by_cases heq : row.zuid = written.zuid
  · refine .inr ⟨hzuid.trans heq, ?_⟩
    simp only [put, if_pos heq, sndKey, LimeRow.put, Option.getD_some] at hkey
    split at hkey
    · cases hkey
      rfl
    · cases hkey
  · refine .inl ⟨⟨row, hrow, validity, ?_⟩, by rwa [hzuid]⟩
    rwa [put, if_neg heq] at hkey

theorem mem_senderKeys_storeDerived {writable : Nat → Bool}
    (hwritable : ∀ zuid, writable zuid) {used : List LimeKey}
    (h : key ∈ (storeDerived crypto writable cache used).senderKeys) :
    (key ∈ cache.senderKeys ∧ ∀ k ∈ used, k.zuid ≠ key.zuid) ∨
      ∃ k ∈ used, k.zuid = key.zuid ∧ key.key = derivedFrom crypto k := by
  induction used generalizing cache with
  | nil => exact .inl ⟨h, by simp⟩
  | cons first rest ih =>
    change key ∈ (storeDerived crypto writable
      (cacheWrite cache (writable first.zuid) .sender (deriveKey crypto first)) rest).senderKeys at h
    rw [hwritable] at h
    obtain ⟨hkey, hrest⟩ | ⟨k, hk, hzuid, hderived⟩ := ih h
    · obtain ⟨hold, hne⟩ | ⟨hzuid, hderived⟩ := mem_senderKeys_cacheWrite hkey
      · refine .inl ⟨hold, ?_⟩
        intro k hk
        obtain rfl | hk := mem_cons.mp hk
        · exact Ne.symm hne
        · exact hrest k hk
      · exact .inr ⟨first, mem_cons_self, hzuid.symm, hderived⟩
    · exact .inr ⟨k, mem_cons_of_mem _ hk, hzuid, hderived⟩

/-! ## Fresh keys -/

/-- What holds between two calls: `used` are the keys of the encryptions so far, `derived` the
derivations, and `initial` the sender keys at the start. -/
structure Fresh (crypto : Crypto) (initial used : List Bytes) (derived : List LimeKey)
    (cache : Cache) : Prop where
  unused : ∀ k ∈ cache.senderKeys, k.key ∉ used
  distinct : DistinctKeys cache
  origin : ∀ k ∈ cache.senderKeys, k.key ∈ initial ∨ ∃ d ∈ derived, k.key = derivedFrom crypto d
  usedOrigin : ∀ u ∈ used, u ∈ initial ∨ ∃ d ∈ derived, u = derivedFrom crypto d
  derivedUsed : ∀ d ∈ derived, d.key ∈ used

theorem fresh_start (hdistinct : DistinctKeys cache) :
    Fresh crypto (cache.senderKeys.map LimeKey.key) [] [] cache where
  unused := by simp
  distinct := hdistinct
  origin := fun k hk => .inl (mem_map_of_mem hk)
  usedOrigin := by simp
  derivedUsed := by simp

/-- Two sender keys with one `zuid` are the same. -/
theorem eq_of_zuid_eq {k k' : LimeKey} (hk : k ∈ cache.senderKeys) (hk' : k' ∈ cache.senderKeys)
    (h : k.zuid = k'.zuid) : k = k' := by
  by_contra hne
  have hpair : cache.senderKeys.Pairwise fun k k' => k.zuid ≠ k'.zuid :=
    (senderKeys_sorted cache).imp Nat.ne_of_lt
  have : Std.Symm fun (k k' : LimeKey) => k.zuid ≠ k'.zuid := ⟨fun _ _ h => Ne.symm h⟩
  exact hpair.forall hk hk' hne h

/-- Two sender keys that are equal as keys are the same. -/
theorem DistinctKeys.eq_of_key_eq (h : DistinctKeys cache) {k k' : LimeKey}
    (hk : k ∈ cache.senderKeys) (hk' : k' ∈ cache.senderKeys) (heq : k.key = k'.key) : k = k' := by
  by_contra hne
  have : Std.Symm fun (k k' : LimeKey) => k.key ≠ k'.key := ⟨fun _ _ h => Ne.symm h⟩
  exact h.forall hk hk' hne heq

section Step

variable {initial used : List Bytes} {derived fresh : List LimeKey} {cache : Cache}

theorem Fresh.derived_ne (h : Fresh crypto initial used derived cache)
    (houtputs : DistinctOutputs crypto (derived ++ fresh))
    (hunderived : ∀ k ∈ derived ++ fresh, derivedFrom crypto k ∉ initial)
    {p : LimeKey} (hp : p ∈ fresh) (hcache : p ∈ cache.senderKeys) {u : Bytes}
    (hu : u ∈ initial ∨ ∃ d ∈ derived, u = derivedFrom crypto d) : derivedFrom crypto p ≠ u := by
  intro heq
  obtain hinitial | ⟨d, hd, hud⟩ := hu
  · exact hunderived p (mem_append_right _ hp) (heq ▸ hinitial)
  · have hinput := houtputs p (mem_append_right _ hp) d (mem_append_left _ hd) (heq.trans hud)
    have hkey : p.key = d.key := congrArg Prod.fst hinput
    exact h.unused p hcache (hkey ▸ h.derivedUsed d hd)

theorem Fresh.derived_inj (h : Fresh crypto initial used derived cache)
    (houtputs : DistinctOutputs crypto (derived ++ fresh)) {p q : LimeKey} (hp : p ∈ fresh)
    (hq : q ∈ fresh) (hpcache : p ∈ cache.senderKeys) (hqcache : q ∈ cache.senderKeys)
    (heq : derivedFrom crypto p = derivedFrom crypto q) : p = q := by
  have hinput := houtputs p (mem_append_right _ hp) q (mem_append_right _ hq) heq
  exact h.distinct.eq_of_key_eq hpcache hqcache (congrArg Prod.fst hinput)

theorem Fresh.create (h : Fresh crypto initial used derived cache) {call : Call}
    (hwritable : ∀ zuid, call.writable zuid)
    (houtputs : DistinctOutputs crypto (derived ++ call.keys cache))
    (hunderived : ∀ k ∈ derived ++ call.keys cache, derivedFrom crypto k ∉ initial) :
    Fresh crypto initial (used ++ (call.keys cache).map LimeKey.key) (derived ++ call.keys cache)
      (call.create crypto cache).cache := by
  rw [(call.create_spec crypto cache).2]
  have hkeys : ∀ k ∈ call.keys cache, k ∈ cache.senderKeys := fun k hk =>
    (call.keys_sublist cache).subset hk
  constructor
  case unused =>
    intro k hk hused
    obtain ⟨hold, hne⟩ | ⟨p, hp, -, hderived⟩ := mem_senderKeys_storeDerived hwritable hk
    · obtain hused | hcall := mem_append.mp hused
      · exact h.unused k hold hused
      · obtain ⟨p, hp, hkey⟩ := mem_map.mp hcall
        exact hne p hp (congrArg LimeKey.zuid (h.distinct.eq_of_key_eq (hkeys p hp) hold hkey))
    · rw [hderived] at hused
      obtain hused | hcall := mem_append.mp hused
      · exact h.derived_ne houtputs hunderived hp (hkeys p hp) (h.usedOrigin _ hused) rfl
      · obtain ⟨q, hq, hkey⟩ := mem_map.mp hcall
        exact h.derived_ne houtputs hunderived hp (hkeys p hp) (h.origin q (hkeys q hq)) hkey.symm
  case distinct =>
    refine (senderKeys_sorted _).imp_of_mem ?_
    intro k k' hk hk' hlt heq
    obtain ⟨hold, hne⟩ | ⟨p, hp, hzuid, hderived⟩ := mem_senderKeys_storeDerived hwritable hk <;>
      obtain ⟨hold', hne'⟩ | ⟨p', hp', hzuid', hderived'⟩ :=
        mem_senderKeys_storeDerived hwritable hk'
    · rw [h.distinct.eq_of_key_eq hold hold' heq] at hlt
      omega
    · exact h.derived_ne houtputs hunderived hp' (hkeys p' hp') (h.origin k hold)
        (hderived' ▸ heq.symm)
    · exact h.derived_ne houtputs hunderived hp (hkeys p hp) (h.origin k' hold') (hderived ▸ heq)
    · have hsame := h.derived_inj houtputs hp hp' (hkeys p hp) (hkeys p' hp')
        (hderived.symm.trans (heq.trans hderived'))
      rw [← hzuid, ← hzuid', hsame] at hlt
      omega
  case origin =>
    intro k hk
    obtain ⟨hold, -⟩ | ⟨p, hp, -, hderived⟩ := mem_senderKeys_storeDerived hwritable hk
    · obtain hinitial | ⟨d, hd, heq⟩ := h.origin k hold
      · exact .inl hinitial
      · exact .inr ⟨d, mem_append_left _ hd, heq⟩
    · exact .inr ⟨p, mem_append_right _ hp, hderived⟩
  case usedOrigin =>
    intro u hu
    have horigin : u ∈ initial ∨ ∃ d ∈ derived, u = derivedFrom crypto d := by
      obtain hused | hcall := mem_append.mp hu
      · exact h.usedOrigin u hused
      · obtain ⟨p, hp, rfl⟩ := mem_map.mp hcall
        exact h.origin p (hkeys p hp)
    obtain hinitial | ⟨d, hd, heq⟩ := horigin
    · exact .inl hinitial
    · exact .inr ⟨d, mem_append_left _ hd, heq⟩
  case derivedUsed =>
    intro d hd
    obtain hold | hcall := mem_append.mp hd
    · exact mem_append_left _ (h.derivedUsed d hold)
    · exact mem_append_right _ (mem_map_of_mem hcall)

end Step

/-! ## Runs -/

/-- The key of 256 bits that an encryption uses. -/
def Encryption.wholeKey (e : Encryption) : Bytes := e.aesKey ++ e.iv

theorem SameKeyIv.wholeKey {e e' : Encryption} (h : SameKeyIv e e') : e.wholeKey = e'.wholeKey := by
  unfold Encryption.wholeKey
  rw [h.1, h.2]

theorem wholeKey_encryptionOf (h : key ∈ cache.senderKeys) (part : Part) (plain selfZid : Bytes) :
    (encryptionOf key part plain selfZid).wholeKey = key.key := by
  have hlen := length_of_mem_senderKeys h
  have hiv : (key.key.drop 24).take 8 = key.key.drop 24 := by
    apply take_of_length_le
    rw [length_drop, hlen]
  change key.key.take 24 ++ (key.key.drop 24).take 8 = key.key
  rw [hiv, take_append_drop]

/-- The two encryptions of one message for one device, the text first. -/
def OneMessage (u u' : Nat × Encryption) : Prop :=
  u.1 = u'.1 ∧ u.2.zuid = u'.2.zuid ∧ u.2.part = .text ∧ u'.2.part = .contentType

/-- An encryption of a call uses one of its keys. -/
theorem wholeKey_mem_keys {call : Call} {e : Encryption}
    (h : e ∈ (call.create crypto cache).encryptions) :
    ∃ k ∈ call.keys cache, e.wholeKey = k.key := by
  obtain ⟨⟨message, contentType, selfZid, hlist⟩, -⟩ := call.create_spec crypto cache
  rw [hlist] at h
  obtain ⟨k, hk, he⟩ := mem_flatMap.mp h
  have hcache := (call.keys_sublist cache).subset hk
  refine ⟨k, hk, ?_⟩
  simp only [mem_cons, not_mem_nil, or_false] at he
  obtain rfl | rfl := he <;> exact wholeKey_encryptionOf hcache _ _ _

theorem pairwise_encryptions (hdistinct : DistinctKeys cache) (call : Call) (first : Nat) :
    ((call.create crypto cache).encryptions.map ((first, ·) : Encryption → Nat × Encryption)).Pairwise
      fun u u' => SameKeyIv u.2 u'.2 → OneMessage u u' := by
  obtain ⟨⟨message, contentType, selfZid, hlist⟩, -⟩ := call.create_spec crypto cache
  have hsub := call.keys_sublist cache
  rw [hlist, pairwise_map, pairwise_flatMap]
  constructor
  · intro k _
    simp [OneMessage, encryptionOf]
  · refine (hdistinct.sublist hsub).imp_of_mem ?_
    intro k k' hk hk' hne e he e' he' hsame
    have hk := hsub.subset hk
    have hk' := hsub.subset hk'
    have hwhole := hsame.wholeKey
    simp only [mem_cons, not_mem_nil, or_false] at he he'
    obtain rfl | rfl := he <;> obtain rfl | rfl := he' <;>
      exact absurd (by rwa [wholeKey_encryptionOf hk, wholeKey_encryptionOf hk'] at hwhole) hne

theorem Fresh.run {initial used : List Bytes} {derived : List LimeKey}
    (h : Fresh crypto initial used derived cache) (first : Nat) {calls : List Call}
    (hwritable : ∀ call ∈ calls, ∀ zuid, call.writable zuid)
    (houtputs : DistinctOutputs crypto (derived ++ derivations crypto cache calls))
    (hunderived : ∀ k ∈ derived ++ derivations crypto cache calls, derivedFrom crypto k ∉ initial) :
    (∀ u ∈ encryptions crypto cache first calls, u.2.wholeKey ∉ used) ∧
    (encryptions crypto cache first calls).Pairwise fun u u' =>
      SameKeyIv u.2 u'.2 → OneMessage u u' := by
  induction calls generalizing used derived cache first with
  | nil => simp [encryptions]
  | cons call calls ih =>
    rw [derivations, ← append_assoc] at houtputs hunderived
    have hcreate := h.create (hwritable call mem_cons_self)
      (fun k hk k' hk' => houtputs k (mem_append_left _ hk) k' (mem_append_left _ hk'))
      (fun k hk => hunderived k (mem_append_left _ hk))
    obtain ⟨hunused, hpairs⟩ := ih hcreate (first + 1)
      (fun call hcall => hwritable call (mem_cons_of_mem _ hcall)) houtputs hunderived
    have hfirst : ∀ u ∈ (call.create crypto cache).encryptions.map ((first, ·)),
        ∃ k ∈ call.keys cache, u.2.wholeKey = k.key := by
      intro u hu
      obtain ⟨e, he, rfl⟩ := mem_map.mp hu
      exact wholeKey_mem_keys he
    constructor
    · intro u hu
      obtain hu | hu := mem_append.mp hu
      · obtain ⟨k, hk, hwhole⟩ := hfirst u hu
        rw [hwhole]
        exact h.unused k ((call.keys_sublist cache).subset hk)
      · exact fun hused => hunused u hu (mem_append_left _ hused)
    · refine pairwise_append.mpr ⟨pairwise_encryptions h.distinct call first, hpairs, ?_⟩
      intro u hu u' hu' hsame
      obtain ⟨k, hk, hwhole⟩ := hfirst u hu
      refine absurd (mem_append_right _ ?_) (hunused u' hu')
      rw [← hsame.wholeKey, hwhole]
      exact mem_map_of_mem hk

/-- In every run whose keys are written back, two encryptions that use the same key and vector are the
text and the content type of one message for one device, when the HMAC has distinct outputs for
distinct inputs and the keys at the start are distinct and none of them an output. -/
theorem encryptions_key_iv {cache : Cache} {calls : List Call}
    (hwritable : ∀ call ∈ calls, ∀ zuid, call.writable zuid)
    (houtputs : DistinctOutputs crypto (derivations crypto cache calls))
    (hkeys : DistinctKeys cache)
    (hunderived : Underived crypto cache (derivations crypto cache calls)) :
    (encryptions crypto cache 0 calls).Pairwise fun u u' => SameKeyIv u.2 u'.2 → OneMessage u u' := by
  refine ((fresh_start hkeys).run 0 hwritable houtputs ?_).2
  intro k hk hmem
  obtain ⟨k', hk', heq⟩ := mem_map.mp hmem
  exact hunderived k hk k' hk' heq.symm

/-! ## Two messages for a peer -/

/-- A row of a verified peer with a sender key of equal bytes. -/
def senderRow (zuid : Nat) (peeruri : String) (byte : UInt8) (sessionIndex : UInt32) : CacheRow where
  zuid := zuid
  zid := List.replicate 12 (UInt8.ofNat zuid)
  selfuri := "sip:a@x"
  peeruri := peeruri
  pvs := [1]
  lime := some
    { sndKey := List.replicate 32 byte, sndSId := List.replicate 32 9
      sndIndex := uint32Blob sessionIndex, valid := List.replicate 8 0 }

/-- The row of our own ZID. -/
def selfRow : CacheRow :=
  { zuid := 1, zid := List.replicate 12 1, selfuri := "sip:a@x", peeruri := "self" }

/-- A cache with one sender key. -/
def onePeer : Cache where
  rows := [selfRow, senderRow 2 "sip:b@x" 0 0]
  sorted := by decide

/-- A cache where the second sender key is what the first one is derived to. -/
def twoPeers : Cache where
  rows := [selfRow, senderRow 2 "sip:b@x" 0 0, senderRow 3 "sip:c@x" 1 1]
  sorted := by decide

/-- An HMAC that adds one to every byte of the key, and a cipher that does nothing. -/
def addOne : Crypto where
  hmacSha256 := fun key _ => key.map (· + 1)
  gcmEncrypt := fun _ plain _ _ => (List.replicate 16 0, plain)
  gcmDecrypt := fun _ cipher _ _ _ => some cipher

/-- A call with the text `[104]` and the content type `[116]`. -/
def callTo (peerURI : String) : Call where
  stray := ⟨fun _ _ => 0, fun _ => 0⟩
  now := 0
  writable := fun _ => true
  contentType := some [116]
  message := some [104]
  selfURI := "sip:a@x"
  peerURI := peerURI

/-- Two messages for one peer use two keys. -/
theorem encryptions_key_iv_twoMessages :
    (encryptions addOne onePeer 0 [callTo "sip:b@x", callTo "sip:b@x"]).Pairwise fun u u' =>
      SameKeyIv u.2 u'.2 → OneMessage u u' := by
  apply encryptions_key_iv
  · simp [callTo]
  · unfold DistinctOutputs
    decide +kernel
  · unfold DistinctKeys
    decide +kernel
  · unfold Underived
    decide +kernel

/-- The text and the content type of a message use one key and vector; and so do two messages for two
peers when the key of one is derived to that of the other. -/
theorem contentType_reuses_key : (¬ ∀ (crypto : Crypto) (cache : Cache) (calls : List Call),
      (∀ call ∈ calls, ∀ zuid, call.writable zuid) →
      DistinctOutputs crypto (derivations crypto cache calls) → DistinctKeys cache →
      Underived crypto cache (derivations crypto cache calls) →
      (encryptions crypto cache 0 calls).Pairwise fun u u' =>
        u.2.plainMessage ≠ u'.2.plainMessage → ¬ SameKeyIv u.2 u'.2) ∧
    ¬ ∀ (crypto : Crypto) (cache : Cache) (calls : List Call),
      (∀ call ∈ calls, ∀ zuid, call.writable zuid) →
      DistinctOutputs crypto (derivations crypto cache calls) → DistinctKeys cache →
      (encryptions crypto cache 0 calls).Pairwise fun u u' =>
        SameKeyIv u.2 u'.2 → OneMessage u u' := by
  constructor
  · intro hall
    have hpairs := hall addOne onePeer [callTo "sip:b@x"] (by simp [callTo])
      (by unfold DistinctOutputs; decide +kernel) (by unfold DistinctKeys; decide +kernel)
      (by unfold Underived; decide +kernel)
    unfold SameKeyIv at hpairs
    revert hpairs
    decide +kernel
  · intro hall
    have hpairs := hall addOne twoPeers [callTo "sip:b@x", callTo "sip:b@x", callTo "sip:c@x"]
      (by simp [callTo]) (by unfold DistinctOutputs; decide +kernel)
      (by unfold DistinctKeys; decide +kernel)
    unfold SameKeyIv OneMessage at hpairs
    revert hpairs
    decide +kernel

end GrooveIp.Lime
