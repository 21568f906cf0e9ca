import GrooveIp.Lime.KeyUse

/-!
# Key chains

The keys of a sender's cache during a run of messages, as positions on the chains that start at its
first keys. A message moves each row it uses by one position, and what it encrypts for a device is found
again from the position of the row.
-/

namespace GrooveIp.Lime

open List CacheRow

variable {crypto : Crypto}

/-! ## Chains -/

/-- A key after `n` derivations. -/
def chain (crypto : Crypto) (key : LimeKey) : Nat → LimeKey
  | 0 => key
  | n + 1 => deriveKey crypto (chain crypto key n)

/-- A key derived `n` times and then `d` times. -/
theorem chain_chain (key : LimeKey) (n d : Nat) :
    chain crypto (chain crypto key n) d = chain crypto key (n + d) := by
  induction d with
  | zero => rfl
  | succ d ih => exact congrArg (deriveKey crypto) ih

/-- A derivation keeps the row and the device of a key. -/
@[simp] theorem zuid_chain (key : LimeKey) (n : Nat) : (chain crypto key n).zuid = key.zuid := by
  induction n with
  | zero => rfl
  | succ n ih => exact ih

/-- A derivation keeps the device of a key. -/
@[simp] theorem peerZID_chain (key : LimeKey) (n : Nat) :
    (chain crypto key n).peerZID = key.peerZID := by
  induction n with
  | zero => rfl
  | succ n ih => exact ih

/-- A derivation keeps the session of a key. -/
@[simp] theorem sessionId_chain (key : LimeKey) (n : Nat) :
    (chain crypto key n).sessionId = key.sessionId := by
  induction n with
  | zero => rfl
  | succ n ih => exact ih

/-- The index counts derivations. -/
theorem sessionIndex_chain (key : LimeKey) (n : Nat) :
    (chain crypto key n).sessionIndex = key.sessionIndex + UInt32.ofNat n := by
  induction n with
  | zero => simp [chain]
  | succ n ih =>
    change (chain crypto key n).sessionIndex + 1 = _
    rw [ih, UInt32.ofNat_add, UInt32.add_assoc]
    rfl

/-- The HMAC of the library has 32 bytes. -/
def Sha256Length (crypto : Crypto) : Prop :=
  ∀ key data, (crypto.hmacSha256 key data).length = 32

variable {key : LimeKey}

/-- Every key of a chain has 32 bytes. -/
theorem length_chain (hlen : Sha256Length crypto) (h : key.key.length = 32) (n : Nat) :
    (chain crypto key n).key.length = 32 := by
  cases n with
  | zero => exact h
  | succ n => exact hlen _ _

/-- The first keys of the chains and the first `bound` derivations on them. -/
def Cache.chains (crypto : Crypto) (cache : Cache) (bound : Nat) : List LimeKey :=
  cache.senderKeys.flatMap fun key => (List.range bound).map (chain crypto key)

variable {cache : Cache}

/-- The keys of all chains are distinct, at all positions up to `bound`, when the HMAC has distinct
outputs for distinct inputs and no first key is an output. -/
theorem chain_inj {bound : Nat} (houtputs : DistinctOutputs crypto (cache.chains crypto bound))
    (hkeys : DistinctKeys cache) (hunderived : Underived crypto cache (cache.chains crypto bound))
    {k k' : LimeKey} (hk : k ∈ cache.senderKeys) (hk' : k' ∈ cache.senderKeys) {n n' : Nat}
    (hn : n ≤ bound) (hn' : n' ≤ bound) (heq : (chain crypto k n).key = (chain crypto k' n').key) :
    k = k' ∧ n = n' := by
  have hmem : ∀ {key : LimeKey}, key ∈ cache.senderKeys → ∀ {m : Nat}, m < bound →
      chain crypto key m ∈ cache.chains crypto bound := by
    intro key hkey m hm
    exact mem_flatMap.mpr ⟨key, hkey, mem_map_of_mem (mem_range.mpr hm)⟩
  induction n generalizing n' with
  | zero =>
    cases n' with
    | zero => exact ⟨hkeys.eq_of_key_eq hk hk' heq, rfl⟩
    | succ n' => exact absurd heq.symm (hunderived _ (hmem hk' (Nat.lt_of_succ_le hn')) k hk)
  | succ n ih =>
    cases n' with
    | zero => exact absurd heq (hunderived _ (hmem hk (Nat.lt_of_succ_le hn)) k' hk')
    | succ n' =>
      have hinput := houtputs _ (hmem hk (by omega)) _ (hmem hk' (by omega)) heq
      obtain ⟨hsame, hpos⟩ := ih (by omega) (by omega) (congrArg Prod.fst hinput)
      exact ⟨hsame, congrArg (· + 1) hpos⟩

/-! ## The cache as positions -/

/-- A row moved to a position of its chain. -/
def CacheRow.advanced (crypto : Crypto) (row : CacheRow) : Nat → CacheRow
  | 0 => row
  | n + 1 =>
    match row.sndKey with
    | some (key, _) => row.put .sender (chain crypto key (n + 1))
    | none => row

/-- A cache with each row at its position. -/
def Cache.advanced (crypto : Crypto) (cache : Cache) (pos : Nat → Nat) : Cache where
  rows := cache.rows.map fun row => row.advanced crypto (pos row.zuid)
  sorted := by
    have hzuid : ∀ row : CacheRow, (row.advanced crypto (pos row.zuid)).zuid = row.zuid := by
      intro row
      unfold CacheRow.advanced
      split
      · rfl
      · split
        · exact zuid_put _ _ _
        · rfl
    simpa [Function.comp_def, hzuid] using cache.sorted

/-- What a write and a derivation leave of a row: everything but its keys. -/
structure SameRow (row row' : CacheRow) : Prop where
  zuid : row'.zuid = row.zuid
  zid : row'.zid = row.zid
  selfuri : row'.selfuri = row.selfuri
  peeruri : row'.peeruri = row.peeruri
  pvs : row'.pvs = row.pvs

/-- A write leaves everything but the keys. -/
theorem sameRow_put (row : CacheRow) (role : Role) (key : LimeKey) :
    SameRow row (row.put role key) := by
  unfold put
  split <;> exact ⟨rfl, rfl, rfl, rfl, rfl⟩

/-- Moving a row leaves everything but its keys. -/
theorem sameRow_advanced (crypto : Crypto) (row : CacheRow) (n : Nat) : SameRow row (row.advanced crypto n) := by
  unfold CacheRow.advanced
  split
  · exact ⟨rfl, rfl, rfl, rfl, rfl⟩
  · split
    · exact sameRow_put _ _ _
    · exact ⟨rfl, rfl, rfl, rfl, rfl⟩

variable {row : CacheRow}

variable {validity : Int}

theorem sndKey_put {written : LimeKey}
    (h : row.sndKey = some (key, validity)) (hzuid : written.zuid = row.zuid)
    (hzid : written.peerZID = row.zid) (hkey : written.key.length = 32)
    (hsid : written.sessionId.length = 32) :
    (row.put .sender written).sndKey = some (written, validity) := by
  unfold sndKey at h
  dsimp only at h
  split at h
  · next hcols =>
    cases h
    obtain ⟨hzidLength, -, -, -, hvalid⟩ := hcols
    simp only [put, hzuid, if_true, sndKey, LimeRow.put, Option.getD_some]
    have hindex : (uint32Blob written.sessionIndex).length = 4 := rfl
    rw [if_pos ⟨hzidLength, hkey, hsid, hindex, hvalid⟩, blobUint32_uint32Blob]
    cases written
    simp_all
  · cases h

/-- What a sender key says of its row. -/
theorem sndKey_row (h : row.sndKey = some (key, validity)) :
    key.zuid = row.zuid ∧ key.peerZID = row.zid ∧ key.sessionId.length = 32 ∧
      row.zid.length = 12 := by
  unfold sndKey at h
  dsimp only at h
  split at h
  · next hcols =>
    cases h
    exact ⟨rfl, rfl, hcols.2.2.1, hcols.1⟩
  · cases h

theorem sndKey_advanced (hlen : Sha256Length crypto) (row : CacheRow) (n : Nat) :
    (row.advanced crypto n).sndKey =
      row.sndKey.map fun (key, validity) => (chain crypto key n, validity) := by
  cases n with
  | zero =>
    change row.sndKey = _
    cases row.sndKey <;> rfl
  | succ n =>
    cases hrow : row.sndKey with
    | none => simp [CacheRow.advanced, hrow]
    | some found =>
      obtain ⟨hzuid, hzid, hsid, -⟩ := sndKey_row hrow
      simp only [CacheRow.advanced, hrow, Option.map_some]
      refine sndKey_put hrow ?_ ?_ (hlen _ _) ?_
      · rw [zuid_chain, hzuid]
      · rw [peerZID_chain, hzid]
      · rw [sessionId_chain, hsid]

theorem put_advanced (h : row.sndKey = some (key, validity)) (n : Nat) :
    (row.advanced crypto n).put .sender (deriveKey crypto (chain crypto key n)) =
      row.advanced crypto (n + 1) := by
  have hzuid := (sndKey_row h).1
  cases n with
  | zero =>
    simp only [CacheRow.advanced, h]
    rfl
  | succ n =>
    simp only [CacheRow.advanced, h]
    change (row.put .sender (chain crypto key (n + 1))).put .sender (chain crypto key (n + 2)) =
      row.put .sender (chain crypto key (n + 2))
    simp [put, hzuid, LimeRow.put]

/-- Caches with the same rows are the same. -/
theorem Cache.ext_rows {cache' : Cache} (h : cache.rows = cache'.rows) : cache = cache' := by
  cases cache
  cases cache'
  cases h
  rfl

/-- The rows of a cache have distinct ids. -/
theorem Cache.eq_of_zuid {row' : CacheRow} (hrow : row ∈ cache.rows) (hrow' : row' ∈ cache.rows)
    (h : row.zuid = row'.zuid) : row = row' := by
  by_contra hne
  have hpair : cache.rows.Pairwise fun row row' => row.zuid ≠ row'.zuid :=
    (pairwise_map.mp cache.sorted).imp Nat.ne_of_lt
  have : Std.Symm fun (row row' : CacheRow) => row.zuid ≠ row'.zuid := ⟨fun _ _ h => Ne.symm h⟩
  exact hpair.forall hrow hrow' hne h

/-- A sender key is that of a row. -/
theorem mem_senderKeys :
    key ∈ cache.senderKeys ↔ ∃ row ∈ cache.rows, ∃ validity, row.sndKey = some (key, validity) := by
  simp [Cache.senderKeys]

theorem senderKeys_advanced (hlen : Sha256Length crypto) (cache : Cache) (pos : Nat → Nat) :
    (cache.advanced crypto pos).senderKeys =
      cache.senderKeys.map fun key => chain crypto key (pos key.zuid) := by
  unfold Cache.senderKeys Cache.advanced
  rw [filterMap_map, map_filterMap]
  congr 1
  funext row
  simp only [Function.comp_apply, sndKey_advanced hlen]
  cases hrow : row.sndKey with
  | none => rfl
  | some found => simp [(sndKey_row hrow).1]

/-- The positions after each of these keys was derived. -/
def moved (pos : Nat → Nat) (used : List LimeKey) (zuid : Nat) : Nat :=
  pos zuid + (used.filter (·.zuid = zuid)).length

theorem cacheWrite_advanced (hkey : key ∈ cache.senderKeys) (pos : Nat → Nat) :
    cacheWrite (cache.advanced crypto pos) true .sender
        (deriveKey crypto (chain crypto key (pos key.zuid))) =
      cache.advanced crypto (moved pos [chain crypto key (pos key.zuid)]) := by
  obtain ⟨row, hrow, validity, hsnd⟩ := mem_senderKeys.mp hkey
  have hzuid := (sndKey_row hsnd).1
  apply Cache.ext_rows
  simp only [cacheWrite, if_true, Cache.advanced, map_map, map_inj_left, Function.comp_apply]
  intro other hother
  by_cases hsame : other.zuid = key.zuid
  · have heq := cache.eq_of_zuid hother hrow (hsame.trans hzuid)
    subst heq
    have hpos : moved pos [chain crypto key (pos key.zuid)] other.zuid = pos key.zuid + 1 := by
      simp [moved, hsame]
    rw [hpos, hsame]
    exact put_advanced hsnd _
  · have hpos : moved pos [chain crypto key (pos key.zuid)] other.zuid = pos other.zuid := by
      simp [moved, Ne.symm hsame]
    rw [hpos]
    unfold put
    rw [if_neg]
    change ¬ _ = (chain crypto key (pos key.zuid)).zuid
    rwa [(sameRow_advanced crypto other _).zuid, zuid_chain]

theorem storeDerived_advanced {writable : Nat → Bool} (hwritable : ∀ zuid, writable zuid)
    {used : List LimeKey} {pos : Nat → Nat}
    (hused : ∀ u ∈ used, ∃ key ∈ cache.senderKeys, u = chain crypto key (pos key.zuid))
    (hdistinct : used.Pairwise fun u u' => u.zuid ≠ u'.zuid) :
    storeDerived crypto writable (cache.advanced crypto pos) used =
      cache.advanced crypto (moved pos used) := by
  induction used generalizing pos with
  | nil => rfl
  | cons first rest ih =>
    obtain ⟨key, hkey, rfl⟩ := hused first mem_cons_self
    obtain ⟨hfirst, hrest⟩ := pairwise_cons.mp hdistinct
    change storeDerived crypto writable (cacheWrite (cache.advanced crypto pos)
      (writable (chain crypto key (pos key.zuid)).zuid) .sender
        (deriveKey crypto (chain crypto key (pos key.zuid)))) rest = _
    rw [hwritable, cacheWrite_advanced hkey, ih ?_ hrest]
    · congr 1
      funext zuid
      simp only [moved, filter_cons, filter_nil]
      split <;> simp
      omega
    · intro u hu
      obtain ⟨other, hother, heq⟩ := hused u (mem_cons_of_mem _ hu)
      refine ⟨other, hother, ?_⟩
      have hne := hfirst u hu
      rw [heq, zuid_chain, zuid_chain] at hne
      simp [heq, moved, hne]

/-! ## Messages of a run -/

/-- A message with a key of a row, and the cache it was created from. -/
structure Sent where
  call : Call
  cache : Cache
  key : LimeKey

/-- The messages of a run that use the key of a row. -/
def sent (crypto : Crypto) (zuid : Nat) (cache : Cache) : List Call → List Sent
  | [] => []
  | call :: calls =>
    ((call.keys cache).filter (·.zuid = zuid)).map (⟨call, cache, ·⟩) ++
      sent crypto zuid (call.create crypto cache).cache calls

section Run

variable {cache : Cache} {pos : Nat → Nat}

theorem Call.keys_distinct (call : Call) (cache : Cache) :
    (call.keys cache).Pairwise fun k k' => k.zuid ≠ k'.zuid :=
  ((senderKeys_sorted cache).imp Nat.ne_of_lt).sublist (call.keys_sublist cache)

theorem Call.filter_keys_length (call : Call) (cache : Cache) (zuid : Nat) :
    ((call.keys cache).filter (·.zuid = zuid)).length ≤ 1 := by
  have hpair := (call.keys_distinct cache).sublist
    (filter_sublist (p := fun key => key.zuid = zuid))
  have hmem : ∀ key ∈ (call.keys cache).filter (·.zuid = zuid), key.zuid = zuid := by
    intro key hkey
    simpa using (mem_filter.mp hkey).2
  match hlist : (call.keys cache).filter (·.zuid = zuid) with
  | [] =>
    rw [hlist]
    exact Nat.zero_le 1
  | [_] =>
    rw [hlist]
    exact Nat.le_refl 1
  | first :: second :: rest =>
    rw [hlist] at hpair hmem
    have hne := (pairwise_cons.mp hpair).1 second mem_cons_self
    exact absurd ((hmem first mem_cons_self).trans (hmem second (by simp)).symm) hne

theorem Call.mem_keys_advanced (hlen : Sha256Length crypto) {call : Call} {u : LimeKey}
    (h : u ∈ call.keys (cache.advanced crypto pos)) :
    ∃ key ∈ cache.senderKeys, u = chain crypto key (pos key.zuid) := by
  have hmem := (call.keys_sublist _).subset h
  rw [senderKeys_advanced hlen] at hmem
  obtain ⟨key, hkey, heq⟩ := mem_map.mp hmem
  exact ⟨key, hkey, heq.symm⟩

theorem Call.create_advanced (hlen : Sha256Length crypto) {call : Call}
    (hwritable : ∀ zuid, call.writable zuid) :
    (call.create crypto (cache.advanced crypto pos)).cache =
      cache.advanced crypto (moved pos (call.keys (cache.advanced crypto pos))) := by
  rw [(call.create_spec crypto _).2]
  exact storeDerived_advanced hwritable (fun u hu => Call.mem_keys_advanced hlen hu)
    (call.keys_distinct _)

/-- A run has at most one message for each call. -/
theorem length_sent (crypto : Crypto) (zuid : Nat) (cache : Cache) (calls : List Call) :
    (sent crypto zuid cache calls).length ≤ calls.length := by
  induction calls generalizing cache with
  | nil => simp [sent]
  | cons call calls ih =>
    have hone := call.filter_keys_length cache zuid
    have hrest := ih (call.create crypto cache).cache
    simp only [sent, length_append, length_map, length_cons]
    omega

/-- The messages for a row are at consecutive positions of its chain. -/
theorem sent_spec (hlen : Sha256Length crypto) {calls : List Call}
    (hwritable : ∀ call ∈ calls, ∀ zuid, call.writable zuid) {zuid i : Nat} {message : Sent}
    (h : (sent crypto zuid (cache.advanced crypto pos) calls)[i]? = some message) :
    (∃ pos', message.cache = cache.advanced crypto pos') ∧
      message.key ∈ message.call.keys message.cache ∧ ∃ key ∈ cache.senderKeys, key.zuid = zuid ∧
        message.key = chain crypto key (pos zuid + i) := by
  induction calls generalizing pos i with
  | nil => simp [sent] at h
  | cons call calls ih =>
    have hcall := hwritable call mem_cons_self
    have hcalls : ∀ call ∈ calls, ∀ zuid, call.writable zuid := fun call hmem =>
      hwritable call (mem_cons_of_mem _ hmem)
    have hone := call.filter_keys_length (cache.advanced crypto pos) zuid
    rw [sent, Call.create_advanced hlen hcall] at h
    match hlist : (call.keys (cache.advanced crypto pos)).filter (·.zuid = zuid) with
    | [] =>
      rw [hlist] at h
      have hpos : moved pos (call.keys (cache.advanced crypto pos)) zuid = pos zuid := by
        simp [moved, hlist]
      rw [← hpos]
      exact ih hcalls h
    | [used] =>
      rw [hlist] at h
      have hused : used ∈ call.keys (cache.advanced crypto pos) ∧ used.zuid = zuid := by
        have hmem : used ∈ (call.keys (cache.advanced crypto pos)).filter (·.zuid = zuid) := by
          simp [hlist]
        simpa using hmem
      cases i with
      | zero =>
        cases h
        obtain ⟨key, hkey, heq⟩ := Call.mem_keys_advanced hlen hused.1
        have hzuid : key.zuid = zuid := by rw [← hused.2, heq, zuid_chain]
        refine ⟨⟨pos, rfl⟩, hused.1, key, hkey, hzuid, ?_⟩
        rw [heq, hzuid]
        rfl
      | succ i =>
        have hpos : moved pos (call.keys (cache.advanced crypto pos)) zuid = pos zuid + 1 := by
          simp [moved, hlist]
        have hrest := ih hcalls h
        rwa [hpos, Nat.add_assoc, Nat.add_comm 1 i] at hrest
    | _ :: _ :: _ =>
      rw [hlist] at hone
      simp at hone

/-- What a call does that has a key: it encrypts its text and its content type with each key, and puts
them in the document. -/
theorem Call.create_of_mem_keys (crypto : Crypto) {call : Call} {cache : Cache} {key : LimeKey}
    (h : key ∈ call.keys cache) :
    ∃ message contentType selfZid, call.message = some message ∧
      call.contentType = some contentType ∧
      getSelfZID call.stray cache call.selfURI = some selfZid ∧
      (call.create crypto cache).output = some
        { zid := textChild (int8ToStr selfZid)
          msgs := (call.keys cache).map fun key => msgNode crypto key contentType message selfZid } ∧
      (call.create crypto cache).encryptions = (call.keys cache).flatMap fun key =>
        [encryptionOf key .text (counted message) selfZid,
         encryptionOf key .contentType (counted contentType) selfZid] := by
  unfold Call.keys at h
  split at h
  · next hall =>
    obtain ⟨hself, hmessage, hcontent⟩ := hall
    obtain ⟨selfZid, hself⟩ := Option.isSome_iff_exists.mp hself
    obtain ⟨message, hmessage⟩ := Option.isSome_iff_exists.mp hmessage
    obtain ⟨contentType, hcontent⟩ := Option.isSome_iff_exists.mp hcontent
    refine ⟨message, contentType, selfZid, hmessage, hcontent, hself, ?_⟩
    cases hkeys : getCachedSndKeysByURI cache call.now call.selfURI call.peerURI with
    | error status => simp [hkeys, Except.toOption] at h
    | ok peerKeys =>
      constructor <;>
        simp [Call.create, createMultipartMessage, Call.keys, hself, hmessage, hcontent, hkeys,
          Except.toOption]
  · simp at h

/-- Every encryption of a run is that of a message for a row, at the position of the row. -/
theorem mem_encryptions (hlen : Sha256Length crypto) {calls : List Call}
    (hwritable : ∀ call ∈ calls, ∀ zuid, call.writable zuid) {first : Nat}
    {u : Nat × Encryption} (h : u ∈ encryptions crypto (cache.advanced crypto pos) first calls) :
    ∃ key ∈ cache.senderKeys, ∃ i message,
      (sent crypto key.zuid (cache.advanced crypto pos) calls)[i]? = some message ∧
      ∃ text contentType selfZid, message.call.message = some text ∧
        message.call.contentType = some contentType ∧
        (u.2 = encryptionOf (chain crypto key (pos key.zuid + i)) .text (counted text) selfZid ∨
          u.2 = encryptionOf (chain crypto key (pos key.zuid + i)) .contentType
            (counted contentType) selfZid) := by
  induction calls generalizing pos first with
  | nil => simp [encryptions] at h
  | cons call calls ih =>
    have hcall := hwritable call mem_cons_self
    have hcalls : ∀ call ∈ calls, ∀ zuid, call.writable zuid := fun call hmem =>
      hwritable call (mem_cons_of_mem _ hmem)
    simp only [sent]
    obtain hu | hu := mem_append.mp h
    · obtain ⟨e, he, rfl⟩ := mem_map.mp hu
      obtain ⟨used, hused, -⟩ := wholeKey_mem_keys he
      obtain ⟨text, contentType, selfZid, htext, hcontent, -, -, hlist⟩ :=
        Call.create_of_mem_keys crypto hused
      rw [hlist] at he
      obtain ⟨used, hused, he⟩ := mem_flatMap.mp he
      obtain ⟨key, hkey, heq⟩ := Call.mem_keys_advanced hlen hused
      have hfilter : used ∈ (call.keys (cache.advanced crypto pos)).filter (·.zuid = key.zuid) :=
        mem_filter.mpr ⟨hused, by simp [heq]⟩
      refine ⟨key, hkey, 0, ⟨call, cache.advanced crypto pos, used⟩, ?_, text, contentType, selfZid,
        htext, hcontent, ?_⟩
      · have hone := call.filter_keys_length (cache.advanced crypto pos) key.zuid
        rcases hfiltered : (call.keys (cache.advanced crypto pos)).filter (·.zuid = key.zuid) with
          _ | ⟨only, _ | ⟨second, more⟩⟩
        · simp [hfiltered] at hfilter
        · rw [hfiltered] at hfilter
          rw [mem_singleton.mp hfilter, hfiltered]
          rfl
        · rw [hfiltered] at hone
          simp at hone
      · rw [Nat.add_zero, ← heq]
        simpa using he
    · rw [Call.create_advanced hlen hcall] at hu
      obtain ⟨key, hkey, i, message, hi, hrest⟩ := ih hcalls hu
      rw [Call.create_advanced hlen hcall]
      refine ⟨key, hkey, ((call.keys (cache.advanced crypto pos)).filter
        (·.zuid = key.zuid)).length + i, message, ?_, ?_⟩
      · rw [List.getElem?_append_right (by simp), length_map]
        simpa using hi
      · rw [← Nat.add_assoc]
        exact hrest

end Run

end GrooveIp.Lime
