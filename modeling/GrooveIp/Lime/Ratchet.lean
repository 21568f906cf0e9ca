import GrooveIp.Lime.Chain
import GrooveIp.Lime.Hostile

/-!
# The LIME ratchet

Two devices whose caches start with the same key: the messages the sender creates move along its chain,
and whatever is delivered to the receiver, in any order, with losses, replays and forgeries, the key in
its cache stays a key of that chain. It moves past a message when one is decrypted and stays where it is
otherwise.
-/

namespace GrooveIp.Lime

open List List
open Option (some_inj)

variable {crypto : Crypto}

/-! ## The receiver's key -/

/-- The receiver's key at a position of the chain: its own row and the sender's ZID. -/
def received (crypto : Crypto) (first : LimeKey) (zuid : Nat) (peerZID : Bytes) (n : Nat) : LimeKey :=
  { chain crypto first n with zuid, peerZID }

theorem chain_received (first : LimeKey) (zuid : Nat) (peerZID : Bytes) (n d : Nat) :
    chain crypto (received crypto first zuid peerZID n) d =
      received crypto first zuid peerZID (n + d) := by
  induction d with
  | zero => rfl
  | succ d ih =>
    change deriveKey crypto (chain crypto (received crypto first zuid peerZID n) d) = _
    rw [ih]
    rfl

variable {key : LimeKey}

theorem deriveUpTo_eq {usedSessionIndex : UInt32} {fuel d : Nat} (hd : d ≤ fuel)
    (h : key.sessionIndex.toNat + d = usedSessionIndex.toNat) :
    deriveUpTo crypto usedSessionIndex fuel key = chain crypto key d := by
  induction fuel generalizing key d with
  | zero =>
    obtain rfl : d = 0 := by omega
    rfl
  | succ fuel ih =>
    have hbound := usedSessionIndex.toNat_lt
    cases d with
    | zero =>
      have hnot : ¬ key.sessionIndex < usedSessionIndex := by
        rw [UInt32.lt_iff_toNat_lt]
        omega
      rw [deriveUpTo, if_neg hnot]
      rfl
    | succ d =>
      have hlt : key.sessionIndex < usedSessionIndex := by
        rw [UInt32.lt_iff_toNat_lt]
        omega
      have hnext : (deriveKey crypto key).sessionIndex.toNat = key.sessionIndex.toNat + 1 := by
        exact Nat.mod_eq_of_lt (by simp; omega)
      rw [deriveUpTo, if_pos hlt, ih (Nat.le_of_succ_le_succ hd) (by omega)]
      have hfirst : deriveKey crypto key = chain crypto key 1 := rfl
      rw [hfirst, chain_chain, Nat.add_comm]

theorem messageKey_eq_some_iff {usedSessionIndex : UInt32} {key' : LimeKey} :
    messageKey crypto usedSessionIndex key = some key' ↔
      ∃ d ≤ maxDerivationNumber, key.sessionIndex.toNat + d = usedSessionIndex.toNat ∧
        key' = chain crypto key d := by
  unfold messageKey
  constructor
  · intro h
    split at h
    · cases h
    · next hle =>
      rw [UInt32.lt_iff_toNat_lt] at hle
      have hsub : (usedSessionIndex - key.sessionIndex).toNat =
          usedSessionIndex.toNat - key.sessionIndex.toNat :=
        UInt32.toNat_sub_of_le _ _ (UInt32.le_iff_toNat_le.mpr (by omega))
      split at h
      · cases h
      · next hmax =>
        cases h
        have hd : usedSessionIndex.toNat - key.sessionIndex.toNat ≤ maxDerivationNumber := by omega
        exact ⟨_, hd, by omega, deriveUpTo_eq hd (by omega)⟩
  · rintro ⟨d, hd, hindex, rfl⟩
    have hle : ¬ usedSessionIndex < key.sessionIndex := by
      rw [UInt32.lt_iff_toNat_lt]
      omega
    have hsub : (usedSessionIndex - key.sessionIndex).toNat =
        usedSessionIndex.toNat - key.sessionIndex.toNat :=
      UInt32.toNat_sub_of_le _ _ (UInt32.le_iff_toNat_le.mpr (by omega))
    rw [if_neg hle, hsub, if_neg (by omega), deriveUpTo_eq hd hindex]

/-! ## Rows that are written -/

theorem verified_cacheWrite (cache : Cache) (role : Role) (key : LimeKey)
    (selfURI peerURI : String) : (cacheWrite cache true role key).verified selfURI peerURI =
      (cache.verified selfURI peerURI).map fun row => row.put role key := by
  simp only [Cache.verified, cacheWrite, if_true, filter_map]
  congr 1
  apply filter_congr
  intro row _
  have hsame := sameRow_put row role key
  simp [hsame.selfuri, hsame.peeruri, hsame.pvs]

theorem getSelfZID_cacheWrite (stray : Stray) (cache : Cache) (role : Role) (key : LimeKey)
    (selfURI : String) :
    getSelfZID stray (cacheWrite cache true role key) selfURI = getSelfZID stray cache selfURI := by
  simp only [getSelfZID, Cache.selfRow, cacheWrite, if_true, List.find?_map, Option.map_map]
  have hpred : ((fun row : CacheRow => decide (row.selfuri = selfURI ∧ row.peeruri = "self")) ∘
      fun row : CacheRow => row.put role key) =
      fun row : CacheRow => decide (row.selfuri = selfURI ∧ row.peeruri = "self") := by
    funext row
    have hsame := sameRow_put row role key
    simp [hsame.selfuri, hsame.peeruri]
  rw [hpred]
  congr 1
  funext row
  simp [(sameRow_put row role key).zid]

variable {cache : Cache} {peerZID : Bytes} {selfURI peerURI : String}

theorem getCachedRcvKeyByZid_ok (h : getCachedRcvKeyByZid cache peerZID selfURI peerURI = .ok key) :
    ∃ row, (cache.verified selfURI peerURI).find? (·.zid = peerZID) = some row ∧
      row.rcvKey peerZID = some key := by
  unfold getCachedRcvKeyByZid at h
  split at h
  · cases h
  · next row hrow =>
    split at h
    · cases h
    · next key' hkey =>
      cases h
      exact ⟨row, hrow, hkey⟩

theorem mem_verified {row : CacheRow} : row ∈ cache.verified selfURI peerURI ↔
      row ∈ cache.rows ∧ row.selfuri = selfURI ∧ row.peeruri = peerURI ∧ row.pvs = [1] := by
  simp [Cache.verified]

theorem rcvKey_row {row : CacheRow} (h : row.rcvKey peerZID = some key) :
    key.zuid = row.zuid ∧ key.peerZID = peerZID ∧ key.sessionId.length = 32 := by
  unfold CacheRow.rcvKey at h
  dsimp only at h
  split at h
  · next hcols =>
    cases h
    exact ⟨rfl, rfl, hcols.2.1⟩
  · cases h

theorem getCachedRcvKeyByZid_inj {peerZID' : Bytes} {selfURI' peerURI' : String}
    {key' : LimeKey} (h : getCachedRcvKeyByZid cache peerZID selfURI peerURI = .ok key)
    (h' : getCachedRcvKeyByZid cache peerZID' selfURI' peerURI' = .ok key')
    (hzuid : key.zuid = key'.zuid) : key = key' := by
  obtain ⟨row, hrow, hkey⟩ := getCachedRcvKeyByZid_ok h
  obtain ⟨row', hrow', hkey'⟩ := getCachedRcvKeyByZid_ok h'
  have hmem := (mem_verified.mp (mem_of_find?_eq_some hrow)).1
  have hmem' := (mem_verified.mp (mem_of_find?_eq_some hrow')).1
  rw [(rcvKey_row hkey).1, (rcvKey_row hkey').1] at hzuid
  have hsame := cache.eq_of_zuid hmem hmem' hzuid
  have hzid := List.find?_some hrow
  have hzid' := List.find?_some hrow'
  simp only [decide_eq_true_eq] at hzid hzid'
  rw [hsame, ← hzid, hsame] at hkey
  rw [← hzid', hkey] at hkey'
  exact some_inj.mp hkey'

theorem getCachedRcvKeyByZid_cacheWrite {written : LimeKey}
    (h : getCachedRcvKeyByZid cache peerZID selfURI peerURI = .ok key)
    (hkey : written.key.length = 32) (hsid : written.sessionId.length = 32) :
    getCachedRcvKeyByZid (cacheWrite cache true .receiver written) peerZID selfURI peerURI =
      .ok (if written.zuid = key.zuid then { written with peerZID } else key) := by
  obtain ⟨row, hrow, hrcv⟩ := getCachedRcvKeyByZid_ok h
  have hpred : ((fun row : CacheRow => decide (row.zid = peerZID)) ∘
      fun row : CacheRow => row.put .receiver written) = fun row : CacheRow => decide (row.zid = peerZID) := by
    funext row
    simp [(sameRow_put row .receiver written).zid]
  unfold getCachedRcvKeyByZid
  rw [verified_cacheWrite, List.find?_map, hpred, hrow]
  simp only [Option.map_some]
  have hzuid := (rcvKey_row hrcv).1
  by_cases hsame : row.zuid = written.zuid
  · rw [if_pos (by rw [hzuid, hsame])]
    have hindex : (uint32Blob written.sessionIndex).length = 4 := rfl
    simp only [CacheRow.rcvKey, CacheRow.put, hsame, if_true, LimeRow.put, Option.getD_some]
    rw [if_pos ⟨hkey, hsid, hindex⟩, blobUint32_uint32Blob]
  · rw [if_neg (by rw [hzuid]; exact Ne.symm hsame), CacheRow.put, if_neg hsame, hrcv]

/-! ## Two devices -/

/-- The names of two devices: their URIs and ZIDs, the first key of the sender and the row the receiver
keeps it in. -/
structure Link where
  senderURI : String
  receiverURI : String
  senderZID : Bytes
  receiverZID : Bytes
  first : LimeKey
  rcvZuid : Nat

/-- The sender's cache has the first key in the row of the receiver, and no other row of the
receiver's device. -/
structure Link.SenderStarts (link : Link) (cache : Cache) : Prop where
  senderZID : link.senderZID.length = 12
  self : ∀ stray, getSelfZID stray cache link.senderURI = some link.senderZID
  row : ∃ row ∈ cache.verified link.senderURI link.receiverURI, ∃ validity,
    row.sndKey = some (link.first, validity)
  device : link.first.peerZID = link.receiverZID
  only : ∀ row ∈ cache.verified link.senderURI link.receiverURI,
    row.zid = link.receiverZID → row.zuid = link.first.zuid

/-- The receiver's cache has the key at a position of the chain, in the row of the sender. -/
structure Link.ReceiverAt (link : Link) (crypto : Crypto) (cache : Cache) (n : Nat) : Prop where
  self : ∀ stray, getSelfZID stray cache link.receiverURI = some link.receiverZID
  key : getCachedRcvKeyByZid cache link.senderZID link.receiverURI link.senderURI =
    .ok (received crypto link.first link.rcvZuid link.senderZID n)

/-- A message delivered to the receiver's device, with a cache that can be written and no validity to
store. -/
def deliver (crypto : Crypto) (stray : Stray) (cache : Cache) (doc : Doc)
    (selfURI peerURI : String) : Except LimeFault Decrypted :=
  decryptMultipartMessage crypto stray true (some cache) (some doc) selfURI peerURI 0

/-- The caches a receiver gets to by deliveries that stay defined, of any documents from anyone. -/
inductive Delivered (crypto : Crypto) (start : Cache) : Cache → Prop where
  | start : Delivered crypto start start
  | next {cache cache' : Cache} {stray : Stray} {doc : Doc} {selfURI peerURI : String}
      {decrypted : Decrypted} (before : Delivered crypto start cache)
      (run : deliver crypto stray cache doc selfURI peerURI = .ok decrypted)
      (after : decrypted.cache = some cache') : Delivered crypto start cache'

/-- What is assumed of the cryptographic library in a run of messages: the HMAC has 32 bytes, with
distinct outputs for distinct inputs on the chains as far as the receiver can follow them, and none of
them a first key; AES-GCM opens what was encrypted in the run, and under a key of the chain it opens
nothing else. -/
structure Ideal (crypto : Crypto) (link : Link) (cache : Cache) (calls : List Call) : Prop where
  hmacLength : Sha256Length crypto
  outputs : DistinctOutputs crypto (cache.chains crypto (calls.length + maxDerivationNumber))
  keys : DistinctKeys cache
  underived : Underived crypto cache (cache.chains crypto (calls.length + maxDerivationNumber))
  tagLength : ∀ key plain data iv, (crypto.gcmEncrypt key plain data iv).1.length = 16
  cipherLength : ∀ key plain data iv, (crypto.gcmEncrypt key plain data iv).2.length = plain.length
  opens : ∀ u ∈ encryptions crypto cache 0 calls,
    let sealed := crypto.gcmEncrypt u.2.aesKey u.2.plainMessage u.2.authenticatedData u.2.iv
    crypto.gcmDecrypt u.2.aesKey sealed.2 u.2.authenticatedData u.2.iv sealed.1 =
      some u.2.plainMessage
  unforgeable : ∀ n cipher data tag plain,
    crypto.gcmDecrypt (chain crypto link.first n).aesKey cipher data (chain crypto link.first n).iv
      tag = some plain →
    ∃ u ∈ encryptions crypto cache 0 calls, u.2.aesKey = (chain crypto link.first n).aesKey ∧
      u.2.iv = (chain crypto link.first n).iv ∧ u.2.authenticatedData = data ∧
      u.2.plainMessage = plain ∧ crypto.gcmEncrypt u.2.aesKey plain data u.2.iv = (tag, cipher)

/-- A message at position `i` is in the window of a receiver at position `n`: it is not behind, at most
`maxDerivationNumber` ahead, and the index does not wrap on the way. -/
def Link.InWindow (link : Link) (crypto : Crypto) (n i : Nat) : Prop :=
  n ≤ i ∧ i ≤ n + maxDerivationNumber ∧
    (chain crypto link.first n).sessionIndex.toNat + (i - n) < 2 ^ 32

/-- The `i`-th message for the receiver's device in a run of the sender. -/
def Link.Message (link : Link) (crypto : Crypto) (cache : Cache) (calls : List Call) (i : Nat)
    (message : Sent) : Prop :=
  (sent crypto link.first.zuid cache calls)[i]? = some message

/-- The ZID of a document is the sender's. -/
def Link.Claims (link : Link) (stray : Stray) (doc : Doc) : Prop :=
  ∀ peerZidHex ∈ textContent doc.zid, readPeerZID stray peerZidHex = .ok link.senderZID

section Sender

variable {link : Link} {cache : Cache} {calls : List Call}

theorem advanced_zero (crypto : Crypto) (cache : Cache) : cache.advanced crypto (fun _ => 0) = cache := by
  apply Cache.ext_rows
  simp [Cache.advanced, CacheRow.advanced]

theorem verified_advanced (cache : Cache) (pos : Nat → Nat) (selfURI peerURI : String) :
    (cache.advanced crypto pos).verified selfURI peerURI =
      (cache.verified selfURI peerURI).map fun row => row.advanced crypto (pos row.zuid) := by
  simp only [Cache.verified, Cache.advanced, filter_map]
  congr 1
  apply filter_congr
  intro row _
  have hsame := sameRow_advanced crypto row (pos row.zuid)
  simp [hsame.selfuri, hsame.peeruri, hsame.pvs]

theorem getSelfZID_advanced (stray : Stray) (cache : Cache) (pos : Nat → Nat) (selfURI : String) :
    getSelfZID stray (cache.advanced crypto pos) selfURI = getSelfZID stray cache selfURI := by
  simp only [getSelfZID, Cache.selfRow, Cache.advanced, List.find?_map, Option.map_map]
  have hpred : ((fun row : CacheRow => decide (row.selfuri = selfURI ∧ row.peeruri = "self")) ∘
      fun row : CacheRow => row.advanced crypto (pos row.zuid)) =
      fun row : CacheRow => decide (row.selfuri = selfURI ∧ row.peeruri = "self") := by
    funext row
    have hsame := sameRow_advanced crypto row (pos row.zuid)
    simp [hsame.selfuri, hsame.peeruri]
  rw [hpred]
  congr 1
  funext row
  simp [(sameRow_advanced crypto row (pos row.zuid)).zid]

theorem Call.mem_keys_row {call : Call} {key : LimeKey} (h : key ∈ call.keys cache) :
    ∃ row ∈ cache.verified call.selfURI call.peerURI, ∃ validity,
      row.sndKey = some (key, validity) := by
  unfold Call.keys getCachedSndKeysByURI at h
  dsimp only at h
  split at h
  · split at h
    · simp [Except.toOption] at h
    · simp only [Except.toOption, Option.getD_some, mem_filterMap] at h
      obtain ⟨⟨found, validity⟩, ⟨row, hrow, hkey⟩, hvalid⟩ := h
      split at hvalid
      · cases hvalid
        exact ⟨row, hrow, validity, hkey⟩
      · cases hvalid
  · simp at h

theorem mem_encryptions_of_sent {zuid first : Nat} {message : Sent}
    (h : message ∈ sent crypto zuid cache calls) {e : Encryption}
    (he : e ∈ (message.call.create crypto message.cache).encryptions) :
    ∃ number, (number, e) ∈ encryptions crypto cache first calls := by
  induction calls generalizing cache first with
  | nil => simp [sent] at h
  | cons call calls ih =>
    obtain hcall | hrest := mem_append.mp h
    · obtain ⟨key, -, rfl⟩ := mem_map.mp hcall
      exact ⟨first, mem_append_left _ (mem_map_of_mem he)⟩
    · obtain ⟨number, hnumber⟩ := ih hrest
      exact ⟨number, mem_append_right _ hnumber⟩

theorem Link.call_uris (start : link.SenderStarts cache) {pos : Nat → Nat} {call : Call}
    {key : LimeKey} (h : key ∈ call.keys (cache.advanced crypto pos))
    (hzuid : key.zuid = link.first.zuid) :
    call.selfURI = link.senderURI ∧ call.peerURI = link.receiverURI := by
  obtain ⟨moved, hmoved, validity, hkey⟩ := Call.mem_keys_row h
  rw [verified_advanced] at hmoved
  obtain ⟨row, hrow, rfl⟩ := mem_map.mp hmoved
  obtain ⟨first, hfirst, validity', hfirstKey⟩ := start.row
  have hrowMem := mem_verified.mp hrow
  have hfirstMem := mem_verified.mp hfirst
  have hsame : row = first := by
    apply cache.eq_of_zuid hrowMem.1 hfirstMem.1
    rw [← (sndKey_row hfirstKey).1, ← hzuid, (sndKey_row hkey).1,
      (sameRow_advanced crypto row _).zuid]
  rw [← hrowMem.2.1, ← hrowMem.2.2.1, hsame]
  exact ⟨hfirstMem.2.1, hfirstMem.2.2.1⟩

theorem Link.find_key (start : link.SenderStarts cache) {pos : Nat → Nat} {call : Call}
    {key : LimeKey} (h : key ∈ call.keys (cache.advanced crypto pos))
    (hzuid : key.zuid = link.first.zuid) (hdevice : key.peerZID = link.receiverZID) :
    (call.keys (cache.advanced crypto pos)).find? (·.peerZID = link.receiverZID) = some key := by
  have huris := link.call_uris start h hzuid
  have honly : ∀ other ∈ call.keys (cache.advanced crypto pos),
      other.peerZID = link.receiverZID → other = key := by
    intro other hother hzid
    obtain ⟨moved, hmoved, validity, hkey⟩ := Call.mem_keys_row hother
    rw [verified_advanced] at hmoved
    obtain ⟨row, hrow, rfl⟩ := mem_map.mp hmoved
    rw [huris.1, huris.2] at hrow
    have hsame := sameRow_advanced crypto row (pos row.zuid)
    have hrowZid : row.zid = link.receiverZID := by
      rw [← hsame.zid, ← (sndKey_row hkey).2.1, hzid]
    have hrowZuid := start.only row hrow hrowZid
    have hmem := (call.keys_sublist _).subset hother
    refine eq_of_zuid_eq hmem ((call.keys_sublist _).subset h) ?_
    rw [(sndKey_row hkey).1, hsame.zuid, hrowZuid, hzuid]
  cases hfind : (call.keys (cache.advanced crypto pos)).find? (·.peerZID = link.receiverZID) with
  | none =>
    have hnone := List.find?_eq_none.mp hfind key h
    simp [hdevice] at hnone
  | some other =>
    have hother := List.find?_some hfind
    simp only [decide_eq_true_eq] at hother
    rw [honly other (mem_of_find?_eq_some hfind) hother]

theorem Link.message_doc (start : link.SenderStarts cache) (ideal : Ideal crypto link cache calls)
    (hwritable : ∀ call ∈ calls, ∀ zuid, call.writable zuid) {i : Nat} {message : Sent}
    (h : link.Message crypto cache calls i message) :
    ∃ text contentType doc, message.call.message = some text ∧
      message.call.contentType = some contentType ∧
      (message.call.create crypto message.cache).output = some doc ∧
      doc.zid = textChild (int8ToStr link.senderZID) ∧ doc.ourMsg link.receiverZID =
        some (msgNode crypto (chain crypto link.first i) contentType text link.senderZID) ∧
      (∃ number, (number, encryptionOf (chain crypto link.first i) .text (counted text)
        link.senderZID) ∈ encryptions crypto cache 0 calls) ∧
      ∃ number, (number, encryptionOf (chain crypto link.first i) .contentType
        (counted contentType) link.senderZID) ∈ encryptions crypto cache 0 calls := by
  have hmem := mem_of_getElem? h
  rw [← advanced_zero crypto cache] at h
  obtain ⟨⟨pos, hcache⟩, hkey, key, hfirst, hzuid, hchain⟩ :=
    sent_spec ideal.hmacLength hwritable h
  obtain ⟨row, hrow, validity, hrowKey⟩ := start.row
  have hfirstMem : link.first ∈ cache.senderKeys :=
    mem_senderKeys.mpr ⟨row, (mem_verified.mp hrow).1, validity, hrowKey⟩
  obtain rfl := eq_of_zuid_eq hfirst hfirstMem hzuid
  rw [Nat.zero_add] at hchain
  have hkeyZuid : message.key.zuid = link.first.zuid := by rw [hchain, zuid_chain]
  have hkeyDevice : message.key.peerZID = link.receiverZID := by
    rw [hchain, peerZID_chain, start.device]
  rw [hcache] at hkey
  have huris := link.call_uris start hkey hkeyZuid
  obtain ⟨text, contentType, selfZid, htext, hcontent, hself, hdoc, hlist⟩ :=
    Call.create_of_mem_keys crypto hkey
  rw [getSelfZID_advanced, huris.1, start.self, some_inj] at hself
  subst hself
  refine ⟨text, contentType, _, htext, hcontent, by rw [hcache]; exact hdoc, rfl, ?_, ?_, ?_⟩
  · unfold Doc.ourMsg
    have hpred : ((fun msg : Msg =>
        decide (textContent msg.pzid = some (int8ToStr link.receiverZID))) ∘
        fun key => msgNode crypto key contentType text link.senderZID) =
        fun key : LimeKey => decide (key.peerZID = link.receiverZID) := by
      funext key
      simp [msgNode, int8ToStr_inj]
    rw [List.find?_map, hpred, link.find_key start hkey hkeyZuid hkeyDevice, hchain]
    rfl
  all_goals
    refine mem_encryptions_of_sent hmem ?_
    rw [hcache, hlist]
    refine mem_flatMap.mpr ⟨message.key, hkey, ?_⟩
    simp [hchain]

end Sender

/-! ## Decryption of a message -/

section Receiver

variable {link : Link} {cache start : Cache} {calls : List Call} {n : Nat}

theorem decode_encryptedPart (ideal : Ideal crypto link start calls) {s : Bytes}
    (hs : s.length + 16 < 2 ^ 32) (key : LimeKey) (selfZid : Bytes) :
    base64Decode (encryptedPart crypto key s selfZid) = encryptMessage crypto key s selfZid ∧
      (encryptMessage crypto key s selfZid).length = s.length + 16 := by
  have hlen : (encryptMessage crypto key s selfZid).length = s.length + 16 := by
    simp only [encryptMessage, length_append, ideal.tagLength, ideal.cipherLength]
    omega
  have hcount : uint32 s.length = s.length := Nat.mod_eq_of_lt (by omega)
  have hsum : uint32 (s.length + 16) = s.length + 16 := Nat.mod_eq_of_lt hs
  have hcounted : counted s = s := by
    unfold counted
    rw [hcount, take_length]
  refine ⟨?_, hlen⟩
  unfold encryptedPart
  rw [base64Decode_base64Encode, hcounted, hcount, hsum, ← hlen, take_length]

theorem opened_encryptMessage (senderStarts : link.SenderStarts start)
    (ideal : Ideal crypto link start calls) {s : Bytes} (hs : s.length + 16 < 2 ^ 32) {i : Nat}
    {part : Part} (h : ∃ number, (number, encryptionOf (chain crypto link.first i) part (counted s)
      link.senderZID) ∈ encryptions crypto start 0 calls) :
    HoldsTag (encryptMessage crypto (chain crypto link.first i) s link.senderZID) ∧
      opened crypto (received crypto link.first link.rcvZuid link.senderZID i)
        (encryptMessage crypto (chain crypto link.first i) s link.senderZID) link.receiverZID =
          some s := by
  obtain ⟨number, hmem⟩ := h
  have hopens := ideal.opens _ hmem
  have hlen := (decode_encryptedPart ideal hs (chain crypto link.first i) link.senderZID).2
  have hcount : uint32 (s.length + 16) = s.length + 16 := Nat.mod_eq_of_lt hs
  have hcounted : counted s = s := by
    unfold counted uint32
    rw [Nat.mod_eq_of_lt (by omega), take_length]
  rw [hcounted] at hopens
  constructor
  · unfold HoldsTag
    rw [hlen, hcount]
    omega
  · unfold opened
    rw [hlen, hcount]
    have htag := ideal.tagLength (chain crypto link.first i).aesKey s (authenticatedData
      link.senderZID (chain crypto link.first i).peerZID
        (chain crypto link.first i).sessionIndex) (chain crypto link.first i).iv
    have hcipher := ideal.cipherLength (chain crypto link.first i).aesKey s (authenticatedData
      link.senderZID (chain crypto link.first i).peerZID
        (chain crypto link.first i).sessionIndex) (chain crypto link.first i).iv
    simp only [encryptMessage]
    rw [drop_left' htag, take_left' htag, Nat.add_sub_cancel,
      take_of_length_le (Nat.le_of_eq hcipher)]
    have hdevice : (chain crypto link.first i).peerZID = link.receiverZID := by
      rw [peerZID_chain, senderStarts.device]
    simp only [encryptionOf, hdevice] at hopens ⊢
    exact hopens

theorem readPeerZID_int8ToStr (stray : Stray) {zid : Bytes} (h : zid.length = 12) :
    readPeerZID stray (int8ToStr zid) = .ok zid := by
  have hlen : (int8ToStr zid).length = 24 := by rw [length_int8ToStr, h]
  have hread : strToUint8 (int8ToStr zid) ((int8ToStr zid).length % 2 ^ 16) = zid := by
    have hmod : (int8ToStr zid).length % 2 ^ 16 = (int8ToStr zid).length :=
      Nat.mod_eq_of_lt (by rw [hlen]; decide)
    rw [hmod, strToUint8_int8ToStr]
  unfold readPeerZID
  simp only [hread, h]
  simp

theorem usedSessionIndex_msgNode (stray : Stray) (key : LimeKey)
    (contentType text selfZid : Bytes) :
    (msgNode crypto key contentType text selfZid).usedSessionIndex stray = key.sessionIndex := by
  have hread : stray.read (uint32ToStr key.sessionIndex) 8 = uint32ToStr key.sessionIndex ++ [] := by
    have hlen : (uint32ToStr key.sessionIndex).length = 8 := rfl
    unfold Stray.read
    rw [append_nil, take_left' hlen]
  change strToUint32 (stray.read (uint32ToStr key.sessionIndex) 8) = _
  rw [hread, strToUint32_uint32ToStr]

theorem Link.InWindow.index {i : Nat} (h : link.InWindow crypto n i) :
    (chain crypto link.first n).sessionIndex.toNat + (i - n) =
      (chain crypto link.first i).sessionIndex.toNat := by
  obtain ⟨hle, -, hwrap⟩ := h
  obtain ⟨d, rfl⟩ := Nat.exists_eq_add_of_le hle
  rw [Nat.add_sub_cancel_left] at hwrap ⊢
  rw [← chain_chain, sessionIndex_chain (chain crypto link.first n), UInt32.toNat_add,
    UInt32.toNat_ofNat']
  rw [Nat.mod_eq_of_lt (show d < 2 ^ 32 by omega), Nat.mod_eq_of_lt hwrap]

variable {doc : Doc}

theorem Link.attempt_message (senderStarts : link.SenderStarts start)
    (at_ : link.ReceiverAt crypto cache n) {i : Nat} (hwindow : link.InWindow crypto n i)
    (stray : Stray) {contentType text : Bytes}
    (hzid : doc.zid = textChild (int8ToStr link.senderZID))
    (hmsg : doc.ourMsg link.receiverZID = some (msgNode crypto (chain crypto link.first i)
      contentType text link.senderZID)) :
    attempt crypto stray cache doc link.receiverURI link.senderURI = some
      { selfZid := link.receiverZID
        key := received crypto link.first link.rcvZuid link.senderZID i
        text := base64Decode (encryptedPart crypto (chain crypto link.first i) text link.senderZID)
        contentType := some (base64Decode
          (encryptedPart crypto (chain crypto link.first i) contentType link.senderZID)) } := by
  have hkey : messageKey crypto (chain crypto link.first i).sessionIndex
      (received crypto link.first link.rcvZuid link.senderZID n) =
        some (received crypto link.first link.rcvZuid link.senderZID i) := by
    refine messageKey_eq_some_iff.mpr ⟨i - n, ?_, hwindow.index, ?_⟩
    · have hmax := hwindow.2.1
      omega
    · rw [chain_received, Nat.add_sub_cancel' hwindow.1]
  simp only [attempt, at_.self, hzid, textContent_textChild,
    readPeerZID_int8ToStr stray senderStarts.senderZID, Except.toOption, at_.key, hmsg,
    usedSessionIndex_msgNode, hkey, Option.bind_eq_bind, Option.bind_some]
  rfl

variable {stray : Stray} {selfURI peerURI : String}

theorem attempt_key {a : Attempt} (h : attempt crypto stray cache doc selfURI peerURI = some a) :
    getSelfZID stray cache selfURI = some a.selfZid ∧
    ∃ peerZidHex peerZID key, textContent doc.zid = some peerZidHex ∧
      readPeerZID stray peerZidHex = .ok peerZID ∧
      getCachedRcvKeyByZid cache peerZID selfURI peerURI = .ok key ∧
      ∃ msg, doc.ourMsg a.selfZid = some msg ∧ ∃ d ≤ maxDerivationNumber,
        key.sessionIndex.toNat + d = (msg.usedSessionIndex stray).toNat ∧
        a.key = chain crypto key d := by
  simp only [attempt, Option.bind_eq_bind, Option.bind_eq_some_iff, Except.toOption] at h
  obtain ⟨selfZid, hself, peerZidHex, hhex, peerZID, hpeer, key, hkey, msg, hmsg, text, htext,
    ready, hready, ha⟩ := h
  cases ha
  obtain ⟨d, hd, hindex, rfl⟩ := messageKey_eq_some_iff.mp hready
  refine ⟨hself, peerZidHex, peerZID, key, hhex, ?_, ?_, msg, hmsg, d, hd, hindex, rfl⟩
  · split at hpeer
    · cases hpeer
      assumption
    · cases hpeer
  · split at hkey
    · cases hkey
      assumption
    · cases hkey

/-- A decryption that succeeds: the text of an attempt opens, and its content type if there is one, and
the next key is stored. -/
def Accepted (crypto : Crypto) (cache : Cache) (a : Attempt) (decrypted : Decrypted) : Prop :=
  decrypted.status = .ok ∧
  decrypted.cache = some (cacheWrite cache true .receiver (deriveKey crypto a.key)) ∧
  (∃ text, opened crypto a.key a.text a.selfZid = some text ∧
    decrypted.output = .buffer (text ++ [0])) ∧
  (decrypted.contentType = .untouched ∨ ∃ part contentType,
    opened crypto a.key part a.selfZid = some contentType ∧
    decrypted.contentType = .buffer (contentType ++ [0]))

variable {decrypted : Decrypted}

theorem decryptParts_cases {a : Attempt}
    (h : decryptParts crypto cache true a.key a.text a.contentType a.selfZid 0 = .ok decrypted) :
    (decrypted.status ≠ .ok ∧ decrypted.cache = some cache) ∨ Accepted crypto cache a decrypted := by
  by_cases htext : HoldsTag a.text
  swap
  · rw [decryptParts_of_short htext] at h
    cases h
  cases hopened : opened crypto a.key a.text a.selfZid with
  | none =>
    rw [decryptParts_of_forged htext hopened] at h
    cases h
    exact .inl ⟨by simp, rfl⟩
  | some text =>
    cases hcontent : a.contentType with
    | none =>
      rw [decryptParts_of_text htext hopened hcontent] at h
      cases h
      exact .inr ⟨rfl, rfl, ⟨text, hopened, rfl⟩, .inl rfl⟩
    | some part =>
      by_cases hpart : HoldsTag part
      swap
      · rw [decryptParts_of_short_contentType htext hopened hcontent hpart] at h
        cases h
      cases hopened' : opened crypto a.key part a.selfZid with
      | none =>
        rw [decryptParts_of_forged_contentType htext hopened hcontent hpart hopened'] at h
        cases h
        exact .inl ⟨by simp, rfl⟩
      | some contentType =>
        rw [decryptParts_of_both htext hopened hcontent hpart hopened'] at h
        cases h
        exact .inr ⟨rfl, rfl, ⟨text, hopened, rfl⟩, .inr ⟨part, contentType, hopened', rfl⟩⟩

theorem deliver_cases (h : deliver crypto stray cache doc selfURI peerURI = .ok decrypted) :
    (decrypted.status ≠ .ok ∧ decrypted.cache = some cache) ∨
      ∃ a, attempt crypto stray cache doc selfURI peerURI = some a ∧
        Accepted crypto cache a decrypted := by
  unfold deliver at h
  by_cases hzid : (getSelfZID stray cache selfURI).isSome →
    ∀ peerZidHex ∈ textContent doc.zid, peerZidHex.length % 2 ^ 16 < 26
  · obtain ⟨a, ha, heq⟩ | ⟨-, status, hne, heq⟩ := decryptMultipartMessage_cases crypto stray true
      cache doc selfURI peerURI 0 hzid
    · rw [heq] at h
      obtain hfail | hok := decryptParts_cases h
      · exact .inl hfail
      · exact .inr ⟨a, ha, hok⟩
    · rw [heq] at h
      cases h
      exact .inl ⟨hne, rfl⟩
  · simp only [Classical.not_imp, not_forall] at hzid
    obtain ⟨hself, peerZidHex, hhex, hlong⟩ := hzid
    rw [decryptMultipartMessage_overflow hself hhex hlong] at h
    cases h

theorem key_eq_of_parts {key key' : LimeKey} (hlen : key.key.length = 32)
    (hlen' : key'.key.length = 32) (haes : key.aesKey = key'.aesKey) (hiv : key.iv = key'.iv) :
    key.key = key'.key := by
  have hparts : ∀ {key : LimeKey}, key.key.length = 32 → key.aesKey ++ key.iv = key.key := by
    intro key hlen
    unfold LimeKey.aesKey LimeKey.iv
    rw [take_of_length_le (l := key.key.drop 24) (by rw [length_drop, hlen]), take_append_drop]
  rw [← hparts hlen, ← hparts hlen', haes, hiv]

theorem Link.genuine (senderStarts : link.SenderStarts start)
    (ideal : Ideal crypto link start calls)
    (hwritable : ∀ call ∈ calls, ∀ zuid, call.writable zuid) {i : Nat}
    (hi : i ≤ calls.length + maxDerivationNumber) {part selfZid plain : Bytes}
    (h : opened crypto (received crypto link.first link.rcvZuid link.senderZID i) part selfZid =
      some plain) : ∃ message text contentType, link.Message crypto start calls i message ∧
      message.call.message = some text ∧ message.call.contentType = some contentType ∧
      (plain = counted text ∨ plain = counted contentType) := by
  obtain ⟨u, hu, haes, hiv, -, rfl, -⟩ := ideal.unforgeable i _ _ _ _ h
  rw [← advanced_zero crypto start] at hu
  obtain ⟨key, hkey, j, message, hj, text, contentType, selfZid, htext, hcontent, hparts⟩ :=
    mem_encryptions ideal.hmacLength hwritable hu
  rw [advanced_zero] at hj
  simp only [Nat.zero_add] at hparts
  have hbound : j ≤ calls.length + maxDerivationNumber := by
    have hlt := (List.getElem?_eq_some_iff.mp hj).1
    have hlen := length_sent crypto key.zuid start calls
    omega
  obtain ⟨row, hrow, validity, hrowKey⟩ := senderStarts.row
  have hfirst : link.first ∈ start.senderKeys :=
    mem_senderKeys.mpr ⟨row, (mem_verified.mp hrow).1, validity, hrowKey⟩
  have hsame : (chain crypto key j).key = (chain crypto link.first i).key := by
    refine key_eq_of_parts (length_chain ideal.hmacLength (length_of_mem_senderKeys hkey) j)
      (length_chain ideal.hmacLength (length_of_mem_senderKeys hfirst) i) ?_ ?_
    · rw [← haes]
      obtain h | h := hparts <;> rw [h] <;> rfl
    · rw [← hiv]
      obtain h | h := hparts <;> rw [h] <;> rfl
  obtain ⟨rfl, rfl⟩ := chain_inj ideal.outputs ideal.keys ideal.underived hkey hfirst hbound hi hsame
  refine ⟨message, text, contentType, hj, htext, hcontent, ?_⟩
  obtain h | h := hparts
  · exact .inl (by rw [h]; rfl)
  · exact .inr (by rw [h]; rfl)

theorem Link.ReceiverAt.store (at_ : link.ReceiverAt crypto cache n) (hlen : Sha256Length crypto)
    (i : Nat) : link.ReceiverAt crypto (cacheWrite cache true .receiver
      (deriveKey crypto (received crypto link.first link.rcvZuid link.senderZID i))) (i + 1) where
  self := fun stray => (getSelfZID_cacheWrite stray cache _ _ _).trans (at_.self stray)
  key := by
    obtain ⟨row, -, hrow⟩ := getCachedRcvKeyByZid_ok at_.key
    have hsid := (rcvKey_row hrow).2.2
    change (chain crypto link.first n).sessionId.length = 32 at hsid
    rw [sessionId_chain] at hsid
    have hzuid : (deriveKey crypto (received crypto link.first link.rcvZuid link.senderZID i)).zuid =
        (received crypto link.first link.rcvZuid link.senderZID n).zuid := rfl
    rw [getCachedRcvKeyByZid_cacheWrite at_.key (hlen _ _) ?_, if_pos hzuid]
    · rfl
    · change (chain crypto link.first i).sessionId.length = 32
      rwa [sessionId_chain]

theorem Link.ReceiverAt.store_other (at_ : link.ReceiverAt crypto cache n) {written : LimeKey}
    (hkey : written.key.length = 32) (hsid : written.sessionId.length = 32)
    (hne : written.zuid ≠ link.rcvZuid) :
    link.ReceiverAt crypto (cacheWrite cache true .receiver written) n where
  self := fun stray => (getSelfZID_cacheWrite stray cache _ _ _).trans (at_.self stray)
  key := by
    have hother : written.zuid ≠
        (received crypto link.first link.rcvZuid link.senderZID n).zuid := hne
    rw [getCachedRcvKeyByZid_cacheWrite at_.key hkey hsid, if_neg hother]

theorem Link.ReceiverAt.window (at_ : link.ReceiverAt crypto cache n) {a : Attempt}
    (h : attempt crypto stray cache doc selfURI peerURI = some a) :
    (a.key.zuid ≠ link.rcvZuid ∧ a.key.sessionId.length = 32) ∨ ∃ i, link.InWindow crypto n i ∧
      a.key = received crypto link.first link.rcvZuid link.senderZID i ∧
      ∃ msg, doc.ourMsg a.selfZid = some msg ∧
        msg.usedSessionIndex stray = (chain crypto link.first i).sessionIndex := by
  obtain ⟨-, peerZidHex, peerZID, key, -, -, hkey, msg, hmsg, d, hd, hindex, heq⟩ := attempt_key h
  by_cases hzuid : key.zuid = link.rcvZuid
  · have hsame := getCachedRcvKeyByZid_inj hkey at_.key hzuid
    rw [hsame] at heq hindex
    rw [chain_received] at heq
    have hbound := (msg.usedSessionIndex stray).toNat_lt
    change (chain crypto link.first n).sessionIndex.toNat + d = _ at hindex
    have hwindow : link.InWindow crypto n (n + d) :=
      ⟨Nat.le_add_right n d, Nat.add_le_add_left hd n, by
        omega⟩
    refine .inr ⟨n + d, hwindow, heq, msg, hmsg, ?_⟩
    have hwindowIndex := hwindow.index
    rw [Nat.add_sub_cancel_left] at hwindowIndex
    exact UInt32.toNat_inj.mp (hindex.symm.trans hwindowIndex)
  · obtain ⟨row, -, hrow⟩ := getCachedRcvKeyByZid_ok hkey
    refine .inl ⟨?_, ?_⟩
    · rwa [heq, zuid_chain]
    · rw [heq, sessionId_chain]
      exact (rcvKey_row hrow).2.2

/-- What a receiver at a position does: it returns each message of the run in the window and moves
past it, accepts under the sender's ZID nothing but parts of such a message, and stays where it is
when it fails. -/
structure Link.InStep (link : Link) (crypto : Crypto) (start : Cache) (calls : List Call)
    (cache : Cache) (n : Nat) : Prop where
  returns : ∀ i message text contentType doc stray,
    link.Message crypto start calls i message → link.InWindow crypto n i →
    message.call.message = some text → message.call.contentType = some contentType →
    text.length + 16 < 2 ^ 32 → contentType.length + 16 < 2 ^ 32 →
    (message.call.create crypto message.cache).output = some doc →
    ∃ decrypted cache', deliver crypto stray cache doc link.receiverURI link.senderURI =
        .ok decrypted ∧ decrypted.status = .ok ∧ decrypted.output = .buffer (text ++ [0]) ∧
      decrypted.contentType = .buffer (contentType ++ [0]) ∧
      decrypted.cache = some cache' ∧ link.ReceiverAt crypto cache' (i + 1)
  accepts : ∀ stray doc decrypted, link.Claims stray doc →
    deliver crypto stray cache doc link.receiverURI link.senderURI = .ok decrypted →
    decrypted.status = .ok →
    ∃ i message text contentType msg, link.Message crypto start calls i message ∧
      link.InWindow crypto n i ∧ message.call.message = some text ∧
      message.call.contentType = some contentType ∧ doc.ourMsg link.receiverZID = some msg ∧
      msg.usedSessionIndex stray = (chain crypto link.first i).sessionIndex ∧
      (∃ plain, (plain = counted text ∨ plain = counted contentType) ∧
        decrypted.output = .buffer (plain ++ [0])) ∧ (decrypted.contentType = .untouched ∨
        ∃ plain, (plain = counted text ∨ plain = counted contentType) ∧
          decrypted.contentType = .buffer (plain ++ [0])) ∧
      ∃ cache', decrypted.cache = some cache' ∧ link.ReceiverAt crypto cache' (i + 1)
  keeps : ∀ stray doc selfURI peerURI decrypted,
    deliver crypto stray cache doc selfURI peerURI = .ok decrypted →
    decrypted.status ≠ .ok → decrypted.cache = some cache

/-- A receiver whose position has not passed the run is in step. -/
theorem Link.inStep (senderStarts : link.SenderStarts start) (ideal : Ideal crypto link start calls)
    (hwritable : ∀ call ∈ calls, ∀ zuid, call.writable zuid)
    (at_ : link.ReceiverAt crypto cache n) (hn : n ≤ calls.length) :
    link.InStep crypto start calls cache n := by
  constructor
  case returns =>
    intro i message text contentType doc stray hmessage hwindow htext hcontent htextLength
      hcontentLength hdoc
    obtain ⟨text', contentType', doc', htext', hcontent', hdoc', hzid, hmsg, htextIn, hcontentIn⟩ :=
      link.message_doc senderStarts ideal hwritable hmessage
    obtain rfl := some_inj.mp (htext.symm.trans htext')
    obtain rfl := some_inj.mp (hcontent.symm.trans hcontent')
    obtain rfl := some_inj.mp (hdoc.symm.trans hdoc')
    have hattempt := link.attempt_message senderStarts at_ hwindow stray hzid hmsg
    rw [(decode_encryptedPart ideal htextLength _ _).1,
      (decode_encryptedPart ideal hcontentLength _ _).1] at hattempt
    obtain ⟨htag, hopened⟩ := opened_encryptMessage senderStarts ideal htextLength htextIn
    obtain ⟨htag', hopened'⟩ := opened_encryptMessage senderStarts ideal hcontentLength hcontentIn
    have hzidFits : (getSelfZID stray cache link.receiverURI).isSome →
        ∀ peerZidHex ∈ textContent doc.zid, peerZidHex.length % 2 ^ 16 < 26 := by
      intro _ peerZidHex hhex
      rw [hzid, textContent_textChild, Option.mem_some_iff] at hhex
      rw [← hhex, length_int8ToStr, senderStarts.senderZID]
      decide
    obtain ⟨a, ha, heq⟩ | ⟨hnone, -⟩ := decryptMultipartMessage_cases crypto stray true cache doc
      link.receiverURI link.senderURI 0 hzidFits
    · have hfields := some_inj.mp (hattempt.symm.trans ha)
      have htagA : HoldsTag a.text := by rw [← hfields]; exact htag
      have hopenedA : opened crypto a.key a.text a.selfZid = some text := by
        rw [← hfields]
        exact hopened
      have hcontentA : a.contentType = some
          (encryptMessage crypto (chain crypto link.first i) contentType link.senderZID) := by
        rw [← hfields]
      have hopenedA' : opened crypto a.key (encryptMessage crypto (chain crypto link.first i)
          contentType link.senderZID) a.selfZid = some contentType := by
        rw [← hfields]
        exact hopened'
      rw [decryptParts_of_both htagA hopenedA hcontentA htag' hopenedA'] at heq
      refine ⟨_, _, heq, rfl, rfl, rfl, rfl, ?_⟩
      rw [← hfields]
      exact at_.store ideal.hmacLength i
    · rw [hattempt] at hnone
      cases hnone
  case accepts =>
    intro stray doc decrypted hclaims hrun hok
    obtain ⟨hfail, -⟩ | ⟨a, ha, -, hcache, ⟨text, hopened, houtput⟩, hcontent⟩ :=
      deliver_cases hrun
    · exact absurd hok hfail
    obtain ⟨hself, peerZidHex, peerZID, key, hhex, hpeer, hkey, -, -, d, -, -, heq⟩ :=
      attempt_key ha
    rw [at_.self, some_inj] at hself
    have hzid := (hclaims peerZidHex hhex).symm.trans hpeer
    cases hzid
    obtain ⟨hother, -⟩ | ⟨i, hwindow, haKey, msg, hmsg, hindex⟩ := at_.window ha
    · have hsame := Except.ok.inj (hkey.symm.trans at_.key)
      rw [heq, zuid_chain, hsame] at hother
      exact absurd rfl hother
    have hi : i ≤ calls.length + maxDerivationNumber := by
      have hmax := hwindow.2.1
      omega
    rw [haKey] at hopened hcontent hcache
    obtain ⟨message, text', contentType', hmessage, htext', hcontent', hplain⟩ :=
      link.genuine senderStarts ideal hwritable hi hopened
    refine ⟨i, message, text', contentType', msg, hmessage, hwindow, htext', hcontent', ?_, hindex,
      ⟨text, hplain, houtput⟩, ?_, _, hcache, at_.store ideal.hmacLength i⟩
    · rw [hself]
      exact hmsg
    · obtain huntouched | ⟨part, contentType, hopened', hbuffer⟩ := hcontent
      · exact .inl huntouched
      · obtain ⟨message', text'', contentType'', hmessage', htext'', hcontent'', hplain'⟩ :=
          link.genuine senderStarts ideal hwritable hi hopened'
        obtain rfl := some_inj.mp (Eq.trans (Eq.symm hmessage) hmessage')
        obtain rfl := some_inj.mp (htext'.symm.trans htext'')
        obtain rfl := some_inj.mp (hcontent'.symm.trans hcontent'')
        exact .inr ⟨contentType, hplain', hbuffer⟩
  case keeps =>
    intro stray doc selfURI peerURI decrypted hrun hfail
    obtain ⟨-, hcache⟩ | ⟨a, -, hok, -⟩ := deliver_cases hrun
    · exact hcache
    · exact absurd hok hfail

theorem Link.ReceiverAt.deliver (senderStarts : link.SenderStarts start)
    (ideal : Ideal crypto link start calls) (hwritable : ∀ call ∈ calls, ∀ zuid, call.writable zuid)
    (at_ : link.ReceiverAt crypto cache n) (hn : n ≤ calls.length)
    (hrun : deliver crypto stray cache doc selfURI peerURI = .ok decrypted) {cache' : Cache}
    (hcache : decrypted.cache = some cache') :
    ∃ m ≤ calls.length, link.ReceiverAt crypto cache' m := by
  obtain ⟨-, hsame⟩ | ⟨a, ha, -, hstored, ⟨text, hopened, -⟩, -⟩ := deliver_cases hrun
  · obtain rfl := some_inj.mp (hcache.symm.trans hsame)
    exact ⟨n, hn, at_⟩
  · obtain rfl := some_inj.mp (hcache.symm.trans hstored)
    obtain ⟨hother, hsid⟩ | ⟨i, hwindow, haKey, -⟩ := at_.window ha
    · exact ⟨n, hn, at_.store_other (ideal.hmacLength _ _) hsid hother⟩
    · rw [haKey] at hopened ⊢
      have hi : i ≤ calls.length + maxDerivationNumber := by
        have hmax := hwindow.2.1
        omega
      obtain ⟨message, -, -, hmessage, -⟩ := link.genuine senderStarts ideal hwritable hi hopened
      have hlt := (List.getElem?_eq_some_iff.mp hmessage).1
      have hlen := length_sent crypto link.first.zuid start calls
      exact ⟨i + 1, by omega, at_.store ideal.hmacLength i⟩

/-- Whatever has been delivered, the receiver is at a position of the chain and in step with the
sender. -/
theorem Link.ratchet_inStep {receiver : Cache} (senderStarts : link.SenderStarts start)
    (receiverStarts : link.ReceiverAt crypto receiver 0) (ideal : Ideal crypto link start calls)
    (hwritable : ∀ call ∈ calls, ∀ zuid, call.writable zuid)
    (hdelivered : Delivered crypto receiver cache) :
    ∃ n, link.ReceiverAt crypto cache n ∧ link.InStep crypto start calls cache n := by
  have hposition : ∃ n ≤ calls.length, link.ReceiverAt crypto cache n := by
    induction hdelivered with
    | start => exact ⟨0, Nat.zero_le _, receiverStarts⟩
    | next before run after ih =>
      obtain ⟨n, hn, at_⟩ := ih
      exact at_.deliver senderStarts ideal hwritable hn run after
  obtain ⟨n, hn, at_⟩ := hposition
  exact ⟨n, at_, link.inStep senderStarts ideal hwritable at_ hn⟩

end Receiver

/-! ## One message and its parts exchanged -/

/-- The bytes that are opened, with the key, the authenticated data, the vector and the tag. -/
def oneMessageTable : List (Bytes × Bytes × Bytes × Bytes × Bytes) :=
  ([[104], [116]] : List Bytes).map fun plain =>
    (replicate 24 0, plain,
      authenticatedData (replicate 12 1) (replicate 12 2) 0, replicate 8 0,
      replicate 16 0)

/-- An HMAC that counts in the first byte of the key, and a cipher that opens one message only. -/
def countingCrypto : Crypto where
  hmacSha256 := fun key _ => ((key.headD 0 + 1) :: (key.tail ++ replicate 32 0)).take 32
  gcmEncrypt := fun _ plain _ _ => (replicate 16 0, plain)
  gcmDecrypt := fun key cipher data iv tag =>
    if (key, cipher, data, iv, tag) ∈ oneMessageTable then some cipher else none

/-- The cache of the receiver of that message. -/
def receiverCache : Cache where
  rows :=
    [{ zuid := 1, zid := replicate 12 2, selfuri := "sip:b@x", peeruri := "self" },
     { zuid := 2, zid := replicate 12 1, selfuri := "sip:b@x", peeruri := "sip:a@x"
       pvs := [1]
       lime := some
        { rcvKey := replicate 32 0, rcvSId := replicate 32 9
          rcvIndex := uint32Blob 0 } }]
  sorted := by decide

/-- The two devices. -/
def oneLink : Link where
  senderURI := "sip:a@x"
  receiverURI := "sip:b@x"
  senderZID := replicate 12 1
  receiverZID := replicate 12 2
  first :=
    { zuid := 2, key := replicate 32 0, sessionId := replicate 32 9, sessionIndex := 0
      peerZID := replicate 12 2 }
  rcvZuid := 2

theorem oneLink_senderStarts : oneLink.SenderStarts onePeer where
  senderZID := rfl
  self := fun _ => rfl
  row := ⟨senderRow 2 "sip:b@x" 0 0, by decide +kernel, 0, by decide +kernel⟩
  device := rfl
  only := by decide +kernel

theorem oneLink_receiverAt : oneLink.ReceiverAt countingCrypto receiverCache 0 where
  self := fun _ => rfl
  key := rfl

theorem senderKeys_onePeer : onePeer.senderKeys = [oneLink.first] := by
  decide +kernel

theorem key_chain_oneLink (n : Nat) :
    (chain countingCrypto oneLink.first n).key = UInt8.ofNat n :: replicate 31 0 := by
  induction n with
  | zero => rfl
  | succ n ih =>
    have hstep : ∀ key, (deriveKey countingCrypto key).key =
        ((key.key.headD 0 + 1) :: (key.key.tail ++ replicate 32 0)).take 32 := fun _ => rfl
    change (deriveKey countingCrypto (chain countingCrypto oneLink.first n)).key = _
    rw [hstep, ih, UInt8.ofNat_add]
    rfl

theorem gcmDecrypt_countingCrypto {key cipher data iv tag plain : Bytes}
    (h : countingCrypto.gcmDecrypt key cipher data iv tag = some plain) :
    key = replicate 24 0 ∧ iv = replicate 8 0 ∧ tag = replicate 16 0 ∧
      data = authenticatedData (replicate 12 1) (replicate 12 2) 0 ∧
      ((cipher = [104] ∧ plain = [104]) ∨ (cipher = [116] ∧ plain = [116])) := by
  simp only [countingCrypto] at h
  split at h
  · next hmem =>
    cases h
    simp only [oneMessageTable, map_cons, map_nil, mem_cons, Prod.mk.injEq,
      not_mem_nil, or_false] at hmem
    obtain ⟨rfl, rfl, rfl, rfl, rfl⟩ | ⟨rfl, rfl, rfl, rfl, rfl⟩ := hmem <;> simp
  · cases h

theorem oneLink_ideal : Ideal countingCrypto oneLink onePeer [callTo "sip:b@x"] where
  hmacLength := fun key data => by simp [countingCrypto]
  outputs := by
    intro k hk k' hk' heq
    simp only [Cache.chains, senderKeys_onePeer, flatMap_cons, flatMap_nil,
      append_nil, mem_map, mem_range] at hk hk'
    obtain ⟨n, hn, rfl⟩ := hk
    obtain ⟨n', hn', rfl⟩ := hk'
    change (chain countingCrypto oneLink.first (n + 1)).key =
      (chain countingCrypto oneLink.first (n' + 1)).key at heq
    rw [key_chain_oneLink, key_chain_oneLink] at heq
    have hhead := congrArg UInt8.toNat (List.cons.inj heq).1
    simp only [length_cons, length_nil, maxDerivationNumber] at hn hn'
    simp only [UInt8.toNat_ofNat'] at hhead
    obtain rfl : n = n' := by omega
    rfl
  keys := by
    unfold DistinctKeys
    rw [senderKeys_onePeer]
    simp
  underived := by
    intro k hk k' hk' heq
    simp only [Cache.chains, senderKeys_onePeer, flatMap_cons, flatMap_nil,
      append_nil, mem_map, mem_range] at hk
    obtain ⟨n, hn, rfl⟩ := hk
    rw [senderKeys_onePeer, mem_singleton] at hk'
    subst hk'
    change (chain countingCrypto oneLink.first (n + 1)).key =
      (chain countingCrypto oneLink.first 0).key at heq
    rw [key_chain_oneLink, key_chain_oneLink] at heq
    have hhead := congrArg UInt8.toNat (List.cons.inj heq).1
    simp only [length_cons, length_nil, maxDerivationNumber] at hn
    simp only [UInt8.toNat_ofNat'] at hhead
    omega
  tagLength := fun _ _ _ _ => by simp [countingCrypto]
  cipherLength := fun _ _ _ _ => rfl
  opens := by decide +kernel
  unforgeable := by
    intro n cipher data tag plain h
    obtain ⟨haes, hiv, rfl, rfl, ⟨rfl, rfl⟩ | ⟨rfl, rfl⟩⟩ := gcmDecrypt_countingCrypto h
    · exact ⟨_, mem_cons_self, haes.symm, hiv.symm, rfl, rfl, rfl⟩
    · exact ⟨_, mem_cons_of_mem _ mem_cons_self, haes.symm, hiv.symm, rfl, rfl, rfl⟩

/-- A delivered message of one device to another, before any delivery. -/
theorem ratchet_inStep_oneLink : ∃ n, oneLink.ReceiverAt countingCrypto receiverCache n ∧
      oneLink.InStep countingCrypto onePeer [callTo "sip:b@x"] receiverCache n :=
  oneLink.ratchet_inStep oneLink_senderStarts oneLink_receiverAt oneLink_ideal
    (by simp [callTo]) .start

/-- The message with its text and its content type exchanged. -/
def exchangedDoc : Doc where
  zid := textChild (int8ToStr (replicate 12 1))
  msgs :=
    [{ pzid := textChild (int8ToStr (replicate 12 2))
       index := textChild (uint32ToStr 0)
       text := textChild (encryptedPart countingCrypto oneLink.first [116] (replicate 12 1))
       contentType :=
         textChild (encryptedPart countingCrypto oneLink.first [104] (replicate 12 1)) }]

/-- A message whose text and content type were exchanged on the way is decrypted, and what it returns
is no message of the sender. -/
theorem exchanged_accepted :
    ¬ ∀ (crypto : Crypto) (link : Link) (start receiver cache : Cache) (calls : List Call),
      link.SenderStarts start → link.ReceiverAt crypto receiver 0 →
      Ideal crypto link start calls → (∀ call ∈ calls, ∀ zuid, call.writable zuid) →
      Delivered crypto receiver cache →
      ∀ (stray : Stray) (doc : Doc) (decrypted : Decrypted), link.Claims stray doc →
        deliver crypto stray cache doc link.receiverURI link.senderURI = .ok decrypted →
        decrypted.status = .ok →
        ∃ i message text contentType, link.Message crypto start calls i message ∧
          message.call.message = some text ∧ message.call.contentType = some contentType ∧
          decrypted.output = .buffer (text ++ [0]) ∧
          decrypted.contentType = .buffer (contentType ++ [0]) := by
  intro hall
  let stray : Stray := ⟨fun _ _ => 0, fun _ => 0⟩
  have hrun : (deliver countingCrypto stray receiverCache exchangedDoc "sip:b@x"
      "sip:a@x").toOption.map (fun decrypted => (decrypted.status, decrypted.output)) =
      some (.ok, .buffer [116, 0]) := by
    decide +kernel
  obtain ⟨decrypted, hdecrypted, hresult⟩ := Option.map_eq_some_iff.mp hrun
  obtain ⟨hstatus, houtput⟩ := Prod.mk.inj hresult
  cases hdeliver : deliver countingCrypto stray receiverCache exchangedDoc "sip:b@x" "sip:a@x" with
  | error fault =>
    rw [hdeliver] at hdecrypted
    cases hdecrypted
  | ok result =>
    rw [hdeliver] at hdecrypted
    cases hdecrypted
    have hclaims : oneLink.Claims stray exchangedDoc := by
      intro peerZidHex hhex
      cases hhex
      rfl
    obtain ⟨i, message, text, contentType, hmessage, htext, -, houtput', -⟩ :=
      hall countingCrypto oneLink onePeer receiverCache receiverCache [callTo "sip:b@x"]
        oneLink_senderStarts oneLink_receiverAt oneLink_ideal (by simp [callTo]) .start stray
        exchangedDoc _ hclaims hdeliver hstatus
    have hmessages : ∀ message ∈ sent countingCrypto 2 onePeer [callTo "sip:b@x"],
        message.call.message = some [104] := by
      decide +kernel
    have htext' := hmessages message (mem_of_getElem? hmessage)
    rw [htext, some_inj] at htext'
    rw [houtput', htext'] at houtput
    cases houtput

end GrooveIp.Lime
