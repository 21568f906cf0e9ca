import GrooveIp.Lime.Codec

/-!
# The LIME cache

The rows of the ZID cache that LIME reads (`lime.c:52–252`) and the write of an updated key
(`lime.c:254`, `zidCache.c:470`). The tables `ziduri`, `zrtp` and `lime` are joined on `zuid`, which is
the key of each of them; a column that is NULL, or whose row is missing, is the empty blob.
-/

namespace GrooveIp.Lime

/-- `limeKey_t`. -/
structure LimeKey where
  zuid : Nat
  key : Bytes
  sessionId : Bytes
  sessionIndex : UInt32
  peerZID : Bytes
  deriving DecidableEq, Repr

/-- A row of table `lime`. -/
structure LimeRow where
  sndKey : Bytes := []
  rcvKey : Bytes := []
  sndSId : Bytes := []
  rcvSId : Bytes := []
  sndIndex : Bytes := []
  rcvIndex : Bytes := []
  valid : Bytes := []
  deriving DecidableEq, Repr

/-- A row of table `ziduri`, with the column of `zrtp` and the row of `lime` that go with it. -/
structure CacheRow where
  zuid : Nat
  zid : Bytes
  selfuri : String
  peeruri : String
  pvs : Bytes := []
  lime : Option LimeRow := none
  deriving DecidableEq, Repr

/-- The rows of the cache, in the order of their `zuid`. -/
structure Cache where
  rows : List CacheRow
  sorted : (rows.map CacheRow.zuid).Pairwise (· < ·)

/-- The return values of LIME (`lime.h:23`). -/
inductive Status where
  | ok
  | invalidCache
  | unableToDeriveKey
  | unableToEncryptMessage
  | unableToDecryptMessage
  | noValidKeyFoundForPeer
  | invalidEncryptedMessage
  | peerKeyHasExpired
  deriving DecidableEq, Repr

/-- `LIME_SENDER` and `LIME_RECEIVER`. -/
inductive Role where
  | sender
  | receiver
  deriving DecidableEq, Repr

/-- The `int64_t` in a blob of eight bytes. -/
def blobInt64 (blob : Bytes) : Int :=
  let n : Nat := blob.foldl (fun acc b => acc * 256 + b.toNat) 0
  if n < 2 ^ 63 then n else (n : Int) - 2 ^ 64

/-! ## Reading keys -/

/-- The sender key of a row, whether or not it has expired, when every column has its length. -/
def CacheRow.sndKey (row : CacheRow) : Option (LimeKey × Int) :=
  let lime := row.lime.getD {}
  if row.zid.length = 12 ∧ lime.sndKey.length = 32 ∧ lime.sndSId.length = 32 ∧
      lime.sndIndex.length = 4 ∧ lime.valid.length = 8 then
    some ({ zuid := row.zuid, key := lime.sndKey, sessionId := lime.sndSId,
            sessionIndex := blobUint32 lime.sndIndex, peerZID := row.zid }, blobInt64 lime.valid)
  else none

variable (cache : Cache)

/-- The rows of a verified peer: the join of the query in `lime_getCachedSndKeysByURI`. -/
def Cache.verified (selfURI peerURI : String) : List CacheRow :=
  cache.rows.filter fun row =>
    row.selfuri = selfURI ∧ row.peeruri = peerURI ∧ row.pvs = [1]

/-- `lime_getCachedSndKeysByURI` with a self URI: the keys of the peer that have not expired. -/
def getCachedSndKeysByURI (now : Int) (selfURI peerURI : String) : Except Status (List LimeKey) :=
  let found := (cache.verified selfURI peerURI).filterMap CacheRow.sndKey
  let peerKeys := found.filterMap fun (key, validity) =>
    if validity = 0 ∨ now < validity then some key else none
  if peerKeys.isEmpty then
    .error (if found.isEmpty then .noValidKeyFoundForPeer else .peerKeyHasExpired)
  else .ok peerKeys

/-- The receiver key of a row, when every column has its length. -/
def CacheRow.rcvKey (row : CacheRow) (peerZID : Bytes) : Option LimeKey :=
  let lime := row.lime.getD {}
  if lime.rcvKey.length = 32 ∧ lime.rcvSId.length = 32 ∧ lime.rcvIndex.length = 4 then
    some { zuid := row.zuid, key := lime.rcvKey, sessionId := lime.rcvSId,
           sessionIndex := blobUint32 lime.rcvIndex, peerZID }
  else none

/-- `lime_getCachedRcvKeyByZid`: the first row of the verified peer with that ZID. -/
def getCachedRcvKeyByZid (peerZID : Bytes) (selfURI peerURI : String) : Except Status LimeKey :=
  match (cache.verified selfURI peerURI).find? (·.zid = peerZID) with
  | none => .error .noValidKeyFoundForPeer
  | some row =>
    match row.rcvKey peerZID with
    | none => .error .noValidKeyFoundForPeer
    | some key => .ok key

/-- The row `bzrtp_getSelfZID` (`zidCache.c:195`) takes the ZID from. -/
def Cache.selfRow (selfURI : String) : Option CacheRow :=
  cache.rows.find? fun row => row.selfuri = selfURI ∧ row.peeruri = "self"

/-! ## Writing keys -/

/-- The three columns of a role. -/
def LimeRow.put (row : LimeRow) (role : Role) (key : LimeKey) : LimeRow :=
  match role with
  | .sender =>
    { row with sndKey := key.key, sndSId := key.sessionId, sndIndex := uint32Blob key.sessionIndex }
  | .receiver =>
    { row with rcvKey := key.key, rcvSId := key.sessionId, rcvIndex := uint32Blob key.sessionIndex }

/-- The update of a row of the cache, which is inserted in `lime` when there is none. -/
def CacheRow.put (row : CacheRow) (role : Role) (key : LimeKey) : CacheRow :=
  if row.zuid = key.zuid then { row with lime := some ((row.lime.getD {}).put role key) } else row

/-- A write leaves the ids of the row. -/
@[simp] theorem CacheRow.zuid_put (row : CacheRow) (role : Role) (key : LimeKey) :
    (row.put role key).zuid = row.zuid := by
  unfold put
  split <;> rfl

/-- `bzrtp_cache_write` for the columns of a role (`zidCache.c:470`). `writable` is whether the
database takes the statement; a `zuid` without a row violates the foreign key and is refused. -/
def cacheWrite (writable : Bool) (role : Role) (key : LimeKey) : Cache :=
  if writable then
    { rows := cache.rows.map fun row => row.put role key
      sorted := by simpa [Function.comp_def] using cache.sorted }
  else cache

end GrooveIp.Lime
