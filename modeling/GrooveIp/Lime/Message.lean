import GrooveIp.Lime.Cache

/-!
# LIME messages

Creation and decryption of the multipart message of LIME (`lime.c:312–761`). HMAC-SHA256 and AES-GCM
are parameters, and so is what lies in memory behind a string. Decryption is a program that may
fault, where the C one writes outside `peerZID`, computes a negative length or writes through a pointer
that was never set.
-/

namespace GrooveIp.Lime

/-- The functions of the cryptographic library. `gcmEncrypt` gives the tag and the cipher text;
`gcmDecrypt` gives nothing when the tag does not match. -/
structure Crypto where
  hmacSha256 : (key data : Bytes) → Bytes
  gcmEncrypt : (key plain authenticatedData iv : Bytes) → Bytes × Bytes
  gcmDecrypt : (key cipher authenticatedData iv tag : Bytes) → Option Bytes

/-- What lies in memory behind the terminator of a string, or in an uninitialised array. -/
structure Stray where
  behind : Bytes → Nat → UInt8
  peerZID : Nat → UInt8

variable (crypto : Crypto) (stray : Stray) (key : LimeKey)

/-- The first `n` bytes from the start of a string, which may be shorter. -/
def Stray.read (s : Bytes) (n : Nat) : Bytes :=
  (s ++ 0 :: (List.range n).map (stray.behind s)).take n

/-- A size as a `uint32_t`. -/
def uint32 (n : Nat) : Nat := n % 2 ^ 32

/-! ## The document -/

/-- An element: `none` without children, else what `xmlNodeListGetString` makes of them. -/
structure Node where
  children : Option (Option Bytes)
  deriving DecidableEq, Repr

/-- A `msg` element: for each path the elements it selects. -/
structure Msg where
  pzid : List Node
  index : List Node
  text : List Node
  contentType : List Node
  deriving DecidableEq, Repr

/-- A document that was read: the elements of `/doc/ZID` and of `/doc/msg`. -/
structure Doc where
  zid : List Node
  msgs : List Msg
  deriving DecidableEq, Repr

/-- The one element of `xmlNewTextChild` with that content. -/
def textChild (content : Bytes) : List Node := [⟨some (some content)⟩]

/-- `linphone_get_xml_text_content` (`xml.c:75`): the content of the last element with children. -/
def textContent (nodes : List Node) : Option Bytes :=
  nodes.foldl (fun text node => node.children.getD text) none

/-- The content of one element is read back. -/
@[simp] theorem textContent_textChild (content : Bytes) :
    textContent (textChild content) = some content := rfl

/-! ## Keys -/

/-- The 55 bytes `lime_deriveKey` hashes. -/
def deriveInput : Bytes :=
  [0x00, 0x00, 0x00, 0x01] ++ ([77, 101, 115, 115, 97, 103, 101, 75, 101, 121] ++ ([0x00] ++
    (key.sessionId ++ (uint32Blob key.sessionIndex ++ [0x00, 0x00, 0x01, 0x00]))))

/-- `lime_deriveKey` (`lime.c:312`). -/
def deriveKey : LimeKey :=
  { key with
    key := crypto.hmacSha256 key.key (deriveInput key)
    sessionIndex := key.sessionIndex + 1 }

/-- Data that is authenticated with a message: both ZIDs and the index. -/
def authenticatedData (senderZID receiverZID : Bytes) (sessionIndex : UInt32) : Bytes :=
  senderZID ++ (receiverZID ++ uint32Blob sessionIndex)

/-- The 192 bits of the AES key. -/
def LimeKey.aesKey : Bytes := key.key.take 24

/-- The initialisation vector: the last 64 bits. -/
def LimeKey.iv : Bytes := (key.key.drop 24).take 8

/-- What `lime_encryptMessage` (`lime.c:376`) writes: the tag and the cipher text. -/
def encryptMessage (plainMessage selfZID : Bytes) : Bytes :=
  let (tag, cipher) := crypto.gcmEncrypt key.aesKey plainMessage
    (authenticatedData selfZID key.peerZID key.sessionIndex) key.iv
  tag ++ cipher

/-! ## Creation -/

/-- The two parts of a message that are encrypted. -/
inductive Part where
  | text
  | contentType
  deriving DecidableEq, Repr

/-- A call of AES-GCM in `lime_encryptMessage`, with the row its key was read from. -/
structure Encryption where
  zuid : Nat
  part : Part
  aesKey : Bytes
  iv : Bytes
  authenticatedData : Bytes
  plainMessage : Bytes
  deriving DecidableEq, Repr

/-- What is passed to AES-GCM for a part of a message. -/
def encryptionOf (part : Part) (plainMessage selfZID : Bytes) : Encryption where
  zuid := key.zuid
  part := part
  aesKey := key.aesKey
  iv := key.iv
  authenticatedData := authenticatedData selfZID key.peerZID key.sessionIndex
  plainMessage := plainMessage

/-- A string as its `(uint32_t)strlen` says. -/
def counted (s : Bytes) : Bytes := s.take (uint32 s.length)

/-- An encrypted part in base64, as long as its `uint32_t` length says. -/
def encryptedPart (s selfZID : Bytes) : Bytes :=
  base64Encode ((encryptMessage crypto key (counted s) selfZID).take
    (uint32 (uint32 s.length + 16)))

/-- The `msg` element for a key (`lime.c:536–568`). -/
def msgNode (contentType message selfZID : Bytes) : Msg where
  pzid := textChild (int8ToStr key.peerZID)
  index := textChild (uint32ToStr key.sessionIndex)
  text := textChild (encryptedPart crypto key message selfZID)
  contentType := textChild (encryptedPart crypto key contentType selfZID)

/-- What a call of `lime_createMultipartMessage` leaves behind. -/
structure Created where
  status : Status
  output : Option Doc := none
  cache : Cache
  encryptions : List Encryption := []

/-- The ZID of `bzrtp_getSelfZID`, 12 bytes wherever the blob ends. -/
def getSelfZID (cache : Cache) (selfURI : String) : Option Bytes :=
  (cache.selfRow selfURI).map fun row => stray.read row.zid 12

/-- The cache after the loop of `lime_createMultipartMessage` over the keys: each is derived once
after its use, and written with a result that nobody looks at. `writable` is by `zuid`. -/
def storeDerived (writable : Nat → Bool) (cache : Cache) (peerKeys : List LimeKey) :
    Cache :=
  peerKeys.foldl (fun cache key =>
    cacheWrite cache (writable key.zuid) .sender (deriveKey crypto key)) cache

/-- `lime_createMultipartMessage` (`lime.c:472`); the output is the document that is printed. -/
def createMultipartMessage (crypto : Crypto) (stray : Stray) (now : Int) (writable : Nat → Bool)
    (cache : Cache) (contentType message : Option Bytes) (selfURI peerURI : String) : Created :=
  match getSelfZID stray cache selfURI with
  | none => { status := .unableToEncryptMessage, cache }
  | some selfZid =>
    match message, contentType with
    | some message, some contentType =>
      match getCachedSndKeysByURI cache now selfURI peerURI with
      | .error status => { status, cache }
      | .ok peerKeys =>
        { status := .ok
          output := some
            { zid := textChild (int8ToStr selfZid)
              msgs := peerKeys.map fun key => msgNode crypto key contentType message selfZid }
          cache := storeDerived crypto writable cache peerKeys
          encryptions := peerKeys.flatMap fun key =>
            [encryptionOf key .text (counted message) selfZid,
             encryptionOf key .contentType (counted contentType) selfZid] }
    | _, _ => { status := .unableToEncryptMessage, cache }

/-! ## Decryption -/

/-- Where decryption stops being defined. -/
inductive LimeFault where
  | peerZidOverflow
  | negativeLength
  | uninitialisedPointer
  deriving DecidableEq, Repr

/-- An output pointer when the function returns; a buffer is one it allocated, with what was written
to it. -/
inductive OutPointer where
  | untouched
  | null
  | buffer (written : Bytes)
  deriving DecidableEq, Repr

/-- What a call of `lime_decryptMultipartMessage` leaves behind. -/
structure Decrypted where
  status : Status
  output : OutPointer := .untouched
  contentType : OutPointer := .untouched
  cache : Option Cache

/-- `MAX_DERIVATION_NUMBER`. -/
def maxDerivationNumber : Nat := 100

/-- `lime_decryptMessage` (`lime.c:445`) for a buffer of that many bytes; the length is a `uint32_t`.
A terminator is written behind the message whether or not its tag matches. -/
def decryptMessage (encryptedMessage selfZID : Bytes) : Except LimeFault (Option Bytes) :=
  let messageLength := uint32 encryptedMessage.length
  if messageLength < 16 then .error .negativeLength
  else .ok ((crypto.gcmDecrypt key.aesKey ((encryptedMessage.drop 16).take (messageLength - 16))
    (authenticatedData key.peerZID selfZID key.sessionIndex) key.iv (encryptedMessage.take 16)).map
      (· ++ [0]))

/-- `lime_setCachedKey` (`lime.c:254`). The buffer the validity is written to was never set. -/
def setCachedKey (cache : Cache) (writable : Bool) (key : LimeKey) (role : Role)
    (validityTimeSpan : Nat) : Except LimeFault Cache :=
  if 0 < validityTimeSpan ∧ role = .receiver then .error .uninitialisedPointer
  else .ok (cacheWrite cache writable role key)

/-- The `peerZID` that `bctbx_str_to_uint8` leaves for the `/doc/ZID` of a message, whose length it is
given as a `uint16_t`. -/
def readPeerZID (peerZidHex : Bytes) : Except LimeFault Bytes :=
  let written := strToUint8 peerZidHex (peerZidHex.length % 2 ^ 16)
  if 12 < written.length then .error .peerZidOverflow
  else .ok (written ++ ((List.range 12).drop written.length).map stray.peerZID)

/-- The first `msg` whose `pzid` is our ZID. -/
def Doc.ourMsg (doc : Doc) (selfZid : Bytes) : Option Msg :=
  doc.msgs.find? fun msg => textContent msg.pzid = some (int8ToStr selfZid)

/-- The index a message was encrypted with, zero when it does not say. -/
def Msg.usedSessionIndex (msg : Msg) : UInt32 :=
  match textContent msg.index with
  | some sessionIndexHex => strToUint32 (stray.read sessionIndexHex 8)
  | none => 0

/-- The loop that derives the receiver key up to the index of the message (`lime.c:717`); it makes as
many rounds as there are indices between, at most `fuel`. -/
def deriveUpTo (crypto : Crypto) (usedSessionIndex : UInt32) : (fuel : Nat) → LimeKey → LimeKey
  | 0, key => key
  | fuel + 1, key =>
    if key.sessionIndex < usedSessionIndex then
      deriveUpTo crypto usedSessionIndex fuel (deriveKey crypto key)
    else key

/-- The key a message is decrypted with, when its index is neither behind the cached one nor too far
ahead (`lime.c:690–719`). -/
def messageKey (usedSessionIndex : UInt32) (key : LimeKey) : Option LimeKey :=
  if usedSessionIndex < key.sessionIndex then none
  else if maxDerivationNumber < (usedSessionIndex - key.sessionIndex).toNat then none
  else some (deriveUpTo crypto usedSessionIndex maxDerivationNumber key)

/-- Decryption from the text on, with the key of the message (`lime.c:722–751`). -/
def decryptParts (cache : Cache) (writable : Bool) (key : LimeKey)
    (encryptedMessage : Bytes) (encryptedContentType : Option Bytes) (selfZid : Bytes)
    (validityTimeSpan : Nat) : Except LimeFault Decrypted := do
  match ← decryptMessage crypto key encryptedMessage selfZid with
  | none => return { status := .unableToDecryptMessage, output := .null, cache := some cache }
  | some output =>
    match encryptedContentType with
    | none =>
      let cache ← setCachedKey cache writable (deriveKey crypto key) .receiver validityTimeSpan
      return { status := .ok, output := .buffer output, cache := some cache }
    | some encryptedContentType =>
      match ← decryptMessage crypto key encryptedContentType selfZid with
      | none => return { status := .unableToDecryptMessage, output := .buffer output,
                         contentType := .null, cache := some cache }
      | some contentType =>
        let cache ← setCachedKey cache writable (deriveKey crypto key) .receiver validityTimeSpan
        return { status := .ok, output := .buffer output, contentType := .buffer contentType,
                 cache := some cache }

/-- `lime_decryptMultipartMessage` (`lime.c:589`) for a document that was read, or not. An empty buffer
is one all the same, since `malloc` gives one of no bytes. -/
def decryptMultipartMessage (writable : Bool)
    (cachedb : Option Cache) (message : Option Doc) (selfURI peerURI : String)
    (validityTimeSpan : Nat) : Except LimeFault Decrypted :=
  match cachedb with
  | none => return { status := .invalidCache, cache := none }
  | some cache =>
    match getSelfZID stray cache selfURI with
    | none => return { status := .unableToDecryptMessage, cache := some cache }
    | some selfZid =>
      match message with
      | none => return { status := .invalidEncryptedMessage, cache := some cache }
      | some doc =>
        match textContent doc.zid with
        | none => return { status := .unableToDecryptMessage, cache := some cache }
        | some peerZidHex => do
          let peerZID ← readPeerZID stray peerZidHex
          match getCachedRcvKeyByZid cache peerZID selfURI peerURI with
          | .error status => return { status, cache := some cache }
          | .ok associatedKey =>
            match doc.ourMsg selfZid with
            | none => return { status := .unableToDecryptMessage, cache := some cache }
            | some msg =>
              match textContent msg.text with
              | none => return { status := .unableToDecryptMessage, cache := some cache }
              | some encryptedMessageb64 =>
                match messageKey crypto (msg.usedSessionIndex stray) associatedKey with
                | none => return { status := .unableToDecryptMessage, cache := some cache }
                | some key =>
                  decryptParts crypto cache writable key (base64Decode encryptedMessageb64)
                    ((textContent msg.contentType).map base64Decode) selfZid validityTimeSpan

end GrooveIp.Lime
