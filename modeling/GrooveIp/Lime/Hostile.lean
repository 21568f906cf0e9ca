import GrooveIp.Lime.Message

/-!
# Hostile LIME messages

What the sender of a message controls when it is decrypted: the length of the ZID, which fills a
fixed array, the lengths of the two encrypted parts, from which the tag is subtracted, and whether
decryption gets as far as storing a key. Every run is defined exactly when these are harmless.
-/

namespace GrooveIp.Lime

variable {crypto : Crypto} {stray : Stray} {writable : Bool} {cache : Cache} {doc : Doc}
  {selfURI peerURI : String} {validityTimeSpan : Nat}

/-- An output pointer that was left alone, is NULL or points to a terminated buffer. -/
def OutPointer.Terminated : OutPointer → Prop
  | .buffer written => ∃ s, written = s ++ [0]
  | _ => True

/-- A call that stays defined and leaves terminated buffers or none. -/
def Safe (result : Except LimeFault Decrypted) : Prop :=
  ∃ decrypted, result = .ok decrypted ∧ decrypted.output.Terminated ∧
    decrypted.contentType.Terminated

/-- What a message that gets as far as its decryption is decrypted with. -/
structure Attempt where
  selfZid : Bytes
  key : LimeKey
  text : Bytes
  contentType : Option Bytes

/-- The decryption of a message that has one: our ZID is known, the receiver key is cached, there is a
`msg` for us with a text, and its index is in the window. -/
def attempt (crypto : Crypto) (stray : Stray) (cache : Cache) (doc : Doc)
    (selfURI peerURI : String) : Option Attempt := do
  let selfZid ← getSelfZID stray cache selfURI
  let peerZidHex ← textContent doc.zid
  let peerZID ← (readPeerZID stray peerZidHex).toOption
  let associatedKey ← (getCachedRcvKeyByZid cache peerZID selfURI peerURI).toOption
  let msg ← doc.ourMsg selfZid
  let encryptedMessageb64 ← textContent msg.text
  let key ← messageKey crypto (msg.usedSessionIndex stray) associatedKey
  return { selfZid, key, text := base64Decode encryptedMessageb64
           contentType := (textContent msg.contentType).map base64Decode }

/-- What a part opens to under a key. -/
def opened (crypto : Crypto) (key : LimeKey) (part selfZid : Bytes) : Option Bytes :=
  crypto.gcmDecrypt key.aesKey ((part.drop 16).take (uint32 part.length - 16))
    (authenticatedData key.peerZID selfZid key.sessionIndex) key.iv (part.take 16)

/-- A part that is at least as long as a tag, as its `uint32_t` length says. -/
def HoldsTag (part : Bytes) : Prop := 16 ≤ uint32 part.length

/-- Every part of the message there is opens. -/
def Attempt.Opens (a : Attempt) (crypto : Crypto) : Prop :=
  (opened crypto a.key a.text a.selfZid).isSome ∧
    ∀ part ∈ a.contentType, (opened crypto a.key part a.selfZid).isSome

/-- The messages that do no harm: the ZID has at most 25 characters modulo `2^16`, the parts that are
decrypted hold a tag, and no key is stored with a validity. -/
structure Harmless (crypto : Crypto) (stray : Stray) (cache : Cache) (doc : Doc)
    (selfURI peerURI : String) (validityTimeSpan : Nat) : Prop where
  zid : (getSelfZID stray cache selfURI).isSome → ∀ peerZidHex ∈ textContent doc.zid,
    peerZidHex.length % 2 ^ 16 < 26
  text : ∀ a ∈ attempt crypto stray cache doc selfURI peerURI, HoldsTag a.text
  contentType : ∀ a ∈ attempt crypto stray cache doc selfURI peerURI,
    (opened crypto a.key a.text a.selfZid).isSome → ∀ part ∈ a.contentType, HoldsTag part
  validity : ∀ a ∈ attempt crypto stray cache doc selfURI peerURI,
    a.Opens crypto → validityTimeSpan = 0

variable {part : Bytes}

theorem decryptMessage_of_holdsTag {key : LimeKey} {selfZid : Bytes} (h : HoldsTag part) :
    decryptMessage crypto key part selfZid =
      .ok ((opened crypto key part selfZid).map (· ++ [0])) := by
  simp only [decryptMessage, opened, if_neg (Nat.not_lt.mpr h)]

theorem decryptMessage_of_not_holdsTag {key : LimeKey} {selfZid : Bytes}
    (h : ¬ HoldsTag part) : decryptMessage crypto key part selfZid = .error .negativeLength := by
  simp only [decryptMessage, if_pos (Nat.lt_of_not_le h)]

theorem readPeerZID_isOk_iff (stray : Stray) {peerZidHex : Bytes} :
    (∃ peerZID, readPeerZID stray peerZidHex = .ok peerZID) ↔ peerZidHex.length % 2 ^ 16 < 26 := by
  have hlen := length_strToUint8 (Nat.mod_le peerZidHex.length (2 ^ 16))
  unfold readPeerZID
  simp only [hlen]
  split
  · next hlt =>
    simp
    omega
  · next hle =>
    simp
    omega

theorem readPeerZID_cases (stray : Stray) (peerZidHex : Bytes) :
    (∃ peerZID, readPeerZID stray peerZidHex = .ok peerZID) ∨
      readPeerZID stray peerZidHex = .error .peerZidOverflow := by
  unfold readPeerZID
  dsimp only
  split
  · exact .inr rfl
  · exact .inl ⟨_, rfl⟩

theorem setCachedKey_receiver (cache : Cache) (writable : Bool) (key : LimeKey)
    (validityTimeSpan : Nat) : setCachedKey cache writable key .receiver validityTimeSpan =
      if validityTimeSpan = 0 then .ok (cacheWrite cache writable .receiver key)
      else .error .uninitialisedPointer := by
  unfold setCachedKey
  by_cases h : validityTimeSpan = 0
  · simp [h]
  · simp [h, Nat.pos_of_ne_zero h]

variable {a : Attempt}

/-- A text that holds no tag faults. -/
theorem decryptParts_of_short (h : ¬ HoldsTag a.text) :
    decryptParts crypto cache writable a.key a.text a.contentType a.selfZid validityTimeSpan =
      .error .negativeLength := by
  simp [decryptParts, decryptMessage_of_not_holdsTag h, bind, Except.bind]

/-- A text that does not open is refused. -/
theorem decryptParts_of_forged (h : HoldsTag a.text)
    (hopened : opened crypto a.key a.text a.selfZid = none) :
    decryptParts crypto cache writable a.key a.text a.contentType a.selfZid validityTimeSpan =
      .ok { status := .unableToDecryptMessage, output := .null, cache := some cache } := by
  simp [decryptParts, decryptMessage_of_holdsTag h, hopened, bind, Except.bind, pure, Except.pure]

variable {text : Bytes}

/-- A text alone that opens ends with the storing of the next key. -/
theorem decryptParts_of_text (h : HoldsTag a.text)
    (hopened : opened crypto a.key a.text a.selfZid = some text) (hcontent : a.contentType = none) :
    decryptParts crypto cache writable a.key a.text a.contentType a.selfZid validityTimeSpan =
      if validityTimeSpan = 0 then
        .ok { status := .ok, output := .buffer (text ++ [0])
              cache := some (cacheWrite cache writable .receiver (deriveKey crypto a.key)) }
      else .error .uninitialisedPointer := by
  by_cases hspan : validityTimeSpan = 0 <;>
    simp [decryptParts, decryptMessage_of_holdsTag h, hopened, hcontent, setCachedKey_receiver,
      hspan, bind, Except.bind, pure, Except.pure]

/-- A content type that holds no tag faults once the text has opened. -/
theorem decryptParts_of_short_contentType (h : HoldsTag a.text)
    (hopened : opened crypto a.key a.text a.selfZid = some text)
    (hcontent : a.contentType = some part) (hpart : ¬ HoldsTag part) :
    decryptParts crypto cache writable a.key a.text a.contentType a.selfZid validityTimeSpan =
      .error .negativeLength := by
  simp [decryptParts, decryptMessage_of_holdsTag h, hopened, hcontent,
    decryptMessage_of_not_holdsTag hpart, bind, Except.bind]

/-- A content type that does not open is refused; the text stays with the caller. -/
theorem decryptParts_of_forged_contentType (h : HoldsTag a.text)
    (hopened : opened crypto a.key a.text a.selfZid = some text)
    (hcontent : a.contentType = some part) (hpart : HoldsTag part)
    (hforged : opened crypto a.key part a.selfZid = none) :
    decryptParts crypto cache writable a.key a.text a.contentType a.selfZid validityTimeSpan =
      .ok { status := .unableToDecryptMessage, output := .buffer (text ++ [0])
            contentType := .null, cache := some cache } := by
  simp [decryptParts, decryptMessage_of_holdsTag h, hopened, hcontent,
    decryptMessage_of_holdsTag hpart, hforged, bind, Except.bind, pure, Except.pure]

/-- A text and a content type that open end with the storing of the next key. -/
theorem decryptParts_of_both {contentType : Bytes} (h : HoldsTag a.text)
    (hopened : opened crypto a.key a.text a.selfZid = some text)
    (hcontent : a.contentType = some part) (hpart : HoldsTag part)
    (hopened' : opened crypto a.key part a.selfZid = some contentType) :
    decryptParts crypto cache writable a.key a.text a.contentType a.selfZid validityTimeSpan =
      if validityTimeSpan = 0 then
        .ok { status := .ok, output := .buffer (text ++ [0])
              contentType := .buffer (contentType ++ [0])
              cache := some (cacheWrite cache writable .receiver (deriveKey crypto a.key)) }
      else .error .uninitialisedPointer := by
  by_cases hspan : validityTimeSpan = 0 <;>
    simp [decryptParts, decryptMessage_of_holdsTag h, hopened, hcontent,
      decryptMessage_of_holdsTag hpart, hopened', setCachedKey_receiver, hspan, bind, Except.bind,
      pure, Except.pure]

theorem decryptParts_safe_iff :
    Safe (decryptParts crypto cache writable a.key a.text a.contentType a.selfZid
        validityTimeSpan) ↔ HoldsTag a.text ∧
      ((opened crypto a.key a.text a.selfZid).isSome → ∀ part ∈ a.contentType, HoldsTag part) ∧
      (a.Opens crypto → validityTimeSpan = 0) := by
  by_cases htext : HoldsTag a.text
  swap
  · rw [decryptParts_of_short htext]
    simp [Safe, htext]
  cases hopened : opened crypto a.key a.text a.selfZid with
  | none =>
    rw [decryptParts_of_forged htext hopened]
    simp [Safe, OutPointer.Terminated, Attempt.Opens, hopened, htext]
  | some text =>
    cases hcontent : a.contentType with
    | none =>
      rw [← hcontent, decryptParts_of_text htext hopened hcontent]
      by_cases hspan : validityTimeSpan = 0 <;>
        simp [Safe, OutPointer.Terminated, Attempt.Opens, hopened, hcontent, htext, hspan]
    | some part =>
      by_cases hpart : HoldsTag part
      swap
      · rw [← hcontent, decryptParts_of_short_contentType htext hopened hcontent hpart]
        simp [Safe, hcontent, hpart]
      cases hopened' : opened crypto a.key part a.selfZid with
      | none =>
        rw [← hcontent, decryptParts_of_forged_contentType htext hopened hcontent hpart hopened']
        simp [Safe, OutPointer.Terminated, Attempt.Opens, hopened, hcontent, hopened', htext, hpart]
      | some contentType =>
        rw [← hcontent, decryptParts_of_both htext hopened hcontent hpart hopened']
        by_cases hspan : validityTimeSpan = 0 <;>
          simp [Safe, OutPointer.Terminated, Attempt.Opens, hopened, hcontent, hopened', htext,
            hpart, hspan]

theorem getCachedRcvKeyByZid_error {peerZID : Bytes} {status : Status}
    (h : getCachedRcvKeyByZid cache peerZID selfURI peerURI = .error status) :
    status = .noValidKeyFoundForPeer := by
  unfold getCachedRcvKeyByZid at h
  split at h
  · cases h
    rfl
  · split at h
    · cases h
      rfl
    · cases h

/-- Decryption is that of the parts for a message that gets so far, and ends with an error and the
cache unchanged for one that does not, when the ZID fits. -/
theorem decryptMultipartMessage_cases (crypto : Crypto) (stray : Stray) (writable : Bool)
    (cache : Cache) (doc : Doc) (selfURI peerURI : String) (validityTimeSpan : Nat)
    (hzid : (getSelfZID stray cache selfURI).isSome → ∀ peerZidHex ∈ textContent doc.zid,
      peerZidHex.length % 2 ^ 16 < 26) :
    (∃ a, attempt crypto stray cache doc selfURI peerURI = some a ∧
      decryptMultipartMessage crypto stray writable (some cache) (some doc) selfURI peerURI
          validityTimeSpan = decryptParts crypto cache writable a.key a.text a.contentType a.selfZid
          validityTimeSpan) ∨
    (attempt crypto stray cache doc selfURI peerURI = none ∧ ∃ status, status ≠ .ok ∧
      decryptMultipartMessage crypto stray writable (some cache) (some doc) selfURI peerURI
          validityTimeSpan = .ok { status, cache := some cache }) := by
  unfold attempt decryptMultipartMessage
  cases hself : getSelfZID stray cache selfURI with
  | none =>
    refine .inr ⟨rfl, .unableToDecryptMessage, by decide, ?_⟩
    simp [hself, pure, Except.pure]
  | some selfZid =>
    cases hhex : textContent doc.zid with
    | none =>
      refine .inr ⟨rfl, .unableToDecryptMessage, by decide, ?_⟩
      simp [hself, hhex, pure, Except.pure]
    | some peerZidHex =>
      obtain ⟨peerZID, hpeer⟩ := (readPeerZID_isOk_iff stray).mpr
        (hzid (by simp [hself]) peerZidHex (by simp [hhex]))
      cases hkey : getCachedRcvKeyByZid cache peerZID selfURI peerURI with
      | error status =>
        refine .inr ⟨by simp [hpeer, hkey, Except.toOption], status, ?_, ?_⟩
        · rw [getCachedRcvKeyByZid_error hkey]
          decide
        · simp [hself, hhex, hpeer, hkey, bind, Except.bind, pure, Except.pure]
      | ok associatedKey =>
        cases hmsg : doc.ourMsg selfZid with
        | none =>
          refine .inr ⟨by simp [hpeer, hkey, hmsg, Except.toOption],
            .unableToDecryptMessage, by decide, ?_⟩
          simp [hself, hhex, hpeer, hkey, hmsg, bind, Except.bind, pure, Except.pure]
        | some msg =>
          cases htext : textContent msg.text with
          | none =>
            refine .inr ⟨by simp [hpeer, hkey, hmsg, htext, Except.toOption],
              .unableToDecryptMessage, by decide, ?_⟩
            simp [hself, hhex, hpeer, hkey, hmsg, htext, bind, Except.bind, pure, Except.pure]
          | some text =>
            cases hready : messageKey crypto (msg.usedSessionIndex stray) associatedKey with
            | none =>
              refine .inr ⟨by simp [hpeer, hkey, hmsg, htext, hready, Except.toOption],
                .unableToDecryptMessage, by decide, ?_⟩
              simp [hself, hhex, hpeer, hkey, hmsg, htext, hready, bind, Except.bind, pure,
                Except.pure]
            | some key =>
              refine .inl ⟨_, by simp [hpeer, hkey, hmsg, htext, hready, Except.toOption]; rfl, ?_⟩
              simp [hself, hhex, hpeer, hkey, hmsg, htext, hready, bind, Except.bind]

/-- A ZID that does not fit overflows `peerZID`. -/
theorem decryptMultipartMessage_overflow {peerZidHex : Bytes}
    (hself : (getSelfZID stray cache selfURI).isSome)
    (hhex : textContent doc.zid = some peerZidHex) (hlong : ¬ peerZidHex.length % 2 ^ 16 < 26) :
    decryptMultipartMessage crypto stray writable (some cache) (some doc) selfURI peerURI
      validityTimeSpan = .error .peerZidOverflow := by
  obtain ⟨selfZid, hself⟩ := Option.isSome_iff_exists.mp hself
  have hover := (readPeerZID_cases stray peerZidHex).resolve_left
    (mt (readPeerZID_isOk_iff stray).mp hlong)
  simp [decryptMultipartMessage, hself, hhex, hover, bind, Except.bind]

/-- Decryption is safe exactly for the messages that do no harm. A call without a cache or with a
document that could not be read is always safe. -/
theorem decryptMultipartMessage_safe_iff (crypto : Crypto) (stray : Stray) (writable : Bool)
    (cachedb : Option Cache) (message : Option Doc) (selfURI peerURI : String)
    (validityTimeSpan : Nat) :
    Safe (decryptMultipartMessage crypto stray writable cachedb message selfURI peerURI
        validityTimeSpan) ↔ ∀ cache ∈ cachedb, ∀ doc ∈ message,
        Harmless crypto stray cache doc selfURI peerURI validityTimeSpan := by
  cases cachedb with
  | none =>
    simp [decryptMultipartMessage, Safe, OutPointer.Terminated, pure, Except.pure]
  | some cache =>
    cases message with
    | none =>
      cases hself : getSelfZID stray cache selfURI <;>
        simp [decryptMultipartMessage, hself, Safe, OutPointer.Terminated, pure, Except.pure]
    | some doc =>
      simp only [Option.mem_def, Option.some.injEq, forall_eq']
      by_cases hzid : (getSelfZID stray cache selfURI).isSome →
        ∀ peerZidHex ∈ textContent doc.zid, peerZidHex.length % 2 ^ 16 < 26
      · obtain ⟨a, ha, heq⟩ | ⟨ha, status, -, heq⟩ := decryptMultipartMessage_cases crypto stray
          writable cache doc selfURI peerURI validityTimeSpan hzid
        · rw [heq, decryptParts_safe_iff]
          constructor
          · rintro ⟨htext, hcontent, hspan⟩
            constructor <;> simp only [ha, Option.mem_def, Option.some.injEq, forall_eq'] <;>
              assumption
          · intro h
            exact ⟨h.text a ha, h.contentType a ha, h.validity a ha⟩
        · rw [heq]
          constructor
          · intro _
            refine ⟨hzid, ?_, ?_, ?_⟩ <;> simp [ha]
          · intro _
            exact ⟨_, rfl, trivial, trivial⟩
      · constructor
        · intro hsafe
          simp only [Classical.not_imp, not_forall] at hzid
          obtain ⟨hself, peerZidHex, hhex, hlong⟩ := hzid
          rw [decryptMultipartMessage_overflow hself hhex hlong] at hsafe
          obtain ⟨_, hok, -⟩ := hsafe
          cases hok
        · intro h
          exact absurd h.zid hzid

/-! ## A ZID of 26 digits -/

/-- A cache with our own ZID. -/
def ownCache : Cache where
  rows := [{ zuid := 1, zid := List.replicate 12 7, selfuri := "sip:a@x", peeruri := "self" }]
  sorted := by decide

/-- A message with a ZID of thirteen bytes. -/
def longZidDoc : Doc where
  zid := textChild (List.replicate 26 48)
  msgs := []

/-- The thirteenth byte is written behind `peerZID`. -/
theorem longZid_overflows :
    ¬ ∀ (crypto : Crypto) (stray : Stray) (writable : Bool) (cachedb : Option Cache)
      (message : Option Doc) (selfURI peerURI : String) (validityTimeSpan : Nat),
      Safe (decryptMultipartMessage crypto stray writable cachedb message selfURI peerURI
        validityTimeSpan) := by
  intro hall
  have hsafe := hall ⟨fun _ _ => [], fun _ _ _ _ => ([], []), fun _ _ _ _ _ => none⟩
    ⟨fun _ _ => 0, fun _ => 0⟩ true (some ownCache) (some longZidDoc) "sip:a@x" "sip:b@x" 0
  obtain ⟨_, hok, -⟩ := hsafe
  cases hok

end GrooveIp.Lime
