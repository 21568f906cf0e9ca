import Mathlib.Tactic.ByContra
import GrooveIp.Ice.Session
import GrooveIp.Stun.Integrity

/-!
# Which connectivity checks a session lets in

The three checks a received binding request passes before it can change anything
(`ice.c:1816–1890, 2134–2136`). The integrity value and the user name are compared with
`strcmp` and `strncmp`, so they are compared up to a NUL and up to the length of the part in
front of the colon. HMAC-SHA1 is a parameter.
-/

namespace GrooveIp.Ice

open Lib Stun

/-- What `ice_send_error_response` is called with (`ice.c:1687`). -/
structure IceErrorResponse where
  number : UInt16
  reason : String
  deriving DecidableEq, Repr

/-- `MS_STUN_ERROR_CODE_BAD_REQUEST` (`stun.h:89`). -/
def msStunErrorCodeBadRequest : UInt16 := 400

/-- `MS_STUN_ERROR_CODE_UNAUTHORIZED` (`stun.h:90`). -/
def msStunErrorCodeUnauthorized : UInt16 := 401

/-- `MS_ICE_ERROR_CODE_ROLE_CONFLICT` (`stun.h:102`). -/
def msIceErrorCodeRoleConflict : UInt16 := 487

/-- The error for a mandatory attribute that is not there. -/
def missingAttribute (name : String) : IceErrorResponse :=
  ⟨msStunErrorCodeBadRequest, "Missing " ++ name ++ " attribute"⟩

/-- The error for a credential that does not match. -/
def wrongAttribute (name : String) : IceErrorResponse :=
  ⟨msStunErrorCodeUnauthorized, "Wrong " ++ name ++ " attribute"⟩

/-- `ice_check_received_binding_request_attributes` (`ice.c:1821–1849`); `none` is 0. -/
def iceCheckReceivedBindingRequestAttributes (msg : MSStunMessage) : Option IceErrorResponse :=
  if !msg.hasMessageIntegrity then some (missingAttribute "MESSAGE-INTEGRITY")
  else if msg.username.isNone then some (missingAttribute "USERNAME")
  else if !msg.hasFingerprint then some (missingAttribute "FINGERPRINT")
  else if !msg.hasPriority then some (missingAttribute "PRIORITY")
  else if !msg.hasIceControlling && !msg.hasIceControlled then
    some (missingAttribute "ICE-CONTROLLING or ICE-CONTROLLED")
  else none

/-- `htons` of a length, as the two bytes it takes in a packet. -/
def htons (n : UInt16) : List UInt8 := [(n >>> 8).toUInt8, n.toUInt8]

/-- The packet with another length field (`ice.c:1859–1862`). -/
def withLength (packet : List UInt8) (length : UInt16) : List UInt8 :=
  packet.take 2 ++ htons length ++ packet.drop 4

/-- The bytes of a MESSAGE-INTEGRITY and a FINGERPRINT attribute (`ice.c:1863`). -/
def integrityAndFingerprintSize : Nat := 24 + 8

section

variable (hmacSha1 : List UInt8 → List UInt8 → Vector UInt8 20)

/-- `ms_stun_calculate_integrity_short_term` (`stun.c:621–627`), without the NUL behind it. -/
def msStunCalculateIntegrityShortTerm (buf key : List UInt8) : List UInt8 :=
  (hmacSha1 (cString key) buf).toList

/-- The value `ice_check_received_binding_request_integrity` compares with (`ice.c:1858–1866`): the
length leaves the fingerprint out, and the bytes end where the last two attributes would begin. -/
def receivedIntegrity (session : IceSession) (packet : List UInt8) (msg : MSStunMessage) :
    Except Fault (List UInt8) := do
  if packet.length < integrityAndFingerprintSize then
    throw .outOfBounds
  let bytes ← readBytes (withLength packet (msg.length - 8)) 0
    (packet.length - integrityAndFingerprintSize)
  return msStunCalculateIntegrityShortTerm hmacSha1 bytes session.localPwd

/-- `ice_check_received_binding_request_integrity` (`ice.c:1852–1878`); `none` is 0. -/
def iceCheckReceivedBindingRequestIntegrity (session : IceSession) (packet : List UInt8)
    (msg : MSStunMessage) : Except Fault (Option IceErrorResponse) := do
  let hmac ← receivedIntegrity hmacSha1 session packet msg
  if ← strEqual msg.messageIntegrity (cString hmac) then
    return none
  if !session.checkMessageIntegrity && msg.hasDummyMessageIntegrity then
    return none
  return some (wrongAttribute "MESSAGE-INTEGRITY")

/-- `strncmp(a, b, n) == 0`; the end of a list stands for the NUL behind a C string. -/
def strncmpEqual : Nat → List UInt8 → List UInt8 → Bool
  | 0, _, _ => true
  | n + 1, a, b =>
    a.headD 0 == b.headD 0 && (a.headD 0 == 0 || strncmpEqual n a.tail b.tail)

/-- The character between the two fragments of a user name. -/
def colon : UInt8 := 0x3A

/-- `ice_check_received_binding_request_username` (`ice.c:1880–1890`); `none` is 0. -/
def iceCheckReceivedBindingRequestUsername (session : IceSession) (msg : MSStunMessage) :
    Except Fault (Option IceErrorResponse) :=
  match msg.username with
  | none => .error .nullDereference
  | some username =>
    match (cString username).idxOf? colon with
    | none => .ok (some (wrongAttribute "USERNAME"))
    | some pos =>
      if strncmpEqual pos (cString username) (cString session.localUfrag) then .ok none
      else .ok (some (wrongAttribute "USERNAME"))

/-- The checks `ice_handle_received_binding_request` begins with (`ice.c:2134–2136`), in its
order; `none` lets the request in. -/
def iceCheckReceivedBindingRequest (session : IceSession) (packet : List UInt8)
    (msg : MSStunMessage) : Except Fault (Option IceErrorResponse) := do
  if let some err := iceCheckReceivedBindingRequestAttributes msg then
    return some err
  if let some err ← iceCheckReceivedBindingRequestIntegrity hmacSha1 session packet msg then
    return some err
  iceCheckReceivedBindingRequestUsername session msg

end

/-! ### What the comparisons accept -/

/-- The attributes a connectivity check must carry. -/
structure MandatoryAttributes (msg : MSStunMessage) : Prop where
  messageIntegrity : msg.hasMessageIntegrity = true
  username : msg.username.isSome = true
  fingerprint : msg.hasFingerprint = true
  priority : msg.hasPriority = true
  role : msg.hasIceControlling = true ∨ msg.hasIceControlled = true

theorem iceCheckReceivedBindingRequestAttributes_eq_none (msg : MSStunMessage) :
    iceCheckReceivedBindingRequestAttributes msg = none ↔ MandatoryAttributes msg := by
  unfold iceCheckReceivedBindingRequestAttributes
  constructor
  · intro h
    split at h
    · cases h
    next hmi =>
    split at h
    · cases h
    next huser =>
    split at h
    · cases h
    next hfingerprint =>
    split at h
    · cases h
    next hpriority =>
    split at h
    · cases h
    next hrole =>
    simp only [Bool.not_eq_true', Bool.not_eq_false, Bool.and_eq_true, not_and_or,
      Option.isNone_iff_eq_none] at hmi huser hfingerprint hpriority hrole
    exact ⟨hmi, Option.isSome_iff_ne_none.mpr huser, hfingerprint, hpriority, hrole⟩
  · intro h
    have huser : msg.username.isNone = false := by
      rw [Option.isNone_eq_false_iff]
      exact h.username
    have hrole : (!msg.hasIceControlling && !msg.hasIceControlled) = false := by
      rcases h.role with hr | hr <;> simp [hr]
    simp [h.messageIntegrity, huser, h.fingerprint, h.priority, hrole]

/-- The part of a user name in front of the first colon. -/
def ufragPart (username : List UInt8) : List UInt8 := (cString username).takeWhile (· ≠ colon)

theorem ne_zero_of_mem_cString {bs : List UInt8} {b : UInt8} (h : b ∈ cString bs) : b ≠ 0 := by
  have hall := List.all_takeWhile (p := fun c : UInt8 => decide (c ≠ 0)) (l := bs)
  rw [List.all_eq_true] at hall
  exact of_decide_eq_true (hall b h)

theorem strncmpEqual_append (p rest f : List UInt8) (hp : ∀ b ∈ p, b ≠ 0) :
    strncmpEqual p.length (p ++ rest) f = true ↔ p <+: f := by
  induction p generalizing f with
  | nil => simp [strncmpEqual]
  | cons b p ih =>
    have hb : b ≠ 0 := hp b List.mem_cons_self
    have ih := fun f => ih f fun c hc => hp c (List.mem_cons_of_mem _ hc)
    cases f with
    | nil => simp [strncmpEqual, hb]
    | cons c f => simp [strncmpEqual, hb, ih, List.cons_prefix_cons]

theorem idxOf?_colon {u : List UInt8} {pos : Nat} (h : u.idxOf? colon = some pos) :
    (u.takeWhile (· ≠ colon)).length = pos := by
  induction u generalizing pos with
  | nil => cases h
  | cons b u ih =>
    rw [List.idxOf?_cons] at h
    by_cases hb : b = colon
    · simp_all
    · have hne : (b == colon) = false := by simpa using hb
      rw [if_neg (by simp [hne])] at h
      obtain ⟨k, hk, rfl⟩ := Option.map_eq_some_iff.mp h
      simpa [hb] using ih hk

theorem iceCheckReceivedBindingRequestUsername_eq_none (session : IceSession) {msg : MSStunMessage}
    {username : List UInt8} (h : msg.username = some username) :
    iceCheckReceivedBindingRequestUsername session msg = .ok none ↔
      colon ∈ cString username ∧ ufragPart username <+: cString session.localUfrag := by
  unfold iceCheckReceivedBindingRequestUsername
  rw [h]
  cases hpos : (cString username).idxOf? colon with
  | none =>
    have hno : colon ∉ cString username := by
      rw [List.idxOf?_eq_none_iff] at hpos
      exact hpos
    simp [hpos, hno]
  | some pos =>
    have hlen : (ufragPart username).length = pos := idxOf?_colon hpos
    have hmem : colon ∈ cString username := by
      by_contra hno
      rw [← List.idxOf?_eq_none_iff] at hno
      rw [hno] at hpos
      cases hpos
    have hsplit : cString username =
        ufragPart username ++ (cString username).dropWhile (· ≠ colon) :=
      (List.takeWhile_append_dropWhile (p := fun b => decide (b ≠ colon))).symm
    have hzero : ∀ b ∈ ufragPart username, b ≠ 0 :=
      fun b hb => ne_zero_of_mem_cString (( List.takeWhile_prefix _).subset hb)
    have hcmp : strncmpEqual pos (cString username) (cString session.localUfrag) = true ↔
        ufragPart username <+: cString session.localUfrag := by
      rw [hsplit, ← hlen]
      exact strncmpEqual_append _ _ _ hzero
    rw [← hcmp]
    by_cases heq : strncmpEqual pos (cString username) (cString session.localUfrag) = true
    · simp [hpos, heq, hmem]
    · simp [hpos, heq]

section

variable (hmacSha1 : List UInt8 → List UInt8 → Vector UInt8 20)

/-- A request whose comparisons all succeed, as C strings are compared. -/
structure Accepted (session : IceSession) (packet : List UInt8) (msg : MSStunMessage) : Prop where
  attributes : MandatoryAttributes msg
  integrity : ∃ value hmac, msg.messageIntegrity = some value ∧
    receivedIntegrity hmacSha1 session packet msg = .ok hmac ∧ cString value = cString hmac
  username : ∃ username, msg.username = some username ∧ colon ∈ cString username ∧
    ufragPart username <+: cString session.localUfrag

/-- A request by someone who knows the password and the local fragment: twenty bytes of the HMAC,
and the whole fragment before the colon. -/
structure Authentic (session : IceSession) (packet : List UInt8) (msg : MSStunMessage) : Prop where
  attributes : MandatoryAttributes msg
  integrity : ∃ hmac, msg.messageIntegrity = some hmac ∧
    receivedIntegrity hmacSha1 session packet msg = .ok hmac
  username : ∃ username, msg.username = some username ∧ colon ∈ cString username ∧
    ufragPart username = cString session.localUfrag

/-- The integrity value agrees with the HMAC up to a NUL only. -/
def TruncatedIntegrity (session : IceSession) (packet : List UInt8) (msg : MSStunMessage) : Prop :=
  ∃ value hmac, msg.messageIntegrity = some value ∧
    receivedIntegrity hmacSha1 session packet msg = .ok hmac ∧
    cString value = cString hmac ∧ value ≠ hmac

/-- The part in front of the colon is a proper prefix of the local fragment. -/
def TruncatedUsername (session : IceSession) (msg : MSStunMessage) : Prop :=
  ∃ username, msg.username = some username ∧ colon ∈ cString username ∧
    ufragPart username <+: cString session.localUfrag ∧
    ufragPart username ≠ cString session.localUfrag

variable {packet : List UInt8}

theorem receivedIntegrity_ok (session : IceSession) (msg : MSStunMessage)
    (h : stunMessageHeaderLength + 20 ≤ packet.length) :
    ∃ hmac, receivedIntegrity hmacSha1 session packet msg = .ok hmac := by
  have hlong : integrityAndFingerprintSize ≤ packet.length := by
    unfold integrityAndFingerprintSize
    unfold stunMessageHeaderLength at h
    omega
  have hwith : (withLength packet (msg.length - 8)).length = packet.length := by
    simp only [withLength, htons, List.length_append, List.length_take, List.length_drop, List.length_cons, List.length_nil]
    omega
  have hin : 0 + (packet.length - integrityAndFingerprintSize) ≤
      (withLength packet (msg.length - 8)).length := by
    omega
  unfold receivedIntegrity
  rw [if_neg (by omega), readBytes_of_le hin]
  exact ⟨_, rfl⟩

variable {session : IceSession} {msg : MSStunMessage}

theorem iceCheckReceivedBindingRequest_eq_none
    (hstrict : session.checkMessageIntegrity = true) (hread : IntegrityRead packet.length msg) :
    iceCheckReceivedBindingRequest hmacSha1 session packet msg = .ok none ↔
      Accepted hmacSha1 session packet msg := by
  unfold iceCheckReceivedBindingRequest
  cases hattr : iceCheckReceivedBindingRequestAttributes msg with
  | some err =>
    constructor
    · intro h
      cases h
    · intro h
      rw [(iceCheckReceivedBindingRequestAttributes_eq_none msg).mpr h.attributes] at hattr
      cases hattr
  | none =>
    have hmandatory := (iceCheckReceivedBindingRequestAttributes_eq_none msg).mp hattr
    obtain ⟨⟨value, hvalue, -⟩, hsize⟩ := hread hmandatory.messageIntegrity
    obtain ⟨hmac, hhmac⟩ := receivedIntegrity_ok hmacSha1 session msg hsize
    obtain ⟨username, huser⟩ := Option.isSome_iff_exists.mp hmandatory.username
    have hname := iceCheckReceivedBindingRequestUsername_eq_none session huser
    have hintegrity : iceCheckReceivedBindingRequestIntegrity hmacSha1 session packet msg =
        .ok (if cString value = cString hmac then none
          else some (wrongAttribute "MESSAGE-INTEGRITY")) := by
      unfold iceCheckReceivedBindingRequestIntegrity
      rw [hhmac, hvalue, hstrict]
      by_cases heq : cString value = cString hmac <;> simp [strEqual, heq, bind, Except.bind, pure,
        Except.pure]
    rw [hintegrity]
    by_cases heq : cString value = cString hmac
    · rw [if_pos heq]
      refine Iff.trans hname ?_
      constructor
      · intro h
        exact ⟨hmandatory, ⟨value, hmac, hvalue, hhmac, heq⟩, ⟨username, huser, h⟩⟩
      · intro h
        obtain ⟨username', huser', hrest⟩ := h.username
        rw [huser] at huser'
        cases huser'
        exact hrest
    · rw [if_neg heq]
      constructor
      · intro h
        cases h
      · intro h
        obtain ⟨value', hmac', hvalue', hhmac', heq'⟩ := h.integrity
        rw [hvalue] at hvalue'
        rw [hhmac] at hhmac'
        cases hvalue'
        cases hhmac'
        exact absurd heq' heq

theorem Authentic.accepted (h : Authentic hmacSha1 session packet msg) :
    Accepted hmacSha1 session packet msg := by
  obtain ⟨hmac, hvalue, hhmac⟩ := h.integrity
  obtain ⟨username, huser, hcolon, hpart⟩ := h.username
  exact ⟨h.attributes, ⟨hmac, hmac, hvalue, hhmac, rfl⟩,
    ⟨username, huser, hcolon, hpart ▸ List.prefix_refl _⟩⟩

theorem Accepted.authentic_iff (h : Accepted hmacSha1 session packet msg) :
    Authentic hmacSha1 session packet msg ↔
      ¬ (TruncatedIntegrity hmacSha1 session packet msg ∨ TruncatedUsername session msg) := by
  obtain ⟨value, hmac, hvalue, hhmac, heq⟩ := h.integrity
  obtain ⟨username, huser, hcolon, hpart⟩ := h.username
  constructor
  · rintro ⟨-, ⟨hmac', hvalue', hhmac'⟩, ⟨username', huser', -, hpart'⟩⟩ (htrunc | htrunc)
    · obtain ⟨v, m, hv, hm, -, hne⟩ := htrunc
      rw [hvalue'] at hv
      rw [hhmac'] at hm
      cases hv
      cases hm
      exact hne rfl
    · obtain ⟨u, hu, -, -, hne⟩ := htrunc
      rw [huser'] at hu
      cases hu
      exact hne hpart'
  · intro hwhole
    rw [not_or] at hwhole
    have hval : value = hmac := by
      by_contra hne
      exact hwhole.1 ⟨value, hmac, hvalue, hhmac, heq, hne⟩
    have hname : ufragPart username = cString session.localUfrag := by
      by_contra hne
      exact hwhole.2 ⟨username, huser, hcolon, hpart, hne⟩
    subst hval
    exact ⟨h.attributes, ⟨value, hvalue, hhmac⟩, ⟨username, huser, hcolon, hname⟩⟩

/-- The checks let in exactly the authentic requests, unless a comparison that succeeds ended at a
NUL of the integrity value or at the end of a proper prefix of the fragment. -/
theorem iceCheckReceivedBindingRequest_exact_iff {session : IceSession} {packet : List UInt8}
    {msg : MSStunMessage} (hparse : msStunMessageCreateFromBufferParsing packet = .ok (some msg))
    (hstrict : session.checkMessageIntegrity = true) :
    (iceCheckReceivedBindingRequest hmacSha1 session packet msg = .ok none ↔
        Authentic hmacSha1 session packet msg) ↔ ¬ (Accepted hmacSha1 session packet msg ∧
        (TruncatedIntegrity hmacSha1 session packet msg ∨ TruncatedUsername session msg)) := by
  have hread := msStunMessageCreateFromBufferParsing_integrityRead hparse
  rw [iceCheckReceivedBindingRequest_eq_none hmacSha1 hstrict hread]
  constructor
  · rintro hexact ⟨hacc, hcut⟩
    exact (hacc.authentic_iff hmacSha1).mp (hexact.mp hacc) hcut
  · intro hwhole
    constructor
    · intro hacc
      exact (hacc.authentic_iff hmacSha1).mpr fun hcut => hwhole ⟨hacc, hcut⟩
    · intro hauth
      exact hauth.accepted hmacSha1

end

/-! ### A request that knows one character of the fragment -/

/-- A binding request whose user name is `a:b`, with every mandatory attribute. -/
def prefixRequest : List UInt8 :=
  [0x00, 0x01, 0x00, 0x3C, 0x21, 0x12, 0xA4, 0x42] ++ List.replicate 12 7 ++
    [0x00, 0x06, 0x00, 0x03, 0x61, 0x3A, 0x62, 0x00] ++
    [0x00, 0x24, 0x00, 0x04, 0x00, 0x00, 0x00, 0x01] ++
    [0x80, 0x2A, 0x00, 0x08, 0x00, 0x00, 0x00, 0x00, 0x00, 0x00, 0x00, 0x05] ++
    [0x00, 0x08, 0x00, 0x14] ++ List.replicate 20 9 ++
    [0x80, 0x28, 0x00, 0x04, 0x00, 0x00, 0x00, 0x00]

/-- The message `prefixRequest` parses to. -/
def prefixRequestMessage : MSStunMessage where
  method := 1
  length := 60
  trId := List.replicate 12 7
  username := some [0x61, 0x3A, 0x62]
  messageIntegrity := some (List.replicate 20 9)
  priority := 1
  iceControlling := 5
  includeUsernameAttribute := true
  hasMessageIntegrity := true
  hasFingerprint := true
  hasPriority := true
  hasIceControlling := true

/-- A session whose local fragment is the given text. -/
def sessionWithUfrag (ufrag : List UInt8) : IceSession where
  streams := fun _ => none
  localUfrag := ufrag
  localPwd := [0x70]
  tieBreaker := 1

/-- An HMAC that is the same twenty bytes for every key and text. -/
def constantHmac : List UInt8 → List UInt8 → Vector UInt8 20 := fun _ _ => Vector.replicate 20 9

theorem parse_prefixRequest :
    msStunMessageCreateFromBufferParsing prefixRequest = .ok (some prefixRequestMessage) := by
  have h : (msStunMessageCreateFromBufferParsing prefixRequest).toOption =
      some (some prefixRequestMessage) := by decide +kernel
  cases hp : msStunMessageCreateFromBufferParsing prefixRequest with
  | error e => rw [hp] at h; cases h
  | ok msg => rw [hp] at h; cases h; rfl

/-- With the whole fragment in front of the colon, acceptance and authenticity agree. -/
theorem iceCheckReceivedBindingRequest_exact_wholeFragment :
    (iceCheckReceivedBindingRequest constantHmac (sessionWithUfrag [0x61]) prefixRequest
          prefixRequestMessage = .ok none ↔
        Authentic constantHmac (sessionWithUfrag [0x61]) prefixRequest prefixRequestMessage) ↔
      ¬ (Accepted constantHmac (sessionWithUfrag [0x61]) prefixRequest prefixRequestMessage ∧
        (TruncatedIntegrity constantHmac (sessionWithUfrag [0x61]) prefixRequest
            prefixRequestMessage ∨
          TruncatedUsername (sessionWithUfrag [0x61]) prefixRequestMessage)) :=
  iceCheckReceivedBindingRequest_exact_iff constantHmac parse_prefixRequest rfl

/-- A session with the fragment `ab` lets in a request that knows only the `a`. -/
theorem iceCheckReceivedBindingRequest_prefixUsername :
    ¬ ∀ (hmacSha1 : List UInt8 → List UInt8 → Vector UInt8 20) (session : IceSession)
        (packet : List UInt8) (msg : MSStunMessage),
        msStunMessageCreateFromBufferParsing packet = .ok (some msg) →
        session.checkMessageIntegrity = true →
        (iceCheckReceivedBindingRequest hmacSha1 session packet msg = .ok none ↔
          Authentic hmacSha1 session packet msg) := by
  intro h
  have hpass : iceCheckReceivedBindingRequest constantHmac (sessionWithUfrag [0x61, 0x62])
      prefixRequest prefixRequestMessage = .ok none := by rfl
  have hauth := (h _ _ _ _ parse_prefixRequest rfl).mp hpass
  obtain ⟨username, huser, -, hpart⟩ := hauth.username
  cases huser
  have hne : ufragPart [0x61, 0x3A, 0x62] ≠ cString (sessionWithUfrag [0x61, 0x62]).localUfrag := by
    decide
  exact hne hpart

end GrooveIp.Ice
