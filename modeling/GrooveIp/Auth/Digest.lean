import GrooveIp.Sal.Description

/-!
# Digest responses

`auth_helper.c` fills the response of an `Authorization` header from the hash of its parameters. A
string that may be `NULL` is an option, and a function that returns `-1` gives `none`. The digest
that RFC 2617 asks for is stated beside it, over the parameters that the header carries.
-/

namespace GrooveIp.Auth

open Sal Option

/-- The hash functions of `bctoolbox/crypto.h`. -/
structure Hashes where
  md5 : CString → Vector UInt8 16
  sha256 : CString → Vector UInt8 32

/-- `%0<width>x`. -/
def printHex (width n : Nat) : CString :=
  let digits := Nat.toDigits 16 n
  List.replicate (width - digits.length) '0' ++ digits

/-- The loop of `sprintf(ha1 + di * 2, "%02x", out[di])` over `length_byte` bytes. -/
def hexText (lengthByte : Nat) (out : List UInt8) : CString :=
  (out.take lengthByte).flatMap fun b => printHex 2 b.toNat

/-- `bctbx_strdup_printf("%s:%s:…", …)`. -/
def joined : List CString → CString
  | [] => []
  | [s] => s
  | s :: t :: rest => s ++ ':' :: joined (t :: rest)

/-- `authorization` headers (`belle_sip_headers_impl.c:1227`), with the printed form of the URI. -/
structure Authorization where
  isProxy : Bool
  scheme : Option CString
  realm : Option CString
  username : Option CString
  nonce : Option CString
  qop : Option CString
  opaqueData : Option CString
  algorithm : Option CString
  uri : Option CString
  nonceCount : Nat := 0
  cnonce : Option CString := none
  response : Option CString := none
  deriving DecidableEq, Repr

/-! ### The helper -/

variable (algo : Option CString)

/-- The algorithm is none or MD5. -/
def isMd5 : Bool := algo.all (strcaseEq · "MD5".toList)

/-- The algorithm is SHA-256. -/
def isSha256 : Bool := algo.any (strcaseEq · "SHA-256".toList)

/-- `belle_sip_auth_choose_method` (`auth_helper.c:74`): with another algorithm `out` is not
written. -/
def authChooseMethod (hashes : Hashes) (algo : Option CString) (ask : CString) :
    Option (List UInt8) :=
  if isMd5 algo then some (hashes.md5 ask).toList
  else if isSha256 algo then some (hashes.sha256 ask).toList
  else none

/-- `belle_sip_auth_define_size` (`auth_helper.c:83`). -/
def authDefineSize : Nat :=
  if isMd5 algo then 33 else if isSha256 algo then 65 else 0

/-- What the `compute` functions share: the size is that of the algorithm, the text is hashed and
printed in hexadecimal. -/
def hashedText (hashes : Hashes) (size : Nat) (algo : Option CString) (ask : CString) :
    Option CString :=
  if authDefineSize algo ≠ size then none
  else (authChooseMethod hashes algo ask).map (hexText ((size - 1) / 2))

/-- `belle_sip_auth_helper_compute_ha1_for_algorithm` (`auth_helper.c:93`). -/
def computeHa1ForAlgorithm (hashes : Hashes) (userid realm password : Option CString) (size : Nat)
    (algo : Option CString) : Option CString := do
  hashedText hashes size algo (joined [← userid, ← realm, ← password])

/-- `belle_sip_auth_helper_compute_ha2_for_algorithm` (`auth_helper.c:131`). -/
def computeHa2ForAlgorithm (hashes : Hashes) (method uri : CString) (size : Nat)
    (algo : Option CString) : Option CString :=
  hashedText hashes size algo (joined [method, uri])

/-- `belle_sip_auth_helper_compute_response_for_algorithm` (`auth_helper.c:158`). -/
def computeResponseForAlgorithm (hashes : Hashes) (ha1 nonce ha2 : CString) (size : Nat)
    (algo : Option CString) : Option CString :=
  hashedText hashes size algo (joined [ha1, nonce, ha2])

/-- `belle_sip_auth_helper_compute_response_qop_auth_for_algorithm` (`auth_helper.c:187`). -/
def computeResponseQopAuthForAlgorithm (hashes : Hashes) (ha1 nonce : CString) (nonceCount : Nat)
    (cnonce qop ha2 : CString) (size : Nat) (algo : Option CString) : Option CString :=
  hashedText hashes size algo (joined [ha1, nonce, printHex 8 nonceCount, cnonce, qop, ha2])

/-- The end of `belle_sip_auth_helper_fill_authorization` (`auth_helper.c:259–306`): the response
from the parameters. -/
def fillResponse (hashes : Hashes) (a : Authorization) (method ha1 token : CString) :
    Option Authorization :=
  a.realm.bind fun _ => a.nonce.bind fun nonce => a.uri.bind fun uri =>
    (computeHa2ForAlgorithm hashes method uri (authDefineSize a.algorithm) a.algorithm).bind
      fun ha2 =>
        match a.qop with
        | some qop =>
          if a.nonceCount = 0 then none
          else
            (computeResponseQopAuthForAlgorithm hashes ha1 nonce a.nonceCount
              (a.cnonce.getD token) qop ha2 (authDefineSize a.algorithm) a.algorithm).map
              fun response =>
                { a with cnonce := some (a.cnonce.getD token), response := some response }
        | none =>
          (computeResponseForAlgorithm hashes ha1 nonce ha2 (authDefineSize a.algorithm)
            a.algorithm).map fun response => { a with response := some response }

/-- `belle_sip_auth_helper_fill_authorization` (`auth_helper.c:230`) for a SIP header; `token` is
what `belle_sip_random_token` gives. -/
def fillAuthorization (hashes : Hashes) (a : Authorization) (method ha1 token : CString) :
    Option Authorization :=
  if authDefineSize a.algorithm = 0 then none
  else if a.scheme.any fun s => !strcaseEq "Digest".toList s then none
  else if a.qop.any fun q => !strcaseEq "auth".toList q then none
  else fillResponse hashes a method ha1 token

/-! ### RFC 2617 -/

/-- What the user shares with the server: HA1, or the password that it is computed from. -/
inductive Secret where
  | ha1 (text : CString)
  | password (text : CString)
  deriving DecidableEq, Repr

/-- The hash of a header's algorithm, printed: MD5 is the default. -/
def digestHash (hashes : Hashes) (algo : Option CString) : Option (CString → CString) :=
  if isMd5 algo then
    some fun data => (hashes.md5 data).toList.flatMap fun b => printHex 2 b.toNat
  else if isSha256 algo then
    some fun data => (hashes.sha256 data).toList.flatMap fun b => printHex 2 b.toNat
  else none

/-- HA1 of a user and a secret in a realm. -/
def digestHa1 (H : CString → CString) (username realm : Option CString) : Secret → Option CString
  | .ha1 text => some text
  | .password text => do return H (joined [← username, ← realm, text])

/-- The `request-digest`: `KD(HA1, nonce:nc:cnonce:qop:HA2)` with a quality of protection, else
`KD(HA1, nonce:HA2)`. -/
def requestDigest (hashes : Hashes) (method : CString) (secret : Secret) (a : Authorization) :
    Option CString := do
  let H ← digestHash hashes a.algorithm
  let _ ← a.realm
  let kd := fun secret data => H (joined [secret, data])
  let ha1 ← digestHa1 H a.username a.realm secret
  let nonce ← a.nonce
  let ha2 := H (joined [method, ← a.uri])
  match a.qop with
  | some qop => return kd ha1 (joined [nonce, printHex 8 a.nonceCount, ← a.cnonce, qop, ha2])
  | none => return kd ha1 (joined [nonce, ha2])

/-- The response is the digest of the parameters of the header. -/
def IsDigest (hashes : Hashes) (method : CString) (secret : Secret) (a : Authorization) : Prop :=
  a.response.isSome ∧ a.response = requestDigest hashes method secret a

instance (hashes : Hashes) (method : CString) (secret : Secret) (a : Authorization) :
    Decidable (IsDigest hashes method secret a) := instDecidableAnd

/-! ### The helper computes the digest -/

theorem hexText_toList {n : Nat} (v : Vector UInt8 n) :
    hexText n v.toList = v.toList.flatMap fun b => printHex 2 b.toNat := by
  rw [hexText, List.take_of_length_le (by simp)]

variable {hashes : Hashes}

theorem authDefineSize_eq_zero {algo : Option CString} :
    authDefineSize algo = 0 ↔ digestHash hashes algo = none := by
  unfold authDefineSize digestHash
  split
  · simp
  · split <;> simp

/-- What the `compute` functions print is the hash of the algorithm. -/
theorem hashedText_eq (hashes : Hashes) (algo : Option CString) (ask : CString) :
    hashedText hashes (authDefineSize algo) algo ask =
      (digestHash hashes algo).map fun H => H ask := by
  unfold hashedText authChooseMethod digestHash authDefineSize
  by_cases hmd5 : isMd5 algo = true
  · simp [hmd5, hexText_toList]
  · by_cases hsha : isSha256 algo = true
    · simp [hmd5, hsha, hexText_toList]
    · simp [hmd5, hsha]

/-- The header can be filled: its scheme and its quality of protection are those of the helper, and
it has a realm and a nonce. -/
structure Fillable (scheme qop realm nonce : Option CString) : Prop where
  scheme : ∀ s, scheme = some s → strcaseEq "Digest".toList s = true
  qop : ∀ q, qop = some q → strcaseEq "auth".toList q = true
  realm : realm ≠ none
  nonce : nonce ≠ none

variable {a b : Authorization}

/-- The helper fills a header that passes its checks. -/
theorem fillAuthorization_eq_some {method ha1 token : CString}
    (h : fillAuthorization hashes a method ha1 token = some b) :
    authDefineSize a.algorithm ≠ 0 ∧ Fillable a.scheme a.qop a.realm a.nonce ∧
      fillResponse hashes a method ha1 token = some b := by
  unfold fillAuthorization at h
  split at h
  · cases h
  · next hsize =>
    split at h
    · cases h
    · next hscheme =>
      split at h
      · cases h
      · next hqop =>
        refine ⟨hsize, ?_, h⟩
        unfold fillResponse at h
        simp only [bind_eq_some_iff] at h
        obtain ⟨realm, hrealm, nonce, hnonce, -⟩ := h
        exact
          { scheme := fun s hs => by simpa [hs] using hscheme
            qop := fun q hq => by simpa [hq] using hqop
            realm := by simp [hrealm]
            nonce := by simp [hnonce] }

/-- A filled header keeps its parameters but for the `cnonce` and the response. -/
theorem fillResponse_keeps {method ha1 token : CString}
    (h : fillResponse hashes a method ha1 token = some b) :
    b = { a with cnonce := b.cnonce, response := b.response } := by
  unfold fillResponse at h
  simp only [bind_eq_some_iff] at h
  obtain ⟨realm, -, nonce, -, uri, -, ha2, -, h⟩ := h
  cases hq : a.qop with
  | none =>
    simp only [hq, map_eq_some_iff] at h
    obtain ⟨response, -, rfl⟩ := h
    rfl
  | some qop =>
    simp only [hq] at h
    split at h
    · cases h
    · simp only [map_eq_some_iff] at h
      obtain ⟨response, -, rfl⟩ := h
      rfl

/-- The response that the helper fills in is the digest of the header, when HA1 is that of the
secret. -/
theorem fillAuthorization_isDigest {method ha1 token : CString} {secret : Secret}
    (h : fillAuthorization hashes a method ha1 token = some b)
    (hha1 : ∀ H, digestHash hashes a.algorithm = some H → digestHa1 H a.username a.realm secret =
      some ha1) : IsDigest hashes method secret b := by
  obtain ⟨hsize, -, h⟩ := fillAuthorization_eq_some h
  obtain ⟨H, hH⟩ := ne_none_iff_exists'.mp (mt authDefineSize_eq_zero.mpr hsize)
  have hd := hha1 H hH
  unfold fillResponse at h
  simp only [bind_eq_some_iff] at h
  obtain ⟨realm, hrealm, nonce, hnonce, uri, huri, ha2, hha2, h⟩ := h
  rw [computeHa2ForAlgorithm, hashedText_eq, hH, map_some, Option.some.injEq] at hha2
  cases hq : a.qop with
  | none =>
    simp only [hq, computeResponseForAlgorithm, hashedText_eq, hH, map_some,
      Option.some.injEq] at h
    subst h
    simp only [hrealm] at hd
    simp [IsDigest, requestDigest, hH, hd, hrealm, hnonce, huri, ← hha2, joined]
  | some qop =>
    simp only [hq] at h
    split at h
    · cases h
    · simp only [computeResponseQopAuthForAlgorithm, hashedText_eq, hH, map_some,
        Option.some.injEq] at h
      subst h
      simp only [hrealm] at hd
      simp [IsDigest, requestDigest, hH, hd, hrealm, hnonce, huri, ← hha2, joined]

end GrooveIp.Auth
