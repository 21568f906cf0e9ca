import GrooveIp.Stun.Decoder

/-!
# Parsing a received STUN message

`ms_stun_message_create_from_buffer_parsing` (`stun.c:727–884`): the header, then a loop
over type-length-value attributes padded to four bytes. The loop runs on fuel; the
exhaustion of the fuel is a fault of its own.
-/

namespace GrooveIp.Stun

open Lib

/-- The attribute types the parser's switch names (`stun.h:53–93`). -/
inductive MSStunAttr where
  | mappedAddress | changeRequest | responseAddress | sourceAddress | changedAddress
  | username | password | messageIntegrity | errorCode | xorMappedAddress | software
  | fingerprint | priority | useCandidate | iceControlled | iceControlling
  | xorPeerAddress | xorRelayedAddress | lifetime | data | realm | nonce
  | unknown (type : UInt16)
  deriving DecidableEq, Repr

/-- The case of the switch a type value selects (`stun.h:53–93`, `stun.c:757–867`). -/
def MSStunAttr.ofType (type : UInt16) : MSStunAttr :=
  if type = 0x0001 then .mappedAddress
  else if type = 0x0003 then .changeRequest
  else if type = 0x0002 then .responseAddress
  else if type = 0x0004 then .sourceAddress
  else if type = 0x0005 then .changedAddress
  else if type = 0x0006 then .username
  else if type = 0x0007 then .password
  else if type = 0x0008 then .messageIntegrity
  else if type = 0x0009 then .errorCode
  else if type = 0x0020 then .xorMappedAddress
  else if type = 0x8022 then .software
  else if type = 0x8028 then .fingerprint
  else if type = 0x0024 then .priority
  else if type = 0x0025 then .useCandidate
  else if type = 0x8029 then .iceControlled
  else if type = 0x802A then .iceControlling
  else if type = 0x0012 then .xorPeerAddress
  else if type = 0x0016 then .xorRelayedAddress
  else if type = 0x000D then .lifetime
  else if type = 0x0013 then .data
  else if type = 0x0014 then .realm
  else if type = 0x0015 then .nonce
  else .unknown type

/-- `STUN_MAX_USERNAME_LENGTH` (`stun.c:32`). -/
def stunMaxUsernameLength : UInt16 := 513

/-- `STUN_MAX_SOFTWARE_LENGTH` (`stun.c:34`). -/
def stunMaxSoftwareLength : UInt16 := 763

/-- `STUN_MAX_REALM_LENGTH` (`stun.c:35`). -/
def stunMaxRealmLength : UInt16 := 127

/-- `STUN_MAX_NONCE_LENGTH` (`stun.c:36`). -/
def stunMaxNonceLength : UInt16 := 127

/-- The text a peer without HMAC sends (`stun.c:787`). -/
def hmacNotImplemented : List UInt8 := "hmac-not-implemented".toUTF8.toList

/-- `strcmp(a, b) == 0`, which reads through both pointers. -/
def strEqual (a : Option (List UInt8)) (b : List UInt8) : Except Fault Bool :=
  match a with
  | none => .error .nullDereference
  | some a => .ok (decide (cString a = b))

/-- One case of the switch (`stun.c:757–867`); `none` is `goto error`. -/
def decodeAttribute (attr : MSStunAttr) (length : UInt16) (msg : MSStunMessage) :
    DecodeM (Option MSStunMessage) :=
  match attr with
  | .mappedAddress => do return some (msg.setMappedAddress (← decodeAddr length))
  | .changeRequest => do
    return some { msg with changeRequest := ← decodeChangeRequest length }
  | .responseAddress | .sourceAddress | .changedAddress => do
    -- these deprecated attributes are ignored
    let _ ← decodeAddr length
    return some msg
  | .username => do
    return some (msg.setUsername (← decodeString length stunMaxUsernameLength))
  | .password => do
    let _ ← decodeString length stunMaxUsernameLength
    return some msg
  | .messageIntegrity => do
    let hmac ← decodeMessageIntegrity length
    -- the pointer is compared before the decoder's error flag is looked at
    let dummy ← (strEqual hmac hmacNotImplemented : Except Fault Bool)
    return some { msg with
      messageIntegrity := hmac
      hasMessageIntegrity := true
      hasDummyMessageIntegrity := msg.hasDummyMessageIntegrity || dummy }
  | .errorCode => do
    let (number, reason) ← decodeErrorCode length
    return some (msg.setErrorCode number reason)
  | .xorMappedAddress => do
    return some (msg.setXorMappedAddress (← decodeXorAddr length msg.trId))
  | .software => do
    return some (msg.setSoftware (← decodeString length stunMaxSoftwareLength))
  | .fingerprint => do
    return some { msg with fingerprint := ← decodeFingerprint length, hasFingerprint := true }
  | .priority => do return some (msg.setPriority (← decodePriority length))
  | .useCandidate => return some (msg.enableUseCandidate true)
  | .iceControlled => do return some (msg.setIceControlled (← decodeIceControl length))
  | .iceControlling => do return some (msg.setIceControlling (← decodeIceControl length))
  | .xorPeerAddress => do
    return some (msg.setXorPeerAddress (← decodeXorAddr length msg.trId))
  | .xorRelayedAddress => do
    return some (msg.setXorRelayedAddress (← decodeXorAddr length msg.trId))
  | .lifetime => do return some (msg.setLifetime (← decodeLifetime length))
  | .data => do return some (msg.setData (← decodeData length) length)
  | .realm => do return some (msg.setRealm (← decodeString length stunMaxRealmLength))
  | .nonce => do return some (msg.setNonce (← decodeString length stunMaxNonceLength))
  | .unknown type => do
    if type ≤ 0x7FFF then
      return none
    decodeSkip length.toNat
    return some msg

/-- The padding bytes read after a value (`stun.c:869–874`): `4 - length % 4`, none when
that is four. -/
def attributePadding (length : UInt16) : Nat :=
  if length.toNat % 4 = 0 then 0 else 4 - length.toNat % 4

/-- The loop over the padding: every byte is read whatever the flag says. -/
def decodePadding : Nat → DecodeM Unit
  | 0 => pure ()
  | n + 1 => do
    let _ ← decode8
    decodePadding n

/-- The attribute loop (`stun.c:746–877`); `none` is the NULL returned at `error`. -/
def decodeAttributes : Nat → StunMessageDecoder → MSStunMessage →
    Except Fault (Option MSStunMessage)
  | 0, _, _ => .error .diverged
  | fuel + 1, decoder, msg =>
    if decoder.remaining > 0 then do
      let ((type, length), decoder) ← decodeAttributeHeader decoder
      if (length.toNat : Int) > decoder.remaining ∨ decoder.error then
        return none
      let (msg?, decoder) ← decodeAttribute (.ofType type) length msg decoder
      let some msg := msg? | return none
      if decoder.error then
        return none
      let ((), decoder) ← decodePadding (attributePadding length) decoder
      if decoder.error then
        return none
      decodeAttributes fuel decoder msg
    else .ok (some msg)

/-- `STUN_MESSAGE_HEADER_LENGTH` (`stun.c:31`). -/
def stunMessageHeaderLength : Nat := 20

/-- `ms_stun_message_create_from_buffer_parsing` (`stun.c:727–884`). Each attribute takes at
least its four header bytes, so the buffer's length is fuel enough. -/
def msStunMessageCreateFromBufferParsing (buf : List UInt8) : Except Fault (Option MSStunMessage) :=
  if buf.length < stunMessageHeaderLength then .ok none
  else do
    let (msg, decoder) ← decodeMessageHeader {} (stunMessageDecoderInit buf)
    if decoder.error then
      return none
    if msg.length.toNat + stunMessageHeaderLength ≠ buf.length then
      return none
    decodeAttributes (buf.length + 1) decoder msg

end GrooveIp.Stun
