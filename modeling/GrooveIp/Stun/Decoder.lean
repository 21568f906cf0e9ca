import GrooveIp.Stun.Message

/-!
# The STUN message decoder

`StunMessageDecoder` and the attribute decoders of `stun.c:323–536`. A decoder holds the
received buffer, a cursor and the count of bytes left; `error` is only set after the
cursor has moved, so a read past the end happens before it is reported. Such a read is
a `Fault` here, and so is a read through a NULL pointer.
-/

namespace GrooveIp.Stun

open Lib

/-- `StunMessageDecoder` (`stun.c:323–329`); `ptr` is the cursor's offset in `buffer`. -/
structure StunMessageDecoder where
  buffer : List UInt8
  ptr : Nat
  size : Int
  remaining : Int
  error : Bool
  deriving DecidableEq, Repr

/-- A decoding step: it moves the decoder, or leaves the buffer. -/
abbrev DecodeM := StateT StunMessageDecoder (Except Fault)

/-- `stun_message_decoder_init` (`stun.c:332–336`). -/
def stunMessageDecoderInit (buf : List UInt8) : StunMessageDecoder :=
  ⟨buf, 0, buf.length, buf.length, false⟩

/-- The cursor update that ends every decoder: `ptr += n; remaining -= n` and the check. -/
def StunMessageDecoder.advance (d : StunMessageDecoder) (n : Nat) : StunMessageDecoder :=
  { d with
    ptr := d.ptr + n
    remaining := d.remaining - n
    error := d.error || decide (d.remaining - n < 0) }

/-- Read the next `n` bytes, then move past them. -/
def decodeBytes (n : Nat) : DecodeM (List UInt8) := fun d => do
  let value ← readBytes d.buffer d.ptr n
  pure (value, d.advance n)

/-- `decoder->error = TRUE`. -/
def setError : DecodeM Unit := modify fun d => { d with error := true }

/-- `decode8` (`stun.c:338–344`). -/
def decode8 : DecodeM UInt8 := do return UInt8.ofNat (beNat (← decodeBytes 1))

/-- `decode16` (`stun.c:346–352`). -/
def decode16 : DecodeM UInt16 := do return UInt16.ofNat (beNat (← decodeBytes 2))

/-- `decode32` (`stun.c:354–360`). -/
def decode32 : DecodeM UInt32 := do return UInt32.ofNat (beNat (← decodeBytes 4))

/-- `decode64` (`stun.c:362–368`). -/
def decode64 : DecodeM UInt64 := do return UInt64.ofNat (beNat (← decodeBytes 8))

/-- `decode` (`stun.c:370–376`) where the caller does not read the bytes it points at. -/
def decodeSkip (len : Nat) : DecodeM Unit := modify fun d => d.advance len

/-- `decode_message_header` (`stun.c:378–394`). -/
def decodeMessageHeader (msg : MSStunMessage) : DecodeM MSStunMessage := do
  let type ← decode16
  let msg := { msg with type := type &&& 0x0110, method := type &&& 0x3EEF }
  let length ← decode16
  let msg := { msg with length := length }
  let magicCookie ← decode32
  if magicCookie ≠ msStunMagicCookie then
    setError
    return msg
  let trId ← decodeBytes 12
  return { msg with trId := trId }

/-- `decode_attribute_header` (`stun.c:396–399`). -/
def decodeAttributeHeader : DecodeM (UInt16 × UInt16) := do
  let type ← decode16
  let length ← decode16
  return (type, length)

variable (length : UInt16)

/-- `decode_addr` (`stun.c:401–423`): the family byte, not the declared length, chooses
how many bytes are read. -/
def decodeAddr : DecodeM MSStunAddress := do
  if length ≠ 8 ∧ length ≠ 20 then
    setError
    return {}
  let _ ← decode8
  let family ← decode8
  if family = msStunAddrFamilyIpv6 then
    let port ← decode16
    let addr ← decodeBytes 16
    return ⟨.v6 port addr, family⟩
  else
    let port ← decode16
    let addr ← decode32
    return ⟨.v4 port addr, family⟩

/-- `stun_address_xor` (`stun.c:98–113`). -/
def stunAddressXor (addr : MSStunAddress) (trId : List UInt8) : MSStunAddress :=
  match addr.ip with
  | .v4 port ip =>
    if addr.family = msStunAddrFamilyIpv4 then
      { addr with ip := .v4 (port ^^^ (msStunMagicCookie >>> 16).toUInt16)
                            (ip ^^^ msStunMagicCookie) }
    else addr
  | .v6 port octets =>
    let mask := [0x21, 0x12, 0xA4, 0x42] ++ trId
    { addr with ip := .v6 (port ^^^ (msStunMagicCookie >>> 16).toUInt16)
                          (octets.zipWith (· ^^^ ·) mask) }

/-- `decode_xor_addr` (`stun.c:425–429`). -/
def decodeXorAddr (trId : List UInt8) : DecodeM MSStunAddress := do
  return stunAddressXor (← decodeAddr length) trId

/-- The shape shared by the fixed-size integer attributes: a wrong declared length is an
error and reads nothing. -/
def decodeFixed {α : Type} [OfNat α 0] (expected length : UInt16) (read : DecodeM α) :
    DecodeM α := do
  if length ≠ expected then
    setError
    return 0
  read

/-- `decode_change_request` (`stun.c:431–438`). -/
def decodeChangeRequest : DecodeM UInt32 := decodeFixed 4 length decode32

/-- `decode_fingerprint` (`stun.c:496–503`). -/
def decodeFingerprint : DecodeM UInt32 := decodeFixed 4 length decode32

/-- `decode_priority` (`stun.c:505–512`). -/
def decodePriority : DecodeM UInt32 := decodeFixed 4 length decode32

/-- `decode_ice_control` (`stun.c:514–521`). -/
def decodeIceControl : DecodeM UInt64 := decodeFixed 8 length decode64

/-- `decode_lifetime` (`stun.c:523–530`). -/
def decodeLifetime : DecodeM UInt32 := decodeFixed 4 length decode32

/-- `decode_string` (`stun.c:440–455`): the bytes copied, without the NUL put after them. -/
def decodeString (maxLength : UInt16) : DecodeM (Option (List UInt8)) := do
  if length > maxLength then
    setError
    return none
  return some (← decodeBytes length.toNat)

/-- `STUN_MAX_REASON_LENGTH` (`stun.c:33`). -/
def stunMaxReasonLength : UInt16 := 127

/-- `decode_error_code` (`stun.c:457–480`). -/
def decodeErrorCode : DecodeM (UInt16 × Option (List UInt8)) := do
  if length < 4 ∨ length > stunMaxReasonLength + 4 then
    setError
    return (0, none)
  let reasonLength := length - 4
  let _ ← decode16
  let clazz ← decode8
  let code ← decode8
  let number := clazz.toUInt16 * 100 + code.toUInt16
  if reasonLength > 0 then
    return (number, some (← decodeBytes reasonLength.toNat))
  else
    return (number, none)

/-- `decode_message_integrity` (`stun.c:482–494`). -/
def decodeMessageIntegrity : DecodeM (Option (List UInt8)) := do
  if length ≠ 20 then
    setError
    return none
  return some (← decodeBytes 20)

/-- `decode_data` (`stun.c:532–536`). -/
def decodeData : DecodeM (List UInt8) := decodeBytes length.toNat

end GrooveIp.Stun
