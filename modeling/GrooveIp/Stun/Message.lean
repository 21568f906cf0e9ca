import GrooveIp.Lib.Memory

/-!
# STUN messages

The record `MSStunMessage` of `mediastreamer2/stun.h:128` with the setters of
`stun.c:1007–1320` that the parser calls. A `char *` field is an optional C string:
`none` is NULL. The fields that only the encoder or the TURN client sets
(`password`, `ha1`, requested transport, channel number) keep their zero value here.
-/

namespace GrooveIp.Stun

open Lib

/-- `MSStunAddress.ip` (`stun.h:115`): the member of the union that was written last. -/
inductive StunIp where
  | v4 (port : UInt16) (addr : UInt32)
  | v6 (port : UInt16) (addr : List UInt8)
  deriving DecidableEq, Repr

/-- `MSStunAddress` (`stun.h:115`). -/
structure MSStunAddress where
  ip : StunIp := .v4 0 0
  family : UInt8 := 0
  deriving DecidableEq, Repr

/-- `MSStunErrorCode` (`stun.h:123`). -/
structure MSStunErrorCode where
  reason : Option (List UInt8) := none
  number : UInt16 := 0
  deriving DecidableEq, Repr

/-- `MSStunMessage` (`stun.h:128`), as `ms_new0` leaves it by default. -/
structure MSStunMessage where
  type : UInt16 := 0
  method : UInt16 := 0
  length : UInt16 := 0
  trId : List UInt8 := List.replicate 12 0
  data : Option (List UInt8) := none
  username : Option (List UInt8) := none
  realm : Option (List UInt8) := none
  messageIntegrity : Option (List UInt8) := none
  software : Option (List UInt8) := none
  nonce : Option (List UInt8) := none
  errorCode : MSStunErrorCode := {}
  mappedAddress : MSStunAddress := {}
  xorMappedAddress : MSStunAddress := {}
  xorPeerAddress : MSStunAddress := {}
  xorRelayedAddress : MSStunAddress := {}
  changeRequest : UInt32 := 0
  fingerprint : UInt32 := 0
  priority : UInt32 := 0
  iceControlling : UInt64 := 0
  iceControlled : UInt64 := 0
  lifetime : UInt32 := 0
  dataLength : UInt16 := 0
  includeUsernameAttribute : Bool := false
  hasErrorCode : Bool := false
  hasMessageIntegrity : Bool := false
  hasDummyMessageIntegrity : Bool := false
  hasFingerprint : Bool := false
  hasMappedAddress : Bool := false
  hasXorMappedAddress : Bool := false
  hasXorPeerAddress : Bool := false
  hasXorRelayedAddress : Bool := false
  hasPriority : Bool := false
  hasUseCandidate : Bool := false
  hasIceControlling : Bool := false
  hasIceControlled : Bool := false
  hasLifetime : Bool := false
  deriving DecidableEq, Repr

/-- `MS_STUN_ADDR_FAMILY_IPV4` and `MS_STUN_ADDR_FAMILY_IPV6` (`stun.h:31–32`). -/
def msStunAddrFamilyIpv4 : UInt8 := 0x01

@[inherit_doc msStunAddrFamilyIpv4]
def msStunAddrFamilyIpv6 : UInt8 := 0x02

/-- `MS_STUN_MAGIC_COOKIE` (`stun.h:29`). -/
def msStunMagicCookie : UInt32 := 0x2112A442

/-- `STUN_STR_SETTER` (`stun.c:39–41`): the field takes a duplicate of a C string. -/
def stunStrSetter (value : Option (List UInt8)) : Option (List UInt8) := value.map cString

namespace MSStunMessage

variable (msg : MSStunMessage) (addr : MSStunAddress)

/-- `ms_stun_message_set_username` (`stun.c:1029`). -/
def setUsername (username : Option (List UInt8)) : MSStunMessage :=
  { msg with username := stunStrSetter username, includeUsernameAttribute := true }

/-- `ms_stun_message_set_realm` (`stun.c:1054`). -/
def setRealm (realm : Option (List UInt8)) : MSStunMessage :=
  { msg with realm := stunStrSetter realm }

/-- `ms_stun_message_set_software` (`stun.c:1062`). -/
def setSoftware (software : Option (List UInt8)) : MSStunMessage :=
  { msg with software := stunStrSetter software }

/-- `ms_stun_message_set_nonce` (`stun.c:1070`). -/
def setNonce (nonce : Option (List UInt8)) : MSStunMessage :=
  { msg with nonce := stunStrSetter nonce }

/-- `ms_stun_message_set_error_code` (`stun.c:1085`). -/
def setErrorCode (number : UInt16) (reason : Option (List UInt8)) : MSStunMessage :=
  { msg with errorCode := ⟨stunStrSetter reason, number⟩, hasErrorCode := true }

/-- `ms_stun_message_set_mapped_address` (`stun.c:1116`). -/
def setMappedAddress : MSStunMessage :=
  { msg with mappedAddress := addr, hasMappedAddress := true }

/-- `ms_stun_message_set_xor_mapped_address` (`stun.c:1126`). -/
def setXorMappedAddress : MSStunMessage :=
  { msg with xorMappedAddress := addr, hasXorMappedAddress := true }

/-- `ms_stun_message_set_xor_peer_address` (`stun.c:1136`). -/
def setXorPeerAddress : MSStunMessage :=
  { msg with xorPeerAddress := addr, hasXorPeerAddress := true }

/-- `ms_stun_message_set_xor_relayed_address` (`stun.c:1146`). -/
def setXorRelayedAddress : MSStunMessage :=
  { msg with xorRelayedAddress := addr, hasXorRelayedAddress := true }

/-- `ms_stun_message_set_priority` (`stun.c:1175`). -/
def setPriority (priority : UInt32) : MSStunMessage :=
  { msg with priority := priority, hasPriority := true }

/-- `ms_stun_message_enable_use_candidate` (`stun.c:1184`). -/
def enableUseCandidate (enable : Bool) : MSStunMessage :=
  { msg with hasUseCandidate := enable }

/-- `ms_stun_message_set_ice_controlling` (`stun.c:1196`). -/
def setIceControlling (value : UInt64) : MSStunMessage :=
  { msg with iceControlling := value, hasIceControlling := true }

/-- `ms_stun_message_set_ice_controlled` (`stun.c:1209`). -/
def setIceControlled (value : UInt64) : MSStunMessage :=
  { msg with iceControlled := value, hasIceControlled := true }

/-- `ms_stun_message_set_lifetime` (`stun.c:1283`). -/
def setLifetime (lifetime : UInt32) : MSStunMessage :=
  { msg with lifetime := lifetime, hasLifetime := true }

/-- `ms_stun_message_set_data` (`stun.c:1309`). -/
def setData (data : List UInt8) (length : UInt16) : MSStunMessage :=
  { msg with data := some data, dataLength := length }

end MSStunMessage
end GrooveIp.Stun
