import GrooveIp.Sal.SdpNames
import GrooveIp.Lib.Printed
import Mathlib.Data.List.Forall2
import Mathlib.Data.List.TakeWhile

/-!
# Payload types through SDP

What `belle_sdp_media_description_append_values_from_mime_parameter`
(`belle_sdp_impl.c:1005–1071`) leaves in the attributes for a list of payload types, and what
`sdp_parse_payload_types` (`sal_sdp.c:459–484`) reads back from them.
-/

namespace GrooveIp.Sal

open Lib List
open BelleSdpAttribute (getValue raw)

/-! ### The lines of the payload types -/

section

variable (forceRtpMap : Bool)

variable (p : BelleSdpMimeParameter)

variable {ptime : Int}

variable {d : BelleSdpBaseDescription} {base tail : List BelleSdpAttribute}

end

/-! ### Looking a payload type up -/

section

variable {α : Type} (field : String) (h : isSpecialised field.toList = false)
  (number : α → Int) (text : α → Option CString)

end

/-! ### Reading a payload type back -/

/-- What a payload type is after the way through SDP: its name up to the case of letters and
the fmtp that it receives as the one to send. -/
structure PayloadType.ReadBack (pt pt' : PayloadType) : Prop where
  number : pt'.number = pt.number
  mimeType : strcaseEq pt'.mimeType pt.mimeType = true
  clockRate : pt'.clockRate = pt.clockRate
  channels : pt'.channels = pt.channels
  sendFmtp : pt'.sendFmtp = pt.recvFmtp

open PayloadType

/-- A payload type that its lines can say: distinct from the others by its number, one
channel being what an audio stream has by default and none what the others have. -/
structure PayloadType.WellFormed (isAudio : Bool) (pt : PayloadType) : Prop where
  number_nonneg : 0 ≤ pt.number
  number_lt : pt.number < 128
  clockRate_nonneg : 0 ≤ pt.clockRate
  clockRate_lt : pt.clockRate < 2 ^ 31
  channels : if isAudio then 1 ≤ pt.channels else pt.channels = 0 ∨ 2 ≤ pt.channels
  channels_lt : pt.channels < 2 ^ 31
  mimeType_slash : '/' ∉ pt.mimeType
  mimeType_space : NoSpace pt.mimeType
  rtpmap_fits : (rtpmapText (mimeParameterOf 0 pt)).length < maxFmtpLength
  fmtp : ∀ f ∈ pt.recvFmtp, f ≠ [] ∧ NoSpace f ∧
    (fmtpText (mimeParameterOf 0 pt) f).length < maxFmtpLength

section

variable {forceRtpMap : Bool} {payloads : List PayloadType} {ptime : Int}
  {m : BelleSdpMediaDescription}

variable {isAudio : Bool} {pt : PayloadType}

end

end GrooveIp.Sal
