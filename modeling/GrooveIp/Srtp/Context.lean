import GrooveIp.Sal.Description

/-!
# SRTP contexts

The four stream contexts of `ms_srtp.c` and the calls that change them. Of libsrtp only what
the code can see is kept: a session is the list of the streams added to it, `srtp_create` and
`srtp_add_stream` return any status, a failed call changing nothing (`srtp.c:2830–2928`), and
`srtp_protect` is any function of the session, the packet and a hidden state.
-/

namespace GrooveIp.Srtp

open Sal (MSCryptoSuite)

/-- `srtp_policy_t`, as far as `ms_add_srtp_stream` fills it. -/
structure SrtpPolicy where
  suite : MSCryptoSuite
  ssrc : UInt32
  key : List UInt8
  allowRepeatTx : Bool
  deriving DecidableEq, Repr

/-- `srtp_t`: the policies of its streams, newest first. -/
abbrev SrtpSession := List SrtpPolicy

/-- `MSSrtpStreamContext` (`ms_srtp.c:42–49`); `modifier` says whether it was appended to the
transport. -/
structure MSSrtpStreamContext where
  srtp : Option SrtpSession := none
  modifier : Bool := false
  secured : Bool := false
  mandatoryEnabled : Bool := false
  deriving DecidableEq, Repr

/-- `struct _MSSrtpCtx` (`ms_srtp.c:51–56`). -/
structure MSSrtpCtx where
  sendRtpContext : MSSrtpStreamContext := {}
  sendRtcpContext : MSSrtpStreamContext := {}
  recvRtpContext : MSSrtpStreamContext := {}
  recvRtcpContext : MSSrtpStreamContext := {}
  deriving DecidableEq, Repr

variable (ctx : MSSrtpCtx)

/-- `get_stream_context` (`ms_srtp.c:186–195`). -/
def MSSrtpCtx.getStreamContext : (isSend isRtp : Bool) → MSSrtpStreamContext
  | true, true => ctx.sendRtpContext
  | true, false => ctx.sendRtcpContext
  | false, true => ctx.recvRtpContext
  | false, false => ctx.recvRtcpContext

/-- A write through the pointer that `get_stream_context` returns. -/
def MSSrtpCtx.setStreamContext (c : MSSrtpStreamContext) : (isSend isRtp : Bool) → MSSrtpCtx
  | true, true => { ctx with sendRtpContext := c }
  | true, false => { ctx with sendRtcpContext := c }
  | false, true => { ctx with recvRtpContext := c }
  | false, false => { ctx with recvRtcpContext := c }

/-- A write is seen through the same pointer and no other one. -/
theorem getStreamContext_set (c : MSSrtpStreamContext) (s r s' r' : Bool) :
    (ctx.setStreamContext c s r).getStreamContext s' r' =
      if s = s' ∧ r = r' then c else ctx.getStreamContext s' r' := by
  cases s <;> cases r <;> cases s' <;> cases r' <;> rfl

/-- `ms_media_stream_session_fill_srtp_context` (`ms_srtp.c:198–237`), with the status that
`srtp_create` returns if it is called. -/
def fillSrtpContext (createErr : Int) (streamCtx : MSSrtpStreamContext) :
    Int × MSSrtpStreamContext :=
  let streamCtx :=
    if streamCtx.srtp.isSome && streamCtx.secured then { streamCtx with srtp := none }
    else streamCtx
  match streamCtx.srtp with
  | some _ => (0, { streamCtx with modifier := true })
  | none =>
    if createErr ≠ 0 then (createErr, streamCtx)
    else (0, { streamCtx with srtp := some [], modifier := true })

/-- The calls of `ms_media_stream_sessions_fill_srtp_context_all_stream` for the streams left,
with `err` so far (`ms_srtp.c:242–250`). -/
def fillMissing (createErr : Bool → Bool → Int) :
    List (Bool × Bool) → Int → MSSrtpCtx → Int × MSSrtpCtx
  | [], err, ctx => (err, ctx)
  | (isSend, isRtp) :: rest, err, ctx =>
    match (ctx.getStreamContext isSend isRtp).srtp with
    | some _ => fillMissing createErr rest err ctx
    | none =>
      let (err, c) := fillSrtpContext (createErr isSend isRtp) (ctx.getStreamContext isSend isRtp)
      let ctx := ctx.setStreamContext c isSend isRtp
      if err ≠ 0 then (err, ctx) else fillMissing createErr rest err ctx

/-- `ms_media_stream_sessions_fill_srtp_context_all_stream` (`ms_srtp.c:238–253`). -/
def fillSrtpContextAllStream (createErr : Bool → Bool → Int) (ctx : MSSrtpCtx) : Int × MSSrtpCtx :=
  fillMissing createErr [(true, true), (true, false), (false, true), (false, false)] (-1) ctx

/-- `ms_media_stream_sessions_set_encryption_mandatory` (`ms_srtp.c:475–489`). The context is
created by `check_and_create_srtp_context`. -/
def setEncryptionMandatory (createErr : Bool → Bool → Int) (yesno : Bool)
    (srtpContext : Option MSSrtpCtx) : Int × MSSrtpCtx :=
  let ctx := srtpContext.getD {}
  let (err, ctx) := if yesno then fillSrtpContextAllStream createErr ctx else (0, ctx)
  if err ≠ 0 then (err, ctx)
  else (0, {
    sendRtpContext := { ctx.sendRtpContext with mandatoryEnabled := yesno }
    sendRtcpContext := { ctx.sendRtcpContext with mandatoryEnabled := yesno }
    recvRtpContext := { ctx.recvRtpContext with mandatoryEnabled := yesno }
    recvRtcpContext := { ctx.recvRtcpContext with mandatoryEnabled := yesno } })

/-- The `cipher_key_len` of the policy of a suite (`ms_srtp.c:256–284`), as libsrtp sets it. -/
def setSrtpCryptoPolicy : MSCryptoSuite → Option Nat
  | .aes128Sha1_32 | .aes128NoAuth | .aes128Sha1_80 => some 30
  | .noCipherSha1_80 => some 0
  | .aes256Sha1_80 | .aesCm256Sha1_80 | .aes256Sha1_32 => some 46
  | .invalid => none

/-- `ms_add_srtp_stream` (`ms_srtp.c:286–330`), with the status of `srtp_add_stream`. -/
def addSrtpStream (addErr : Int) (srtp : SrtpSession) (policy : SrtpPolicy) : Int × SrtpSession :=
  match setSrtpCryptoPolicy policy.suite with
  | none => (-1, srtp)
  | some cipherKeyLen =>
    if policy.key.length ≠ cipherKeyLen then (-1, srtp)
    else if addErr ≠ 0 then (-1, srtp)
    else (0, policy :: srtp)

/-- What an installation is given: the suite, the key, the sending SSRC of the session, and the
status of each libsrtp call. -/
structure KeyInstall where
  suite : MSCryptoSuite
  key : List UInt8
  sendSsrc : UInt32
  createErr : Bool → Int
  addErr : Bool → Int

/-- The policy that `ms_add_srtp_stream` builds (`ms_srtp.c:313–321`). -/
def KeyInstall.policy (k : KeyInstall) (isSend : Bool) : SrtpPolicy where
  suite := k.suite
  ssrc := if isSend then k.sendSsrc else 0
  key := k.key
  allowRepeatTx := isSend

/-- `ms_media_stream_sessions_set_srtp_key_base` (`ms_srtp.c:362–384`). -/
def setSrtpKeyBase (k : KeyInstall) (isSend isRtp : Bool) (ctx : MSSrtpCtx) : Int × MSSrtpCtx :=
  let (error, c) := fillSrtpContext (k.createErr isRtp) (ctx.getStreamContext isSend isRtp)
  if error ≠ 0 then (error, ctx.setStreamContext { c with secured := false } isSend isRtp)
  else
    let (error, srtp) := addSrtpStream (k.addErr isRtp) (c.srtp.getD []) (k.policy isSend)
    if error ≠ 0 then
      (error, ctx.setStreamContext { c with srtp := some srtp, secured := false } isSend isRtp)
    else (0, ctx.setStreamContext { c with srtp := some srtp, secured := true } isSend isRtp)

/-- `MSSrtpStreamType` (`ms_srtp.h`). -/
inductive MSSrtpStreamType where
  | rtpStream | rtcpStream | allStreams
  deriving DecidableEq, Repr

/-- The streams that `ms_media_stream_sessions_set_srtp_key` visits, in order
(`ms_srtp.c:386–397`). -/
def MSSrtpStreamType.streams : MSSrtpStreamType → List Bool
  | .allStreams => [true, false]
  | .rtpStream => [true]
  | .rtcpStream => [false]

/-- `RTP_FIXED_HEADER_SIZE` (`rtp.h`). -/
def rtpFixedHeaderSize : Nat := 12

/-- The `version` bits of an RTP or RTCP header. -/
def headerVersion (m : List UInt8) : UInt8 := m.headD 0 >>> 6

/-- `_process_on_send` (`ms_srtp.c:95–138`): the returned size and the bytes of the message
after the call. `protect` is `srtp_protect` for RTP and `srtp_protect_rtcp` for RTCP. -/
def processOnSend (protect : SrtpSession → List UInt8 → Int × List UInt8)
    (ctx : MSSrtpStreamContext) (m : List UInt8) : Int × List UInt8 :=
  if rtpFixedHeaderSize < m.length ∧ headerVersion m = 2 then
    if ctx.secured then
      let (err, out) := protect (ctx.srtp.getD []) m
      if err = 0 then (out.length, out) else (-1, out)
    else (0, m)
  else (m.length, m)

/-- What the transport sends of a packet: nothing when its modifier returns no size, and the
packet itself when it has no modifier (`rtpsession.c:2188–2198`). -/
def sendThroughModifier (protect : SrtpSession → List UInt8 → Int × List UInt8)
    (ctx : MSSrtpStreamContext) (m : List UInt8) : Option (List UInt8) :=
  if ctx.modifier then
    let (ret, out) := processOnSend protect ctx m
    if ret ≤ 0 then none else some out
  else some m

end GrooveIp.Srtp
