/-!
# Telephone events

How `rtp_session_send_dtmf2` (`telephonyevents.c:202–308`) sends a digit, as two packets that
begin it and one that ends it three times, and how `rtp_session_check_telephone_events`
(`telephonyevents.c:363–436`) notifies the digits of the packets that arrive.
-/

namespace GrooveIp.Ortp

/-! ## Packets -/

/-- `telephone_event_t`, with the duration in host order (`telephonyevents.h:33–50`). -/
structure TelephoneEvent where
  event : UInt8
  volume : UInt8
  R : Bool := false
  E : Bool
  duration : UInt16
  deriving DecidableEq, Repr

/-- A packet of telephone events: the fields of its header that are set and its payload. -/
structure TevPacket where
  markbit : Bool
  paytype : Int
  ssrc : UInt32
  seqNumber : UInt16
  timestamp : UInt32
  events : List TelephoneEvent := []
  deriving DecidableEq, Repr

/-- A payload type of a profile, as far as its lookup reads it. -/
structure ProfilePayload where
  mimeType : String
  clockRate : Int
  channels : Int

/-- `RtpProfile`: the payload types by number, `RTP_PROFILE_MAX_PAYLOADS` of them. -/
abbrev RtpProfile := Fin 128 → Option ProfilePayload

namespace RtpProfile

variable (prof : RtpProfile)

/-- `rtp_profile_get_payload` (`rtpprofile.h:74–79`). -/
def getPayload (idx : Int) : Option ProfilePayload :=
  if h : idx.toNat < 128 then if 0 ≤ idx then prof ⟨idx.toNat, h⟩ else none else none

/-- `rtp_profile_find_payload_number` (`rtpprofile.c:46–65`), with `none` for `-1`. -/
def findPayloadNumber (mime : String) (rate channels : Int) : Option Int :=
  ((List.finRange 128).find? fun i =>
    match prof i with
    | some pt => pt.mimeType.toLower == mime.toLower && pt.clockRate == rate &&
        (pt.channels == channels || decide (channels ≤ 0) || decide (pt.channels ≤ 0))
    | none => false).map fun i => (i.val : Int)

/-- `rtp_profile_is_telephone_event` (`telephonyevents.c:53–56`). -/
def isTelephoneEvent (ptNum : Int) : Bool :=
  match prof.getPayload ptNum with
  | some pt => pt.mimeType.toLower == "telephone-event"
  | none => false

end RtpProfile

/-! ## Sending -/

/-- The sending side of a session. `duplicates` is how often the packet that is sent as the
`n`-th one goes out besides, which `duplication_ratio` settles, and `staleSeq` what `allocb` leaves
in place of a sequence number. -/
structure TevSender where
  profile : RtpProfile
  pt : Int
  tevSendPt : Int
  ssrc : UInt32
  sndSeq : UInt16
  sendTsOffset : UInt32
  packetSent : Nat := 0
  duplicates : Nat → Nat
  staleSeq : UInt16

namespace TevSender

/-- `rtp_session_create_telephone_event_packet` (`telephonyevents.c:105–146`). -/
def createTelephoneEventPacket (session : TevSender) (start : Bool) : Option TevPacket := do
  let curPt := session.profile.getPayload session.pt
  let found := session.profile.findPayloadNumber "telephone-event"
    ((curPt.map ProfilePayload.clockRate).getD 8000) 1
  let tevPt ← (
    if session.tevSendPt ≠ -1 ∧ (session.profile.getPayload session.tevSendPt).isSome then
      some session.tevSendPt
    else found : Option Int)
  return {
    markbit := start
    paytype := tevPt
    ssrc := session.ssrc
    seqNumber := session.staleSeq
    timestamp := 0 }

/-- `rtp_session_sendm_with_ts` (`rtpsession.c:965–1048`): the session afterwards, and the packets
that go out. -/
def sendmWithTs (session : TevSender) (packet : TevPacket) (timestamp : UInt32) :
    TevSender × List TevPacket :=
  let packet := { packet with timestamp := timestamp + session.sendTsOffset }
  let packet :=
    if session.profile.isTelephoneEvent packet.paytype then
      { packet with seqNumber := session.sndSeq }
    else packet
  ({ session with sndSeq := packet.seqNumber + 1, packetSent := session.packetSent + 1 },
    List.replicate (session.duplicates session.packetSent + 1) packet)

end TevSender

/-- `rtp_session_add_telephone_event` (`telephonyevents.c:163–190`). -/
def TevPacket.addTelephoneEvent (packet : TevPacket) (event : UInt8) (fin : Bool) (volume : UInt8)
    (duration : UInt16) : TevPacket :=
  { packet with events := packet.events ++ [{ event, volume, E := fin, duration }] }

/-- The event of a digit (`telephonyevents.c:209–276`). -/
def dtmfEvent : Char → Option UInt8
  | '1' => some 1
  | '2' => some 2
  | '3' => some 3
  | '4' => some 4
  | '5' => some 5
  | '6' => some 6
  | '7' => some 7
  | '8' => some 8
  | '9' => some 9
  | '*' => some 10
  | '0' => some 0
  | '#' => some 11
  | 'A' | 'a' => some 12
  | 'B' | 'b' => some 13
  | 'C' | 'c' => some 14
  | 'D' | 'd' => some 15
  | '!' => some 16
  | _ => none

/-- The arguments of a call of `rtp_session_send_dtmf2`. -/
structure Dtmf where
  dtmf : Char
  userts : UInt32
  duration : Int

namespace TevSender

variable (session : TevSender)

/-- The three packets of a digit (`telephonyevents.c:278–290`). -/
def dtmfPackets (tevType : UInt8) (duration : Int) :
    Option (TevPacket × TevPacket × TevPacket) := do
  let durationtier := duration.tdiv 3
  let m1 ← session.createTelephoneEventPacket true
  let m1 := m1.addTelephoneEvent tevType false 10 (UInt16.ofInt durationtier)
  let m2 ← session.createTelephoneEventPacket false
  let m2 := m2.addTelephoneEvent tevType false 10 (UInt16.ofInt (durationtier + durationtier))
  let m3 ← session.createTelephoneEventPacket false
  let m3 := m3.addTelephoneEvent tevType true 10 (UInt16.ofInt duration)
  return (m1, m2, m3)

/-- `session->rtp.snd_seq--`. -/
def takeBackSeq : TevSender :=
  { session with sndSeq := session.sndSeq - 1 }

/-- `rtp_session_send_dtmf2` (`telephonyevents.c:202–308`): the session afterwards, and the packets
that go out; none where it returns `-1`. -/
def sendDtmf2 (d : Dtmf) : TevSender × List TevPacket :=
  match (dtmfEvent d.dtmf).bind fun tevType => session.dtmfPackets tevType d.duration with
  | none => (session, [])
  | some (m1, m2, m3) =>
    let (session, sent1) := session.sendmWithTs m1 d.userts
    let (session, sent2) := session.sendmWithTs m2 d.userts
    let (session, sent3) := session.sendmWithTs m3 d.userts
    let (session, sent4) := session.takeBackSeq.sendmWithTs m3 d.userts
    let (session, sent5) := session.takeBackSeq.sendmWithTs m3 d.userts
    (session, sent1 ++ (sent2 ++ (sent3 ++ (sent4 ++ sent5))))

/-- The packets of a sequence of digits. -/
def sendDigits : TevSender → List Dtmf → List TevPacket
  | _, [] => []
  | session, d :: digits =>
    (session.sendDtmf2 d).2 ++ sendDigits (session.sendDtmf2 d).1 digits

end TevSender

/-! ## Receiving -/

/-- The receiving side of a session: the pending events, and the events that were notified. -/
structure TevReceiver where
  currentTev : Option TevPacket := none
  notified : List UInt8 := []

/-- The loop over the events of a packet and the pending ones (`telephonyevents.c:400–411`): the
pending events afterwards, and those that ended. -/
def updateEnded : List TelephoneEvent → List TelephoneEvent → List TelephoneEvent × List UInt8
  | e :: events, b :: evbuf =>
    let (evbuf, ended) := updateEnded events evbuf
    if e.E && !b.E then ({ b with E := true } :: evbuf, e.event :: ended)
    else (b :: evbuf, ended)
  | _, evbuf => (evbuf, [])

namespace TevReceiver

variable (session : TevReceiver)

/-- `notify_events_ended` (`telephonyevents.c:353–360`). -/
def notifyEventsEnded (events : List TelephoneEvent) : TevReceiver :=
  { session with
    notified := session.notified ++ (events.filter TelephoneEvent.E).map TelephoneEvent.event }

/-- The pending events are replaced by those of a packet (`telephonyevents.c:384–389`). -/
def restart (m0 : TevPacket) : TevReceiver :=
  { session with currentTev := some m0 }.notifyEventsEnded m0.events

/-- `rtp_session_check_telephone_events` (`telephonyevents.c:363–436`). -/
def checkTelephoneEvents (m0 : TevPacket) : TevReceiver :=
  let session := if m0.markbit then session.restart m0 else session
  match session.currentTev with
  | some curTev =>
    if curTev.timestamp = m0.timestamp then
      let (evbuf, ended) := updateEnded m0.events curTev.events
      { currentTev := some { curTev with events := evbuf }, notified := session.notified ++ ended }
    else session.restart m0
  | none => session.restart m0

end TevReceiver

end GrooveIp.Ortp
