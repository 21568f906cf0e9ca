import GrooveIp.Lib.Exact
import GrooveIp.Ortp.RtcpBuild

/-!
# Received RTCP packets

How `process_rtcp_packet` (`rtpsession_inet.c:1486`) goes through a received datagram. Every field is
read where the current packet has it, between `b_rptr` and `b_wptr`, or the read is a fault. The
STUN packets among the datagrams, the statistics of the socket and the sending of the answers are
left out.
-/

namespace GrooveIp.Ortp

open Lib

/-! ## Reading -/

/-- A field of a datagram that lies between the pointers. -/
def fieldAt (datagram : List UInt8) (rptr off n : Nat) : Except Fault Nat :=
  if rptr ≤ off ∧ off + n ≤ datagram.length then .ok (beNat ((datagram.drop off).take n))
  else .error .outOfBounds

/-- `rtcp_is_SR` and its like (`rtcpparse.c:62–75`): the type, and what `msgdsize` has to be. -/
def rtcpIs (type : RtcpType) (minimum : Nat) (datagram : List UInt8) (rptr : Nat) :
    Except Fault Bool :=
  if datagram.length - rptr < 4 then .ok false
  else do
    let packetType ← fieldAt datagram rptr (rptr + 1) 1
    return packetType = type.code.toNat ∧ minimum ≤ datagram.length - rptr

/-- `rtcp_is_SR` (`rtcpparse.c:62`). -/
def rtcpIsSR := rtcpIs .sr 28

/-- `rtcp_is_RR` (`rtcpparse.c:99`). -/
def rtcpIsRR := rtcpIs .rr 32

/-- `rtcp_is_XR` (`rtcpparse.c:285`). -/
def rtcpIsXR := rtcpIs .xr 12

/-- `rtcp_is_RTPFB` (`rtcpparse.c:509`). -/
def rtcpIsRTPFB := rtcpIs .rtpfb 12

/-- `rtcp_get_size` (`rtcpparse.c:24`). -/
def rtcpSizeAt (datagram : List UInt8) (rptr : Nat) : Except Fault Nat :=
  if datagram.length - rptr < 4 then .ok 0
  else do
    let length ← fieldAt datagram rptr (rptr + 2) 2
    return (1 + length) * 4

/-- `rtcp_next_packet` (`rtcpparse.c:32`): the new `b_rptr`. -/
def rtcpNextAt (datagram : List UInt8) (rptr : Nat) : Except Fault (Option Nat) := do
  let nextlen ← rtcpSizeAt datagram rptr
  return if 0 < nextlen ∧ rptr + nextlen < datagram.length then some (rptr + nextlen) else none

/-- `rtcp_SR_get_report_block` and `rtcp_RR_get_report_block` of the first block, which is at some
offset of the packet (`rtcpparse.c:88, 119`). The warning reads the number of the blocks. -/
def rtcpReportBlock (off : Nat) (datagram : List UInt8) (rptr : Nat) :
    Except Fault (Option Nat) := do
  let size ← rtcpSizeAt datagram rptr
  if off + 24 ≤ size then return some (rptr + off)
  else do
    let _ ← fieldAt datagram rptr rptr 1
    return none

/-- `report_block_get_cum_packet_lost` (`rtcp.h:131`): 24 bits with a sign. -/
def cumPacketLost (flCnpl : Nat) : Int :=
  if flCnpl / 2 ^ 23 % 2 = 0 then (flCnpl % 2 ^ 24 : Nat) else (flCnpl % 2 ^ 24 : Nat) - 2 ^ 24

/-! ## The packets -/

/-- `compute_rtt_from_report_block` (`rtpsession_inet.c:1430`). -/
def computeRttFromReportBlock (session : RtcpSession) (datagram : List UInt8) (rptr rb : Nat) :
    Except Fault RtcpSession := do
  let lsr ← fieldAt datagram rptr (rb + 16) 4
  let delay ← fieldAt datagram rptr (rb + 20) 4
  let flCnpl ← fieldAt datagram rptr (rb + 4) 4
  return { session with rtt := some (lsr, delay), cumLoss := cumPacketLost flCnpl }

/-- The report block of an SR or RR packet, if there is one. -/
def processReportBlock (off : Nat) (session : RtcpSession) (datagram : List UInt8) (rptr : Nat) :
    Except Fault RtcpSession := do
  match ← rtcpReportBlock off datagram rptr with
  | none => return session
  | some rb => computeRttFromReportBlock session datagram rptr rb

/-- The SR branch (`rtpsession_inet.c:1534–1559`), and whether the function returns there. The
pointer `rtcp` stays at the start of the datagram, `msgsize` is the size of the whole. -/
def processSR (session : RtcpSession) (datagram : List UInt8) (rptr : Nat) :
    Except Fault (RtcpSession × Bool) := do
  let session := { session with lastRcvSrTs := 0 }
  let ssrc ← fieldAt datagram rptr 4 4
  if ssrc ≠ session.rcvSsrc.toNat then return (session, true)
  let rc ← fieldAt datagram rptr 0 1
  if datagram.length < 28 + 24 * (rc % 2 ^ 5) then return (session, true)
  let msw ← fieldAt datagram rptr 8 4
  let lsw ← fieldAt datagram rptr 12 4
  let session := { session with lastRcvSrTs := msw % 2 ^ 16 * 2 ^ 16 + lsw / 2 ^ 16 }
  return (← processReportBlock 28 session datagram rptr, false)

/-- `compute_rtcp_xr_statistics` (`rtpsession_inet.c:1437`). -/
def computeRtcpXrStatistics (session : RtcpSession) (datagram : List UInt8) (rptr : Nat) :
    Except Fault RtcpSession := do
  let bt ← fieldAt datagram rptr (rptr + 8) 1
  if bt = 4 then
    let msw ← fieldAt datagram rptr (rptr + 12) 4
    let lsw ← fieldAt datagram rptr (rptr + 16) 4
    return { session with lastRcvrRttTs := msw % 2 ^ 16 * 2 ^ 16 + lsw / 2 ^ 16 }
  else if bt = 5 then
    let lrr ← fieldAt datagram rptr (rptr + 16) 4
    let dlrr ← fieldAt datagram rptr (rptr + 20) 4
    return { session with rtt := some (lrr, dlrr) }
  else return session

/-- `rtp_session_send_rtcp_fb_tmmbn` (`rtcp_fb.c:373`). -/
def sendRtcpFbTmmbn (session : RtcpSession) (ssrc : UInt32) : Except Fault RtcpSession :=
  if session.avpfEnabled && session.tmmbrFeature then do
    let m ← makeRtcpFbTmmbn session ssrc
    return { session with fbPackets := session.fbPackets ++ m.toList }
  else .ok session

/-- A field of the FCI behind a pointer that may be NULL, of the packet at `b_rptr`. -/
def fciField (datagram : List UInt8) (rptr : Nat) (fci : Option Nat) (off : Nat) :
    Except Fault Nat :=
  match fci with
  | none => .error .nullDereference
  | some fci => fieldAt datagram rptr (rptr + fci + off) 4

/-- `handle_rtcp_rtpfb_packet` (`rtpsession_inet.c:1456`). -/
def handleRtcpRtpfbPacket (session : RtcpSession) (datagram : List UInt8) (rptr : Nat) :
    Except Fault RtcpSession := do
  let fmt ← fieldAt datagram rptr rptr 1
  if fmt % 2 ^ 5 = 3 then
    let session := { session with tmmbrReceived := some (Mblk.ofBytes (datagram.drop rptr)) }
    let sender ← fieldAt datagram rptr (rptr + 4) 4
    sendRtcpFbTmmbn session (UInt32.ofNat sender)
  else if fmt % 2 ^ 5 = 4 then
    match session.tmmbrSent with
    | none => return session
    | some sent => do
      let tmmbnFci := if 20 > (← rtcpSizeAt datagram rptr) then none else some 12
      let ssrc ← fciField datagram rptr tmmbnFci 0
      if ssrc ≠ session.sndSsrc.toNat then return session
      let value ← fciField datagram rptr tmmbnFci 4
      let sentValue ← fciField sent.bytes 0 (rtpfbTmmbrGetFci sent.bytes) 4
      return if value = sentValue then { session with tmmbrSent := none } else session
  else return session

/-- One round of the loop of `process_rtcp_packet`, and whether it returns. -/
def processPacket (session : RtcpSession) (datagram : List UInt8) (rptr : Nat) :
    Except Fault (RtcpSession × Bool) := do
  if ← rtcpIsSR datagram rptr then processSR session datagram rptr
  else if ← rtcpIsRR datagram rptr then
    return (← processReportBlock 8 session datagram rptr, false)
  else if ← rtcpIsXR datagram rptr then
    return (← computeRtcpXrStatistics session datagram rptr, false)
  else if ← rtcpIsRTPFB datagram rptr then
    return (← handleRtcpRtpfbPacket session datagram rptr, false)
  else return (session, false)

/-! ## What there is to read -/

section Datagram

variable (session : RtcpSession) (sent : Option Mblk) (datagram : List UInt8) (rptr : Nat)

/-- The number that a field holds. -/
def valueAt (off n : Nat) : Nat := beNat ((datagram.drop off).take n)

/-- The size that the packet at `b_rptr` declares. -/
def sizeAt : Nat := (1 + valueAt datagram (rptr + 2) 2) * 4

/-- The packet at `b_rptr` has a type, and the datagram does not end too early for it. -/
def IsAt (type : RtcpType) (minimum : Nat) : Prop :=
  4 ≤ datagram.length - rptr ∧ valueAt datagram (rptr + 1) 1 = type.code.toNat ∧
    minimum ≤ datagram.length - rptr

instance (type : RtcpType) (minimum : Nat) : Decidable (IsAt datagram rptr type minimum) :=
  inferInstanceAs (Decidable (_ ∧ _))

/-- The packet that is after the one at `b_rptr`. -/
def nextAt : Option Nat :=
  if 4 ≤ datagram.length - rptr ∧ rptr + sizeAt datagram rptr < datagram.length then
    some (rptr + sizeAt datagram rptr)
  else none

/-- The loop is left at an SR packet of another source, or one that ends too early. -/
def StopsAt : Prop :=
  IsAt datagram rptr .sr 28 ∧ (valueAt datagram 4 4 ≠ session.rcvSsrc.toNat ∨
    datagram.length < 28 + 24 * (valueAt datagram 0 1 % 2 ^ 5))

/-- The packet at `b_rptr` is a TMMBN that tells the limit that was asked for. -/
def AcknowledgesAt (p : Mblk) : Prop :=
  IsAt datagram rptr .rtpfb 12 ∧ valueAt datagram rptr 1 % 2 ^ 5 = 4 ∧
    valueAt datagram (rptr + 12) 4 = session.sndSsrc.toNat ∧
    valueAt datagram (rptr + 16) 4 = valueAt p.bytes 16 4

instance (p : Mblk) : Decidable (AcknowledgesAt session datagram rptr p) :=
  inferInstanceAs (Decidable (_ ∧ _))

/-- The TMMBR packet that waits for its answer after the packet at `b_rptr`. -/
def sentAfter : Option Mblk :=
  sent.filter fun p => ¬AcknowledgesAt session datagram rptr p

/-- Which packets, and with which TMMBR packet waiting, the loop comes to from a packet on. -/
inductive Comes : Nat → Option Mblk → Nat → Option Mblk → Prop where
  | here (rptr : Nat) (sent : Option Mblk) : Comes rptr sent rptr sent
  | next {rptr next last : Nat} {sent final : Option Mblk}
      (goes : ¬StopsAt session datagram rptr) (hnext : nextAt datagram rptr = some next)
      (rest : Comes next (sentAfter session sent datagram rptr) last final) :
      Comes rptr sent last final

/-! ## Which packets are safe -/

/-- An SR packet is the first one and, where it declares a report block without counting it, the
datagram has that block. One of another source may also be behind a bare header. -/
def SenderReportSafe : Prop :=
  rptr ≤ 4 ∧ (valueAt datagram 4 4 = session.rcvSsrc.toNat → rptr = 0 ∧
    (28 + 24 * (valueAt datagram 0 1 % 2 ^ 5) ≤ datagram.length → 52 ≤ sizeAt datagram rptr →
      52 ≤ datagram.length))

/-- The block of an XR packet ends before the datagram. -/
def ExtendedReportSafe : Prop :=
  (valueAt datagram (rptr + 8) 1 = 4 → rptr + 20 ≤ datagram.length) ∧
    (valueAt datagram (rptr + 8) 1 = 5 → rptr + 24 ≤ datagram.length)

/-- The control information of a TMMBR or TMMBN packet is declared and there, as far as it is
read. -/
def FeedbackSafe : Prop :=
  (valueAt datagram rptr 1 % 2 ^ 5 = 3 → session.avpfEnabled = true →
    session.tmmbrFeature = true → 20 ≤ sizeAt datagram rptr ∧ rptr + 20 ≤ datagram.length) ∧
  (valueAt datagram rptr 1 % 2 ^ 5 = 4 → ∀ p, sent = some p →
    20 ≤ sizeAt datagram rptr ∧ rptr + 16 ≤ datagram.length ∧
      (valueAt datagram (rptr + 12) 4 = session.sndSsrc.toNat → rptr + 20 ≤ datagram.length ∧
        20 ≤ rtcpGetSize p.bytes ∧ 20 ≤ p.bytes.length))

/-- The packet at `b_rptr` has every field that is read of it. -/
structure PacketSafe : Prop where
  sr : IsAt datagram rptr .sr 28 → SenderReportSafe session datagram rptr
  xr : IsAt datagram rptr .xr 12 → ExtendedReportSafe datagram rptr
  rtpfb : IsAt datagram rptr .rtpfb 12 → FeedbackSafe session sent datagram rptr

end Datagram

/-! ## The loop -/

section Reading

variable {session : RtcpSession} {datagram : List UInt8} {rptr off n : Nat}

theorem fieldAt_ok (hstart : rptr ≤ off) (hend : off + n ≤ datagram.length) :
    fieldAt datagram rptr off n = .ok (valueAt datagram off n) :=
  if_pos ⟨hstart, hend⟩

theorem rtcpIs_eq (type : RtcpType) (minimum : Nat) (datagram : List UInt8) (rptr : Nat) :
    rtcpIs type minimum datagram rptr = .ok (decide (IsAt datagram rptr type minimum)) := by
  unfold rtcpIs
  split
  · next hshort =>
    have hnot : ¬IsAt datagram rptr type minimum := fun h => Nat.not_lt.mpr h.1 hshort
    simp [hnot]
  · next hlong =>
    have hread : fieldAt datagram rptr (rptr + 1) 1 = .ok (valueAt datagram (rptr + 1) 1) :=
      fieldAt_ok (by omega) (by omega)
    have hiff : IsAt datagram rptr type minimum ↔
        valueAt datagram (rptr + 1) 1 = type.code.toNat ∧ minimum ≤ datagram.length - rptr :=
      ⟨fun h => h.2, fun h => ⟨Nat.not_lt.mp hlong, h⟩⟩
    simp only [hread, hiff, bind, Except.bind, pure, Except.pure]

theorem rtcpSizeAt_eq (h : 4 ≤ datagram.length - rptr) :
    rtcpSizeAt datagram rptr = .ok (sizeAt datagram rptr) := by
  have hread : fieldAt datagram rptr (rptr + 2) 2 = .ok (valueAt datagram (rptr + 2) 2) :=
    fieldAt_ok (by omega) (by omega)
  simp only [rtcpSizeAt, if_neg (Nat.not_lt.mpr h), hread, bind, Except.bind, pure, Except.pure,
    sizeAt]

theorem rtcpNextAt_eq (datagram : List UInt8) (rptr : Nat) :
    rtcpNextAt datagram rptr = .ok (nextAt datagram rptr) := by
  unfold rtcpNextAt nextAt
  by_cases hlong : 4 ≤ datagram.length - rptr
  · have hpos : 0 < sizeAt datagram rptr := by
      unfold sizeAt
      omega
    simp [rtcpSizeAt_eq hlong, hlong, hpos, bind, Except.bind, pure, Except.pure]
  · simp only [rtcpSizeAt, if_pos (Nat.not_le.mp hlong), hlong, false_and, if_false, bind,
      Except.bind, pure, Except.pure, Nat.lt_irrefl]

theorem nextAt_lt {next : Nat} (h : nextAt datagram rptr = some next) :
    rptr < next ∧ next < datagram.length := by
  unfold nextAt at h
  split at h
  · next hin =>
    cases h
    refine ⟨?_, hin.2⟩
    unfold sizeAt
    omega
  · cases h

end Reading

/-- The loop of `process_rtcp_packet` (`rtpsession_inet.c:1527–1569`). -/
def rtcpLoop (session : RtcpSession) (datagram : List UInt8) (rptr : Nat) :
    Except Fault RtcpSession :=
  match processPacket session datagram rptr with
  | .error fault => .error fault
  | .ok (session, true) => .ok session
  | .ok (session, false) =>
    match _h : rtcpNextAt datagram rptr with
    | .error fault => .error fault
    | .ok none => .ok session
    | .ok (some next) => rtcpLoop session datagram next
termination_by datagram.length - rptr
decreasing_by
  have hlt := nextAt_lt (Except.ok.inj ((rtcpNextAt_eq datagram rptr).symm.trans _h))
  omega

/-- `process_rtcp_packet` (`rtpsession_inet.c:1486`), and whether it took the datagram for RTCP. -/
def processRtcpPacket (session : RtcpSession) (datagram : List UInt8) :
    Except Fault (RtcpSession × Bool) :=
  if datagram.length < 4 then .ok (session, false)
  else do
    let version ← fieldAt datagram 0 0 1
    if version / 2 ^ 6 ≠ 2 then return (session, false)
    return (← rtcpLoop session datagram 0, true)

/-! ## One packet -/

/-- What is left of a session, and which TMMBR packet waits. -/
structure Kept (session session' : RtcpSession) (sent : Option Mblk) : Prop where
  sndSsrc : session'.sndSsrc = session.sndSsrc
  rcvSsrc : session'.rcvSsrc = session.rcvSsrc
  avpfEnabled : session'.avpfEnabled = session.avpfEnabled
  tmmbrFeature : session'.tmmbrFeature = session.tmmbrFeature
  tmmbrSent : session'.tmmbrSent = sent

section Branches

variable {session : RtcpSession} {datagram : List UInt8} {rptr : Nat}

theorem fieldAt_exact (datagram : List UInt8) (rptr off n : Nat) :
    Exact (fieldAt datagram rptr off n) (rptr ≤ off ∧ off + n ≤ datagram.length)
      (· = valueAt datagram off n) :=
  ⟨fun h => ⟨_, if_pos h, rfl⟩, fun h => ⟨_, if_neg h⟩⟩

theorem computeRttFromReportBlock_exact (session : RtcpSession) {rb : Nat} (hstart : rptr ≤ rb) :
    Exact (computeRttFromReportBlock session datagram rptr rb) (rb + 24 ≤ datagram.length)
      (Kept session · session.tmmbrSent) := by
  refine ((fieldAt_exact ..).bind fun _ _ _ => (fieldAt_exact ..).bind fun _ _ _ =>
    (fieldAt_exact ..).map fun _ _ => ⟨rfl, rfl, rfl, rfl, rfl⟩).iff ?_
  omega

theorem processReportBlock_exact (session : RtcpSession) (off : Nat)
    (hlong : 4 ≤ datagram.length - rptr) :
    Exact (processReportBlock off session datagram rptr)
      (off + 24 ≤ sizeAt datagram rptr → rptr + (off + 24) ≤ datagram.length)
      (Kept session · session.tmmbrSent) := by
  simp only [processReportBlock, rtcpReportBlock, rtcpSizeAt_eq hlong, ok_bind]
  by_cases hsize : off + 24 ≤ sizeAt datagram rptr
  · simp only [if_pos hsize, pure_bind]
    refine (computeRttFromReportBlock_exact session (Nat.le_add_right rptr off)).iff ?_
    omega
  · simp only [if_neg hsize, bind_assoc, pure_bind]
    refine ((fieldAt_exact datagram rptr rptr 1).map fun _ _ => ⟨rfl, rfl, rfl, rfl, rfl⟩).iff ?_
    omega

/-- The SR branch. -/
theorem processSR_exact (hsr : IsAt datagram rptr .sr 28) :
    Exact (processSR session datagram rptr) (SenderReportSafe session datagram rptr) fun r =>
      Kept session r.1 session.tmmbrSent ∧ (r.2 = true ↔ StopsAt session datagram rptr) := by
  obtain ⟨hlong, -, hwindow⟩ := id hsr
  refine ((fieldAt_exact ..).bind (q := valueAt datagram 4 4 = session.rcvSsrc.toNat → rptr = 0 ∧
    (28 + 24 * (valueAt datagram 0 1 % 2 ^ 5) ≤ datagram.length → 52 ≤ sizeAt datagram rptr →
      52 ≤ datagram.length)) ?_).iff (and_congr_left' (by omega))
  rintro - _ rfl
  by_cases hours : valueAt datagram 4 4 = session.rcvSsrc.toNat
  case neg =>
    simp only [hours, ne_eq, not_false_eq_true, if_true, false_imp_iff]
    exact .pure ⟨⟨rfl, rfl, rfl, rfl, rfl⟩, fun _ => ⟨hsr, .inl hours⟩, fun _ => rfl⟩
  simp only [hours, ne_eq, not_true_eq_false, if_false, true_imp_iff]
  refine ((fieldAt_exact ..).bind ?_).iff (and_congr_left' (by omega))
  rintro hfirst _ rfl
  by_cases hblocks : datagram.length < 28 + 24 * (valueAt datagram 0 1 % 2 ^ 5)
  · simp only [hblocks, Nat.not_le.mpr hblocks, if_true, false_imp_iff]
    exact .pure ⟨⟨rfl, rfl, rfl, rfl, rfl⟩, fun _ => ⟨hsr, .inr hblocks⟩, fun _ => rfl⟩
  · rw [if_neg hblocks]
    refine ((fieldAt_exact ..).bind fun _ _ _ => (fieldAt_exact ..).bind fun _ _ _ =>
      (processReportBlock_exact _ 28 hlong).map fun _ h => ⟨⟨h.1, h.2, h.3, h.4, h.5⟩,
        Bool.noConfusion, ?_⟩).iff (by omega)
    rintro ⟨-, hother | hshort⟩
    · exact absurd hours hother
    · exact absurd hshort hblocks

theorem computeRtcpXrStatistics_exact (session : RtcpSession) (hxr : IsAt datagram rptr .xr 12) :
    Exact (computeRtcpXrStatistics session datagram rptr) (ExtendedReportSafe datagram rptr)
      (Kept session · session.tmmbrSent) := by
  obtain ⟨-, -, hwindow⟩ := hxr
  refine ((fieldAt_exact ..).bind ?_).iff (and_iff_right ⟨by omega, by omega⟩).symm
  rintro - _ rfl
  unfold ExtendedReportSafe
  split
  · refine ((fieldAt_exact ..).bind fun _ _ _ => (fieldAt_exact ..).map fun _ _ =>
      ⟨rfl, rfl, rfl, rfl, rfl⟩).iff (by omega)
  · split
    · refine ((fieldAt_exact ..).bind fun _ _ _ => (fieldAt_exact ..).map fun _ _ =>
        ⟨rfl, rfl, rfl, rfl, rfl⟩).iff (by omega)
    · exact (Exact.pure ⟨rfl, rfl, rfl, rfl, rfl⟩).iff (by simp; omega)

/-! ## Feedback packets -/

theorem sentAfter_of_not (sent : Option Mblk)
    (hnot : ∀ p, ¬AcknowledgesAt session datagram rptr p) :
    sentAfter session sent datagram rptr = sent := by
  cases sent with
  | none => rfl
  | some p => exact if_pos (decide_eq_true (hnot p))

theorem rtcpGetSize_drop (hlong : 4 ≤ datagram.length - rptr) :
    rtcpGetSize (datagram.drop rptr) = sizeAt datagram rptr := by
  rw [rtcpGetSize, if_neg (by rw [List.length_drop]; omega), rtcpLength, List.drop_drop, sizeAt,
    valueAt]

theorem sendRtcpFbTmmbn_exact {received : Mblk} (hreceived : session.tmmbrReceived = some received)
    (ssrc : UInt32) :
    Exact (sendRtcpFbTmmbn session ssrc) (session.avpfEnabled = true → session.tmmbrFeature = true →
        20 ≤ rtcpGetSize received.bytes ∧ 20 ≤ received.bytes.length)
      (Kept session · session.tmmbrSent) := by
  have hmake : Exact (makeRtcpFbTmmbn session ssrc)
      (20 ≤ rtcpGetSize received.bytes ∧ 20 ≤ received.bytes.length) fun _ => True :=
    ⟨fun h => (makeRtcpFbTmmbn_ok hreceived h.1 h.2 ssrc).elim fun m hm => ⟨m, hm.1, trivial⟩,
      fun h => makeRtcpFbTmmbn_fault hreceived h ssrc⟩
  unfold sendRtcpFbTmmbn
  split
  · next hanswers =>
    rw [Bool.and_eq_true] at hanswers
    exact (hmake.map fun _ _ => ⟨rfl, rfl, rfl, rfl, rfl⟩).iff (by simp [hanswers])
  · next hsilent =>
    rw [Bool.and_eq_true, not_and] at hsilent
    exact (Exact.pure ⟨rfl, rfl, rfl, rfl, rfl⟩).iff
      (iff_true_intro fun havpf hfeature => absurd hfeature (hsilent havpf))

theorem fciField_exact (datagram : List UInt8) (rptr size off : Nat) :
    Exact (fciField datagram rptr (if 20 > size then none else some 12) off)
      (20 ≤ size ∧ rptr + 12 + off + 4 ≤ datagram.length)
      (· = valueAt datagram (rptr + 12 + off) 4) := by
  split
  · exact (Exact.error _).iff (iff_false_intro (by omega))
  · exact (fieldAt_exact ..).iff (by omega)

theorem handleRtcpRtpfbPacket_exact (session : RtcpSession) (hfb : IsAt datagram rptr .rtpfb 12) :
    Exact (handleRtcpRtpfbPacket session datagram rptr)
      (FeedbackSafe session session.tmmbrSent datagram rptr)
      (Kept session · (sentAfter session session.tmmbrSent datagram rptr)) := by
  obtain ⟨hlong, -, hwindow⟩ := id hfb
  have hother (hfmt : valueAt datagram rptr 1 % 2 ^ 5 ≠ 4) :
      sentAfter session session.tmmbrSent datagram rptr = session.tmmbrSent :=
    sentAfter_of_not _ fun p h => hfmt h.2.1
  refine ((fieldAt_exact ..).bind ?_).iff (and_iff_right ⟨by omega, by omega⟩).symm
  rintro - _ rfl
  unfold FeedbackSafe
  split
  · next hfmt =>
    have hcopy : (Mblk.ofBytes (datagram.drop rptr)).bytes = datagram.drop rptr :=
      Mblk.bytes_ofBytes _
    have hnotify : ¬valueAt datagram rptr 1 % 2 ^ 5 = 4 := by omega
    rw [hother hnotify]
    refine ((fieldAt_exact ..).bind fun _ _ _ => (sendRtcpFbTmmbn_exact rfl _).imp
      Iff.rfl fun _ h => ⟨h.1, h.2, h.3, h.4, h.5⟩).iff ?_
    rw [hcopy, rtcpGetSize_drop hlong, List.length_drop]
    constructor
    · exact fun h => ⟨by omega, fun havpf hfeature => by have := h.1 hfmt havpf hfeature; omega⟩
    · exact fun h => ⟨fun _ havpf hfeature => by have := h.2 havpf hfeature; omega,
        fun h4 => absurd h4 hnotify⟩
  split
  · next hfmt =>
    cases hsent : session.tmmbrSent with
    | none =>
      exact (Exact.pure ⟨rfl, rfl, rfl, rfl, hsent⟩).iff
        (iff_true_intro ⟨fun h => absurd h ‹_›, fun _ p hp => by cases hp⟩)
    | some p =>
      simp only [rtcpSizeAt_eq hlong, ok_bind]
      refine ((fciField_exact ..).bind (q := valueAt datagram (rptr + 12) 4 = session.sndSsrc.toNat →
        rptr + 20 ≤ datagram.length ∧ 20 ≤ rtcpGetSize p.bytes ∧ 20 ≤ p.bytes.length) ?_).iff ?_
      · rintro ⟨hsize, -⟩ _ rfl
        rw [sentAfter, Option.filter_some]
        by_cases hours : valueAt datagram (rptr + 12) 4 = session.sndSsrc.toNat
        case neg =>
          simp only [Nat.add_zero, hours, ne_eq, not_false_eq_true, if_true, false_imp_iff]
          have hnot : ¬AcknowledgesAt session datagram rptr p := fun h => hours h.2.2.1
          exact .pure ⟨rfl, rfl, rfl, rfl, hsent.trans (if_pos (decide_eq_true hnot)).symm⟩
        simp only [Nat.add_zero, hours, ne_eq, not_true_eq_false, if_false, true_imp_iff]
        refine ((fciField_exact ..).bind fun _ value hvalue => (fciField_exact ..).map
          fun sentValue hsentValue => ?_).iff (by omega)
        have hack : AcknowledgesAt session datagram rptr p ↔ value = sentValue := by
          rw [hvalue, hsentValue]
          exact ⟨fun h => h.2.2.2, fun h => ⟨hfb, hfmt, hours, h⟩⟩
        by_cases hsame : value = sentValue <;> simp [hack, hsame, Kept.mk, hsent]
      · constructor
        · exact fun h => ⟨⟨(h.2 hfmt p rfl).1, (h.2 hfmt p rfl).2.1⟩, (h.2 hfmt p rfl).2.2⟩
        · refine fun h => ⟨fun h3 => absurd h3 ‹_›, fun _ q hq => ?_⟩
          cases hq
          exact ⟨h.1.1, h.1.2, h.2⟩
  · next hfmt =>
    rw [hother hfmt]
    exact (Exact.pure ⟨rfl, rfl, rfl, rfl, rfl⟩).iff
      (iff_true_intro ⟨fun h => absurd h ‹_›, fun h => absurd h hfmt⟩)

end Branches

/-! ## A whole datagram -/

theorem IsAt.type_eq {datagram : List UInt8} {rptr minimum minimum' : Nat} {type type' : RtcpType}
    (h : IsAt datagram rptr type minimum) (h' : IsAt datagram rptr type' minimum') :
    type = type' := by
  have hcode : type.code.toNat = type'.code.toNat := h.2.1.symm.trans h'.2.1
  cases type <;> cases type' <;> first | rfl | exact absurd hcode (by decide)

/-- One round of the loop. -/
theorem processPacket_exact (session : RtcpSession) (datagram : List UInt8) (rptr : Nat) :
    Exact (processPacket session datagram rptr)
      (PacketSafe session session.tmmbrSent datagram rptr) fun r =>
        Kept session r.1 (sentAfter session session.tmmbrSent datagram rptr) ∧
          (r.2 = true ↔ StopsAt session datagram rptr) := by
  have hstop : ∀ {type minimum}, IsAt datagram rptr type minimum → type ≠ .sr →
      (false = true ↔ StopsAt session datagram rptr) := fun hother hne =>
    ⟨fun h => Bool.noConfusion h, fun h => absurd (hother.type_eq h.1) hne⟩
  have hafter : ∀ {type minimum}, IsAt datagram rptr type minimum → type ≠ .rtpfb →
      sentAfter session session.tmmbrSent datagram rptr = session.tmmbrSent := fun hother hne =>
    sentAfter_of_not _ fun p h => hne (hother.type_eq h.1)
  simp only [processPacket, rtcpIsSR, rtcpIsRR, rtcpIsXR, rtcpIsRTPFB, rtcpIs_eq, ok_bind,
    decide_eq_true_eq]
  split
  · next hsr =>
    rw [hafter hsr (by decide)]
    exact (processSR_exact hsr).iff ⟨fun h => h.sr hsr, fun h => ⟨fun _ => h,
      fun hxr => absurd (hsr.type_eq hxr) (by decide),
      fun hfb => absurd (hsr.type_eq hfb) (by decide)⟩⟩
  next hsr =>
  split
  · next hrr =>
    rw [hafter hrr (by decide)]
    refine ((processReportBlock_exact session 8 hrr.1).map fun _ h => ⟨h, hstop hrr (by decide)⟩).iff
      ⟨fun _ _ => by have := hrr.2.2; omega, fun _ => ⟨fun h => absurd h hsr,
        fun h => absurd (hrr.type_eq h) (by decide), fun h => absurd (hrr.type_eq h) (by decide)⟩⟩
  split
  · next hxr =>
    rw [hafter hxr (by decide)]
    exact ((computeRtcpXrStatistics_exact session hxr).map fun _ h => ⟨h, hstop hxr (by decide)⟩).iff
      ⟨fun h => h.xr hxr, fun h => ⟨fun h => absurd h hsr, fun _ => h,
        fun hfb => absurd (hxr.type_eq hfb) (by decide)⟩⟩
  next hxr =>
  split
  · next hfb =>
    exact ((handleRtcpRtpfbPacket_exact session hfb).map fun _ h => ⟨h, hstop hfb (by decide)⟩).iff
      ⟨fun h => h.rtpfb hfb, fun h => ⟨fun h => absurd h hsr, fun h => absurd h hxr, fun _ => h⟩⟩
  · next hfb =>
    rw [sentAfter_of_not _ fun p h => hfb h.1]
    exact (Exact.pure ⟨⟨rfl, rfl, rfl, rfl, rfl⟩, Bool.noConfusion, fun h => absurd h.1 hsr⟩).iff
      (iff_true_intro ⟨fun h => absurd h hsr, fun h => absurd h hxr, fun h => absurd h hfb⟩)

section Kept

variable {session session' : RtcpSession} {kept : Option Mblk} {datagram : List UInt8}

theorem Kept.packetSafe (h : Kept session session' kept) (sent : Option Mblk) (rptr : Nat) :
    PacketSafe session' sent datagram rptr ↔ PacketSafe session sent datagram rptr := by
  have hsr : SenderReportSafe session' datagram rptr ↔ SenderReportSafe session datagram rptr := by
    rw [SenderReportSafe, SenderReportSafe, h.rcvSsrc]
  have hfb : FeedbackSafe session' sent datagram rptr ↔ FeedbackSafe session sent datagram rptr := by
    rw [FeedbackSafe, FeedbackSafe, h.sndSsrc, h.avpfEnabled, h.tmmbrFeature]
  exact ⟨fun hsafe => ⟨hsr.mp ∘ hsafe.sr, hsafe.xr, hfb.mp ∘ hsafe.rtpfb⟩,
    fun hsafe => ⟨hsr.mpr ∘ hsafe.sr, hsafe.xr, hfb.mpr ∘ hsafe.rtpfb⟩⟩

theorem Kept.comes (h : Kept session session' kept) {rptr last : Nat} {sent final : Option Mblk} :
    Comes session' datagram rptr sent last final ↔ Comes session datagram rptr sent last final := by
  have hstops (rptr : Nat) : StopsAt session' datagram rptr ↔ StopsAt session datagram rptr := by
    rw [StopsAt, StopsAt, h.rcvSsrc]
  have hafter (sent : Option Mblk) (rptr : Nat) :
      sentAfter session' sent datagram rptr = sentAfter session sent datagram rptr := by
    refine congrArg (sent.filter ·) (funext fun p => decide_eq_decide.mpr ?_)
    rw [AcknowledgesAt, AcknowledgesAt, h.sndSsrc]
  constructor
  · intro hcomes
    induction hcomes with
    | here rptr sent => exact .here rptr sent
    | next goes hnext rest ih => exact .next (goes ∘ (hstops _).mpr) hnext (hafter _ _ ▸ ih)
  · intro hcomes
    induction hcomes with
    | here rptr sent => exact .here rptr sent
    | next goes hnext rest ih =>
      exact .next (goes ∘ (hstops _).mp) hnext ((hafter _ _).symm ▸ ih)

end Kept

theorem rtcpLoop_ok_iff (session : RtcpSession) (datagram : List UInt8) (rptr : Nat) :
    (∃ session', rtcpLoop session datagram rptr = .ok session') ↔
      ∀ last sent, Comes session datagram rptr session.tmmbrSent last sent →
        PacketSafe session sent datagram last := by
  -- The induction is on what is left of the datagram.
  induction hleft : datagram.length - rptr using Nat.strongRecOn generalizing session rptr with
  | ind left ih =>
    have hround := processPacket_exact session datagram rptr
    by_cases hsafe : PacketSafe session session.tmmbrSent datagram rptr
    case neg =>
      obtain ⟨fault, hfault⟩ := hround.fault hsafe
      refine ⟨fun ⟨session', hok⟩ => ?_, fun h => absurd (h rptr _ (.here rptr _)) hsafe⟩
      rw [rtcpLoop, hfault] at hok
      cases hok
    obtain ⟨⟨session₁, stop⟩, hrun, hkept, hstop⟩ := hround.ok hsafe
    cases stop with
    | true =>
      refine ⟨fun _ last sent hcomes => ?_, fun _ => ⟨session₁, by rw [rtcpLoop, hrun]⟩⟩
      cases hcomes with
      | here => exact hsafe
      | next goes => exact absurd (hstop.mp rfl) goes
    | false =>
      have goes : ¬StopsAt session datagram rptr := fun h => Bool.noConfusion (hstop.mpr h)
      cases hnext : nextAt datagram rptr with
      | none =>
        have hend : rtcpLoop session datagram rptr = .ok session₁ := by
          rw [rtcpLoop, hrun]
          simp only
          split
          · next fault h => rw [rtcpNextAt_eq] at h; cases h
          · rfl
          · next next h => rw [rtcpNextAt_eq, hnext] at h; cases h
        refine ⟨fun _ last sent hcomes => ?_, fun _ => ⟨session₁, hend⟩⟩
        cases hcomes with
        | here => exact hsafe
        | next _ h => rw [hnext] at h; cases h
      | some next =>
        have hgo : rtcpLoop session datagram rptr = rtcpLoop session₁ datagram next := by
          rw [rtcpLoop, hrun]
          simp only
          split
          · next fault h => rw [rtcpNextAt_eq] at h; cases h
          · next h => rw [rtcpNextAt_eq, hnext] at h; cases h
          · next next' h =>
            rw [rtcpNextAt_eq, hnext] at h
            cases h
            rfl
        have hlt := nextAt_lt hnext
        rw [hgo, ih (datagram.length - next) (by omega) session₁ next rfl, hkept.tmmbrSent]
        constructor
        · intro h last sent hcomes
          cases hcomes with
          | here => exact hsafe
          | next _ h' rest =>
            cases hnext.symm.trans h'
            exact (hkept.packetSafe sent last).mp (h last sent (hkept.comes.mpr rest))
        · intro h last sent hcomes
          exact (hkept.packetSafe sent last).mpr
            (h last sent (.next goes hnext (hkept.comes.mp hcomes)))

/-- `process_rtcp_packet` reads only what it was given exactly when every packet of the datagram
that it comes to is safe with the TMMBR packet that then waits. -/
theorem processRtcpPacket_ok_iff (session : RtcpSession) (datagram : List UInt8)
    (hlength : 4 ≤ datagram.length) (hversion : valueAt datagram 0 1 / 2 ^ 6 = 2) :
    (∃ session', processRtcpPacket session datagram = .ok (session', true)) ↔
      ∀ rptr sent, Comes session datagram 0 session.tmmbrSent rptr sent →
        PacketSafe session sent datagram rptr := by
  have hread : fieldAt datagram 0 0 1 = .ok (valueAt datagram 0 1) :=
    fieldAt_ok (Nat.le_refl 0) (by omega)
  have hrun : processRtcpPacket session datagram =
      (rtcpLoop session datagram 0).map fun session => (session, true) := by
    simp only [processRtcpPacket, if_neg (Nat.not_lt.mpr hlength), hread, hversion, ne_eq,
      not_true_eq_false, if_false, bind, Except.bind, pure, Except.pure]
    rfl
  rw [← rtcpLoop_ok_iff, hrun]
  constructor
  · rintro ⟨session', hok⟩
    cases hloop : rtcpLoop session datagram 0 with
    | error fault => rw [hloop] at hok; cases hok
    | ok session₁ => exact ⟨session₁, rfl⟩
  · rintro ⟨session', hloop⟩
    exact ⟨session', by rw [hloop]; rfl⟩

/-- A TMMBR packet is taken by a session that gives feedback. -/
theorem processRtcpPacket_answers :
    PacketSafe { sndSsrc := 1, rcvSsrc := 2, avpfEnabled := true, tmmbrFeature := true } none
      (rtcpCommonHeaderInit .rtpfb 3 20 ++ List.replicate 16 0) 0 :=
  (processRtcpPacket_ok_iff _ _ (by decide) (by decide)).mp ⟨_, by
    simp only [processRtcpPacket]
    rw [rtcpLoop]
    rfl⟩ 0 none (.here 0 none)

/-- A TMMBR packet that stops behind its two sources has no control information to be answered, and
a sender report that declares a report block it does not count is read behind its end. -/
theorem processRtcpPacket_hostile :
    (processRtcpPacket { sndSsrc := 1, rcvSsrc := 2, avpfEnabled := true, tmmbrFeature := true }
        (rtcpCommonHeaderInit .rtpfb 3 12 ++ List.replicate 8 0) = .error .nullDereference ∧
      processRtcpPacket { sndSsrc := 1, rcvSsrc := 0 }
        (rtcpCommonHeaderInit .sr 0 52 ++ List.replicate 24 0) = .error .outOfBounds) ∧
    ¬∀ (session : RtcpSession) (datagram : List UInt8), 4 ≤ datagram.length →
      valueAt datagram 0 1 / 2 ^ 6 = 2 →
      ∃ session', processRtcpPacket session datagram = .ok (session', true) := by
  have hnull : processRtcpPacket
      { sndSsrc := 1, rcvSsrc := 2, avpfEnabled := true, tmmbrFeature := true }
      (rtcpCommonHeaderInit .rtpfb 3 12 ++ List.replicate 8 0) = .error .nullDereference := by
    simp only [processRtcpPacket]
    rw [rtcpLoop]
    rfl
  have hblock : processRtcpPacket { sndSsrc := 1, rcvSsrc := 0 }
      (rtcpCommonHeaderInit .sr 0 52 ++ List.replicate 24 0) = .error .outOfBounds := by
    simp only [processRtcpPacket]
    rw [rtcpLoop]
    rfl
  refine ⟨⟨hnull, hblock⟩, fun h => ?_⟩
  obtain ⟨session', hok⟩ := h { sndSsrc := 1, rcvSsrc := 0 }
    (rtcpCommonHeaderInit .sr 0 52 ++ List.replicate 24 0) (by decide) (by decide)
  exact nomatch hblock.symm.trans hok

end GrooveIp.Ortp
