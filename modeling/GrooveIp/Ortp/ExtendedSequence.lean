import GrooveIp.Lib.Memory
import Mathlib.Order.Monotone.Basic
import Mathlib.Logic.Function.Basic

/-!
# The extended highest sequence number

What `rtp_session_rtp_parse` (`rtpparse.c:125–260`) does with a packet up to its statistics: it
refuses what is no RTP packet of the stream, and extends the sequence number of 16 bits by a count
of the wraps. The count is right as long as a wrap is seen once, between two packets near it.
-/

namespace GrooveIp.Ortp

open UInt16 (ofNat)

/-! ## The update -/

/-- `poly32_t`: a number of 32 bits by its halves (`utils.h:61–74`). -/
structure Poly32 where
  lo : UInt16 := 0
  hi : UInt16 := 0
  deriving DecidableEq, Repr

/-- `one` of the union. -/
def Poly32.one (ext : Poly32) : Nat := ext.hi.toNat * 65536 + ext.lo.toNat

/-- The update of `hwrcv_extseq` (`rtpparse.c:241–247`). -/
def Poly32.update (extseq : Poly32) (seqNumber : UInt16) : Poly32 :=
  if extseq.lo < seqNumber then { extseq with lo := seqNumber }
  else if seqNumber < 200 ∧ 65336 < extseq.lo then { lo := seqNumber, hi := extseq.hi + 1 }
  else extseq

/-- A received packet: its size and the fields of `rtp_header_t` that are read here
(`rtp.h:38–60`). -/
structure RtpPacket where
  msgsize : Nat
  version : Nat
  cc : Nat
  seqNumber : UInt16
  ssrc : UInt32

/-- The receiving side of a session, as far as `rtp_session_rtp_parse` keeps its stream and counts
its packets (`rtpsession.h:268–285, 345–356, 395–402`). -/
structure RtpReceiver where
  ssrcSet : Bool := false
  rcvSsrc : UInt32 := 0
  incSsrcCandidate : UInt32 := 0
  incSameSsrcCount : Int := 0
  ssrcChangedThres : Int := 50
  packetRecv : UInt64 := 0
  hwrcvExtseq : Poly32 := {}
  recvSeqInit : Bool := false
  hwrcvSeqAtLastSR : UInt32 := 0
  rcvSeqAtLastStatSummary : UInt16 := 0
  firstRcvSeq : Nat := 0
  lastRcvSeq : Nat := 0

open RtpReceiver

namespace RtpReceiver

/-- The lock on an incoming SSRC: whether the packet is of the stream (`rtpparse.c:204–236`). -/
def lockSsrc (session : RtpReceiver) (ssrc : UInt32) : Bool × RtpReceiver :=
  if session.ssrcSet then
    if session.rcvSsrc ≠ ssrc then
      let session :=
        if session.incSsrcCandidate = ssrc then
          { session with incSameSsrcCount := session.incSameSsrcCount + 1 }
        else { session with incSameSsrcCount := 0, incSsrcCandidate := ssrc }
      if session.ssrcChangedThres ≤ session.incSameSsrcCount then
        (true, { session with rcvSsrc := ssrc })
      else (false, session)
    else (true, { session with incSameSsrcCount := 0 })
  else (true, { session with ssrcSet := true, rcvSsrc := ssrc })

/-- The statistics of an accepted packet (`rtpparse.c:238–260`). -/
def updateStatistics (session : RtpReceiver) (seqNumber : UInt16) : RtpReceiver :=
  let session := { session with hwrcvExtseq := session.hwrcvExtseq.update seqNumber }
  let session :=
    if session.recvSeqInit then session
    else
      { session with
        recvSeqInit := true
        hwrcvSeqAtLastSR := seqNumber.toUInt32 - 1
        rcvSeqAtLastStatSummary := seqNumber - 1 }
  let session :=
    if session.packetRecv = 1 then { session with firstRcvSeq := session.hwrcvExtseq.one }
    else session
  { session with lastRcvSeq := session.hwrcvExtseq.one }

/-- `rtp_session_rtp_parse` up to the queue (`rtpparse.c:125–260`): whether the packet is accepted,
and the session after it. -/
def rtpParse (session : RtpReceiver) (packet : RtpPacket) : Bool × RtpReceiver :=
  if packet.msgsize < 12 then (false, session)
  else if packet.version ≠ 2 then (false, session)
  else
    let session := { session with packetRecv := session.packetRecv + 1 }
    if packet.msgsize - 12 < packet.cc * 4 then (false, session)
    else
      match session.lockSsrc packet.ssrc with
      | (false, session) => (false, session)
      | (true, session) => (true, session.updateStatistics packet.seqNumber)

/-- The session waits for a stream, or has begun it anew (`rtpsession.c:1666–1682`). -/
structure Ready (session : RtpReceiver) (ssrc : UInt32) : Prop where
  extseq : session.hwrcvExtseq = {}
  locked : session.ssrcSet = true → session.rcvSsrc = ssrc

end RtpReceiver

/-! ## Streams and their delivery -/

/-- A stream of one SSRC: packet `n` of an unbounded count has the sequence number `n` modulo
`2 ^ 16`. -/
structure RtpStream where
  ssrc : UInt32
  cc : Nat → Nat
  payload : Nat → Nat

/-- The packet of a count. -/
def RtpStream.packet (stream : RtpStream) (n : Nat) : RtpPacket where
  msgsize := 12 + 4 * stream.cc n + stream.payload n
  version := 2
  cc := stream.cc n
  seqNumber := ofNat n
  ssrc := stream.ssrc

/-- A delivery of the packets from `first` on: fewer than 100 in a row are lost, and each of those
that are kept comes fewer than 100 places from its own. -/
structure Delivery where
  first : Nat
  kept : Nat → Nat
  increasing : StrictMono kept
  begins : first ≤ kept 0 ∧ kept 0 < first + 100
  gap : ∀ i, kept (i + 1) ≤ kept i + 100
  order : Nat → Nat
  permutes : Function.Bijective order
  near : ∀ k, order k < k + 100 ∧ k < order k + 100

namespace Delivery

/-- The packet that comes at a place. -/
def delivered (d : Delivery) (k : Nat) : Nat := d.kept (d.order k)

/-- The largest of the packets that have come up to a place. -/
def largest (d : Delivery) : Nat → Nat
  | 0 => d.delivered 0
  | k + 1 => max (d.largest k) (d.delivered (k + 1))

/-- The session after the packets in front of a place. -/
def session (d : Delivery) (stream : RtpStream) (start : RtpReceiver) : Nat → RtpReceiver
  | 0 => start
  | k + 1 => ((d.session stream start k).rtpParse (stream.packet (d.delivered k))).2

end Delivery

/-- What a packet behind the largest one so far must be like: of the same cycle of sequence
numbers, or the first of the next cycle, with both of them near the wrap. -/
def NearWrap (largest n : Nat) : Prop :=
  n / 65536 = largest / 65536 ∨ (largest < n ∧ 65336 < largest % 65536 ∧ n % 65536 < 200)

/-- Packets come carefully where the first one is of the cycle the stream begins with, and no later
one comes over a wrap the wrong way or from too far. -/
def Delivery.Careful (d : Delivery) : Nat → Prop
  | 0 => d.delivered 0 / 65536 = d.first / 65536
  | k + 1 => NearWrap (d.largest k) (d.delivered (k + 1))

/-! ## One step -/

/-- The halves count the cycles since the first packet and hold the largest sequence number. -/
structure Poly32.Counts (first largest : Nat) (ext : Poly32) : Prop where
  lo : ext.lo.toNat = largest % 65536
  hi : ext.hi.toNat = (largest / 65536 - first / 65536) % 65536

theorem Poly32.counts_iff {first largest : Nat} (h : first ≤ largest) (ext : Poly32) :
    ext.Counts first largest ↔ ext.one = (largest - first + first % 65536) % 2 ^ 32 := by
  have hlo := ext.lo.toNat_lt
  unfold Poly32.one
  constructor
  · rintro ⟨h₁, h₂⟩
    omega
  · intro hone
    exact ⟨by omega, by omega⟩

theorem Poly32.update_cases (ext : Poly32) (n : Nat) :
    (ext.lo.toNat < n % 65536 ∧ (ext.update (ofNat n)).lo.toNat = n % 65536 ∧
      (ext.update (ofNat n)).hi = ext.hi) ∨ (n % 65536 < 200 ∧ 65336 < ext.lo.toNat ∧
      (ext.update (ofNat n)).lo.toNat = n % 65536 ∧
      (ext.update (ofNat n)).hi.toNat = (ext.hi.toNat + 1) % 65536) ∨
    (n % 65536 ≤ ext.lo.toNat ∧ (200 ≤ n % 65536 ∨ ext.lo.toNat ≤ 65336) ∧
      ext.update (ofNat n) = ext) := by
  have hn : (ofNat n).toNat = n % 65536 := UInt16.toNat_ofNat
  unfold Poly32.update
  by_cases hlt : ext.lo < ofNat n
  · left
    rw [if_pos hlt]
    exact ⟨hlt, hn, rfl⟩
  · right
    rw [if_neg hlt]
    rw [UInt16.lt_iff_toNat_lt, hn] at hlt
    by_cases hwrap : ofNat n < 200 ∧ 65336 < ext.lo
    · left
      rw [if_pos hwrap]
      exact ⟨hwrap.1, hwrap.2, hn, UInt16.toNat_add _ _⟩
    · right
      rw [if_neg hwrap]
      simp only [UInt16.lt_iff_toNat_lt, hn, not_and_or, not_lt] at hwrap
      exact ⟨by omega, hwrap, rfl⟩

theorem Poly32.Counts.update_iff {first largest n : Nat} {ext : Poly32}
    (h : ext.Counts first largest) (hfirst : first ≤ largest) (hfirst' : first ≤ n)
    (hahead : n < largest + 20000) (hbehind : largest < n + 20000) :
    (ext.update (ofNat n)).Counts first (max largest n) ↔ NearWrap largest n := by
  obtain ⟨hlo, hhi⟩ := h
  unfold NearWrap
  rcases ext.update_cases n with ⟨hlt, hlo', hhi'⟩ | ⟨hsmall, hlarge, hlo', hhi'⟩ |
    ⟨hle, hfar, hsame⟩
  · constructor
    · rintro ⟨h₁, h₂⟩
      omega
    · intro hnear
      refine ⟨by omega, ?_⟩
      rw [hhi']
      omega
  · constructor
    · rintro ⟨h₁, h₂⟩
      omega
    · intro hnear
      exact ⟨by omega, by omega⟩
  · rw [hsame]
    constructor
    · rintro ⟨h₁, h₂⟩
      omega
    · intro hnear
      exact ⟨by omega, by omega⟩

theorem Poly32.counts_first_iff {first n : Nat} (hle : first ≤ n) (hlt : n < first + 65536) :
    (({} : Poly32).update (ofNat n)).Counts first n ↔ n / 65536 = first / 65536 := by
  have hzero : ({} : Poly32).lo.toNat = 0 := rfl
  have hzero' : ({} : Poly32).hi.toNat = 0 := rfl
  rcases ({} : Poly32).update_cases n with ⟨-, hlo, hhi⟩ | ⟨-, hlarge, -, -⟩ | ⟨hle', -, hsame⟩
  · constructor
    · rintro ⟨-, h₂⟩
      rw [hhi] at h₂
      omega
    · intro hcycle
      refine ⟨hlo, ?_⟩
      rw [hhi]
      omega
  · omega
  · rw [hsame]
    constructor
    · rintro ⟨-, h₂⟩
      omega
    · intro hcycle
      exact ⟨by omega, by omega⟩

/-! ## Runs -/

theorem RtpReceiver.lockSsrc_of_locked {session : RtpReceiver} {ssrc : UInt32}
    (h : session.ssrcSet = true → session.rcvSsrc = ssrc) :
    ∃ session', session.lockSsrc ssrc = (true, session') ∧ session'.rcvSsrc = ssrc ∧
      session'.hwrcvExtseq = session.hwrcvExtseq := by
  unfold lockSsrc
  by_cases hset : session.ssrcSet = true
  · rw [if_pos hset, if_neg (by simp [h hset])]
    exact ⟨_, rfl, h hset, rfl⟩
  · rw [if_neg hset]
    exact ⟨_, rfl, rfl, rfl⟩

theorem RtpReceiver.rcvSsrc_updateStatistics (session : RtpReceiver) (seqNumber : UInt16) :
    (session.updateStatistics seqNumber).rcvSsrc = session.rcvSsrc := by
  unfold updateStatistics
  by_cases hinit : session.recvSeqInit <;> by_cases hfirst : session.packetRecv = 1 <;>
    simp [hinit, hfirst]

theorem RtpReceiver.hwrcvExtseq_updateStatistics (session : RtpReceiver) (seqNumber : UInt16) :
    (session.updateStatistics seqNumber).hwrcvExtseq = session.hwrcvExtseq.update seqNumber := by
  unfold updateStatistics
  by_cases hinit : session.recvSeqInit <;> by_cases hfirst : session.packetRecv = 1 <;>
    simp [hinit, hfirst]

theorem RtpReceiver.rtpParse_packet {session : RtpReceiver} (stream : RtpStream)
    (h : session.ssrcSet = true → session.rcvSsrc = stream.ssrc) (n : Nat) :
    (session.rtpParse (stream.packet n)).1 = true ∧
      (session.rtpParse (stream.packet n)).2.rcvSsrc = stream.ssrc ∧
      (session.rtpParse (stream.packet n)).2.hwrcvExtseq =
        session.hwrcvExtseq.update (ofNat n) := by
  have hsize : ¬ (stream.packet n).msgsize < 12 := by simp [RtpStream.packet]; omega
  have hversion : ¬ (stream.packet n).version ≠ 2 := by simp [RtpStream.packet]
  have hcsrc : ¬ (stream.packet n).msgsize - 12 < (stream.packet n).cc * 4 := by
    simp only [RtpStream.packet]
    omega
  have hcounted : ({ session with packetRecv := session.packetRecv + 1 } : RtpReceiver).ssrcSet =
      true → session.rcvSsrc = stream.ssrc := h
  obtain ⟨session', hlock, hssrc, hext⟩ := lockSsrc_of_locked hcounted
  have hparse : session.rtpParse (stream.packet n) =
      (true, session'.updateStatistics (ofNat n)) := by
    unfold rtpParse
    rw [if_neg hsize, if_neg hversion]
    rw [if_neg hcsrc, show (stream.packet n).ssrc = stream.ssrc from rfl, hlock]
    rfl
  rw [hparse, rcvSsrc_updateStatistics, hwrcvExtseq_updateStatistics, hext]
  exact ⟨rfl, hssrc, rfl⟩

namespace Delivery

variable (d : Delivery) (stream : RtpStream) {start : RtpReceiver}

theorem session_locked (h : start.Ready stream.ssrc) (k : Nat) :
    (d.session stream start k).ssrcSet = true →
      (d.session stream start k).rcvSsrc = stream.ssrc := by
  induction k with
  | zero => exact h.locked
  | succ k ih =>
    intro _
    exact (rtpParse_packet stream ih (d.delivered k)).2.1

theorem session_succ (h : start.Ready stream.ssrc) (k : Nat) :
    (d.session stream start (k + 1)).hwrcvExtseq =
      (d.session stream start k).hwrcvExtseq.update (ofNat (d.delivered k)) :=
  (rtpParse_packet stream (d.session_locked stream h k) (d.delivered k)).2.2

theorem kept_le {i j : Nat} (h : i ≤ j) : d.kept j ≤ d.kept i + 100 * (j - i) := by
  obtain ⟨m, rfl⟩ := Nat.exists_eq_add_of_le h
  induction m with
  | zero => exact Nat.le_add_right _ _
  | succ m ih =>
    have hgap := d.gap (i + m)
    rw [← Nat.add_assoc]
    omega

theorem first_le_delivered (k : Nat) : d.first ≤ d.delivered k :=
  Nat.le_trans d.begins.1 (d.increasing.monotone (Nat.zero_le _))

theorem first_le_largest (k : Nat) : d.first ≤ d.largest k := by
  induction k with
  | zero => exact d.first_le_delivered 0
  | succ k ih => exact Nat.le_trans ih (Nat.le_max_left _ _)

theorem largest_bounds (k : Nat) : d.kept (k - 99) ≤ d.largest k ∧ d.largest k ≤ d.kept (k + 99) := by
  have hplace : ∀ j, d.kept (j - 99) ≤ d.delivered j ∧ d.delivered j ≤ d.kept (j + 99) := by
    intro j
    have hnear := d.near j
    constructor
    · apply d.increasing.monotone
      omega
    · apply d.increasing.monotone
      omega
  induction k with
  | zero => exact hplace 0
  | succ k ih =>
    have hgrow : d.kept (k + 99) ≤ d.kept (k + 1 + 99) := d.increasing.monotone (by omega)
    have hnext := hplace (k + 1)
    simp only [largest]
    omega

theorem delivered_near (k : Nat) :
    d.delivered (k + 1) < d.largest k + 20000 ∧ d.largest k < d.delivered (k + 1) + 20000 := by
  obtain ⟨hlow, hhigh⟩ := d.largest_bounds k
  have hnear := d.near (k + 1)
  have hupper : d.delivered (k + 1) ≤ d.kept (k + 100) := d.increasing.monotone (by omega)
  have hlower : d.kept (k + 1 - 99) ≤ d.delivered (k + 1) := d.increasing.monotone (by omega)
  have hspan := d.kept_le (show k - 99 ≤ k + 100 by omega)
  have hspan' := d.kept_le (show k + 1 - 99 ≤ k + 99 by omega)
  omega

theorem delivered_zero_lt : d.delivered 0 < d.first + 65536 := by
  have hnear := d.near 0
  have hbegins := d.begins
  have hle : d.delivered 0 ≤ d.kept 99 := d.increasing.monotone (by omega)
  have hspan := d.kept_le (show 0 ≤ 99 by omega)
  omega

theorem counts_succ_iff (h : start.Ready stream.ssrc) {k : Nat}
    (hk : (d.session stream start (k + 1)).hwrcvExtseq.Counts d.first (d.largest k)) :
    (d.session stream start (k + 2)).hwrcvExtseq.Counts d.first (d.largest (k + 1)) ↔
      d.Careful (k + 1) := by
  rw [d.session_succ stream h (k + 1)]
  exact hk.update_iff (d.first_le_largest k) (d.first_le_delivered (k + 1)) (d.delivered_near k).1
    (d.delivered_near k).2

/-- After every packet the extended sequence number is the largest count so far, from the cycle of
the first one on, exactly when every packet comes carefully. -/
theorem extseq_iff (h : start.Ready stream.ssrc) :
    (∀ k, (d.session stream start (k + 1)).hwrcvExtseq.one =
      (d.largest k - d.first + d.first % 65536) % 2 ^ 32) ↔ ∀ k, d.Careful k := by
  have hone : ∀ k, (d.session stream start (k + 1)).hwrcvExtseq.one =
      (d.largest k - d.first + d.first % 65536) % 2 ^ 32 ↔
        (d.session stream start (k + 1)).hwrcvExtseq.Counts d.first (d.largest k) :=
    fun k => (Poly32.counts_iff (d.first_le_largest k) _).symm
  have hzero : (d.session stream start 1).hwrcvExtseq.Counts d.first (d.largest 0) ↔
      d.Careful 0 := by
    rw [d.session_succ stream h 0, show (d.session stream start 0).hwrcvExtseq = {} from h.extseq]
    exact Poly32.counts_first_iff (d.first_le_delivered 0) d.delivered_zero_lt
  simp only [hone]
  constructor
  · intro hall k
    cases k with
    | zero => exact hzero.1 (hall 0)
    | succ k => exact (d.counts_succ_iff stream h (hall k)).1 (hall (k + 1))
  · intro hcareful k
    induction k with
    | zero => exact hzero.2 (hcareful 0)
    | succ k ih => exact (d.counts_succ_iff stream h ih).2 (hcareful (k + 1))

end Delivery

/-- Nothing is lost, and the packets come as they were sent but for two that change places. -/
def swapped (first place : Nat) : Delivery where
  first := first
  kept n := first + n
  increasing _ _ h := Nat.add_lt_add_left h first
  begins := ⟨Nat.le_refl _, by omega⟩
  gap i := by omega
  order k := if k = place then place + 1 else if k = place + 1 then place else k
  permutes := by
    apply Function.Involutive.bijective
    intro k
    grind
  near k := by
    split
    · omega
    · split <;> omega

/-- A stream of packets of 160 bytes. -/
def voiceStream : RtpStream where
  ssrc := 1
  cc _ := 0
  payload _ := 160

theorem delivered_swapped (first place k : Nat) : (swapped first place).delivered k =
    first + if k = place then place + 1 else if k = place + 1 then place else k := rfl

theorem largest_swapped (first place k : Nat) :
    (swapped first place).largest k = if k = place then first + place + 1 else first + k := by
  induction k with
  | zero =>
    rw [Delivery.largest, delivered_swapped]
    repeat' split
    all_goals omega
  | succ k ih =>
    rw [Delivery.largest, ih, delivered_swapped]
    repeat' split
    all_goals omega

/-- Two packets that change places away from a wrap do not disturb the count. -/
theorem swapped_extseq : ((swapped 10 70000).session voiceStream {} 70002).hwrcvExtseq.one =
    ((swapped 10 70000).largest 70001 - (swapped 10 70000).first +
      (swapped 10 70000).first % 65536) % 2 ^ 32 := by
  refine ((swapped 10 70000).extseq_iff voiceStream ⟨rfl, by simp⟩).2 (fun k => ?_) 70001
  cases k with
  | zero => rfl
  | succ k =>
    rw [Delivery.Careful, NearWrap, largest_swapped, delivered_swapped]
    repeat' split
    all_goals omega

/-- The packet `65535` comes right behind `65536`, whose sequence number is zero: the wrap is counted
and the sequence number goes back to `65535`. -/
theorem swapped_extseq_wrong : ¬ ∀ (d : Delivery) (stream : RtpStream) (start : RtpReceiver),
    start.Ready stream.ssrc → ∀ k, (d.session stream start (k + 1)).hwrcvExtseq.one =
      (d.largest k - d.first + d.first % 65536) % 2 ^ 32 := by
  intro hall
  have h := hall (swapped 65533 2) voiceStream {} ⟨rfl, by simp⟩ 3
  exact absurd h (by decide +kernel)

end GrooveIp.Ortp
