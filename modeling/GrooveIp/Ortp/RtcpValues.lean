import GrooveIp.Ortp.RtcpBuild
import Mathlib.Data.Nat.Bitwise
import Mathlib.Tactic.ByContra

/-!
# What reports and feedback say

Three numbers that are sent over RTCP and what becomes of them: the bit rate of a TMMBR, which is
read back as a product of 32 bits; the loss of a report block, which shares a word with its
fraction; and the packets that generic NACKs ask for when there is a gap in the sequence numbers.
-/

namespace GrooveIp.Ortp

open Lib List

/-! ## The bit rate of a TMMBR -/

/-- `rtcp_RTPFB_tmmbr_get_max_bitrate` (`rtcpparse.c:560`), where it is defined: the product of a
`uint32_t` and of a shifted `int`. -/
def rtpfbTmmbrGetMaxBitrate (packet : List UInt8) : Option Nat := do
  let off ← rtpfbTmmbrGetFci packet
  let bytes ← (readBytes packet (off + 4) 4).toOption
  let exp := beNat bytes / 2 ^ 26 % 2 ^ 6
  if exp < 31 then some (beNat bytes / 2 ^ 9 % 2 ^ 17 * 2 ^ exp % 2 ^ 32) else none

theorem mxtbrParts_spec (mxtbr exp : Nat) : ∃ n, (mxtbrParts mxtbr exp).2 = exp + n ∧
    (mxtbrParts mxtbr exp).1 = mxtbr / 2 ^ n ∧ (mxtbrParts mxtbr exp).1 < 2 ^ 17 ∧
    (n = 0 ∨ 2 ^ 16 ≤ (mxtbrParts mxtbr exp).1) := by
  fun_induction mxtbrParts mxtbr exp with
  | case1 mxtbr exp hlarge ih =>
    obtain ⟨n, hexp, hmantissa, hlt, hnormal⟩ := ih
    refine ⟨n + 1, by omega, ?_, hlt, .inr ?_⟩
    · rw [hmantissa, Nat.div_div_eq_div_mul, ← Nat.pow_succ']
    · rcases hnormal with rfl | hnormal
      · rw [hmantissa, Nat.pow_zero, Nat.div_one]
        omega
      · exact hnormal
  | case2 mxtbr exp hsmall => exact ⟨0, rfl, (Nat.div_one _).symm, by omega, .inl rfl⟩

/-- The bit rate that is read back is the one that was asked for, up to what the exponent cuts off. -/
def TmmbrSound (session : RtcpSession) (mxtbr : UInt64) (measuredOverhead : UInt16) : Prop :=
  ∃ session' h v, makeRtcpFbTmmbr session mxtbr measuredOverhead = .ok (session', h) ∧
    rtpfbTmmbrGetMaxBitrate h.bytes = some v ∧ v ≤ mxtbr.toNat ∧
    mxtbr.toNat < v + 2 ^ (mxtbrParts mxtbr.toNat 0).2 ∧
    (mxtbr.toNat < 2 ^ 17 → v = mxtbr.toNat)

variable (session : RtcpSession) (mxtbr : UInt64) (measuredOverhead : UInt16)

theorem tmmbr_bytes {exp mantissa : Nat} (hparts : mxtbrParts mxtbr.toNat 0 = (mantissa, exp))
    (hexp : exp < 2 ^ 6) (hmantissa : mantissa < 2 ^ 17) :
    ∃ session' h, makeRtcpFbTmmbr session mxtbr measuredOverhead = .ok (session', h) ∧
      rtpfbTmmbrGetMaxBitrate h.bytes =
        if exp < 31 then some (mantissa * 2 ^ exp % 2 ^ 32) else none := by
  obtain ⟨value, hvalue⟩ : ∃ value, exp % 2 ^ 6 * 2 ^ 26 + mantissa % 2 ^ 17 * 2 ^ 9 +
    measuredOverhead.toNat % 2 ^ 9 = value := ⟨_, rfl⟩
  have room : 12 + (htonl session.rcvSsrc.toNat ++ htonl value).length ≤ 20 := by simp
  obtain ⟨h, hh, hmade⟩ := makeRtcpFb_ok .rtpfb 3 session.sndSsrc 0 room
  refine ⟨_, h, by simp only [makeRtcpFbTmmbr, hparts, hvalue, hh]; rfl, ?_⟩
  have hsize : rtcpGetSize h.bytes = 20 := by
    rw [rtcpGetSize, hmade.bytes, rtcpLength_init]
    simp
  have hread : readBytes h.bytes 16 4 = .ok (htonl value) := by
    rw [readBytes_of_le (by rw [hmade.bytes]; simp), hmade.bytes]
    rfl
  have hexp' : beNat (htonl value) / 2 ^ 26 % 2 ^ 6 = exp := by
    rw [beNat_htonl]
    omega
  have hmantissa' : beNat (htonl value) / 2 ^ 9 % 2 ^ 17 = mantissa := by
    rw [beNat_htonl]
    omega
  simp only [rtpfbTmmbrGetMaxBitrate, rtpfbTmmbrGetFci, hsize]
  simp only [Nat.lt_irrefl, if_false, hread, bind, Option.bind, Except.toOption, hexp', hmantissa']

/-- It is exactly if it is below 2^32. -/
theorem tmmbrSound_iff : TmmbrSound session mxtbr measuredOverhead ↔ mxtbr.toNat < 2 ^ 32 := by
  obtain ⟨exp, hexp, hmantissa, hlt, hnormal⟩ := mxtbrParts_spec mxtbr.toNat 0
  have hparts : mxtbrParts mxtbr.toNat 0 = (mxtbr.toNat / 2 ^ exp, exp) :=
    Prod.ext hmantissa (by omega)
  rw [hmantissa] at hlt hnormal
  have hexact := Nat.div_add_mod' mxtbr.toNat (2 ^ exp)
  have hrest := Nat.mod_lt mxtbr.toNat (Nat.two_pow_pos exp)
  have hsmall {n : Nat} (h : mxtbr.toNat < 2 ^ n) : exp = 0 ∨ exp + 16 < n := by
    refine hnormal.imp_right fun hlarge => (Nat.pow_lt_pow_iff_right (Nat.lt_add_one 1)).mp ?_
    calc 2 ^ (exp + 16) = 2 ^ 16 * 2 ^ exp := by rw [Nat.pow_add, Nat.mul_comm]
      _ ≤ mxtbr.toNat / 2 ^ exp * 2 ^ exp := Nat.mul_le_mul_right _ hlarge
      _ < 2 ^ n := by omega
  have hover (hlarge : 2 ^ 32 ≤ mxtbr.toNat) (hexp : exp ≤ 32) :
      2 ^ 32 ≤ mxtbr.toNat / 2 ^ exp * 2 ^ exp := by
    rw [show 2 ^ 32 = 2 ^ (32 - exp) * 2 ^ exp by rw [← Nat.pow_add]; congr 1; omega]
    refine Nat.mul_le_mul_right _ ((Nat.le_div_iff_mul_le (Nat.two_pow_pos exp)).mpr ?_)
    rwa [← Nat.pow_add, show 32 - exp + exp = 32 by omega]
  obtain ⟨session', h, hmake, hread⟩ := tmmbr_bytes session mxtbr measuredOverhead hparts
    (by have := hsmall mxtbr.toNat_lt; omega) hlt
  rw [TmmbrSound, hparts]
  generalize mxtbr.toNat / 2 ^ exp * 2 ^ exp = cut at *
  constructor
  · rintro ⟨session'', h', v, hmake', hread', hle, hnear, -⟩
    cases hmake.symm.trans hmake'
    rw [hread] at hread'
    by_contra hlarge
    split at hread'
    · next h31 =>
      cases hread'
      have hcut := hover (by omega) (by omega)
      have hshift : 2 ^ exp ≤ 2 ^ 31 := Nat.pow_le_pow_right (by omega) (by omega)
      dsimp only at hnear
      omega
    · cases hread'
  · intro hlarge
    have h32 := hsmall hlarge
    rw [if_pos (by omega), Nat.mod_eq_of_lt (by omega)] at hread
    refine ⟨session', h, cut, hmake, hread, by omega, by dsimp only; omega, fun h17 => ?_⟩
    obtain rfl : exp = 0 := by
      have := hsmall h17
      omega
    rw [Nat.pow_zero, Nat.mod_one] at hexact
    exact hexact

/-- A limit of 2^32 bits a second is read back as zero. -/
theorem tmmbrSound_fails : ¬TmmbrSound { sndSsrc := 1, rcvSsrc := 2 } 4294967296 0 := by
  rintro ⟨session', h, v, hmake, hread, -, hnear, -⟩
  obtain ⟨session'', h', hmake', hread'⟩ := tmmbr_bytes { sndSsrc := 1, rcvSsrc := 2 } 4294967296 0
    (show mxtbrParts (4294967296 : UInt64).toNat 0 = (65536, 16) by decide +kernel) (by decide) (by decide)
  cases hmake.symm.trans hmake'
  cases hread.symm.trans hread'
  exact absurd hnear (by decide +kernel)

/-! ## The packets that generic NACKs ask for -/

/-- The inner loop of `check_for_seq_number_gap` (`rtpsession.c:1150`): where it stops, and the mask.
The differences are those of `int`, and a shift by a negative one is not defined. -/
def gapBlp (pid seqNumber seq blp : Nat) : Option (Nat × Nat) :=
  if seq < seqNumber ∧ (seq : Int) - pid < 16 then
    if pid < seq then gapBlp pid seqNumber (seq + 1) (blp ||| 2 ^ (seq - pid - 1)) else none
  else some (seq, blp)
termination_by seqNumber - seq

/-- The rounds of the outer loop that are left (`rtpsession.c:1147–1155`). -/
def gapNacks (seqNumber : Nat) : Nat → Nat → Option (List (Nat × Nat))
  | 0, _ => some []
  | n + 1, pid => do
    let (seq, blp) ← gapBlp pid seqNumber ((pid + 1) % 2 ^ 16) 0
    let nacks ← gapNacks seqNumber n seq
    some ((pid, blp) :: nacks)

/-- `check_for_seq_number_gap` (`rtpsession.c:1138`): the identifiers and masks that are sent. -/
def checkForSeqNumberGap (firstPacketDelivered : Bool) (rcvLastSeq seqNumber : UInt16) :
    Option (List (Nat × Nat)) :=
  let firstMissedSeq := rcvLastSeq + 1
  let diff := seqNumber - firstMissedSeq
  -- the sum of the macro is an `int`, which is not 0 behind 65535
  if firstPacketDelivered && diff < 0x8000 && seqNumber.toNat != rcvLastSeq.toNat + 1 then
    gapNacks seqNumber.toNat (diff.toNat / 16 + 1) firstMissedSeq.toNat
  else some []

/-- A sequence number that generic NACKs ask for. -/
def Requested (nacks : List (Nat × Nat)) (n : Nat) : Prop :=
  ∃ nack ∈ nacks, n = nack.1 ∨ ∃ i, nack.2.testBit i = true ∧ n = (nack.1 + i + 1) % 2 ^ 16

/-- The generic NACKs ask for what is between two sequence numbers, and for nothing else. -/
def NacksExact (rcvLastSeq seqNumber : UInt16) : Prop :=
  ∃ nacks, checkForSeqNumberGap true rcvLastSeq seqNumber = some nacks ∧ ∀ n, Requested nacks n ↔
    ∃ k, 0 < k ∧ k < (seqNumber - rcvLastSeq).toNat ∧ n = (rcvLastSeq.toNat + k) % 2 ^ 16

variable {pid seqNumber : Nat}

theorem gapBlp_spec (seqNumber blp : Nat) {seq : Nat} (h : pid < seq) :
    ∃ blp', gapBlp pid seqNumber seq blp = some (max seq (min seqNumber (pid + 16)), blp') ∧
      ∀ i, blp'.testBit i = true ↔ blp.testBit i = true ∨
        seq ≤ pid + 1 + i ∧ pid + 1 + i < min seqNumber (pid + 16) := by
  fun_induction gapBlp pid seqNumber seq blp with
  | case1 seq blp hgo hlt ih =>
    obtain ⟨blp', hloop, hbits⟩ := ih (by omega)
    refine ⟨blp', by rw [hloop]; congr 2; omega, fun i => ?_⟩
    rw [hbits, Nat.testBit_or, Nat.testBit_two_pow, Bool.or_eq_true, decide_eq_true_eq, or_assoc]
    refine or_congr_right ?_
    omega
  | case2 seq blp hgo hnot => exact absurd h hnot
  | case3 seq blp hstop =>
    exact ⟨blp, by congr 2; omega, fun i => (or_iff_left (by omega)).symm⟩

theorem requested_cons {blp : Nat} {nacks : List (Nat × Nat)} {n : Nat} :
    Requested ((pid, blp) :: nacks) n ↔
      (n = pid ∨ ∃ i, blp.testBit i = true ∧ n = (pid + i + 1) % 2 ^ 16) ∨ Requested nacks n := by
  simp [Requested]

/-- A round below the number that came. -/
theorem gapNacks_succ (hlt : pid < seqNumber) (hseq : seqNumber < 2 ^ 16) (n : Nat) :
    ∃ blp, gapNacks seqNumber (n + 1) pid =
        (gapNacks seqNumber n (min seqNumber (pid + 16))).map ((pid, blp) :: ·) ∧
      ∀ x, (x = pid ∨ ∃ i, blp.testBit i = true ∧ x = (pid + i + 1) % 2 ^ 16) ↔
        pid ≤ x ∧ x < min seqNumber (pid + 16) := by
  obtain ⟨blp, hloop, hbits⟩ := gapBlp_spec seqNumber 0 (Nat.lt_add_one pid)
  refine ⟨blp, ?_, fun x => ?_⟩
  · rw [gapNacks, Nat.mod_eq_of_lt (by omega), hloop,
      show max (pid + 1) (min seqNumber (pid + 16)) = min seqNumber (pid + 16) by omega]
    simp only [bind, Option.bind_some]
    cases gapNacks seqNumber n (min seqNumber (pid + 16)) <;> rfl
  · simp only [hbits, Nat.zero_testBit, Bool.false_eq_true, false_or]
    constructor
    · rintro (rfl | ⟨i, hi, rfl⟩) <;> omega
    · intro hx
      rcases Nat.eq_or_lt_of_le hx.1 with rfl | hlater
      · exact .inl rfl
      · exact .inr ⟨x - pid - 1, by omega, by omega⟩

theorem gapNacks_exact {n : Nat} (hle : pid ≤ seqNumber) (hseq : seqNumber < 2 ^ 16)
    (hmore : 16 * n < seqNumber - pid) (hless : seqNumber - pid ≤ 16 * (n + 1)) :
    ∃ nacks, gapNacks seqNumber (n + 1) pid = some nacks ∧
      ∀ x, Requested nacks x ↔ pid ≤ x ∧ x < seqNumber := by
  induction n generalizing pid with
  | zero =>
    obtain ⟨blp, hround, hbits⟩ := gapNacks_succ (show pid < seqNumber by omega) hseq 0
    refine ⟨_, hround, fun x => ?_⟩
    rw [requested_cons, hbits]
    simp [Requested]
    omega
  | succ n ih =>
    obtain ⟨blp, hround, hbits⟩ := gapNacks_succ (show pid < seqNumber by omega) hseq (n + 1)
    rw [show min seqNumber (pid + 16) = pid + 16 by omega] at hround hbits
    obtain ⟨nacks, hnacks, hrest⟩ := @ih (pid + 16) (by omega) (by omega) (by omega)
    rw [hnacks] at hround
    refine ⟨_, hround, fun x => ?_⟩
    rw [requested_cons, hbits, hrest]
    omega

/-- Behind a multiple of 16, the last round asks for the packet that came. -/
theorem gapNacks_received {n : Nat} {nacks : List (Nat × Nat)} (hseq : seqNumber < 2 ^ 16)
    (hdiff : seqNumber = pid + 16 * n) (h : gapNacks seqNumber (n + 1) pid = some nacks) :
    Requested nacks seqNumber := by
  induction n generalizing pid nacks with
  | zero =>
    rw [gapNacks] at h
    cases hloop : gapBlp pid seqNumber ((pid + 1) % 2 ^ 16) 0 with
    | none =>
      rw [hloop] at h
      cases h
    | some r =>
      rw [hloop] at h
      cases h
      exact requested_cons.mpr (.inl (.inl hdiff))
  | succ n ih =>
    obtain ⟨blp, hround, -⟩ := gapNacks_succ (show pid < seqNumber by omega) hseq (n + 1)
    rw [show min seqNumber (pid + 16) = pid + 16 by omega, h] at hround
    obtain ⟨rest, hrest, rfl⟩ := Option.map_eq_some_iff.mp hround.symm
    exact requested_cons.mpr (.inr (@ih (pid + 16) rest (by omega) hrest))

/-- Over the wrap, a round asks for one packet. -/
theorem gapNacks_wrap {n : Nat} {nacks : List (Nat × Nat)} (hlt : seqNumber < pid)
    (hpid : pid < 2 ^ 16) (hshort : 0 < seqNumber ∨ pid + n < 2 ^ 16)
    (h : gapNacks seqNumber n pid = some nacks) {x : Nat} (hx : Requested nacks x) :
    pid ≤ x ∧ x < pid + n := by
  induction n generalizing pid nacks with
  | zero =>
    cases h
    simp [Requested] at hx
  | succ n ih =>
    rw [gapNacks] at h
    by_cases hlast : pid = 2 ^ 16 - 1
    · subst hlast
      rw [gapBlp, if_pos (by omega), if_neg (by omega)] at h
      cases h
    · obtain ⟨blp, hloop, hbits⟩ := gapBlp_spec seqNumber 0 (Nat.lt_add_one pid)
      rw [Nat.mod_eq_of_lt (by omega), hloop, show max (pid + 1) (min seqNumber (pid + 16)) = pid + 1
        by omega] at h
      cases hrest : gapNacks seqNumber n (pid + 1) with
      | none => simp [hrest] at h
      | some rest =>
        simp only [hrest, bind, Option.bind] at h
        cases h
        rcases requested_cons.mp hx with (rfl | ⟨i, hi, -⟩) | hx
        · omega
        · simp only [hbits, Nat.zero_testBit, Bool.false_eq_true, false_or] at hi
          omega
        · have := ih (by omega) (by omega) (by omega) hrest hx
          omega

/-- The NACKs are exact just when the gap does not cross the end of the sequence numbers and has no
multiple of 16 packets, or is the packet 65535. -/
theorem nacksExact_iff (rcvLastSeq seqNumber : UInt16)
    (hpos : 0 < (seqNumber - rcvLastSeq).toNat) (hhalf : (seqNumber - rcvLastSeq).toNat < 2 ^ 15) :
    NacksExact rcvLastSeq seqNumber ↔
      (rcvLastSeq + 1).toNat ≤ seqNumber.toNat ∧
        (seqNumber.toNat = rcvLastSeq.toNat + 1 ∨ ((seqNumber - rcvLastSeq).toNat - 1) % 16 ≠ 0) ∨
      rcvLastSeq = 65534 ∧ seqNumber = 0 := by
  have hfirst : (rcvLastSeq + 1).toNat = (rcvLastSeq.toNat + 1) % 2 ^ 16 := UInt16.toNat_add _ _
  have hfar : (seqNumber - rcvLastSeq).toNat = (2 ^ 16 - rcvLastSeq.toNat + seqNumber.toNat) % 2 ^ 16 :=
    UInt16.toNat_sub _ _
  have hlast := rcvLastSeq.toNat_lt
  have hseq := seqNumber.toNat_lt
  have hdiff : (seqNumber - (rcvLastSeq + 1)).toNat = (seqNumber - rcvLastSeq).toNat - 1 := by
    rw [hfar] at hpos ⊢
    rw [UInt16.toNat_sub, hfirst]
    omega
  have hguard : seqNumber - (rcvLastSeq + 1) < 0x8000 := by
    rw [UInt16.lt_iff_toNat_lt, hdiff]
    exact Nat.lt_of_le_of_lt (Nat.sub_le _ _) hhalf
  rw [NacksExact, checkForSeqNumberGap, hdiff, hfirst, ← UInt16.toNat_inj, ← UInt16.toNat_inj]
  simp only [hguard, decide_true, Bool.and_true, Bool.true_and, bne_iff_ne, ne_eq]
  rw [hfar] at hpos hhalf ⊢
  rw [show (65534 : UInt16).toNat = 65534 from rfl, show (0 : UInt16).toNat = 0 from rfl]
  generalize rcvLastSeq.toNat = last at *
  generalize seqNumber.toNat = seq at *
  by_cases hnext : seq = last + 1
  · rw [if_neg (not_not.mpr hnext)]
    refine iff_of_true ⟨[], rfl, fun n => ?_⟩ (.inl ⟨by omega, .inl hnext⟩)
    simp only [Requested, not_mem_nil, false_and, exists_false, false_iff]
    omega
  rw [if_pos hnext]
  have hmissing (n : Nat) : (∃ k, 0 < k ∧ k < (2 ^ 16 - last + seq) % 2 ^ 16 ∧
      n = (last + k) % 2 ^ 16) ↔ if (last + 1) % 2 ^ 16 ≤ seq then (last + 1) % 2 ^ 16 ≤ n ∧ n < seq
        else (last + 1) % 2 ^ 16 ≤ n ∧ n < 2 ^ 16 ∨ n < seq := by
    constructor
    · rintro ⟨k, hk⟩
      split <;> omega
    · intro hn
      refine ⟨(2 ^ 16 - last + n) % 2 ^ 16, ?_⟩
      split at hn <;> omega
  simp only [hmissing]
  by_cases hwrap : (last + 1) % 2 ^ 16 ≤ seq
  · simp only [if_pos hwrap]
    by_cases hmultiple : ((2 ^ 16 - last + seq) % 2 ^ 16 - 1) % 16 = 0
    · refine iff_of_false ?_ (by omega)
      rintro ⟨nacks, hnacks, hexact⟩
      have := (hexact seq).mp (gapNacks_received hseq (by omega) hnacks)
      omega
    · exact iff_of_true (gapNacks_exact hwrap hseq (by omega) (by omega)) (.inl ⟨hwrap, .inr hmultiple⟩)
  · simp only [if_neg hwrap]
    by_cases hone : last = 65534 ∧ seq = 0
    · obtain ⟨rfl, rfl⟩ := hone
      refine iff_of_true ⟨[(65535, 0)], by simp [gapNacks, gapBlp], fun n => ?_⟩ (.inr ⟨rfl, rfl⟩)
      simp [Requested]
      omega
    · refine iff_of_false ?_ (by omega)
      rintro ⟨nacks, hnacks, hexact⟩
      rcases Nat.eq_zero_or_pos seq with rfl | hsome
      · have := gapNacks_wrap (by omega) (by omega) (.inr (by omega)) hnacks
          ((hexact 65535).mpr (.inl (by omega)))
        omega
      · have := gapNacks_wrap (by omega) (by omega) (.inl hsome) hnacks
          ((hexact 0).mpr (.inr hsome))
        omega

/-- One packet after another. -/
theorem nacksExact_next : NacksExact 7 10 :=
  (nacksExact_iff 7 10 (by decide) (by decide)).mpr (.inl (by decide))

/-- With sixteen packets missing, the one that came is asked for too. -/
theorem nacksExact_sixteen : ¬NacksExact 0 17 := by
  rintro ⟨nacks, hnacks, hexact⟩
  change gapNacks 17 (1 + 1) 1 = some nacks at hnacks
  obtain ⟨k, hpos, hlt, hk⟩ := (hexact 17).mp (gapNacks_received (by decide) rfl hnacks)
  change k < 17 at hlt
  change 17 = (0 + k) % 2 ^ 16 at hk
  omega

/-! ## The loss of a report block -/

/-- What `report_block_init` reads of a session about losses; `lostPacketsTestVector` is there in the
test mode, and `cum_packet_loss` has 64 bits. -/
structure LossStats where
  hwrcvExtseq : UInt32
  hwrcvSeqAtLastSR : UInt32
  hwrcvSinceLastSR : UInt32
  cumPacketLoss : Int := 0
  lostPacketsTestVector : Option Int := none

/-- `expected_packets`. -/
def LossStats.expectedPackets (stats : LossStats) : Nat :=
  (stats.hwrcvExtseq - stats.hwrcvSeqAtLastSR).toNat

/-- The division and the clamps of `report_block_init` (`rtcp.c:254–261`): the `int` is converted to
the type of the divisor. -/
def lossFraction (expectedPackets : Nat) (packetLoss : Int) : Int :=
  if 0 < expectedPackets then
    let fraction := toInt32 (toInt32 (256 * packetLoss) % 2 ^ 32 / expectedPackets)
    if 255 < fraction then 255 else if fraction < 0 then 0 else fraction
  else 0

/-- The part of `report_block_init` on losses (`rtcp.c:229–281`): the session after it, and
`loss_fraction`. -/
def LossStats.reportBlockInit (stats : LossStats) : LossStats × Int :=
  let reset := { stats with hwrcvSinceLastSR := 0, hwrcvSeqAtLastSR := stats.hwrcvExtseq }
  if stats.hwrcvSinceLastSR ≠ 0 then
    match stats.lostPacketsTestVector with
    | some packetLoss =>
      ({ reset with cumPacketLoss := packetLoss }, lossFraction stats.expectedPackets packetLoss)
    | none =>
      let packetLoss := toInt32 (stats.expectedPackets - stats.hwrcvSinceLastSR.toNat)
      ({ reset with cumPacketLoss := stats.cumPacketLoss + packetLoss },
        lossFraction stats.expectedPackets packetLoss)
  else (reset, 0)

/-- `report_block_set_fraction_lost` (`rtcp.h:139`) of a word in host order. -/
def reportBlockSetFractionLost (flCnpl : Nat) (fl : Int) : Nat :=
  flCnpl % 2 ^ 24 + (fl % 2 ^ 8).toNat * 2 ^ 24

/-- `report_block_set_cum_packet_lost` (`rtcp.h:143`). -/
def reportBlockSetCumPacketLost (flCnpl : Nat) (cpl : Int) : Nat :=
  let clamp := (2 ^ 24 + if 0 ≤ cpl then (if 0x7FFFFF < cpl then 0x7FFFFF else cpl)
    else if 0x800000 < -cpl then -0x800000 else cpl).toNat
  flCnpl / 2 ^ 24 * 2 ^ 24 ||| if 0 ≤ cpl then clamp % 2 ^ 23 else clamp ||| 2 ^ 23

/-- `report_block_get_fraction_lost` (`rtcp.h:128`). -/
def reportBlockGetFractionLost (flCnpl : Nat) : Nat := flCnpl / 2 ^ 24

/-- `report_block_get_cum_packet_lost` (`rtcp.h:131`). -/
def reportBlockGetCumPacketLost (flCnpl : Nat) : Int :=
  if flCnpl / 2 ^ 23 % 2 = 0 then ((flCnpl % 2 ^ 24 : Nat) : Int)
  else toInt32 ((0xFF000000 ||| (flCnpl + 2 ^ 32 - 0xFFFFFF - 1) % 2 ^ 32 : Nat) : Int)

/-- The fraction of RFC 3550. -/
def fractionLost (expected received : Nat) : Nat :=
  if expected = 0 ∨ expected ≤ received then 0
  else min 255 (256 * (expected - received) / expected)

/-- The word of a report block after the two setters, in either order. -/
def lossWords (flCnpl : Nat) (cpl fl : Int) : List Nat :=
  [reportBlockSetFractionLost (reportBlockSetCumPacketLost flCnpl cpl) fl,
    reportBlockSetCumPacketLost (reportBlockSetFractionLost flCnpl fl) cpl]

/-- A report tells the fraction and the loss that it should, in whichever order they are set. -/
structure LossReported (stats : LossStats) : Prop where
  fraction : stats.reportBlockInit.2 =
    fractionLost stats.expectedPackets stats.hwrcvSinceLastSR.toNat
  grows : stats.reportBlockInit.1.cumPacketLoss =
    stats.cumPacketLoss + (stats.expectedPackets - stats.hwrcvSinceLastSR.toNat : Int)
  reads : ∀ flCnpl < 2 ^ 32, ∀ word ∈
    lossWords flCnpl stats.reportBlockInit.1.cumPacketLoss stats.reportBlockInit.2,
    (reportBlockGetFractionLost word : Int) = stats.reportBlockInit.2 ∧
      reportBlockGetCumPacketLost word =
        max (-2 ^ 23) (min (2 ^ 23 - 1) stats.reportBlockInit.1.cumPacketLoss)

theorem or_low (high : Nat) {low n : Nat} (h : low < 2 ^ n) : high * 2 ^ n ||| low = high * 2 ^ n + low := by
  rw [Nat.mul_comm, Nat.two_pow_add_eq_or_of_lt h]

/-- The loss is set as a number of 24 bits, in two's complement. -/
theorem reportBlockSetCumPacketLost_eq (flCnpl : Nat) (cpl : Int) :
    reportBlockSetCumPacketLost flCnpl cpl = flCnpl / 2 ^ 24 * 2 ^ 24 +
      (max (-2 ^ 23) (min (2 ^ 23 - 1) cpl) % 2 ^ 24).toNat := by
  unfold reportBlockSetCumPacketLost
  dsimp only
  by_cases hcpl : 0 ≤ cpl
  · rw [if_pos hcpl, if_pos hcpl, or_low _ (by omega)]
    split <;> omega
  · rw [if_neg hcpl, if_neg hcpl]
    obtain ⟨k, hk, hclamp⟩ : ∃ k < 2 ^ 23,
        (2 ^ 24 + if 0x800000 < -cpl then -0x800000 else cpl).toNat = 1 * 2 ^ 23 + k :=
      ⟨(2 ^ 24 + if 0x800000 < -cpl then -0x800000 else cpl).toNat - 2 ^ 23, by split <;> omega,
        by split <;> omega⟩
    rw [hclamp, ← or_low 1 hk, Nat.one_mul, Nat.or_right_comm, Nat.or_self, ← Nat.one_mul (2 ^ 23),
      or_low 1 hk, ← hclamp, or_low _ (by split <;> omega)]
    split <;> omega

theorem reportBlockGetCumPacketLost_eq {flCnpl : Nat} (h : flCnpl < 2 ^ 32) :
    reportBlockGetCumPacketLost flCnpl =
      (flCnpl % 2 ^ 24 : Nat) - if flCnpl % 2 ^ 24 < 2 ^ 23 then (0 : Int) else 2 ^ 24 := by
  unfold reportBlockGetCumPacketLost
  by_cases hsign : flCnpl / 2 ^ 23 % 2 = 0
  · rw [if_pos hsign, if_pos (by omega), Int.sub_zero]
  · rw [if_neg hsign, if_neg (by omega)]
    have hhigh : ∀ high < 256, 255 ||| high = 255 := by decide +kernel
    obtain ⟨high, low, hhlt, hlow, hsplit⟩ : ∃ high low, high < 256 ∧ low < 2 ^ 24 ∧
        (flCnpl + 2 ^ 32 - 0xFFFFFF - 1) % 2 ^ 32 = high * 2 ^ 24 + low :=
      ⟨(flCnpl + 2 ^ 32 - 0xFFFFFF - 1) % 2 ^ 32 / 2 ^ 24, flCnpl % 2 ^ 24, by omega, by omega, by omega⟩
    have hor : 0xFF000000 ||| (flCnpl + 2 ^ 32 - 0xFFFFFF - 1) % 2 ^ 32 = 255 * 2 ^ 24 + low := by
      rw [hsplit, ← or_low high hlow, ← Nat.or_assoc, show 0xFF000000 = 255 * 2 ^ 24 from rfl,
        ← Nat.shiftLeft_eq, ← Nat.shiftLeft_eq, ← Nat.shiftLeft_or_distrib, hhigh high hhlt,
        Nat.shiftLeft_eq, or_low _ hlow]
    rw [hor, toInt32]
    omega

theorem lossWords_read {flCnpl word : Nat} {fl : Int} (hfl : 0 ≤ fl ∧ fl < 2 ^ 8) (cpl : Int)
    (hword : word ∈ lossWords flCnpl cpl fl) :
    (reportBlockGetFractionLost word : Int) = fl ∧
      reportBlockGetCumPacketLost word = max (-2 ^ 23) (min (2 ^ 23 - 1) cpl) := by
  simp only [lossWords, mem_cons, not_mem_nil, or_false, reportBlockSetFractionLost,
    reportBlockSetCumPacketLost_eq] at hword
  rw [reportBlockGetFractionLost, reportBlockGetCumPacketLost_eq (by omega)]
  rcases hword with rfl | rfl
  all_goals
    refine ⟨by omega, ?_⟩
    split <;> omega

section Fraction

variable {expected received : Nat}

theorem fractionLost_lt (expected received : Nat) : fractionLost expected received < 256 := by
  unfold fractionLost
  split <;> omega

theorem lossFraction_eq (hexpected : expected < 2 ^ 22) (hreceived : received < 2 ^ 22)
    (h : expected < received → expected ≤ 1) :
    lossFraction expected (expected - received) = fractionLost expected received := by
  unfold lossFraction fractionLost
  rcases Nat.eq_zero_or_pos expected with rfl | hpos
  · rfl
  have hproduct : toInt32 (256 * (expected - received : Int)) = 256 * (expected - received : Int) :=
    toInt32_of_range (by omega) (by omega)
  rw [if_pos hpos, hproduct]
  by_cases hle : received ≤ expected
  · have hquotient : (256 * (expected - received : Int)) % 2 ^ 32 / expected =
        (256 * (expected - received) / expected : Nat) := by
      rw [Int.emod_eq_of_lt (by omega) (by omega), Int.natCast_ediv]
      congr 1
      omega
    have hbound := Nat.div_le_self (256 * (expected - received)) expected
    have hzero : expected ≤ received → 256 * (expected - received) / expected = 0 := fun hge => by
      rw [Nat.sub_eq_zero_of_le hge, Nat.mul_zero, Nat.zero_div]
    rw [hquotient]
    generalize 256 * (expected - received) / expected = quotient at *
    rw [toInt32_of_range (by omega) (by omega)]
    dsimp only
    repeat' split
    all_goals omega
  · obtain rfl : expected = 1 := by omega
    rw [if_pos (show 1 = 0 ∨ 1 ≤ received from .inr (by omega))]
    have hnegative : toInt32 (256 * ((1 : Nat) - received : Int) % 2 ^ 32 / (1 : Nat)) =
        256 - 256 * received := by
      unfold toInt32
      omega
    rw [hnegative]
    exact (if_neg (by omega)).trans (if_pos (by omega))

/-- A negative loss is divided as a number near 2^32. -/
theorem lossFraction_of_lt (htwo : 2 ≤ expected) (hexpected : expected < 2 ^ 22)
    (hlt : expected < received) (hreceived : received < 2 ^ 22) :
    lossFraction expected (expected - received) = 255 := by
  have hquotient : (256 * (expected - received : Int)) % 2 ^ 32 / expected =
      ((2 ^ 32 - 256 * (received - expected)) / expected : Nat) := by
    rw [Int.natCast_ediv]
    congr 1
    omega
  have hlarge : 768 ≤ (2 ^ 32 - 256 * (received - expected)) / expected :=
    (Nat.le_div_iff_mul_le (by omega)).mpr (by omega)
  have hsmall := Nat.div_le_div_left htwo (show 0 < 2 by decide)
    (a := 2 ^ 32 - 256 * (received - expected))
  unfold lossFraction
  have hproduct : toInt32 (256 * (expected - received : Int)) = 256 * (expected - received : Int) :=
    toInt32_of_range (by omega) (by omega)
  rw [if_pos (by omega), hproduct, hquotient, toInt32_of_range (by omega) (by omega)]
  exact if_pos (by omega)

end Fraction

/-- The loss is reported as it should be just when a packet came if one was expected, and no more
came than were expected, unless that was one. -/
theorem lossReported_iff (stats : LossStats) (hmode : stats.lostPacketsTestVector = none)
    (hexpected : stats.expectedPackets < 2 ^ 22) (hreceived : stats.hwrcvSinceLastSR.toNat < 2 ^ 22) :
    LossReported stats ↔ (stats.hwrcvSinceLastSR = 0 → stats.expectedPackets = 0) ∧
      (stats.expectedPackets < stats.hwrcvSinceLastSR.toNat → stats.expectedPackets ≤ 1) := by
  have hreads (hfraction : stats.reportBlockInit.2 =
      fractionLost stats.expectedPackets stats.hwrcvSinceLastSR.toNat)
      (hgrows : stats.reportBlockInit.1.cumPacketLoss =
        stats.cumPacketLoss + (stats.expectedPackets - stats.hwrcvSinceLastSR.toNat : Int)) :
      LossReported stats :=
    ⟨hfraction, hgrows, fun flCnpl _ word hword => lossWords_read (by
      have := fractionLost_lt stats.expectedPackets stats.hwrcvSinceLastSR.toNat
      omega) _ hword⟩
  by_cases hzero : stats.hwrcvSinceLastSR = 0
  · have hinit : stats.reportBlockInit.2 = 0 ∧
        stats.reportBlockInit.1.cumPacketLoss = stats.cumPacketLoss := by
      simp [LossStats.reportBlockInit, hzero]
    have hnone : stats.hwrcvSinceLastSR.toNat = 0 := by rw [hzero]; rfl
    refine ⟨fun h => ⟨fun _ => ?_, fun hlt => by omega⟩, fun h => hreads ?_ ?_⟩
    · have := h.grows
      omega
    · rw [hinit.1, h.1 hzero]
      rfl
    · rw [hinit.2, h.1 hzero, hnone]
      simp
  · have hinit : stats.reportBlockInit.2 = lossFraction stats.expectedPackets
          (stats.expectedPackets - stats.hwrcvSinceLastSR.toNat) ∧
        stats.reportBlockInit.1.cumPacketLoss =
          stats.cumPacketLoss + (stats.expectedPackets - stats.hwrcvSinceLastSR.toNat : Int) := by
      simp only [LossStats.reportBlockInit, hzero, ne_eq, not_false_eq_true, if_true, hmode]
      rw [toInt32_of_range (by omega) (by omega)]
      exact ⟨rfl, rfl⟩
    refine ⟨fun h => ⟨fun hnone => absurd hnone hzero, fun hlt => ?_⟩, fun h =>
      hreads (hinit.1.trans (lossFraction_eq hexpected hreceived h.2)) hinit.2⟩
    by_contra htwo
    have hfraction := h.fraction
    rw [hinit.1, lossFraction_of_lt (by omega) hexpected hlt hreceived, fractionLost,
      if_pos (.inr hlt.le)] at hfraction
    exact absurd hfraction (by decide)

/-- Of ten packets eight came. -/
theorem lossReported_two : LossReported ⟨20, 10, 8, 0, none⟩ :=
  (lossReported_iff ⟨20, 10, 8, 0, none⟩ rfl (by decide) (by decide)).mpr (by decide)

/-- Of two packets three came: the fraction is 255. -/
theorem lossReported_duplicate : ¬LossReported ⟨12, 10, 3, 0, none⟩ := fun h =>
  absurd h.fraction (by decide +kernel)

end GrooveIp.Ortp
