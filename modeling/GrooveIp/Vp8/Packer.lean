import GrooveIp.Vp8.Descriptor

/-!
# The VP8 packer

`packer_process_frame_part` (`vp8rtpfmt.c:982–1068`) cuts a partition into payloads of the size
the factory allows, each with a copy of the descriptor. What is received of them gives back the
partition and its descriptor exactly when no temporal layer was set.
-/

namespace GrooveIp.Vp8

open Lib Ortp List

/-- `Vp8RtpFmtPacket` as the encoder fills it in (`vp8rtpfmt.h:62–67`). -/
structure Packet where
  m : Mblk
  pd : PayloadDescriptor

namespace Packet

/-- One payload: a block with the descriptor and, behind `b_cont`, the `dlen` bytes of the
partition from `rptr` on. The marker of the block behind is set too, but nobody reads it
(`vp8rtpfmt.c:1006–1056`). -/
def fragment (packet : Packet) (rptr dlen : Nat) : Mblk :=
  let pdm := (Mblk.ofBytes (packet.pd.octets (rptr == packet.m.first.rptr))).setTimestampInfo
    packet.m.timestamp
  pdm.concatb ((packet.m.dupb.setRptr rptr).setWptr (rptr + dlen))

/-- The loop over the partition (`vp8rtpfmt.c:1005–1060`). The length that is left is converted
to an `int`: at a multiple of 2^32 the loop stands still, and a negative length leads out of the
block. -/
def fragments (packet : Packet) (maxSize : Int) (rptr : Nat) : Except Fault MSQueue :=
  if rptr < packet.m.first.wptr then
    let dlen := min (maxSize - packet.pd.size) (toInt32 (packet.m.first.wptr - rptr : Nat))
    if dlen = 0 then .error .diverged
    else if dlen < 0 then .error .outOfBounds
    else (packet.fragment rptr dlen.toNat :: ·) <$> packet.fragments maxSize (rptr + dlen.toNat)
  else .ok []
termination_by packet.m.first.wptr - rptr
decreasing_by omega

/-- `mblk_set_marker_info` of the last payload (`vp8rtpfmt.c:1062–1064`). -/
def markLast (marker : Bool) : MSQueue → MSQueue
  | [] => []
  | [pdm] => [pdm.setMarkerInfo marker]
  | pdm :: pdms => pdm :: markLast marker pdms

/-- `packer_process_frame_part` (`vp8rtpfmt.c:982–1068`). -/
def process (packet : Packet) (maxSize : Int32) (outputQueue : MSQueue) : Except Fault MSQueue := do
  let pdms ← packet.fragments maxSize.toInt packet.m.first.rptr
  return outputQueue ++ markLast packet.m.marker pdms

end Packet

/-- `vp8rtpfmt_packer_process` (`vp8rtpfmt.c:1077–1083`). -/
def packerProcess (maxSize : Int32) (packets : List Packet) (out : MSQueue) :
    Except Fault MSQueue :=
  packets.foldlM (fun out packet => packet.process maxSize out) out

/-- A received payload: its chain is pulled into one block and its descriptor is parsed
(`vp8rtpfmt.c:939–946`). -/
def receive (m : Mblk) : Except Fault (Except ErrorCode (PayloadDescriptor × List UInt8)) := do
  let m ← msgpullup m
  return parsePayloadDescriptor m.first.bytes

/-! ## The payloads of a partition -/

/-- A payload as the loop puts it in the queue: the descriptor and some bytes of the partition. -/
structure Carries (packet : Packet) (maxSize : Int) (first : Bool) (m : Mblk) (part : List UInt8) : Prop where
  wf : ∀ b ∈ m.blocks, b.WF
  bytes_eq : m.bytes = packet.pd.octets first ++ part
  part_ne : part ≠ []
  fits : m.bytes.length ≤ maxSize
  marker_eq : m.marker = false

/-- The payloads of a partition with the bytes they carry; `first` is the first one's flag. -/
inductive Cut (packet : Packet) (maxSize : Int) : Bool → MSQueue → List (List UInt8) → Prop where
  | nil (first : Bool) : Cut packet maxSize first [] []
  | cons {first : Bool} {m : Mblk} {ms : MSQueue} {part : List UInt8} {parts : List (List UInt8)}
      (hm : Carries packet maxSize first m part) (h : Cut packet maxSize false ms parts) :
      Cut packet maxSize first (m :: ms) (part :: parts)

section Fragments

variable {packet : Packet} {maxSize : Int}

theorem carries_fragment (hm : packet.m.first.WF) {p n : Nat} (hn : 0 < n)
    (hle : p + n ≤ packet.m.first.bytes.length) (hfit : packet.pd.size + n ≤ maxSize) :
    Carries packet maxSize (p == 0) (packet.fragment (packet.m.first.rptr + p) n)
      ((packet.m.first.bytes.drop p).take n) := by
  have hsize := hm.size_eq
  have hw := hm.wptr_le
  have hwindow : p + n ≤ packet.m.first.wptr - packet.m.first.rptr := by
    unfold Block.size at hsize
    omega
  have hfirst : (packet.m.first.rptr + p == packet.m.first.rptr) = (p == 0) := by
    rw [Bool.eq_iff_iff, beq_iff_eq, beq_iff_eq]
    omega
  have hlen : ((packet.m.first.bytes.drop p).take n).length = n := by
    rw [length_take, length_drop]
    omega
  have hbytes : (packet.fragment (packet.m.first.rptr + p) n).bytes =
      packet.pd.octets (p == 0) ++ (packet.m.first.bytes.drop p).take n := by
    rw [Packet.fragment, Mblk.bytes_concatb, Mblk.bytes_setTimestampInfo, Mblk.bytes_ofBytes,
      hfirst, ← Block.bytes_window _ hwindow, Mblk.bytes_eq]
    exact congrArg _ (append_nil _)
  refine ⟨?_, hbytes, ?_, ?_, rfl⟩
  · intro b hb
    rcases mem_cons.mp hb with rfl | hb
    · exact Block.wf_ofBytes _
    · rw [mem_singleton.mp hb]
      refine ⟨Nat.le_add_right _ _, ?_⟩
      show packet.m.first.rptr + p + n ≤ packet.m.first.datap.length
      omega
  · intro hnil
    rw [hnil] at hlen
    exact absurd hlen (by simp only [length_nil]; omega)
  · rw [hbytes, length_append, packet.pd.length_octets, hlen]
    omega

/-- The loop cuts what is left of a partition an `int` can measure. -/
theorem fragments_cut (hm : packet.m.first.WF) (hmax : packet.pd.size < maxSize)
    (hshort : packet.m.first.bytes.length < 2 ^ 31) (p : Nat)
    (hp : p ≤ packet.m.first.bytes.length) :
    ∃ ms parts, packet.fragments maxSize (packet.m.first.rptr + p) = .ok ms ∧
      Cut packet maxSize (p == 0) ms parts ∧ parts.flatten = packet.m.first.bytes.drop p := by
  have hsize := hm.size_eq
  unfold Block.size at hsize
  induction hk : packet.m.first.bytes.length - p using Nat.strong_induction_on generalizing p with
  | _ k ih =>
    rw [Packet.fragments]
    split
    · next hlt =>
      have hint : toInt32 ((packet.m.first.wptr - (packet.m.first.rptr + p) : Nat) : Int) =
          (packet.m.first.bytes.length - p : Nat) := by
        rw [toInt32_of_range] <;> omega
      obtain ⟨n, hn⟩ : ∃ n : Nat, (n : Int) = min (maxSize - packet.pd.size)
          (packet.m.first.bytes.length - p : Nat) := ⟨_, Int.toNat_of_nonneg (by omega)⟩
      have hpos : 0 < n := by omega
      obtain ⟨ms, parts, hms, hcut, hflat⟩ := ih _ (by omega) (p + n) (by omega) rfl
      simp only [hint, ← hn, Int.toNat_natCast]
      rw [if_neg (by omega), if_neg (by omega), Nat.add_assoc, hms]
      have hcarries : Carries packet maxSize (p == 0) (packet.fragment _ n) _ :=
        carries_fragment hm hpos (by omega) (by omega)
      have hrest : (p + n == 0) = false := beq_eq_false_iff_ne.mpr (by omega)
      refine ⟨_, _, rfl, .cons hcarries (hrest ▸ hcut), ?_⟩
      rw [flatten_cons, hflat, ← drop_drop, take_append_drop]
    · next hge =>
      have hend : packet.m.first.bytes.length ≤ p := by omega
      refine ⟨[], [], rfl, .nil _, ?_⟩
      rw [drop_of_length_le hend, flatten_nil]

/-- The loop never gets through what an `int` cannot measure. -/
theorem fragments_of_long (hm : packet.m.first.WF) (p : Nat)
    (hlong : p + 2 ^ 31 ≤ packet.m.first.bytes.length) (ms : MSQueue) :
    packet.fragments maxSize (packet.m.first.rptr + p) ≠ .ok ms := by
  have hsize := hm.size_eq
  unfold Block.size at hsize
  induction hk : packet.m.first.bytes.length - p using Nat.strong_induction_on
    generalizing p ms with
  | _ k ih =>
    subst hk
    have hleft : ((packet.m.first.wptr - (packet.m.first.rptr + p) : Nat) : Int) =
        (packet.m.first.bytes.length - p : Nat) := by omega
    rw [Packet.fragments, if_pos (by omega)]
    simp only [hleft]
    intro h
    split at h
    · cases h
    split at h
    · cases h
    -- a positive length is that of the remainder modulo 2^32 at most, so a multiple is left
    next hz hpos =>
    obtain ⟨n, hn⟩ : ∃ n : Nat, (n : Int) = min (maxSize - packet.pd.size)
        (toInt32 (packet.m.first.bytes.length - p : Nat)) := ⟨_, Int.toNat_of_nonneg (by omega)⟩
    rw [← hn, Int.toNat_natCast, Nat.add_assoc] at h
    have hless : packet.m.first.bytes.length - (p + n) < packet.m.first.bytes.length - p :=
      Nat.sub_lt_sub_left (by omega) (by omega)
    have hnext : p + n + 2 ^ 31 ≤ packet.m.first.bytes.length := by
      unfold toInt32 at *
      omega
    obtain ⟨rest, hrest, h⟩ := bind_eq_ok.mp h
    exact ih _ hless (p + n) hnext rest rfl hrest

end Fragments

/-! ## What is received of them -/

/-- The marker does not matter to the receiver of a payload. -/
@[simp] theorem receive_setMarkerInfo (m : Mblk) (marker : Bool) :
    receive (m.setMarkerInfo marker) = receive m := by
  have hpull : msgpullup (m.setMarkerInfo marker) = (·.setMarkerInfo marker) <$> msgpullup m := by
    have hcont : (m.setMarkerInfo marker).cont = m.cont := rfl
    have hsize : (m.setMarkerInfo marker).msgdsize = m.msgdsize := rfl
    have hblocks : (m.setMarkerInfo marker).blocks = m.blocks := rfl
    unfold msgpullup
    rw [hcont, hsize, hblocks]
    split
    · rfl
    · split
      · rfl
      · cases pullupLoop m.msgdsize m.blocks 0 [] <;> rfl
  unfold receive
  rw [hpull]
  cases msgpullup m <;> rfl

section Receive

variable {packet : Packet} {maxSize : Int} {first : Bool} {m : Mblk} {part : List UInt8}
  {ms : MSQueue} {parts : List (List UInt8)}

/-- A payload gives back its descriptor without the temporal layer, and its bytes. -/
theorem Carries.receive (h : Carries packet maxSize first m part) (hwf : packet.pd.WellFormed)
    (hint : maxSize < 2 ^ 31) : receive m = .ok (.ok ({ packet.pd with
      startOfPartition := packet.pd.startOfPartition && first
      tid := 0 }, part)) := by
  have hfits := h.fits
  obtain ⟨m', hpull, hplain, hbytes, -⟩ := msgpullup_eq h.wf (.inr (by omega))
  unfold Vp8.receive
  rw [hpull]
  show Except.ok (parsePayloadDescriptor m'.first.bytes) = _
  rw [← hplain.bytes_eq, hbytes, h.bytes_eq, parse_octets hwf first h.part_ne]

theorem Cut.receive_rest (h : Cut packet maxSize false ms parts) (hwf : packet.pd.WellFormed)
    (hint : maxSize < 2 ^ 31) : ms.map receive = parts.map fun part => .ok (.ok ({ packet.pd with
      startOfPartition := false
      tid := 0 }, part)) := by
  generalize hf : false = first at h
  induction h with
  | nil => rfl
  | cons hm _ ih =>
    subst hf
    rw [map_cons, map_cons, ih rfl, hm.receive hwf hint, Bool.and_false]

theorem Cut.receive (h : Cut packet maxSize true ms parts) (hwf : packet.pd.WellFormed)
    (hint : maxSize < 2 ^ 31) :
    ms.map Vp8.receive = parts.mapIdx fun i part => .ok (.ok ({ packet.pd with
      startOfPartition := packet.pd.startOfPartition && i == 0
      tid := 0 }, part)) := by
  generalize hf : true = first at h
  cases h with
  | nil => rfl
  | cons hm hrest =>
    subst hf
    rw [map_cons, mapIdx_cons, hm.receive hwf hint, hrest.receive_rest hwf hint]
    refine congrArg _ (ext_getElem (by simp) fun i hi hi' => ?_)
    simp

theorem Cut.fits (h : Cut packet maxSize first ms parts) : ∀ m ∈ ms, m.bytes.length ≤ maxSize := by
  induction h with
  | nil => exact fun _ hm => nomatch hm
  | cons hm _ ih => exact forall_mem_cons.mpr ⟨hm.fits, ih⟩

theorem Cut.unmarked (h : Cut packet maxSize first ms parts) : ∀ m ∈ ms, m.marker = false := by
  induction h with
  | nil => exact fun _ hm => nomatch hm
  | cons hm _ ih => exact forall_mem_cons.mpr ⟨hm.marker_eq, ih⟩

end Receive

/-! ## The marker -/

theorem markLast_concat (marker : Bool) (pdms : MSQueue) (pdm : Mblk) :
    Packet.markLast marker (pdms ++ [pdm]) = pdms ++ [pdm.setMarkerInfo marker] := by
  induction pdms with
  | nil => rfl
  | cons p pdms ih =>
    cases pdms with
    | nil => rfl
    | cons q pdms =>
      show p :: Packet.markLast marker (q :: pdms ++ [pdm]) = _
      rw [ih]
      rfl

/-- What came of a partition: payloads within the limit that give back the descriptor and, one
after the other, the partition, with the start bit on the first and the marker on the last. -/
structure RoundTrips (packet : Packet) (maxSize : Int32) (out : MSQueue) : Prop where
  fits : ∀ m ∈ out, m.bytes.length ≤ maxSize.toInt
  received : ∃ parts : List (List UInt8), parts.flatten = packet.m.first.bytes ∧
    out.map receive = parts.mapIdx fun i part => .ok (.ok ({ packet.pd with
      startOfPartition := packet.pd.startOfPartition && i == 0 }, part))
  marked : ∃ init last, out = init ++ [last] ∧ (∀ m ∈ init, m.marker = false) ∧
    last.marker = packet.m.marker

section Claim

variable {packet : Packet} {maxSize : Int32}

theorem packerProcess_singleton (packet : Packet) (maxSize : Int32) :
    packerProcess maxSize [packet] [] = Packet.markLast packet.m.marker <$>
        packet.fragments maxSize.toInt packet.m.first.rptr := by
  show (packet.process maxSize [] >>= pure) = _
  rw [bind_pure, Packet.process]
  cases packet.fragments maxSize.toInt packet.m.first.rptr <;> rfl

theorem packerProcess_cut (hwf : packet.pd.WellFormed) (hm : packet.m.first.WF)
    (hne : packet.m.first.bytes ≠ []) (hmax : packet.pd.size + 1 < maxSize.toInt)
    (hshort : packet.m.first.bytes.length < 2 ^ 31) :
    ∃ out, packerProcess maxSize [packet] [] = .ok out ∧
      RoundTrips { packet with pd := { packet.pd with tid := 0 } } maxSize out := by
  have hroom : packet.pd.size < maxSize.toInt := by omega
  obtain ⟨ms, parts, hms, hcut, hflat⟩ := fragments_cut hm hroom hshort 0 (Nat.zero_le _)
  rw [Nat.add_zero] at hms
  have hint : maxSize.toInt < 2 ^ 31 := maxSize.toInt_lt
  have hreceived := hcut.receive hwf hint
  have hunmarked := hcut.unmarked
  have hfits := hcut.fits
  obtain ⟨init, last, rfl⟩ : ∃ init last, ms = init ++ [last] := by
    rcases eq_nil_or_concat ms with rfl | ⟨init, last, rfl⟩
    · cases hcut
      exact absurd hflat.symm hne
    · exact ⟨init, last, concat_eq_append⟩
  refine ⟨init ++ [last.setMarkerInfo packet.m.marker], ?_, ?_, ⟨parts, hflat, ?_⟩, _, _, rfl, ?_,
    rfl⟩
  · rw [packerProcess_singleton, hms]
    exact congrArg _ (markLast_concat _ _ _)
  · intro m hmem
    rcases mem_append.mp hmem with hmem | hmem
    · exact hfits m (mem_append_left _ hmem)
    · rw [mem_singleton.mp hmem]
      exact hfits last (mem_append_right _ (mem_singleton_self _))
  · rw [← hreceived, map_append, map_append, map_singleton, map_singleton, receive_setMarkerInfo]
  · exact fun m hmem => hunmarked m (mem_append_left _ hmem)

theorem RoundTrips.tid_eq (hwf : packet.pd.WellFormed) (hm : packet.m.first.WF)
    (hne : packet.m.first.bytes ≠ []) (hmax : packet.pd.size + 1 < maxSize.toInt)
    (hshort : packet.m.first.bytes.length < 2 ^ 31) {out : MSQueue}
    (hout : packerProcess maxSize [packet] [] = .ok out) (hround : RoundTrips packet maxSize out) :
    packet.pd.tid = 0 := by
  obtain ⟨out', hout', hround'⟩ := packerProcess_cut hwf hm hne hmax hshort
  obtain rfl : out = out' := Except.ok.inj (hout.symm.trans hout')
  obtain ⟨parts, hflat, hparts⟩ := hround.received
  obtain ⟨parts', -, hparts'⟩ := hround'.received
  have hsame := hparts.symm.trans hparts'
  cases parts with
  | nil => exact absurd hflat.symm hne
  | cons part parts =>
    cases parts' with
    | nil => simp at hsame
    | cons part' parts' =>
      rw [mapIdx_cons, mapIdx_cons] at hsame
      have hpd := congrArg Prod.fst (Except.ok.inj (Except.ok.inj (List.cons.inj hsame).1))
      exact congrArg PayloadDescriptor.tid hpd

/-- The payloads give back the partition and its descriptor exactly when no temporal layer was set
and an `int` can measure the partition. -/
theorem packet_roundTrips_iff (hwf : packet.pd.WellFormed) (hm : packet.m.first.WF)
    (hne : packet.m.first.bytes ≠ []) (hmax : packet.pd.size + 1 < maxSize.toInt) :
    (∃ out, packerProcess maxSize [packet] [] = .ok out ∧ RoundTrips packet maxSize out) ↔
      packet.pd.tid = 0 ∧ packet.m.first.bytes.length < 2 ^ 31 := by
  constructor
  · rintro ⟨out, hout, hround⟩
    have hshort : packet.m.first.bytes.length < 2 ^ 31 := by
      by_contra hlong
      rw [packerProcess_singleton] at hout
      obtain ⟨ms, hfr, hout⟩ := bind_eq_ok.mp hout
      exact fragments_of_long hm 0 (by omega) ms hfr
    exact ⟨hround.tid_eq hwf hm hne hmax hshort hout, hshort⟩
  · rintro ⟨htid, hshort⟩
    obtain ⟨out, hout, hround⟩ := packerProcess_cut hwf hm hne hmax hshort
    have hpd : ({ packet.pd with tid := 0 } : PayloadDescriptor) = packet.pd := by
      rw [← htid]
    rw [hpd] at hround
    exact ⟨out, hout, hround⟩

end Claim

/-- A partition of five bytes without temporal layers. -/
def plainPacket : Packet where
  m := { Mblk.ofBytes [1, 2, 3, 4, 5] with marker := true }
  pd := {
    pictureid := 0x8123
    extendedControlBitsPresent := true
    startOfPartition := true
    pictureidPresent := true }

/-- It comes back from payloads of six bytes. -/
theorem plainPacket_roundTrips : ∃ out, packerProcess 6 [plainPacket] [] = .ok out ∧
    RoundTrips plainPacket 6 out :=
  (packet_roundTrips_iff ⟨by decide, by decide, by decide, by decide, by decide, by decide, by decide,
    by decide, by decide, by decide⟩ (Block.wf_ofBytes _) (by decide) (by decide)).2
    ⟨rfl, by decide⟩

/-- The same partition in the temporal layer 1. -/
def layeredPacket : Packet :=
  { plainPacket with pd := { plainPacket.pd with tidPresent := true, tid := 1 } }

/-- It does not come back: the layer is lost. -/
theorem layeredPacket_lost : ¬ ∀ (packet : Packet) (maxSize : Int32), packet.pd.WellFormed →
    packet.m.first.WF → packet.m.first.bytes ≠ [] → packet.pd.size + 1 < maxSize.toInt →
      ∃ out, packerProcess maxSize [packet] [] = .ok out ∧ RoundTrips packet maxSize out := by
  intro hall
  have hwf : layeredPacket.pd.WellFormed := ⟨by decide, by decide, by decide, by decide,
    by decide, by decide, by decide, by decide, by decide, by decide⟩
  have hm : layeredPacket.m.first.WF := Block.wf_ofBytes _
  have hne : layeredPacket.m.first.bytes ≠ [] := by decide
  have hmax : layeredPacket.pd.size + 1 < (10 : Int32).toInt := by decide
  obtain ⟨out, hout, hround⟩ := hall layeredPacket 10 hwf hm hne hmax
  have htid := hround.tid_eq hwf hm hne hmax (by decide) hout
  exact absurd htid (by decide)

end GrooveIp.Vp8
