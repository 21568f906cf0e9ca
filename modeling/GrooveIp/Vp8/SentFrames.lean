import GrooveIp.Vp8.FrameCheck
import Mathlib.Data.List.Forall2

/-!
# The packets of a sent frame

What `vp8rtpfmt_packer_process` puts on the line for a frame, numbered for the line, and what the
receiver reads of it: for each partition a chunk of packets with its number, the first of which
alone is a start, and the marker on the last packet of the frame.
-/

namespace GrooveIp.Vp8

open Lib Ortp List

/-! ## One packet -/

/-- What a receiver reads of a packet. -/
def unpacked (m : Mblk) : UnpackedPacket :=
  (parsePacket m).toOption.getD { m, payload := [], pd := {} }

/-- The packet as it is put into a frame, where a loss before it may have been noticed. -/
def arrival (x : Mblk × Bool) : UnpackedPacket := { unpacked x.1 with cseqInconsistency := x.2 }

/-- The packets of a frame that come. -/
def arrivals (before : Before) (frame : List (Mblk × Bool)) : List UnpackedPacket :=
  (noted before frame).map arrival

/-- `mblk_set_cseq` on packets that were not numbered. -/
def numberFrom : UInt16 → MSQueue → MSQueue
  | _, [] => []
  | cseq, m :: ms => { m with cseq } :: numberFrom (cseq + 1) ms

/-- What the receiver makes of a packet of the packer. -/
structure SentPacket (timestamp : UInt32) (m : Mblk) : Prop where
  parsed : parsePacket m = .ok (unpacked m)
  ok : (unpacked m).error = none
  self : (unpacked m).m = m
  payload_ne : (unpacked m).payload ≠ []
  payload_small : (unpacked m).payload.length < 2 ^ 31
  pid_lt : (unpacked m).pd.pid.toNat < 8
  timestamp_eq : m.timestamp = timestamp

/-- The packets of one partition, the first of which may be a start. -/
structure IsChunk (timestamp : UInt32) (pid : UInt8) (start marker : Bool) (bytes : List UInt8)
    (ms : List Mblk) : Prop where
  sent : ∀ m ∈ ms, SentPacket timestamp m
  pid_eq : ∀ m ∈ ms, (unpacked m).pd.pid = pid
  start : ∀ first rest, ms = first :: rest → (unpacked first).pd.startOfPartition = start ∧
    ∀ m ∈ rest, (unpacked m).pd.startOfPartition = false
  bytes_eq : ms.flatMap (fun m => (unpacked m).payload) = bytes
  marked : ∀ init last, ms = init ++ [last] → last.marker = marker ∧ ∀ m ∈ init, m.marker = false

theorem receive_meta (m : Mblk) (timestamp : UInt32) (marker : Bool) (cseq : UInt16) :
    receive { m with timestamp, marker, cseq } = receive m := by
  have hpull : msgpullup { m with timestamp, marker, cseq } =
      (fun m : Mblk => { m with timestamp, marker, cseq }) <$> msgpullup m := by
    have hcont : ({ m with timestamp, marker, cseq } : Mblk).cont = m.cont := rfl
    have hsize : ({ m with timestamp, marker, cseq } : Mblk).msgdsize = m.msgdsize := rfl
    have hblocks : ({ m with timestamp, marker, cseq } : Mblk).blocks = m.blocks := rfl
    unfold msgpullup
    rw [hcont, hsize, hblocks]
    split
    · rfl
    · split
      · rfl
      · cases pullupLoop m.msgdsize m.blocks 0 [] <;> rfl
  unfold receive
  rw [hpull]
  cases msgpullup m <;> rfl

theorem unpacked_of_receive {m : Mblk} {pd : PayloadDescriptor} {payload : List UInt8}
    (h : receive m = .ok (.ok (pd, payload))) :
    parsePacket m = .ok (unpacked m) ∧ unpacked m = { m, payload, pd } := by
  have hparse : parsePacket m = .ok { m, payload, pd } := by
    simp only [parsePacket, h, bind, Except.bind, pure, Except.pure]
  have hun : unpacked m = { m, payload, pd } := by
    rw [unpacked, hparse]
    rfl
  exact ⟨hun ▸ hparse, hun⟩

theorem numberFrom_append (cseq : UInt16) (ms ms' : MSQueue) : numberFrom cseq (ms ++ ms') =
      numberFrom cseq ms ++ numberFrom (cseq + UInt16.ofNat ms.length) ms' := by
  induction ms generalizing cseq with
  | nil => simp [numberFrom]
  | cons m ms ih =>
    have hnext : cseq + 1 + UInt16.ofNat ms.length = cseq + UInt16.ofNat (ms.length + 1) := by
      rw [UInt16.ofNat_add, UInt16.add_assoc, UInt16.add_comm 1]
      rfl
    rw [cons_append, numberFrom, ih, numberFrom, hnext]
    rfl

theorem unpacked_meta {m : Mblk} {pd : PayloadDescriptor} {payload : List UInt8}
    (h : receive m = .ok (.ok (pd, payload))) (marker : Bool) (cseq : UInt16) :
    let m' : Mblk := { m with marker, cseq }
    parsePacket m' = .ok (unpacked m') ∧ unpacked m' = { m := m', payload, pd } :=
  unpacked_of_receive ((receive_meta m m.timestamp marker cseq).trans h)

/-! ## One partition -/

section Chunk

variable {packet : Packet} {maxSize : Int} {first : Bool} {ms : MSQueue} {parts : List (List UInt8)}

theorem Carries.sentPacket {m : Mblk} {part : List UInt8} (h : Carries packet maxSize first m part)
    (hwf : packet.pd.WellFormed) (hint : maxSize < 2 ^ 31)
    (hts : m.timestamp = packet.m.timestamp) (marker : Bool) (cseq : UInt16) :
    let m' : Mblk := { m with marker, cseq }
    SentPacket packet.m.timestamp m' ∧ (unpacked m').payload = part ∧
      (unpacked m').pd.pid = packet.pd.pid ∧
      (unpacked m').pd.startOfPartition = (packet.pd.startOfPartition && first) := by
  obtain ⟨hparsed, hun⟩ := unpacked_meta (h.receive hwf hint) marker cseq
  have hsmall : part.length < 2 ^ 31 := by
    have hfits := h.fits
    have hbytes := congrArg List.length h.bytes_eq
    rw [length_append] at hbytes
    omega
  refine ⟨⟨hparsed, ?_, ?_, ?_, ?_, ?_, hts⟩, ?_, ?_, ?_⟩ <;> rw [hun]
  · exact h.part_ne
  · exact hsmall
  · exact hwf.pid_lt

theorem fragments_timestamp {rptr : Nat} (h : packet.fragments maxSize rptr = .ok ms) :
    ∀ m ∈ ms, m.timestamp = packet.m.timestamp := by
  induction hleft : packet.m.first.wptr - rptr using Nat.strongRecOn generalizing rptr ms with
  | ind left ih =>
    rw [Packet.fragments] at h
    split at h
    · next hlt =>
      dsimp only at h
      generalize min (maxSize - packet.pd.size)
        (toInt32 (packet.m.first.wptr - rptr : Nat)) = dlen at h
      split at h
      · cases h
      split at h
      · cases h
      next hz hpos =>
      have hmore : 0 < dlen.toNat := by omega
      have hless : packet.m.first.wptr - (rptr + dlen.toNat) < left := by
        rw [← hleft]
        omega
      cases hrest : packet.fragments maxSize (rptr + dlen.toNat) with
      | error fault => rw [hrest] at h; cases h
      | ok rest =>
        rw [hrest] at h
        cases h
        exact forall_mem_cons.mpr ⟨rfl, ih _ hless hrest rfl⟩
    · cases h
      exact forall_mem_nil _

theorem Cut.isChunk (h : Cut packet maxSize first ms parts) (hwf : packet.pd.WellFormed)
    (hint : maxSize < 2 ^ 31) (hts : ∀ m ∈ ms, m.timestamp = packet.m.timestamp) (marker : Bool)
    (cseq : UInt16) :
    IsChunk packet.m.timestamp packet.pd.pid (packet.pd.startOfPartition && first) marker
      parts.flatten (numberFrom cseq (Packet.markLast marker ms)) := by
  induction h generalizing cseq with
  | nil =>
    refine ⟨forall_mem_nil _, forall_mem_nil _, fun a rest heq => ?_, rfl, fun init last heq => ?_⟩
    · cases heq
    · exact absurd heq.symm (append_ne_nil_of_right_ne_nil init (cons_ne_nil last []))
  | @cons first m ms part parts hm hrest ih =>
    obtain ⟨hmts, hts⟩ := forall_mem_cons.mp hts
    have ih := ih hts (cseq + 1)
    cases hrest with
    | nil =>
      obtain ⟨hsent, hpayload, hpid, hstart⟩ := hm.sentPacket hwf hint hmts marker cseq
      refine ⟨forall_mem_singleton.mpr hsent, forall_mem_singleton.mpr hpid, ?_, ?_, ?_⟩
      · intro a rest heq
        cases heq
        exact ⟨hstart, forall_mem_nil _⟩
      · exact (append_nil _).trans (hpayload.trans (append_nil _).symm)
      · intro init last heq
        cases init with
        | nil =>
          cases heq
          exact ⟨rfl, forall_mem_nil _⟩
        | cons a init => simp [Packet.markLast, numberFrom] at heq
    | @cons _ m₂ ms part₂ parts hm₂ hrest =>
      obtain ⟨hsent, hpayload, hpid, hstart⟩ := hm.sentPacket hwf hint hmts m.marker cseq
      have hlist : numberFrom cseq (Packet.markLast marker (m :: m₂ :: ms)) =
          { m with marker := m.marker, cseq } ::
            numberFrom (cseq + 1) (Packet.markLast marker (m₂ :: ms)) := rfl
      rw [hlist]
      generalize hnext : numberFrom (cseq + 1) (Packet.markLast marker (m₂ :: ms)) = next at ih
      have hne : next ≠ [] := by
        rw [← hnext]
        cases ms <;> exact cons_ne_nil _ _
      refine ⟨forall_mem_cons.mpr ⟨hsent, ih.sent⟩,
        forall_mem_cons.mpr ⟨hpid, ih.pid_eq⟩, ?_, ?_, ?_⟩
      · intro a rest heq
        cases heq
        refine ⟨hstart, ?_⟩
        cases next with
        | nil => exact forall_mem_nil _
        | cons b next =>
          obtain ⟨hb, hnext⟩ := ih.start b next rfl
          exact forall_mem_cons.mpr ⟨hb.trans (Bool.and_false _), hnext⟩
      · rw [flatMap_cons, hpayload, ih.bytes_eq]
        rfl
      · intro init last heq
        cases init with
        | nil => exact absurd (List.cons.inj heq).2 hne
        | cons a init =>
          obtain ⟨rfl, hinit⟩ := List.cons.inj heq
          obtain ⟨hlast, hinit⟩ := ih.marked init last hinit
          exact ⟨hlast, forall_mem_cons.mpr ⟨hm.marker_eq, hinit⟩⟩

theorem process_isChunk {maxSize : Int32} {out out' : MSQueue} (hwf : packet.pd.WellFormed)
    (hm : packet.m.first.WF) (hprocess : packet.process maxSize out = .ok out') :
    ∃ ms, out' = out ++ ms ∧ ∀ cseq, IsChunk packet.m.timestamp packet.pd.pid
      packet.pd.startOfPartition packet.m.marker packet.m.first.bytes (numberFrom cseq ms) := by
  rw [Packet.process] at hprocess
  cases hfragments : packet.fragments maxSize.toInt packet.m.first.rptr with
  | error fault => rw [hfragments] at hprocess; cases hprocess
  | ok ms =>
    rw [hfragments] at hprocess
    cases hprocess
    have hsize := hm.size_eq
    unfold Block.size at hsize
    have hshort : packet.m.first.bytes.length < 2 ^ 31 := Nat.not_le.mp fun hlong =>
      fragments_of_long hm 0 (by omega) ms hfragments
    have hcut : ∃ parts, Cut packet maxSize.toInt true ms parts ∧
        parts.flatten = packet.m.first.bytes := by
      by_cases hmax : (packet.pd.size : Int) < maxSize.toInt
      · obtain ⟨ms', parts, hms, hcut, hflat⟩ := fragments_cut hm hmax hshort 0 (Nat.zero_le _)
        rw [Nat.add_zero, hfragments] at hms
        cases hms
        exact ⟨parts, hcut, by rw [hflat, drop_zero]⟩
      · -- There is no room for a byte, so there was none to send.
        rw [Packet.fragments] at hfragments
        split at hfragments
        · dsimp only at hfragments
          generalize toInt32 (packet.m.first.wptr - packet.m.first.rptr : Nat) = left at hfragments
          split at hfragments
          · cases hfragments
          · rw [if_pos (by omega)] at hfragments
            cases hfragments
        · cases hfragments
          have hempty : packet.m.first.bytes.length = 0 := by omega
          exact ⟨[], .nil true, (eq_nil_of_length_eq_zero hempty).symm⟩
    obtain ⟨parts, hcut, hflat⟩ := hcut
    refine ⟨_, rfl, fun cseq => ?_⟩
    have hchunk := hcut.isChunk hwf maxSize.toInt_lt (fragments_timestamp hfragments)
      packet.m.marker cseq
    rwa [Bool.and_true, hflat] at hchunk

end Chunk

/-! ## A frame -/

/-- The sizes of the partitions are those that the header in the first one declares. -/
structure Declares (parts : List (List UInt8)) : Prop where
  first : ∀ data rest, parts = data :: rest → data.length =
    headerSkip data + firstPartitionLength data + 3 * (parts.length - 2)
  header : ∀ data rest, parts = data :: rest → ∀ frame, parseFrameHeader {} data = .ok (true, frame) →
    frame.partitionsInfo.nbPartitions + 1 = parts.length ∧ ∀ i, 0 < i → i + 1 < parts.length →
      frame.partitionsInfo.partitionSizes.getD i 0 = (parts.getD i []).length

/-- A frame as the encoder gives it to the packer. -/
structure EncodedFrame (timestamp : UInt32) (parts : List Packet) : Prop where
  wellFormed : ∀ p ∈ parts, p.pd.WellFormed
  wf : ∀ p ∈ parts, p.m.first.WF
  start : ∀ p ∈ parts, p.pd.startOfPartition = true
  timestamp_eq : ∀ p ∈ parts, p.m.timestamp = timestamp
  marked : ∃ init last, parts = init ++ [last] ∧ last.m.marker = true ∧
    last.m.first.bytes ≠ [] ∧ ∀ p ∈ init, p.m.marker = false
  numbered : (∀ p ∈ parts, p.pd.pid = 0) ∨
    (∀ (i : Nat) (p : Packet), parts[i]? = some p → p.pd.pid.toNat = i) ∧
      Declares (parts.map (·.m.first.bytes))

/-- The chunks of the partitions. -/
def AreChunks : List Packet → List (List (Mblk × Bool)) → Prop :=
  List.Forall₂ fun (p : Packet) chunk => IsChunk p.m.timestamp p.pd.pid p.pd.startOfPartition
    p.m.marker p.m.first.bytes (chunk.map Prod.fst)

/-- What the packer makes of a frame comes in chunks. -/
theorem packerProcess_areChunks {maxSize : Int32} {parts : List Packet} {out out' : MSQueue}
    (hwellFormed : ∀ p ∈ parts, p.pd.WellFormed) (hwf : ∀ p ∈ parts, p.m.first.WF)
    (h : packerProcess maxSize parts out = .ok out') :
    ∃ ms, out' = out ++ ms ∧ ∀ cseq (frame : List (Mblk × Bool)),
      frame.map Prod.fst = numberFrom cseq ms →
        ∃ chunks, frame = chunks.flatten ∧ AreChunks parts chunks := by
  induction parts generalizing out with
  | nil =>
    cases h
    refine ⟨[], (append_nil _).symm, fun cseq frame hframe => ⟨[], ?_, .nil⟩⟩
    exact map_eq_nil_iff.mp hframe
  | cons p parts ih =>
    obtain ⟨hp, hwellFormed⟩ := forall_mem_cons.mp hwellFormed
    obtain ⟨hpwf, hwf⟩ := forall_mem_cons.mp hwf
    rw [packerProcess, foldlM_cons] at h
    cases hprocess : p.process maxSize out with
    | error fault => rw [hprocess] at h; cases h
    | ok out₁ =>
      rw [hprocess] at h
      obtain ⟨ms, rfl, hchunk⟩ := process_isChunk hp hpwf hprocess
      obtain ⟨ms', rfl, hchunks⟩ := ih hwellFormed hwf h
      refine ⟨ms ++ ms', append_assoc _ _ _, fun cseq frame hframe => ?_⟩
      rw [numberFrom_append] at hframe
      obtain ⟨chunk, rest, rfl, hfirst, hrest⟩ := map_eq_append_iff.mp hframe
      obtain ⟨chunks, rfl, hall⟩ := hchunks _ rest hrest
      exact ⟨chunk :: chunks, rfl, .cons (hfirst ▸ hchunk cseq) hall⟩

end GrooveIp.Vp8
