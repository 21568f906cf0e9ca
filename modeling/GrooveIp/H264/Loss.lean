import Mathlib.Data.List.Chain
import GrooveIp.H264.RoundTrip

/-!
# Loss detection

Frames are packed one after the other into one stream and some of the packets arrive, in
order. Each packet of the stream is described by a `Shipment`: what it carries, what its
frame sent before it, and the frame. The receiver is either in step with the last packet
that arrived or knows that it is not (`InStep`); a frame handed out as uncorrupted is then
a whole frame.
-/

namespace GrooveIp.H264

open Lib Ortp List
open Reception (check flush)
open UInt16 (ofNat)

/-! ### The stream of shipments -/

/-- One packet of the stream with what its frame sent before it and the frame's NALUs. -/
structure Shipment where
  pkt : Mblk
  payload : Payload
  before : List Payload
  frame : List (List UInt8)

open Shipment

namespace Shipment

/-- The packet carries its payload, and the marker packet completes the frame. -/
structure Valid (s : Shipment) : Prop where
  carries : Carries s.pkt s.payload
  complete : s.pkt.marker = true → Packed s.frame (s.before ++ [s.payload])

/-- Two packets sent one after the other: the second starts a frame when the first bears the
marker, and continues the frame otherwise. -/
def Follows (s s' : Shipment) : Prop :=
  s'.pkt.cseq = s.pkt.cseq + 1 ∧ if s.pkt.marker then s'.before = []
    else s'.before = s.before ++ [s.payload] ∧ s'.frame = s.frame ∧
      s'.pkt.timestamp = s.pkt.timestamp

end Shipment

variable {ss : List Shipment}

theorem cseq_of_isChain (h : ss.IsChain Follows) {i d : Nat} {s s' : Shipment}
    (hi : ss[i]? = some s) (hj : ss[i + d]? = some s') :
    s'.pkt.cseq = s.pkt.cseq + ofNat d := by
  induction d generalizing s' with
  | zero =>
    rw [Nat.add_zero, hi] at hj
    cases hj
    rw [show ofNat 0 = 0 from rfl, UInt16.add_zero]
  | succ d ih =>
    have hlt : i + d + 1 < ss.length := (List.getElem?_eq_some_iff.mp hj).1
    have hmid : ss[i + d]? = some ss[i + d] := List.getElem?_eq_getElem (by omega)
    have hnext := (isChain_iff_getElem.mp h (i + d) hlt).1
    have hs' : ss[i + d + 1] = s' := (List.getElem?_eq_some_iff.mp hj).2
    rw [hs', ih hmid] at hnext
    rw [hnext, UInt16.ofNat_add, UInt16.add_assoc]
    rfl

/-! ### The receiver against the stream -/

/-- The receiver after the packet of shipment `s`. -/
structure InStep (s : Shipment) (r : Reception) : Prop where
  lastTs : r.lastTs = s.pkt.timestamp
  refCseq : r.refCseq = some s.pkt.cseq
  closed : s.pkt.marker = true → r.assembly.nals = [] ∧ r.corrupted = false
  opened : s.pkt.marker = false → r.corrupted = false →
    ∃ stale, r.assembly = Assembly.absorbAll ⟨[], stale⟩ (s.before ++ [s.payload])

/-- The receiver before the packet of shipment `s`: nothing of the frame is missing, or the
sequence number will tell. -/
inductive Awaits (s : Shipment) (r : Reception) : Prop where
  | aligned (hflush : r.assembly.nals = [] ∨ r.lastTs = s.pkt.timestamp)
      (hseq : ∀ c, r.refCseq = some c → c + 1 = s.pkt.cseq) (hasm : r.corrupted = false →
        ∃ stale, r.assembly = Assembly.absorbAll ⟨[], stale⟩ s.before)
  | missed (c : UInt16) (hc : r.refCseq = some c) (hne : c + 1 ≠ s.pkt.cseq)

/-- A call result that may be trusted: an uncorrupted frame is the shipment's. -/
def Sound (s : Shipment) (d : Delivery) : Prop :=
  d.available = true → d.corrupted = false → d.out = s.frame

variable {r : Reception}

/-- One packet keeps the receiver in step, and what it hands out is sound. -/
theorem Awaits.receive {s : Shipment} (h : Awaits s r) (hs : s.Valid) :
    InStep s (r.receive s.payload s.pkt.timestamp s.pkt.cseq s.pkt.marker).1 ∧
      Sound s (r.receive s.payload s.pkt.timestamp s.pkt.cseq s.pkt.marker).2 := by
  have hts : (r.flush s.pkt.timestamp).1.lastTs = s.pkt.timestamp := by
    unfold flush
    split
    · split <;> rfl
    · next h => rw [ne_eq, Decidable.not_not] at h; exact h
  have hdeliver : (r.flush s.pkt.timestamp).2.available = true →
      (r.flush s.pkt.timestamp).2.corrupted = true := by
    unfold flush
    split
    · split
      · exact fun _ => rfl
      · exact fun h => nomatch h
    · exact fun h => nomatch h
  have hcs : (r.flush s.pkt.timestamp).1.refCseq = r.refCseq := by
    unfold flush
    split
    · split <;> rfl
    · rfl
  -- what the two checks leave: a corrupted frame, or the assembly of the earlier packets
  have hstate : ((r.flush s.pkt.timestamp).1.check s.pkt.cseq).corrupted = true ∨
      ((r.flush s.pkt.timestamp).2.out = [] ∧
        ∃ stale, ((r.flush s.pkt.timestamp).1.check s.pkt.cseq).assembly =
          Assembly.absorbAll ⟨[], stale⟩ s.before) := by
    cases h with
    | missed c hc hne =>
      refine .inl ?_
      simp only [check, hcs, hc]
      simp [hne]
    | aligned hflush hseq hasm =>
      have heq : r.flush s.pkt.timestamp =
          ({ r with lastTs := s.pkt.timestamp }, ⟨[], false, false⟩) := by
        unfold flush
        split
        · next hne =>
          rw [if_neg]
          rintro ⟨-, hq⟩
          rcases hflush with hn | hn
          · rw [hn] at hq; exact hq rfl
          · exact hne hn
        · next h => rw [ne_eq, Decidable.not_not] at h; rw [← h]
      cases hcor : r.corrupted with
      | true => exact .inl (by simp [heq, check, hcor])
      | false =>
        rw [heq]
        exact .inr ⟨rfl, hasm hcor⟩
  have hcheck : ((r.flush s.pkt.timestamp).1.check s.pkt.cseq).refCseq = some s.pkt.cseq := rfl
  have hlast : ((r.flush s.pkt.timestamp).1.check s.pkt.cseq).lastTs = s.pkt.timestamp := hts
  simp only [Reception.receive]
  generalize (r.flush s.pkt.timestamp).1.check s.pkt.cseq = rc at hstate hcheck hlast
  cases hm : s.pkt.marker with
  | true =>
    refine ⟨⟨rfl, hcheck, fun _ => ⟨rfl, rfl⟩, fun hf => absurd (hm.symm.trans hf) (by decide)⟩,
      fun _ hcor => ?_⟩
    rcases hstate with hbad | ⟨hout, stale, hasm⟩
    · exact absurd (hbad.symm.trans hcor) (by decide)
    · have hall := (hs.complete hm).absorbAll ⟨[], stale⟩
      rw [Assembly.absorbAll_append] at hall
      rw [hout, hasm]
      exact hall
  | false =>
    refine ⟨⟨hlast, hcheck, fun hf => absurd (hm.symm.trans hf) (by decide), fun _ hcor => ?_⟩,
      fun hav hcor => ?_⟩
    · rcases hstate with hbad | ⟨-, stale, hasm⟩
      · exact absurd (hbad.symm.trans hcor) (by decide)
      · refine ⟨stale, ?_⟩
        rw [Assembly.absorbAll_append, hasm]
        rfl
    · exact absurd ((hdeliver hav).symm.trans hcor) (by decide)

theorem InStep.awaits (hchain : ss.IsChain Follows) {i j : Nat} {s s' : Shipment}
    (hi : ss[i]? = some s) (hj : ss[j]? = some s') (hlt : i < j) (hgap : j - i - 1 < 65536)
    (h : InStep s r) : Awaits s' r := by
  obtain ⟨d, rfl⟩ : ∃ d, j = i + (d + 1) := ⟨j - i - 1, by omega⟩
  have hc := cseq_of_isChain hchain hi hj
  cases d with
  | zero =>
    have hlen : i + 1 < ss.length := (List.getElem?_eq_some_iff.mp hj).1
    obtain ⟨hc', hnext⟩ := isChain_iff_getElem.mp hchain i hlen
    have hs' : ss[i + 1] = s' := (List.getElem?_eq_some_iff.mp hj).2
    have hs : ss[i] = s := (List.getElem?_eq_some_iff.mp hi).2
    rw [hs, hs'] at hnext hc'
    have hseq : ∀ c, r.refCseq = some c → c + 1 = s'.pkt.cseq := fun c hcc => by
      rw [h.refCseq] at hcc
      cases hcc
      exact hc'.symm
    cases hm : s.pkt.marker with
    | true =>
      obtain ⟨hn, -⟩ := h.closed hm
      rw [hm, if_pos rfl] at hnext
      refine .aligned (.inl hn) hseq fun _ => ⟨r.assembly.pending, ?_⟩
      rw [hnext, Assembly.absorbAll, foldl_nil, ← hn]
    | false =>
      rw [hm, if_neg Bool.false_ne_true] at hnext
      obtain ⟨hbefore, -, hts⟩ := hnext
      refine .aligned (.inr (h.lastTs.trans hts.symm)) hseq fun hcor => ?_
      rw [hbefore]
      exact h.opened hm hcor
  | succ d =>
    refine .missed _ h.refCseq fun heq => ?_
    rw [hc] at heq
    have h1 : (1 : UInt16) = ofNat (d + 1 + 1) := (UInt16.add_right_inj _).mp heq
    have h2 := congrArg UInt16.toNat h1
    rw [UInt16.toNat_ofNat'] at h2
    have h3 : (1 : UInt16).toNat = 1 := rfl
    omega

theorem unpackCalls_sound (junk : UInt8) (hchain : ss.IsChain Follows)
    (hvalid : ∀ s ∈ ss, s.Valid) (idx : List Nat)
    (hidx : idx.IsChain fun i j => i < j ∧ j - i - 1 < 65536) (hlt : ∀ i ∈ idx, i < ss.length)
    {ctx : Rfc3984Context} (hv : View ctx r)
    (hfirst : ∀ i s, idx.head? = some i → ss[i]? = some s → Awaits s r) :
    ∀ call ∈ unpackCalls (looseMemory junk) ctx (idx.filterMap fun i => (ss.map pkt)[i]?),
      call.1.frameAvailable = true → call.1.frameCorrupted = false →
      ∃ s ∈ ss, call.2.map Mblk.bytes = s.frame := by
  induction idx generalizing ctx r with
  | nil => exact fun call hc => absurd hc not_mem_nil
  | cons i idx ih =>
    have hi : i < ss.length := hlt i mem_cons_self
    have hget : ss[i]? = some ss[i] := List.getElem?_eq_getElem hi
    have hs := hvalid ss[i] (getElem_mem hi)
    have hpkt : (ss.map pkt)[i]? = some ss[i].pkt := by
      rw [List.getElem?_map, hget]
      rfl
    obtain ⟨hstep, hsound⟩ := (hfirst i _ rfl hget).receive hs
    rw [filterMap_cons_some hpkt, unpackCalls]
    rcases rfc3984Unpack2_refines junk hv hs.carries with
      ⟨ctx', out, ret, hrun, hv', hout, hav, hcor⟩ | ⟨⟨e, hbad⟩, -⟩
    · rw [hrun]
      intro call hcall hca hcc
      rcases mem_cons.mp hcall with rfl | hcall
      · exact ⟨ss[i], getElem_mem hi,
          hout.trans (hsound (hav.symm.trans hca) (hcor.symm.trans hcc))⟩
      · refine ih (List.IsChain.of_cons hidx) (fun j hj => hlt j (mem_cons_of_mem _ hj)) hv'
          (fun j s hj hsj => ?_) call hcall hca hcc
        cases idx with
        | nil => cases hj
        | cons k idx =>
          cases hj
          obtain ⟨hij, hgap⟩ := (isChain_cons_cons.mp hidx).1
          exact hstep.awaits hchain hget hsj hij hgap
    · rw [hbad]
      exact fun call hc => absurd hc not_mem_nil

/-! ### Packing a sequence of frames -/

/-- A frame as it is given to the packer. -/
structure Frame where
  naluq : MSQueue
  ts : UInt32

/-- One packer over several frames: the packets of each. -/
def packFrames (mem : Memory) : Rfc3984Context → List Frame → Except Fault (List MSQueue)
  | _, [] => .ok []
  | ctx, f :: fs => do
    let (ctx, rtpq) ← rfc3984Pack mem ctx f.naluq [] f.ts
    let rest ← packFrames mem ctx fs
    return rtpq :: rest

/-- The shipments of one frame. -/
def shipFrame (frame : List (List UInt8)) : List Payload → MSQueue → List Payload → List Shipment
  | before, m :: ms, p :: ps => ⟨m, p, before, frame⟩ :: shipFrame frame (before ++ [p]) ms ps
  | _, _, _ => []

/-- Shipments in sending order from the start of a frame, at sequence number `c`. -/
structure Stream (c : UInt16) (ss : List Shipment) : Prop where
  valid : ∀ s ∈ ss, s.Valid
  chain : ss.IsChain Follows
  head : ∀ s ∈ ss.head?, s.before = [] ∧ s.pkt.cseq = c

theorem shipFrame_spec {fits : Nat → Prop} {ts : UInt32} {c : UInt16} {ms : MSQueue}
    {ps : List Payload} (hsent : Sent fits ts c ms ps) (hmark : Marked true ms)
    {frame : List (List UInt8)} {before : List Payload} (hpk : Packed frame (before ++ ps)) :
    (∀ s ∈ shipFrame frame before ms ps, s.Valid ∧ s.frame = frame) ∧
      (shipFrame frame before ms ps).IsChain Follows ∧
      (shipFrame frame before ms ps).map pkt = ms ∧
      (∃ s ∈ (shipFrame frame before ms ps).head?,
        s.before = before ∧ s.pkt.cseq = c ∧ s.frame = frame ∧ s.pkt.timestamp = ts) ∧
      ∀ s ∈ (shipFrame frame before ms ps).getLast?,
        s.pkt.marker = true ∧ s.pkt.cseq + 1 = c + ofNat ms.length := by
  induction hsent generalizing before with
  | nil =>
    obtain ⟨ms, m, hnil, -⟩ := hmark
    exact absurd hnil.symm (append_ne_nil_of_right_ne_nil _ (cons_ne_nil _ _))
  | @cons c m ms p ps hm hts hc hfit hrest ih =>
    subst hts hc
    obtain ⟨init, last, hsplit, hinit, hlast⟩ := hmark
    rw [shipFrame]
    cases init with
    | nil =>
      obtain ⟨rfl, rfl⟩ := List.cons.inj hsplit
      cases hrest
      refine ⟨fun s hs => ?_, .singleton _, rfl, ⟨_, rfl, rfl, rfl, rfl, rfl⟩, fun s hs => ?_⟩
      · rw [mem_singleton.mp hs]
        exact ⟨⟨hm, fun _ => hpk⟩, rfl⟩
      · cases hs
        exact ⟨hlast, rfl⟩
    | cons m' init =>
      obtain ⟨rfl, hms⟩ := List.cons.inj hsplit
      have hmk : m.marker = false := hinit m mem_cons_self
      obtain ⟨hall, hchain, hmap, ⟨s0, hs0, hbefore, hcs, hframe, hts⟩, hend⟩ :=
        ih ⟨init, last, hms, fun x hx => hinit x (mem_cons_of_mem _ hx), hlast⟩
          (show Packed frame ((before ++ [p]) ++ ps) by rw [append_assoc]; exact hpk)
      refine ⟨fun s hs => ?_, ?_, by rw [map_cons, hmap],
        ⟨_, rfl, rfl, rfl, rfl, rfl⟩, fun s hs => ?_⟩
      · rcases mem_cons.mp hs with rfl | hs
        · exact ⟨⟨hm, fun hf => absurd (hmk.symm.trans hf) (by decide)⟩, rfl⟩
        · exact hall s hs
      · cases hsh : shipFrame frame (before ++ [p]) ms ps with
        | nil => exact .singleton _
        | cons s1 rest =>
          rw [hsh] at hs0 hchain
          cases hs0
          refine isChain_cons_cons.mpr ⟨⟨hcs, ?_⟩, hchain⟩
          rw [hmk, if_neg Bool.false_ne_true]
          exact ⟨hbefore, hframe, hts⟩
      · cases hsh : shipFrame frame (before ++ [p]) ms ps with
        | nil => rw [hsh] at hs0; cases hs0
        | cons s1 rest =>
          rw [hsh, List.getLast?_cons_cons, ← hsh] at hs
          obtain ⟨hmarker, hcseq⟩ := hend s hs
          refine ⟨hmarker, ?_⟩
          rw [hcseq, length_cons, UInt16.ofNat_add, UInt16.add_assoc,
            UInt16.add_comm (ofNat _)]
          rfl

/-- The packets of a sequence of frames form a stream, and each frame begins where the frames
before it end. -/
theorem packFrames_stream (mem : Memory) (frames : List Frame) {ctx : Rfc3984Context}
    (hin : ∀ f ∈ frames, PackerInput ctx f.naluq) :
    ∃ packets ss, packFrames mem ctx frames = .ok packets ∧
      ss.map pkt = packets.flatten ∧ Stream ctx.refCseq ss ∧ (∀ s ∈ ss, ∃ f ∈ frames,
        s.frame = f.naluq.map fun m => naluOnWire ctx.mode ctx.maxsz m.bytes) ∧
      ∀ k < packets.length, ∀ s, ss[(packets.take k).flatten.length]? = some s → s.before = [] := by
  induction frames generalizing ctx with
  | nil =>
    exact ⟨[], [], rfl, rfl, ⟨fun _ h => absurd h not_mem_nil, .nil, fun _ h => nomatch h⟩,
      fun _ h => absurd h not_mem_nil, fun k hk => absurd hk (Nat.not_lt_zero k)⟩
  | cons f fs ih =>
    have hf := hin f mem_cons_self
    obtain ⟨ctx', rtpq, ps, hrun, ho, hpk⟩ := rfc3984Pack_sent mem f.ts hf
    have hctx := ho.ctx_eq
    obtain ⟨packets, ss, hrest, hmap, hstream, hframes, hstarts⟩ := ih
      (show ∀ g ∈ fs, PackerInput ctx' g.naluq by
        intro g hg
        have hg := hin g (mem_cons_of_mem _ hg)
        rw [hctx]
        exact ⟨hg.mode_eq, hg.maxsz_ge, hg.maxsz_le, hg.ne_nil, hg.isNalu, hg.size_lt⟩)
    obtain ⟨hall, hchain, hmapf, ⟨s0, hs0, hbefore, hcs, -, -⟩, hend⟩ :=
      shipFrame_spec ho.sent ho.marked (show Packed _ ([] ++ ps) from hpk)
    have hcseq : ctx'.refCseq = ctx.refCseq + ofNat rtpq.length := by rw [hctx]
    generalize shipFrame _ [] rtpq ps = sf at hall hchain hmapf hs0 hend
    have hlen : sf.length = rtpq.length := by rw [← hmapf, length_map]
    obtain ⟨s1, rest, rfl⟩ : ∃ s1 rest, sf = s1 :: rest := by
      cases sf with
      | nil => cases hs0
      | cons s1 rest => exact ⟨s1, rest, rfl⟩
    cases hs0
    refine ⟨rtpq :: packets, s0 :: rest ++ ss, ?_, ?_, ⟨fun s hs => ?_, ?_, fun s hs => ?_⟩,
      fun s hs => ?_, fun k hk s hs => ?_⟩
    · rw [packFrames, hrun]
      simp only [bind, Except.bind, hrest]
      rfl
    · rw [map_append, hmapf, hmap, flatten_cons]
    · rcases mem_append.mp hs with hs | hs
      · exact (hall s hs).1
      · exact hstream.valid s hs
    · refine isChain_append.mpr ⟨hchain, hstream.chain, fun x hx y hy => ?_⟩
      obtain ⟨hm, hc⟩ := hend x hx
      obtain ⟨hb, hc'⟩ := hstream.head y hy
      refine ⟨by rw [hc', hcseq, hc], ?_⟩
      rw [hm, if_pos rfl]
      exact hb
    · cases hs
      exact ⟨hbefore, hcs⟩
    · rcases mem_append.mp hs with hs | hs
      · exact ⟨f, mem_cons_self, (hall s hs).2⟩
      · obtain ⟨g, hg, hgf⟩ := hframes s hs
        rw [hctx] at hgf
        exact ⟨g, mem_cons_of_mem _ hg, hgf⟩
    · cases k with
      | zero =>
        cases hs
        exact hbefore
      | succ k =>
        rw [take_succ_cons, flatten_cons, length_append, ← hlen,
          List.getElem?_append_right (by omega), Nat.add_sub_cancel_left] at hs
        exact hstarts k (Nat.lt_of_succ_lt_succ hk) s hs

/-! ### Soundness -/

/-- The packet at position `i` of the stream is the first one of its frame. -/
def StartsFrame (packets : List MSQueue) (i : Nat) : Prop :=
  ∃ k < packets.length, i = (packets.take k).flatten.length

/-- Frames are packed in order, and any of the packets arrive in order, with the first of its frame
in front and fewer than 65536 missing between two. An uncorrupted frame handed out is the NALUs of
one frame, complete and in order. -/
theorem unpackCalls_packFrames_sound (junk : UInt8) (ctx : Rfc3984Context) (frames : List Frame)
    (hin : ∀ f ∈ frames, PackerInput ctx f.naluq) :
    ∃ packets, packFrames (looseMemory junk) ctx frames = .ok packets ∧
      ∀ idx : List Nat, (idx.IsChain fun i j => i < j ∧ j - i - 1 < 65536) →
        (∀ i ∈ idx, i < packets.flatten.length) →
        (∀ i, idx.head? = some i → StartsFrame packets i) →
        ∀ call ∈ unpackCalls (looseMemory junk) rfc3984Init
            (idx.filterMap fun i => packets.flatten[i]?),
          call.1.frameAvailable = true → call.1.frameCorrupted = false →
          ∃ f ∈ frames, call.2.map Mblk.bytes =
            f.naluq.map fun m => naluOnWire ctx.mode ctx.maxsz m.bytes := by
  obtain ⟨packets, ss, hrun, hmap, hstream, hframes, hstarts⟩ :=
    packFrames_stream (looseMemory junk) frames hin
  refine ⟨packets, hrun, fun idx hidx hlt hhead call hcall hav hcor => ?_⟩
  rw [← hmap] at hcall hlt
  have hfirst (i : Nat) (s : Shipment) (hi : idx.head? = some i) (hs : ss[i]? = some s) :
      Awaits s Reception.initial := by
    obtain ⟨k, hk, rfl⟩ := hhead i hi
    refine .aligned (.inl rfl) (fun _ h => nomatch h) fun _ => ⟨none, ?_⟩
    rw [hstarts k hk s hs]
    rfl
  obtain ⟨s, hs, hout⟩ := unpackCalls_sound junk hstream.chain hstream.valid idx hidx
    (fun i hi => by rw [← length_map pkt]; exact hlt i hi) view_init hfirst
    call hcall hav hcor
  obtain ⟨f, hf, hframe⟩ := hframes s hs
  exact ⟨f, hf, hout.trans hframe⟩

/-- Two frames, an aggregate and a fragmented NALU, of which the third packet is lost. -/
theorem unpackCalls_packFrames_lossy :
    let frames := [Frame.mk [sliceNalu 0, sliceNalu 1] 1, Frame.mk [sliceNalu 20] 2]
    let ctx := { rfc3984Init with mode := 1, maxsz := 9 }
    ∃ packets, packFrames (looseMemory 0) ctx frames = .ok packets ∧
      packets.map List.length = [1, 3] ∧ ∀ call ∈ unpackCalls (looseMemory 0) rfc3984Init
          ([0, 1, 3].filterMap fun i => packets.flatten[i]?),
        call.1.frameAvailable = true → call.1.frameCorrupted = false →
        ∃ f ∈ frames, call.2.map Mblk.bytes =
          f.naluq.map fun m => naluOnWire ctx.mode ctx.maxsz m.bytes := by
  intro frames ctx
  have hnalu (f : Frame) (hf : f ∈ frames) (m : Mblk) (hm : m ∈ f.naluq) :
      IsNalu m ∧ (m.bytes.length : Int) + ctx.maxsz < 2 ^ 31 := by
    simp only [frames, mem_cons, not_mem_nil, or_false] at hf
    rcases hf with rfl | rfl <;> simp only [mem_cons, not_mem_nil, or_false] at hm
    · rcases hm with rfl | rfl <;> exact ⟨(isNalu_sliceNalu _).1, by decide⟩
    · subst hm
      exact ⟨(isNalu_sliceNalu _).1, by decide⟩
  obtain ⟨packets, hrun, hsound⟩ := unpackCalls_packFrames_sound 0 ctx frames fun f hf =>
    ⟨.inr rfl, by decide, by decide, by
      simp only [frames, mem_cons, not_mem_nil, or_false] at hf
      rcases hf with rfl | rfl <;> exact cons_ne_nil _ _,
      fun m hm => (hnalu f hf m hm).1, fun _ m hm => (hnalu f hf m hm).2⟩
  have hlen : packets.map List.length = [1, 3] := by
    have heval : (packFrames (looseMemory 0) ctx frames).map (List.map List.length) =
        .ok [1, 3] := by decide +kernel
    rw [hrun] at heval
    exact Except.ok.inj heval
  have htotal : packets.flatten.length = 4 := by rw [length_flatten, hlen]; rfl
  have hcount : packets.length = 2 := by rw [← length_map List.length, hlen]; rfl
  refine ⟨packets, hrun, hlen, hsound [0, 1, 3] (by simp) (fun i hi => ?_) fun i hi => ?_⟩
  · rw [htotal]
    simp only [mem_cons, not_mem_nil, or_false] at hi
    omega
  · cases hi
    exact ⟨0, by omega, rfl⟩

/-- A NALU with its forbidden bit set that is fragmented arrives, uncorrupted, without it. -/
theorem unpackCalls_packFrames_forbiddenBit :
    let frames := [Frame.mk [Mblk.ofBytes [0x81, 0, 0, 0, 0]] 1]
    ∃ packets, packFrames (looseMemory 0) { rfc3984Init with mode := 1, maxsz := 4 } frames =
        .ok packets ∧ ∃ call ∈ unpackCalls (looseMemory 0) rfc3984Init packets.flatten,
        call.1.frameAvailable = true ∧ call.1.frameCorrupted = false ∧
        ¬ ∃ f ∈ frames, call.2.map Mblk.bytes = f.naluq.map Mblk.bytes := by
  refine ⟨_, rfl, _, mem_cons_of_mem _ (mem_cons_of_mem _ mem_cons_self), rfl, rfl, ?_⟩
  rintro ⟨f, hf, heq⟩
  cases mem_singleton.mp hf
  exact absurd heq (by decide)

end GrooveIp.H264
