import GrooveIp.H264.Reception

/-!
# Packing then unpacking one frame

The packets `rfc3984_pack` sends for a frame, fed in order to a fresh context, give back the
frame's NALUs on the marker packet. The receiver's state while the packets arrive is the
assembly of the payloads so far (`Receiving`).
-/

namespace GrooveIp.H264

open Lib Ortp List

/-- The calls of `rfc3984_unpack2` on packets in order, each with an empty output queue, up to
the first that does not return: its status and what it put in the queue. -/
def unpackCalls (mem : Memory) : Rfc3984Context → List Mblk → List (Rfc3984Status × MSQueue)
  | _, [] => []
  | ctx, im :: ims =>
    match rfc3984Unpack2 mem ctx im [] with
    | .ok (ctx, out, ret) => (ret, out) :: unpackCalls mem ctx ims
    | .error _ => []

/-! ### A frame that arrives whole -/

theorem Assembly.nals_subset_absorb (a : Assembly) (p : Payload) :
    ∀ nal ∈ a.nals, nal ∈ (a.absorb p).nals := by
  intro nal hn
  cases p with
  | single => exact mem_append_left _ hn
  | aggregate => exact mem_append_left _ hn
  | fragment start last header body =>
    simp only [absorb]
    split
    · split
      · exact mem_append_left _ hn
      · exact hn
    · exact hn

theorem Assembly.nals_subset_absorbAll (ps : List Payload) (a : Assembly) :
    ∀ nal ∈ a.nals, nal ∈ (a.absorbAll ps).nals := by
  induction ps generalizing a with
  | nil => exact fun _ hn => hn
  | cons p ps ih => exact fun nal hn => ih (a.absorb p) nal (a.nals_subset_absorb p nal hn)

/-- A receiver in the middle of a frame of which it missed nothing: the next packet of the
frame has sequence number `c`. -/
structure Receiving (ts : UInt32) (c : UInt16) (r : Reception) : Prop where
  intact : r.corrupted = false
  sameFrame : r.assembly.nals = [] ∨ r.lastTs = ts
  expected : ∀ c', r.refCseq = some c' → c' + 1 = c

theorem Receiving.receive {ts : UInt32} {c : UInt16} {r : Reception} (h : Receiving ts c r)
    (p : Payload) (marker : Bool) : ((r.flush ts).1.check c).assembly = r.assembly ∧
      (r.receive p ts c marker).2 = (if marker then ⟨(r.assembly.absorb p).nals, true, false⟩
        else ⟨[], false, false⟩) ∧
      (marker = false → (r.receive p ts c marker).1.assembly = r.assembly.absorb p ∧
        Receiving ts (c + 1) (r.receive p ts c marker).1) := by
  have hflush : r.flush ts = ({ r with lastTs := ts }, ⟨[], false, false⟩) := by
    unfold Reception.flush
    split
    · next hne =>
      rw [if_neg]
      rintro ⟨-, hq⟩
      rcases h.sameFrame with hn | hn
      · rw [hn] at hq; exact hq rfl
      · exact hne hn
    · next heq =>
      rw [ne_eq, Decidable.not_not] at heq
      rw [← heq]
  have hcheck : Reception.check { r with lastTs := ts } c =
      { r with lastTs := ts, refCseq := some c } := by
    unfold Reception.check
    cases hc : r.refCseq with
    | none => simp
    | some c' => simp [h.expected c' hc]
  have hreceive : r.receive p ts c marker =
      if marker then (⟨⟨[], (r.assembly.absorb p).pending⟩, false, ts, some c⟩,
        ⟨(r.assembly.absorb p).nals, true, false⟩)
      else (⟨r.assembly.absorb p, r.corrupted, ts, some c⟩, ⟨[], false, false⟩) := by
    simp only [Reception.receive, hflush, hcheck, nil_append]
    rw [h.intact]
  refine ⟨by rw [hflush, hcheck], ?_, fun hm => ?_⟩
  · rw [hreceive]
    cases marker <;> rfl
  · subst hm
    rw [hreceive]
    refine ⟨rfl, h.intact, .inr rfl, fun c' hc => ?_⟩
    cases hc
    rfl

theorem unpackCalls_frame (junk : UInt8) {fits : Nat → Prop} {ts : UInt32} {c : UInt16}
    {ms : MSQueue} {ps : List Payload} (hsent : Sent fits ts c ms ps) (hmark : Marked true ms)
    {ctx : Rfc3984Context} {r : Reception} (hv : View ctx r) (hr : Receiving ts c r)
    (hsmall : ∀ nal ∈ (r.assembly.absorbAll ps).nals, nal.length < 2 ^ 31) :
    ∃ calls ret out, unpackCalls (looseMemory junk) ctx ms = calls ++ [(ret, out)] ∧
      calls.length + 1 = ms.length ∧ (∀ call ∈ calls, call.1.frameAvailable = false ∧ call.2 = []) ∧
      ret.frameAvailable = true ∧ ret.frameCorrupted = false ∧
      out.map Mblk.bytes = (r.assembly.absorbAll ps).nals := by
  induction hsent generalizing ctx r with
  | nil =>
    obtain ⟨ms, m, hnil, -⟩ := hmark
    exact absurd hnil.symm (append_ne_nil_of_right_ne_nil _ (cons_ne_nil _ _))
  | @cons c m ms p ps hm hts hc hfit hrest ih =>
    subst hts hc
    obtain ⟨hassembly, hdeliver, hnext⟩ := hr.receive p m.marker
    rcases rfc3984Unpack2_refines junk hv hm with
      ⟨ctx', out, ret, hrun, hv', hout, hav, hcor⟩ | ⟨-, nal, hmem, hbig⟩
    · rw [unpackCalls, hrun]
      simp only
      rw [hdeliver] at hout hav hcor
      obtain ⟨init, last, hsplit, hinit, hlast⟩ := hmark
      cases init with
      | nil =>
        -- the marker packet
        obtain ⟨rfl, rfl⟩ := List.cons.inj hsplit
        cases hrest
        rw [hlast] at hout hav hcor
        exact ⟨[], ret, out, rfl, rfl, fun _ hx => absurd hx not_mem_nil, hav, hcor, hout⟩
      | cons m' init =>
        obtain ⟨rfl, rfl⟩ := List.cons.inj hsplit
        have hmk : m.marker = false := hinit m mem_cons_self
        obtain ⟨hasm, hrecv⟩ := hnext hmk
        obtain ⟨calls, ret', out', hcalls, hlen, hquiet, hres⟩ :=
          ih ⟨init, last, rfl, fun x hx => hinit x (mem_cons_of_mem _ hx), hlast⟩ hv' hrecv
            (by rw [hasm]; exact hsmall)
        rw [hmk] at hout hav hcor
        rw [hasm] at hres
        refine ⟨(ret, out) :: calls, ret', out', by rw [hcalls]; rfl, ?_, fun call hx => ?_, hres⟩
        · rw [length_cons, length_cons, hlen]
        · rcases mem_cons.mp hx with rfl | hx
          · exact ⟨hav, map_eq_nil_iff.mp hout⟩
          · exact hquiet call hx
    · rw [hassembly] at hmem
      have := hsmall nal (Assembly.nals_subset_absorbAll ps _ nal hmem)
      omega

/-! ### The round trip -/

/-- `forbidden_zero_bit` is clear. -/
def ForbiddenBitClear (m : Mblk) : Prop := ∀ h t, m.bytes = h :: t → h &&& 0x80 = 0

theorem Sent.getElem {fits : Nat → Prop} {ts : UInt32} {c : UInt16} {ms : MSQueue}
    {ps : List Payload} (h : Sent fits ts c ms ps) {i : Nat} {m : Mblk} (hi : ms[i]? = some m) :
    m.timestamp = ts ∧ m.cseq = c + UInt16.ofNat i ∧ fits m.bytes.length := by
  induction h generalizing i with
  | nil => cases hi
  | @cons c x ms p ps hm hts hc hfit hrest ih =>
    cases i with
    | zero =>
      cases hi
      exact ⟨hts, by rw [hc, show UInt16.ofNat 0 = 0 from rfl, UInt16.add_zero], hfit⟩
    | succ i =>
      obtain ⟨hts', hc', hfit'⟩ := ih (by rw [← hi]; rfl)
      refine ⟨hts', ?_, hfit'⟩
      rw [hc', UInt16.ofNat_add, UInt16.add_assoc, UInt16.add_comm (UInt16.ofNat i)]
      rfl

/-- In mode 1 a frame is sent within the limit, numbered consecutively and marked on the last packet
only, and a fresh receiver gets its NALUs back there, while a NALU and the limit stay within an
`int`. -/
theorem rfc3984_roundTrip (junk : UInt8) (ctx : Rfc3984Context) (naluq : MSQueue) (ts : UInt32)
    (hmode : ctx.mode = 1) (hmin : 4 ≤ ctx.maxsz) (hmax : ctx.maxsz ≤ 65535) (hne : naluq ≠ [])
    (hnalu : ∀ m ∈ naluq, IsNalu m ∧ ForbiddenBitClear m)
    (hsize : ∀ m ∈ naluq, (m.bytes.length : Int) + ctx.maxsz < 2 ^ 31) :
    ∃ ctx' rtpq, rfc3984Pack (looseMemory junk) ctx naluq [] ts = .ok (ctx', rtpq) ∧
      (∀ (i : Nat) (m : Mblk), rtpq[i]? = some m → (m.bytes.length : Int) ≤ ctx.maxsz ∧
        m.cseq = ctx.refCseq + UInt16.ofNat i ∧ m.timestamp = ts) ∧ Marked true rtpq ∧
      ∃ calls ret out, unpackCalls (looseMemory junk) rfc3984Init rtpq = calls ++ [(ret, out)] ∧
        calls.length + 1 = rtpq.length ∧
        (∀ call ∈ calls, call.1.frameAvailable = false ∧ call.2 = []) ∧
        ret.frameAvailable = true ∧ ret.frameCorrupted = false ∧
        out.map Mblk.bytes = naluq.map Mblk.bytes := by
  obtain ⟨ctx', rtpq, ps, hrun, ho, hpk⟩ := rfc3984Pack_sent (looseMemory junk) ts
    ⟨.inr hmode, hmin, hmax, hne, fun m hm => (hnalu m hm).1, fun _ => hsize⟩
  have hwire : (naluq.map fun m => naluOnWire ctx.mode ctx.maxsz m.bytes) =
      naluq.map Mblk.bytes := by
    refine map_congr_left fun m hm => ?_
    obtain ⟨hn, hclear⟩ := hnalu m hm
    obtain ⟨h, t, hb, -⟩ := hn.header
    rw [hb]
    exact naluOnWire_of_clear _ _ t (hclear h t hb)
  rw [hwire] at hpk
  have hnals : (Reception.initial.assembly.absorbAll ps).nals = naluq.map Mblk.bytes :=
    hpk.absorbAll _
  refine ⟨ctx', rtpq, hrun, fun i m hi => ?_, ho.marked, ?_⟩
  · obtain ⟨hts, hc, hfit⟩ := ho.sent.getElem hi
    exact ⟨hfit hmode, hc, hts⟩
  · rw [← hnals]
    refine unpackCalls_frame junk ho.sent ho.marked view_init
      ⟨rfl, .inl rfl, fun _ h => nomatch h⟩ fun nal hmem => ?_
    rw [hnals] at hmem
    obtain ⟨m, hm, rfl⟩ := mem_map.mp hmem
    have := hsize m hm
    omega

/-- A fresh NALU of type 1 with `n` bytes behind its header. -/
def sliceNalu (n : Nat) : Mblk := Mblk.ofBytes (1 :: List.replicate n 0)

/-- Such a NALU is one an encoder may hand over. -/
theorem isNalu_sliceNalu (n : Nat) : IsNalu (sliceNalu n) ∧ ForbiddenBitClear (sliceNalu n) := by
  have hb : (sliceNalu n).bytes = 1 :: List.replicate n 0 := Mblk.bytes_ofBytes _
  refine ⟨⟨⟨rfl, Block.wf_ofBytes _⟩, rfl, 1, _, hb, by decide, by decide⟩, fun h t hht => ?_⟩
  obtain ⟨rfl, -⟩ := List.cons.inj hht
  decide

/-- Packing and unpacking an access unit of three NALUs with a limit of 7 bytes: an aggregate of
two, then four fragments. -/
theorem rfc3984_roundTrip_small : ∃ ctx' rtpq,
    rfc3984Pack (looseMemory 0) { rfc3984Init with mode := 1, maxsz := 7 }
      [sliceNalu 0, sliceNalu 1, sliceNalu 20] [] 5 = .ok (ctx', rtpq) ∧
    (∀ (i : Nat) (m : Mblk), rtpq[i]? = some m → (m.bytes.length : Int) ≤ 7 ∧
      m.cseq = 0 + UInt16.ofNat i ∧ m.timestamp = 5) ∧ Marked true rtpq ∧
    ∃ calls ret out, unpackCalls (looseMemory 0) rfc3984Init rtpq = calls ++ [(ret, out)] ∧
      calls.length + 1 = rtpq.length ∧
      (∀ call ∈ calls, call.1.frameAvailable = false ∧ call.2 = []) ∧
      ret.frameAvailable = true ∧ ret.frameCorrupted = false ∧
      out.map Mblk.bytes = [sliceNalu 0, sliceNalu 1, sliceNalu 20].map Mblk.bytes := by
  refine rfc3984_roundTrip 0 { rfc3984Init with mode := 1, maxsz := 7 }
    [sliceNalu 0, sliceNalu 1, sliceNalu 20] 5 rfl (by decide) (by decide) (by simp) ?_ ?_
  · intro m hm
    simp only [mem_cons, not_mem_nil, or_false] at hm
    rcases hm with rfl | rfl | rfl <;> exact isNalu_sliceNalu _
  · intro m hm
    simp only [mem_cons, not_mem_nil, or_false] at hm
    rcases hm with rfl | rfl | rfl <;> decide

/-- A NALU of 2^31 bytes has a negative `int` size, so it leaves as a single packet however
small the limit is. -/
theorem rfc3984Pack_hugeNalu :
    ¬ ∀ (ctx : Rfc3984Context) (naluq : MSQueue) (ts : UInt32), ctx.mode = 1 → 4 ≤ ctx.maxsz →
      ctx.maxsz ≤ 65535 → naluq ≠ [] → (∀ m ∈ naluq, IsNalu m ∧ ForbiddenBitClear m) →
      ∃ ctx' rtpq, rfc3984Pack (looseMemory 0) ctx naluq [] ts = .ok (ctx', rtpq) ∧
        ∀ m : Mblk, m ∈ rtpq → (m.bytes.length : Int) ≤ ctx.maxsz := by
  intro hclaim
  obtain ⟨n, hn⟩ : ∃ n, n = 2 ^ 31 - 1 := ⟨_, rfl⟩
  have hb : (sliceNalu n).bytes.length = 2 ^ 31 := by
    rw [sliceNalu, Mblk.bytes_ofBytes, length_cons, length_replicate]
    omega
  have hsize : toInt32 (sliceNalu n).first.size = -(2 ^ 31) := by
    rw [(isNalu_sliceNalu n).1.plain.size_eq, hb]
    decide
  obtain ⟨ctx', rtpq, hrun, hle⟩ := hclaim
    { rfc3984Init with mode := 1, maxsz := 4, stapAAllowed := false } [sliceNalu n] 0 rfl
    (by decide) (by decide) (cons_ne_nil _ _) (fun m hm => mem_singleton.mp hm ▸ isNalu_sliceNalu n)
  have hpack : rfc3984Pack (looseMemory 0)
      { rfc3984Init with mode := 1, maxsz := 4, stapAAllowed := false } [sliceNalu n] [] 0 =
      .ok (sendPacket { rfc3984Init with mode := 1, maxsz := 4, stapAAllowed := false } [] 0
        (sliceNalu n) true) := by
    simp [rfc3984Pack, rfc3984PackMode1, packMode1Loop, packMode1Step, sendAlone, hsize]
    rfl
  rw [hpack] at hrun
  cases hrun
  have := hle _ mem_cons_self
  rw [Mblk.bytes_setCseq, Mblk.bytes_setMarkerInfo, Mblk.bytes_setTimestampInfo, hb] at this
  revert this
  decide

end GrooveIp.H264
