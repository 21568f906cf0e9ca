import GrooveIp.H264.Payload

/-!
# What the packer sends

For each packing mode the packets put in the queue for one frame: their payloads carry the
frame's NALUs, they are stamped with the frame's time and consecutive sequence numbers,
the marker stands on the last one, and in mode 1 none is larger than `maxsz`.
-/

namespace GrooveIp.H264

open Lib Ortp List

/-! ### Packets -/

/-- A packet that carries a payload, with its first byte in its first block. -/
structure Carries (m : Mblk) (p : Payload) : Prop where
  encodes : Encodes m.bytes p
  wf : ∀ b ∈ m.blocks, b.WF
  short : m.cont = [] ∨ m.bytes.length < 2 ^ 31
  first_ne : m.first.bytes ≠ []

/-- Packets in sending order with their payloads: one time stamp, consecutive sequence numbers
from `c` on, sizes that fit. -/
inductive Sent (fits : Nat → Prop) (ts : UInt32) : UInt16 → MSQueue → List Payload → Prop where
  | nil (c : UInt16) : Sent fits ts c [] []
  | cons {c : UInt16} {m : Mblk} {ms : MSQueue} {p : Payload} {ps : List Payload}
      (hm : Carries m p) (hts : m.timestamp = ts) (hc : m.cseq = c)
      (hfit : fits m.bytes.length) (h : Sent fits ts (c + 1) ms ps) :
      Sent fits ts c (m :: ms) (p :: ps)

variable {m : Mblk}

theorem Sent.concat {fits : Nat → Prop} {ts : UInt32} {c : UInt16} {ms : MSQueue}
    {ps : List Payload} (h : Sent fits ts c ms ps) {p : Payload} (hm : Carries m p)
    (hts : m.timestamp = ts) (hc : m.cseq = c + UInt16.ofNat ms.length)
    (hfit : fits m.bytes.length) : Sent fits ts c (ms ++ [m]) (ps ++ [p]) := by
  induction h with
  | nil c =>
    rw [length_nil, show UInt16.ofNat 0 = 0 from rfl, UInt16.add_zero] at hc
    exact .cons hm hts hc hfit (.nil _)
  | cons hm' hts' hc' hfit' _ ih =>
    refine .cons hm' hts' hc' hfit' (ih ?_)
    rw [hc, length_cons, UInt16.ofNat_add, UInt16.add_assoc, UInt16.add_comm (UInt16.ofNat _)]
    rfl

/-- Which packets of a frame bear the marker: none while it is open, the last one when it
is closed. -/
def Marked (closed : Bool) (rtpq : MSQueue) : Prop :=
  if closed then
    ∃ ms m, rtpq = ms ++ [m] ∧ (∀ x ∈ ms, x.marker = false) ∧ m.marker = true
  else ∀ x ∈ rtpq, x.marker = false

/-- The packer's context and queue while a frame is sent: `ctx0` is the context it began
with, and `closed` says that the marker was sent. -/
structure Outgoing (fits : Nat → Prop) (ts : UInt32) (ctx0 : Rfc3984Context) (closed : Bool)
    (ctx : Rfc3984Context) (rtpq : MSQueue) (ps : List Payload) : Prop where
  ctx_eq : ctx = { ctx0 with refCseq := ctx0.refCseq + UInt16.ofNat rtpq.length }
  sent : Sent fits ts ctx0.refCseq rtpq ps
  marked : Marked closed rtpq

/-- Nothing was sent yet. -/
theorem outgoing_nil (fits : Nat → Prop) (ts : UInt32) (ctx : Rfc3984Context) :
    Outgoing fits ts ctx false ctx [] [] where
  ctx_eq := by rw [length_nil, show UInt16.ofNat 0 = 0 from rfl, UInt16.add_zero]
  sent := .nil _
  marked := fun _ hx => nomatch hx

section Send

variable {fits : Nat → Prop} {ts : UInt32} {ctx0 ctx : Rfc3984Context} {rtpq : MSQueue}
  {ps : List Payload}

/-- `send_packet` appends one packet and closes the frame when it sets the marker. -/
theorem Outgoing.send (h : Outgoing fits ts ctx0 false ctx rtpq ps) {m : Mblk} {p : Payload}
    (hm : Carries m p) (hc : m.cseq = 0) (hfit : fits m.bytes.length) (marker : Bool) :
    Outgoing fits ts ctx0 marker (sendPacket ctx rtpq ts m marker).1
      (sendPacket ctx rtpq ts m marker).2 (ps ++ [p]) where
  ctx_eq := by
    simp only [sendPacket, h.ctx_eq, length_append, length_singleton]
    rw [UInt16.ofNat_add, UInt16.add_assoc]
    rfl
  sent := by
    refine h.sent.concat (m := ((m.setTimestampInfo ts).setMarkerInfo marker).setCseq ctx.refCseq)
      ⟨hm.encodes, hm.wf, hm.short, hm.first_ne⟩ rfl ?_ hfit
    show m.cseq ||| ctx.refCseq = _
    rw [hc, UInt16.zero_or, h.ctx_eq]
  marked := by
    have hopen : ∀ x ∈ rtpq, x.marker = false := h.marked
    cases marker with
    | true => exact ⟨rtpq, _, rfl, hopen, rfl⟩
    | false =>
      intro x hx
      rcases mem_append.mp hx with hx | hx
      · exact hopen x hx
      · rw [mem_singleton.mp hx]; rfl

end Send

/-! ### NALUs -/

/-- A NALU as an encoder hands it over: one fresh block that is not empty, of a type that is
not taken by a packet kind. -/
structure IsNalu (m : Mblk) : Prop where
  plain : m.Plain
  cseq_eq : m.cseq = 0
  header : ∃ h t, m.bytes = h :: t ∧ nalHeaderGetType h ≠ typeStapA ∧ nalHeaderGetType h ≠ typeFuA

/-- A NALU sent as it is carries itself. -/
theorem IsNalu.carries (h : IsNalu m) : Carries m (.single m.bytes) := by
  obtain ⟨b, t, hb, ha, hf⟩ := h.header
  refine ⟨hb ▸ .single ha hf, h.plain.pullable.wf, .inl h.plain.cont_eq, ?_⟩
  rw [← h.plain.bytes_eq, hb]
  exact cons_ne_nil b t

/-- The first byte of a NALU is in its first block. -/
theorem IsNalu.peek (hm : IsNalu m) (mem : Memory) {h : UInt8} {t : List UInt8}
    (hb : m.bytes = h :: t) : mem.peek m.first 0 = .ok h :=
  mem.peek_of_getElem (by rw [← hm.plain.bytes_eq, hb]; rfl)

/-! ### Fragmentation -/

theorem carries_fragment (hm : m.Plain) (h : UInt8) (start last : Bool)
    (body : List UInt8) (hb : m.bytes.drop start.toNat = body)
    (hlen : body.length + 2 < 2 ^ 31) (hstart : start.toNat ≤ m.bytes.length) :
    let fu := prependFuIndicatorAndHeader m (nalHeaderInit (nalHeaderGetNri h) typeFuA)
      start last (nalHeaderGetType h)
    Carries fu (.fragment start last (h &&& 0x7F) body) ∧ fu.cseq = 0 ∧
      fu.bytes.length = body.length + 2 := by
  intro fu
  have hwf := hm.wf
  have hl : m.bytes.length = m.first.wptr - m.first.rptr := by
    have := hm.size_eq
    unfold Block.size at this
    omega
  have hfirst : fu.cont = [{ m.first with rptr := m.first.rptr + start.toNat }] := by
    cases start <;> simp [fu, prependFuIndicatorAndHeader, Mblk.blocks, Mblk.setRptr, hm.cont_eq]
  have hbytes : fu.bytes = nalHeaderInit (nalHeaderGetNri h) typeFuA ::
      fuHeader start last (nalHeaderGetType h) :: body := by
    rw [Mblk.bytes_eq, hfirst, flatMap_singleton, Block.bytes_skip, ← hm.bytes_eq, hb]
    rfl
  obtain ⟨htype, hs, he⟩ := fuHeader_fields start last h
  have henc : Encodes (nalHeaderInit (nalHeaderGetNri h) typeFuA ::
      fuHeader start last (nalHeaderGetType h) :: body)
      (.fragment start last (h &&& 0x7F) body) := by
    have hf : Encodes (nalHeaderInit (nalHeaderGetNri h) typeFuA ::
        fuHeader start last (nalHeaderGetType h) :: body) _ :=
      .fragment (by rw [nalHeaderGetType_init]; rfl) hlen
    rwa [hs, he, nalHeaderGetNri_init, htype, nalHeaderInit_get] at hf
  have hlen' : fu.bytes.length = body.length + 2 := by rw [hbytes]; rfl
  refine ⟨⟨hbytes ▸ henc, ?_, .inr (by omega), cons_ne_nil _ _⟩, rfl, hlen'⟩
  intro b hb'
  rw [Mblk.blocks, hfirst] at hb'
  rcases mem_cons.mp hb' with rfl | hb'
  · exact Block.wf_ofBytes _
  · rw [mem_singleton.mp hb']
    exact ⟨by show m.first.rptr + start.toNat ≤ m.first.wptr; have := hwf.rptr_le; omega,
      hwf.wptr_le⟩

section Fragmentation

variable {fits : Nat → Prop} {ts : UInt32} {ctx0 : Rfc3984Context}

theorem cut_plain {m : Mblk} (hm : m.Plain) {n : Nat} (hn : n ≤ m.bytes.length) :
    (m.dupb.setWptr (m.first.rptr + n)).Plain ∧
      (m.dupb.setWptr (m.first.rptr + n)).bytes = m.bytes.take n ∧
      (m.setRptr (m.first.rptr + n)).Plain ∧
      (m.setRptr (m.first.rptr + n)).bytes = m.bytes.drop n := by
  have hsize := hm.size_eq
  have hwf := hm.wf
  have hw := hwf.wptr_le
  have hle : m.first.rptr + n ≤ m.first.wptr := by
    unfold Block.size at hsize
    omega
  have hh : (m.dupb.setWptr (m.first.rptr + n)).Plain := ⟨rfl, ⟨Nat.le_add_right _ _, Nat.le_trans hle hw⟩⟩
  have ht : (m.setRptr (m.first.rptr + n)).Plain := ⟨hm.cont_eq, ⟨hle, hw⟩⟩
  refine ⟨hh, ?_, ht, ?_⟩
  · rw [hh.bytes_eq, hm.bytes_eq]
    exact Block.bytes_cut m.first hle
  · rw [ht.bytes_eq, hm.bytes_eq]
    exact Block.bytes_skip m.first n

theorem fragLoop_sent {pms : Nat} (hpos : 0 < pms) (hpms : pms + 2 < 2 ^ 31)
    (hfits : ∀ n ≤ pms + 2, fits n) (h : UInt8) (fuel : Nat) {ctx : Rfc3984Context}
    {rtpq : MSQueue} {ps : List Payload} (ho : Outgoing fits ts ctx0 false ctx rtpq ps)
    {nalu : Mblk} (hm : nalu.Plain) (hf : nalu.bytes.length < fuel) : ∃ ctx' rtpq' nalu' fs,
      fragLoop ts pms (nalHeaderInit (nalHeaderGetNri h) typeFuA) (nalHeaderGetType h) fuel
        ctx rtpq nalu false = .ok (ctx', rtpq', nalu') ∧
      Outgoing fits ts ctx0 false ctx' rtpq' (ps ++ fs) ∧ nalu'.Plain ∧ nalu'.bytes.length ≤ pms ∧
      ∀ qs, Continues (h &&& 0x7F) nalu'.bytes qs →
        Continues (h &&& 0x7F) nalu.bytes (fs ++ qs) := by
  induction fuel generalizing ctx rtpq ps nalu with
  | zero => omega
  | succ fuel ih =>
    rw [fragLoop, hm.size_eq]
    by_cases hgt : (nalu.bytes.length : Int) > pms
    · obtain ⟨hhead, hheadb, htail, htailb⟩ := cut_plain hm (n := pms) (by omega)
      have hcut : ((nalu.first.rptr : Int) + pms).toNat = nalu.first.rptr + pms := by omega
      obtain ⟨hcarries, hc, hlen⟩ := carries_fragment hhead h false false
        (nalu.bytes.take pms) hheadb (by rw [length_take]; omega) (Nat.zero_le _)
      rw [length_take, Nat.min_eq_left (by omega)] at hlen
      have ho' := ho.send hcarries hc (hfits _ (by omega)) false
      obtain ⟨ctx', rtpq', nalu', fs, hrun, hout, hpl, hle, hcont⟩ :=
        ih ho' htail (by rw [htailb, length_drop]; omega)
      refine ⟨ctx', rtpq', nalu', .fragment false false (h &&& 0x7F) (nalu.bytes.take pms) :: fs,
        ?_, ?_, hpl, hle, fun qs hq => ?_⟩
      · simp only [if_pos hgt, hcut]
        exact hrun
      · rw [append_assoc] at hout
        exact hout
      · have := (hcont qs hq).more (nalu.bytes.take pms)
        rwa [htailb, take_append_drop] at this
    · rw [if_neg hgt]
      refine ⟨ctx, rtpq, nalu, [], rfl, by rwa [append_nil], hm, by omega, fun qs hq => hq⟩

/-- A NALU larger than the limit leaves as fragments that carry it without its forbidden
bit. -/
theorem fragNaluAndSend_sent (mem : Memory) {maxsz : Nat} (h4 : 4 ≤ maxsz)
    (hmax : maxsz < 2 ^ 31) (hfits : ∀ n ≤ maxsz, fits n) {ctx : Rfc3984Context}
    {rtpq : MSQueue} {ps : List Payload} (ho : Outgoing fits ts ctx0 false ctx rtpq ps)
    {nalu : Mblk} (hm : IsNalu nalu) {h : UInt8} {t : List UInt8} (hb : nalu.bytes = h :: t)
    (hgt : maxsz < nalu.bytes.length) (marker : Bool) :
    ∃ ctx' rtpq' fs, fragNaluAndSend mem ctx rtpq ts nalu marker maxsz = .ok (ctx', rtpq') ∧
      Outgoing fits ts ctx0 marker ctx' rtpq' (ps ++ fs) ∧ Packed [(h &&& 0x7F) :: t] fs := by
  obtain ⟨pms, rfl⟩ : ∃ pms, maxsz = pms + 2 := ⟨maxsz - 2, by omega⟩
  have hpm := hm.plain
  -- the first turn of the loop, whose packet loses the NALU header
  obtain ⟨hhead, hheadb, htail, htailb⟩ := cut_plain hpm (n := pms) (by omega)
  have hcut : ((nalu.first.rptr : Int) + pms).toNat = nalu.first.rptr + pms := by omega
  have hpiece : (nalu.bytes.take pms).drop 1 = t.take (pms - 1) := by
    rw [hb, take_cons (by omega), drop_succ_cons, drop_zero]
  have hlt : t.length + 1 = nalu.bytes.length := by rw [hb, length_cons]
  have hheadd := hheadb ▸ hpiece
  obtain ⟨hcarries, hc, hlen⟩ := carries_fragment hhead h true false
    (t.take (pms - 1)) hheadd (by rw [length_take]; omega)
    (by rw [hheadb, length_take]; show 1 ≤ _; omega)
  have hpl : (t.take (pms - 1)).length = pms - 1 := by
    rw [length_take]
    omega
  have ho' := ho.send hcarries hc (hfits _ (by omega)) false
  obtain ⟨ctx', rtpq', nalu', fs, hrun, hout, hp', hle, hcont⟩ :=
    fragLoop_sent (by omega) (by omega) hfits h nalu.bytes.length ho' htail
      (by rw [htailb, length_drop]; omega)
  -- the last packet
  obtain ⟨hcl, hcc, hll⟩ := carries_fragment hp' h false true nalu'.bytes rfl
    (by omega) (Nat.zero_le _)
  have hfinal := hout.send hcl hcc (hfits _ (by omega)) marker
  have hsplit : t.take (pms - 1) ++ nalu.bytes.drop pms = t := by
    rw [hb, show pms = pms - 1 + 1 by omega, drop_succ_cons, Nat.add_sub_cancel, take_append_drop]
  refine ⟨_, _, .fragment true false (h &&& 0x7F) (t.take (pms - 1)) ::
    (fs ++ [.fragment false true (h &&& 0x7F) nalu'.bytes]), ?_,
    by simpa only [append_assoc, cons_append, nil_append] using hfinal, ?_⟩
  · rw [fragNaluAndSend, hm.peek mem hb]
    have hfuel : nalu.first.size.toNat = nalu.bytes.length := by rw [hpm.size_eq]; rfl
    have hgt' : nalu.first.size > ((pms + 2 : Nat) : Int) - 2 := by rw [hpm.size_eq]; omega
    have hpms : ((pms + 2 : Nat) : Int) - 2 = pms := by omega
    simp only [bind, Except.bind, fragLoop, if_pos hgt']
    simp only [hpms, hcut, hfuel, hrun]
    rfl
  · have := hcont _ (Continues.last nalu'.bytes)
    rw [htailb] at this
    have hpk := Packed.fragments (h &&& 0x7F) (t.take (pms - 1)) this .nil
    rwa [hsplit, append_nil] at hpk

end Fragmentation

end GrooveIp.H264
