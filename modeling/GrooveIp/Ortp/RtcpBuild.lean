import GrooveIp.Ortp.Sdes

/-!
# The RTCP packets that are built

The builders of BYE (`rtcp.c:39`), APP (`rtcp.c:623`) and feedback packets (`rtcp_fb.c:58–272`),
next to the one of SDES packets, and which arguments make packets whose length field tells their
size, so that a receiver of a compound packet finds all of them.
-/

namespace GrooveIp.Ortp

open Lib List RtcpSession Mblk List
open UInt8 (ofNat)

/-! ## BYE and APP -/

/-- `appendb(mp, ..)` whose result is ignored: a new block takes the place of what is behind. -/
def Mblk.appendb (mp : Mblk) (data : List UInt8) : Except Fault Mblk := do
  let (b, behind) ← mp.first.appendb data false
  return match behind with
    | none => { mp with first := b }
    | some new => { mp with first := b, cont := [new] }

variable (ssrc : UInt32)

/-- `rtcp_create_simple_bye_packet` (`rtcp.c:39`). -/
def rtcpCreateSimpleByePacket (reason : Option (List UInt8)) : Except Fault Mblk :=
  let strsize := match reason with
    | none => 0
    | some reason => min reason.length 255
  let strpadding := if 0 < strsize then 3 - strsize % 4 else 0
  let packetSize := if 0 < strsize then 8 + (1 + strsize + strpadding) else 8
  do
    let b ← (Block.alloc packetSize).append
      (rtcpCommonHeaderInit .bye 1 packetSize ++ htonl ssrc.toNat)
    match reason with
    | none => return { first := b }
    | some reason => do
      let mp ← Mblk.appendb { first := b } [ofNat strsize]
      let mp ← mp.appendb (reason.take strsize)
      mp.appendb (replicate strpadding 0)

/-- `strncpy` of a name into four cleared bytes. -/
def appName (name : List UInt8) : List UInt8 :=
  name.take 4 ++ replicate (4 - name.length) 0

/-- The packet of `rtp_session_send_rtcp_APP` (`rtcp.c:623`): the data stays where it is. -/
def makeRtcpApp (session : RtcpSession) (subtype : UInt8) (name data : List UInt8) :
    Except Fault Mblk := do
  let h ← (Block.alloc 12).append (rtcpCommonHeaderInit .app subtype.toNat (data.length + 12) ++
    htonl session.sndSsrc.toNat ++ appName name)
  return { first := h, cont := [Block.ofBytes data] }

/-! ## Feedback -/

/-- A feedback packet in a block of some size: the two sources and the control information. -/
def makeRtcpFb (type : RtcpType) (fmt size : Nat) (packetSender mediaSource : UInt32)
    (fci : List UInt8) : Except Fault Mblk := do
  let body := htonl packetSender.toNat ++ htonl mediaSource.toNat ++ fci
  let h ← (Block.alloc size).append (rtcpCommonHeaderInit type fmt (4 + body.length) ++ body)
  return { first := h }

/-- `make_rtcp_fb_pli` (`rtcp_fb.c:55`). -/
def makeRtcpFbPli (session : RtcpSession) : Except Fault Mblk :=
  makeRtcpFb .psfb 1 12 session.sndSsrc session.rcvSsrc []

/-- `make_rtcp_fb_fir` (`rtcp_fb.c:75`). -/
def makeRtcpFbFir (session : RtcpSession) : Except Fault (RtcpSession × Mblk) := do
  let fci := fun ssrc : UInt32 => htonl ssrc.toNat ++ [session.firSeqNr, 0, 0, 0]
  let h ← makeRtcpFb .psfb 4 28 0 session.rcvSsrc (fci session.sndSsrc ++ fci session.rcvSsrc)
  return ({ session with firSeqNr := session.firSeqNr + 1 }, h)

/-- `make_rtcp_fb_sli` (`rtcp_fb.c:112`). -/
def makeRtcpFbSli (session : RtcpSession) (first number : UInt16) (pictureId : UInt8) :
    Except Fault Mblk :=
  makeRtcpFb .psfb 2 16 session.sndSsrc session.rcvSsrc
    (htonl (first.toNat % 2 ^ 13 * 2 ^ 19 + number.toNat % 2 ^ 13 * 2 ^ 6 + pictureId.toNat % 2 ^
    6))

/-- `fci->bit_string[k] |= v`; the elements have sixteen bits, the lower byte first. -/
def orElement (k : Nat) (v : UInt8) (region : List UInt8) : Except Fault (List UInt8) :=
  if 2 * k + 2 ≤ region.length then .ok (region.set (2 * k) (region.getD (2 * k) 0 ||| v))
  else .error .outOfBounds

/-- The octets that a bit string takes. -/
def bitStringBytes (bitStringLen : UInt16) : Nat :=
  bitStringLen.toNat / 8 + if bitStringLen.toNat % 8 = 0 then 0 else 1

/-- What `make_rtcp_fb_rpsi` writes from `bit_string` on (`rtcp_fb.c:163–173`). -/
def rpsiBitString (bitString : Nat → UInt8) (bitStringLen : UInt16) : Except Fault (List UInt8) :=
  let bytes := bitStringBytes bitStringLen
  let copied := bitStringLen.toNat / 8
  (range (bitStringLen.toNat % 8)).foldlM
    (fun region i => orElement (bytes - 1) (bitString (bytes - 1) &&& (1 <<< ofNat (7 - i)))
    region) ((range copied).map bitString ++ replicate (2 + (bytes - 2) - copied) 0)

/-- `make_rtcp_fb_rpsi` (`rtcp_fb.c:138`). `b_wptr` stops behind the first element of the string. -/
def makeRtcpFbRpsi (session : RtcpSession) (bitString : Nat → UInt8) (bitStringLen : UInt16) :
    Except Fault Mblk := do
  let region ← rpsiBitString bitString bitStringLen
  let pb := if bitStringLen.toNat ≤ 16 then 16 - bitStringLen.toNat
    else (bitStringLen.toNat - 16) % 32
  makeRtcpFb .psfb 3 (16 + (bitStringBytes bitStringLen - 2)) session.sndSsrc session.rcvSsrc
    ([ofNat pb, ofNat (session.rcvPt % 128).toNat] ++ region.take 2)

/-- `make_rtcp_fb_generic_nack` (`rtcp_fb.c:183`). -/
def makeRtcpFbGenericNack (session : RtcpSession) (pid blp : UInt16) : Except Fault Mblk :=
  makeRtcpFb .rtpfb 1 16 session.sndSsrc 0 (htons pid.toNat ++ htons blp.toNat)

/-- The mantissa and the exponent of a bit rate (`rtcp_fb.c:218–222`). -/
def mxtbrParts (mxtbr mxtbrExp : Nat) : Nat × Nat :=
  if 2 ^ 17 ≤ mxtbr then mxtbrParts (mxtbr / 2) (mxtbrExp + 1) else (mxtbr, mxtbrExp)
termination_by mxtbr

/-- `make_rtcp_fb_tmmbr` (`rtcp_fb.c:208`), which keeps a copy. -/
def makeRtcpFbTmmbr (session : RtcpSession) (mxtbr : UInt64) (measuredOverhead : UInt16) :
    Except Fault (RtcpSession × Mblk) := do
  let parts := mxtbrParts mxtbr.toNat 0
  let h ← makeRtcpFb .rtpfb 3 20 session.sndSsrc 0 (htonl session.rcvSsrc.toNat ++
    htonl (parts.2 % 2 ^ 6 * 2 ^ 26 + parts.1 % 2 ^ 17 * 2 ^ 9 + measuredOverhead.toNat % 2 ^ 9))
  return ({ session with tmmbrSent := some (ofBytes h.bytes) }, h)

/-- `rtcp_RTPFB_tmmbr_get_fci` (`rtcpparse.c:551`): the offset from `b_rptr`, or NULL. -/
def rtpfbTmmbrGetFci (packet : List UInt8) : Option Nat :=
  if 20 > rtcpGetSize packet then none else some 12

/-- `make_rtcp_fb_tmmbn` (`rtcp_fb.c:247`). -/
def makeRtcpFbTmmbn (session : RtcpSession) (ssrc : UInt32) : Except Fault (Option Mblk) :=
  match session.tmmbrReceived with
  | none => .ok none
  | some received =>
    match rtpfbTmmbrGetFci received.bytes with
    | none => .error .nullDereference
    | some off => do
      let fci ← readBytes received.bytes off 8
      let h ← makeRtcpFb .rtpfb 4 20 session.sndSsrc 0 (htonl ssrc.toNat ++ fci.drop 4)
      return some h

/-! ## The length field -/

/-- A message of well-formed blocks that starts with a common header. -/
structure Made (m : Mblk) (type : RtcpType) (rc bytesLen : Nat) (body : List UInt8) : Prop where
  wf : ∀ b ∈ m.blocks, b.WF
  bytes : m.bytes = rtcpCommonHeaderInit type rc bytesLen ++ body

/-- The total size of a message is what its length field tells. -/
def Mblk.WellFramed (m : Mblk) : Prop :=
  m.msgdsize % 4 = 0 ∧ m.msgdsize = 4 * (rtcpLength m.bytes + 1)

section Made

variable {m : Mblk} {type : RtcpType} {rc bytesLen : Nat} {body : List UInt8}

theorem Mblk.WellFramed.bytes (h : m.WellFramed) (hwf : ∀ b ∈ m.blocks, b.WF) :
    Ortp.WellFramed m.bytes := by
  obtain ⟨hmod, hsize⟩ := h
  rw [msgdsize_eq hwf] at hmod hsize
  exact ⟨by omega, by omega⟩

theorem Made.wellFramed_iff (h : Made m type rc bytesLen body) :
    m.WellFramed ↔ (4 + body.length) % 4 = 0 ∧
      4 + body.length = 4 * ((bytesLen / 4 - 1) % 2 ^ 16 + 1) := by
  unfold Mblk.WellFramed
  rw [msgdsize_eq h.wf, h.bytes, rtcpLength_init, length_append, length_rtcpCommonHeaderInit]
  omega

theorem Made.wellFramed_iff_of_size (h : Made m type rc (4 + body.length) body) :
    m.WellFramed ↔ body.length % 4 = 0 ∧ body.length < 2 ^ 18 := by
  rw [h.wellFramed_iff]
  omega

theorem append_made {size : Nat} (type : RtcpType) (rc bytesLen : Nat) {body : List UInt8}
    (room : 4 + body.length ≤ size) :
    ∃ b, (Block.alloc size).append (rtcpCommonHeaderInit type rc bytesLen ++ body) = .ok b ∧
      Made { first := b } type rc bytesLen body ∧ b.wptr = 4 + body.length ∧
      b.datap.length = size := by
  have hlength : (rtcpCommonHeaderInit type rc bytesLen ++ body).length = 4 + body.length := by
    rw [length_append, length_rtcpCommonHeaderInit]
  obtain ⟨b, hb, happ⟩ := Block.append_alloc (hlength ▸ room)
  refine ⟨b, hb, ⟨?_, ?_⟩, ?_, ?_⟩
  · intro c hc
    rw [mem_singleton.mp hc]
    exact happ.wf
  · rw [bytes_eq, happ.bytes]
    simp
  · rw [happ.wptr, hlength]
    exact Nat.zero_add _
  · rw [happ.capacity, Block.capacity_alloc]

/-- `make_rtcp_fb_*` of control information that the block has room for. -/
theorem makeRtcpFb_ok (type : RtcpType) (fmt : Nat) {size : Nat} (packetSender mediaSource : UInt32)
    {fci : List UInt8} (room : 12 + fci.length ≤ size) :
    ∃ m, makeRtcpFb type fmt size packetSender mediaSource fci = .ok m ∧
      Made m type fmt (12 + fci.length)
        (htonl packetSender.toNat ++ htonl mediaSource.toNat ++ fci) := by
  have hlength : (htonl packetSender.toNat ++ htonl mediaSource.toNat ++ fci).length =
      8 + fci.length := by
    rw [length_append, length_append, length_htonl, length_htonl]
  obtain ⟨b, hb, hmade, -⟩ := append_made type fmt
    (4 + (htonl packetSender.toNat ++ htonl mediaSource.toNat ++ fci).length)
    (show 4 + (htonl packetSender.toNat ++ htonl mediaSource.toNat ++ fci).length ≤ size by omega)
  refine ⟨{ first := b }, ?_, ?_⟩
  · rw [makeRtcpFb, hb]
    rfl
  · rwa [hlength, ← Nat.add_assoc] at hmade

theorem makeRtcpFb_wellFramed (type : RtcpType) (fmt : Nat) {size : Nat}
    (packetSender mediaSource : UInt32) {fci : List UInt8} (room : 12 + fci.length ≤ size)
    (hwords : fci.length % 4 = 0) (hshort : fci.length ≤ 1024) :
    ∃ m, makeRtcpFb type fmt size packetSender mediaSource fci = .ok m ∧
      (∀ b ∈ m.blocks, b.WF) ∧ m.WellFramed := by
  obtain ⟨m, hm, hmade⟩ := makeRtcpFb_ok type fmt packetSender mediaSource room
  refine ⟨m, hm, hmade.wf, hmade.wellFramed_iff.mpr ?_⟩
  rw [length_append, length_append, length_htonl, length_htonl]
  omega

end Made

/-! ## BYE -/

theorem Made.appendb {mp : Mblk} {type : RtcpType} {rc bytesLen : Nat} {body data : List UInt8}
    (h : Made mp type rc bytesLen body) (hlast : mp.cont = [] ∨ data = [])
    (room : mp.first.wptr + data.length ≤ mp.first.datap.length) :
    ∃ mp', mp.appendb data = .ok mp' ∧ Made mp' type rc bytesLen (body ++ data) ∧
      mp'.cont = mp.cont ∧ mp'.first.wptr = mp.first.wptr + data.length ∧
      mp'.first.datap.length = mp.first.datap.length := by
  obtain ⟨b, hb, happ⟩ := (h.wf mp.first mem_cons_self).append room
  refine ⟨{ mp with first := b }, ?_, ⟨?_, ?_⟩, rfl, happ.wptr, happ.capacity⟩
  · unfold Mblk.appendb Block.appendb
    simp only [Bool.false_eq_true, if_false, Nat.add_zero, replicate_zero, append_nil,
      if_neg (Nat.not_lt.mpr room), hb, bind, Except.bind, pure, Except.pure]
  · intro c hc
    rcases mem_cons.mp hc with rfl | hc
    · exact happ.wf
    · exact h.wf c (mem_cons_of_mem _ hc)
  · have hbytes := h.bytes
    rw [bytes_eq] at hbytes
    rw [bytes_eq, happ.bytes, ← append_assoc, ← hbytes]
    rcases hlast with hcont | rfl
    · simp [hcont]
    · simp

theorem bye_none :
    ∃ m, rtcpCreateSimpleByePacket ssrc none = .ok m ∧ Made m .bye 1 8 (htonl ssrc.toNat) := by
  obtain ⟨b, hb, hmade, -⟩ := append_made .bye 1 8 (show 4 + (htonl ssrc.toNat).length ≤ 8 by simp)
  refine ⟨{ first := b }, ?_, hmade⟩
  simp [rtcpCreateSimpleByePacket, hb, bind, Except.bind, pure, Except.pure]

theorem bye_empty : ∃ m, rtcpCreateSimpleByePacket ssrc (some []) = .ok m ∧
      Made m .bye 1 8 (htonl ssrc.toNat ++ [0]) := by
  obtain ⟨b, hb, hmade, hwptr, hcapacity⟩ :=
    append_made .bye 1 8 (show 4 + (htonl ssrc.toNat).length ≤ 8 by simp)
  obtain ⟨new, hnew, happ⟩ := Block.append_alloc (show ([0] : List UInt8).length ≤ 8 by simp)
  have hspill : Mblk.appendb { first := b } [0] = .ok { first := b, cont := [new] } := by
    unfold Mblk.appendb Block.appendb
    simp [hwptr, hcapacity, hnew, bind, Except.bind, pure, Except.pure]
  have hmade' : Made { first := b, cont := [new] } .bye 1 8 (htonl ssrc.toNat ++ [0]) := by
    refine ⟨?_, ?_⟩
    · intro c hc
      rcases mem_cons.mp hc with rfl | hc
      · exact hmade.wf _ mem_cons_self
      · rw [mem_singleton.mp hc]
        exact happ.wf
    · have hbytes := hmade.bytes
      rw [bytes_eq, flatMap_nil, append_nil] at hbytes
      rw [bytes_eq, hbytes, flatMap_singleton, happ.bytes]
      simp
  have room : ∀ {mp : Mblk}, mp.first.wptr = 8 → mp.first.datap.length = 8 →
      mp.first.wptr + ([] : List UInt8).length ≤ mp.first.datap.length := by
    intro mp hw hc
    rw [hw, hc]
    exact Nat.le_refl _
  obtain ⟨mp₁, h₁, hmade₁, -, hwptr₁, hcapacity₁⟩ :=
    hmade'.appendb (.inr rfl) (room hwptr hcapacity)
  obtain ⟨mp₂, h₂, hmade₂, -⟩ := hmade₁.appendb (.inr rfl)
    (room (hwptr₁.trans hwptr) (hcapacity₁.trans hcapacity))
  refine ⟨mp₂, ?_, by simpa using hmade₂⟩
  simp only [rtcpCreateSimpleByePacket, length_nil, Nat.zero_min, Nat.lt_irrefl, if_false, hb,
    bind, Except.bind, take_nil, replicate_zero]
  rw [show ofNat 0 = 0 from rfl, hspill]
  simp only [h₁]
  exact h₂

theorem bye_some {reason : List UInt8} (hreason : reason ≠ []) :
    ∃ m, rtcpCreateSimpleByePacket ssrc (some reason) = .ok m ∧ (∀ b ∈ m.blocks, b.WF) ∧
      m.WellFramed := by
  have hpos := length_pos_iff.mpr hreason
  have htext : (reason.take (min reason.length 255)).length = min reason.length 255 :=
    length_take_of_le (by omega)
  have hsize : 0 < min reason.length 255 := by omega
  have hle : min reason.length 255 ≤ 255 := by omega
  generalize hstr : min reason.length 255 = strsize at htext hsize hle
  obtain ⟨b, hb, hmade, hwptr, hcapacity⟩ := append_made .bye 1
    (8 + (1 + strsize + (3 - strsize % 4)))
    (show 4 + (htonl ssrc.toNat).length ≤ 8 + (1 + strsize + (3 - strsize % 4)) by
      rw [length_htonl]
      omega)
  rw [length_htonl] at hwptr
  have room₁ : b.wptr + [ofNat strsize].length ≤ b.datap.length := by
    rw [hwptr, hcapacity, length_singleton]
    omega
  obtain ⟨mp₁, h₁, hmade₁, hcont₁, hwptr₁, hcapacity₁⟩ := hmade.appendb (.inl rfl) room₁
  rw [length_singleton, hwptr] at hwptr₁
  have room₂ : mp₁.first.wptr + (reason.take strsize).length ≤ mp₁.first.datap.length := by
    rw [hwptr₁, hcapacity₁, hcapacity, htext]
    omega
  obtain ⟨mp₂, h₂, hmade₂, hcont₂, hwptr₂, hcapacity₂⟩ := hmade₁.appendb (.inl hcont₁) room₂
  have room₃ : mp₂.first.wptr + (replicate (3 - strsize % 4) (0 : UInt8)).length ≤
      mp₂.first.datap.length := by
    rw [hwptr₂, hcapacity₂, hcapacity₁, hcapacity, length_replicate]
    omega
  obtain ⟨mp₃, h₃, hmade₃, -⟩ := hmade₂.appendb (.inl (hcont₂.trans hcont₁)) room₃
  refine ⟨mp₃, ?_, hmade₃.wf, hmade₃.wellFramed_iff.mpr ?_⟩
  · simp only [rtcpCreateSimpleByePacket, hstr, if_pos hsize, hb, bind, Except.bind, h₁, h₂]
    exact h₃
  · simp only [length_append, length_htonl, length_singleton, htext, length_replicate]
    omega

/-! ## APP and the bit string -/

theorem app_ok (session : RtcpSession) (subtype : UInt8) (name data : List UInt8) :
    ∃ m, makeRtcpApp session subtype name data = .ok m ∧ (∀ b ∈ m.blocks, b.WF) ∧
      (m.WellFramed ↔ data.length % 4 = 0 ∧ data.length ≤ 2 ^ 18 - 12) := by
  have hname : (appName name).length = 4 := by
    simp only [appName, length_append, length_take, length_replicate]
    omega
  have room : 4 + (htonl session.sndSsrc.toNat ++ appName name).length ≤ 12 := by
    simp [hname]
  obtain ⟨b, hb, hmade, -⟩ := append_made .app subtype.toNat (data.length + 12) room
  have hbytes := hmade.bytes
  rw [bytes_eq, flatMap_nil, append_nil] at hbytes
  have happ : Made { first := b, cont := [Block.ofBytes data] } .app subtype.toNat
      (data.length + 12) (htonl session.sndSsrc.toNat ++ appName name ++ data) := by
    refine ⟨?_, ?_⟩
    · intro c hc
      rcases mem_cons.mp hc with rfl | hc
      · exact hmade.wf _ mem_cons_self
      · rw [mem_singleton.mp hc]
        exact Block.wf_ofBytes data
    · rw [bytes_eq, hbytes, flatMap_singleton, Block.bytes_ofBytes, append_assoc]
  refine ⟨_, ?_, happ.wf, ?_⟩
  · rw [makeRtcpApp, append_assoc, hb]
    rfl
  · rw [happ.wellFramed_iff, length_append, length_append, length_htonl, hname]
    omega

theorem orElement_foldlM (k : Nat) (v : Nat → UInt8) (l : List Nat) (region : List UInt8) :
    (2 * k + 2 ≤ region.length → ∃ region', region'.length = region.length ∧
      l.foldlM (fun region i => orElement k (v i) region) region = .ok region') ∧
    (region.length < 2 * k + 2 → l ≠ [] →
      l.foldlM (fun region i => orElement k (v i) region) region = .error .outOfBounds) := by
  constructor
  · intro room
    induction l generalizing region with
    | nil => exact ⟨region, rfl, rfl⟩
    | cons i l ih =>
      obtain ⟨region', hlength, hrest⟩ :=
        ih (region.set (2 * k) (region.getD (2 * k) 0 ||| v i)) (by rwa [length_set])
      refine ⟨region', hlength.trans (length_set ..), ?_⟩
      rw [foldlM_cons, orElement, if_pos room]
      exact hrest
  · intro hshort hne
    obtain ⟨i, l, rfl⟩ := exists_cons_of_ne_nil hne
    rw [foldlM_cons, orElement, if_neg (by omega)]
    rfl

theorem rpsiBitString_ok (bitString : Nat → UInt8) {bitStringLen : UInt16}
    (h : bitStringLen.toNat % 8 = 0 ∨ bitStringLen.toNat < 8) :
    ∃ region, rpsiBitString bitString bitStringLen = .ok region ∧ 2 ≤ region.length := by
  have hlength : ((range (bitStringLen.toNat / 8)).map bitString ++ replicate
      (2 + (bitStringBytes bitStringLen - 2) - bitStringLen.toNat / 8) 0).length =
      2 + (bitStringBytes bitStringLen - 2) := by
    rw [length_append, length_map, length_range, length_replicate]
    unfold bitStringBytes
    omega
  rcases h with hwhole | hshort
  · refine ⟨_, ?_, hlength ▸ Nat.le_add_right 2 _⟩
    rw [rpsiBitString, hwhole]
    rfl
  · have room : 2 * (bitStringBytes bitStringLen - 1) + 2 ≤
        2 + (bitStringBytes bitStringLen - 2) := by
      unfold bitStringBytes
      split <;> omega
    obtain ⟨region, hregion, hfold⟩ := (orElement_foldlM (bitStringBytes bitStringLen - 1)
      (fun i => bitString (bitStringBytes bitStringLen - 1) &&& (1 <<< ofNat (7 - i)))
      (range (bitStringLen.toNat % 8)) _).1 (hlength ▸ room)
    exact ⟨region, hfold, by rw [hregion, hlength]; omega⟩

theorem rpsiBitString_overflow (bitString : Nat → UInt8) {bitStringLen : UInt16}
    (h : ¬(bitStringLen.toNat % 8 = 0 ∨ bitStringLen.toNat < 8)) :
    rpsiBitString bitString bitStringLen = .error .outOfBounds := by
  rw [not_or] at h
  have hlength : ((range (bitStringLen.toNat / 8)).map bitString ++ replicate
      (2 + (bitStringBytes bitStringLen - 2) - bitStringLen.toNat / 8) 0).length <
      2 * (bitStringBytes bitStringLen - 1) + 2 := by
    rw [length_append, length_map, length_range, length_replicate]
    unfold bitStringBytes
    rw [if_neg h.1]
    omega
  refine (orElement_foldlM (bitStringBytes bitStringLen - 1)
    (fun i => bitString (bitStringBytes bitStringLen - 1) &&& (1 <<< ofNat (7 - i)))
    (range (bitStringLen.toNat % 8)) _).2 hlength ?_
  exact ne_nil_of_length_pos (by rw [length_range]; omega)

/-! ## Any packet -/

/-- The packets that can be asked for. -/
inductive RtcpCall where
  | bye (reason : Option (List UInt8))
  | sdes (full : Bool)
  | app (subtype : UInt8) (name data : List UInt8)
  | pli
  | fir
  | sli (first number : UInt16) (pictureId : UInt8)
  | rpsi (bitString : Nat → UInt8) (bitStringLen : UInt16)
  | genericNack (pid blp : UInt16)
  | tmmbr (mxtbr : UInt64) (measuredOverhead : UInt16)
  | tmmbn (ssrc : UInt32)

/-- A packet that leaves the session as it is. -/
def RtcpSession.made (session : RtcpSession) (m : Except Fault Mblk) :
    Except Fault (RtcpSession × Option Mblk) := do
  return (session, some (← m))

/-- The packet that is built, and the session afterwards. -/
def RtcpSession.build (session : RtcpSession) : RtcpCall → Except Fault (RtcpSession × Option Mblk)
  | .bye reason => session.made (rtcpCreateSimpleByePacket session.sndSsrc reason)
  | .sdes full => do
    let (session, m) ← createRtcpSdesPacket session full
    return (session, some m)
  | .app subtype name data => session.made (makeRtcpApp session subtype name data)
  | .pli => session.made (makeRtcpFbPli session)
  | .fir => do
    let (session, m) ← makeRtcpFbFir session
    return (session, some m)
  | .sli first number pictureId => session.made (makeRtcpFbSli session first number pictureId)
  | .rpsi bitString bitStringLen => session.made (makeRtcpFbRpsi session bitString bitStringLen)
  | .genericNack pid blp => session.made (makeRtcpFbGenericNack session pid blp)
  | .tmmbr mxtbr measuredOverhead => do
    let (session, m) ← makeRtcpFbTmmbr session mxtbr measuredOverhead
    return (session, some m)
  | .tmmbn ssrc => do return (session, ← makeRtcpFbTmmbn session ssrc)

/-- The packets of some calls, one after the other. -/
def RtcpSession.buildAll (session : RtcpSession) : List RtcpCall →
    Except Fault (RtcpSession × List Mblk)
  | [] => .ok (session, [])
  | call :: calls => do
    let (session, m) ← session.build call
    let (session, ms) ← session.buildAll calls
    return (session, m.toList ++ ms)

/-- The arguments that make a well framed packet, in a session with a description: no empty reason,
no contributing sources and no broken word in the blocks that a full description fills up, data in
whole words, a bit string in whole octets or of less than one, and a received TMMBR that has its
control information. -/
def RtcpCall.Framable (session : RtcpSession) (cname : List UInt8) (texts : SdesTexts) :
    RtcpCall → Prop
  | .bye reason => reason ≠ some []
  | .sdes full => full = true → session.contributingSources = [] ∧
      bytesLeft (sdesItems (some cname) texts) % 4 = 0
  | .app _ _ data => data.length % 4 = 0 ∧ data.length ≤ 2 ^ 18 - 12
  | .rpsi _ bitStringLen => bitStringLen.toNat % 8 = 0 ∨ bitStringLen.toNat < 8
  | .tmmbn _ => ∀ received, session.tmmbrReceived = some received →
      20 ≤ rtcpGetSize received.bytes ∧ 20 ≤ received.bytes.length
  | _ => True

/-! ## What is built -/

/-- What no call changes. -/
structure KeptBy (session session' : RtcpSession) (cname : List UInt8) (texts : SdesTexts) :
    Prop where
  described : Described session' cname texts
  contributingSources : session'.contributingSources = session.contributingSources
  tmmbrReceived : session'.tmmbrReceived = session.tmmbrReceived

/-- A call that gives a well framed packet, or none. -/
def RtcpSession.BuildsWell (session : RtcpSession) (call : RtcpCall) (cname : List UInt8)
    (texts : SdesTexts) : Prop :=
  ∃ session' m, session.build call = .ok (session', m) ∧ KeptBy session session' cname texts ∧
    ∀ p, m = some p → (∀ b ∈ p.blocks, b.WF) ∧ p.WellFramed

section Calls

variable {session : RtcpSession} {cname : List UInt8} {texts : SdesTexts}

variable {call : RtcpCall}

theorem buildsWell_made (h : Described session cname texts)
    {build : Except Fault Mblk} (hcall : session.build call = session.made build)
    (hbuild : ∃ m, build = .ok m ∧ (∀ b ∈ m.blocks, b.WF) ∧ m.WellFramed) :
    session.BuildsWell call cname texts := by
  obtain ⟨m, hm, hframed⟩ := hbuild
  refine ⟨session, some m, ?_, ⟨h, rfl, rfl⟩, ?_⟩
  · rw [hcall, hm]
    rfl
  · intro p hp
    cases hp
    exact hframed

theorem SdesPacket.wellFramed_iff {ssrc : UInt32}
    {items : List (SdesType × Option (List UInt8))} {m : Mblk} (h : SdesPacket ssrc items m)
    (hitems : items.length ≤ 7) : m.WellFramed ↔ bytesLeft items % 4 = 0 := by
  obtain ⟨chunk, hchunk, hbytes⟩ := h.bytes
  have hmade : Made m .sdes 1 (4 + chunk.bytes.length) chunk.bytes := ⟨h.wf, hbytes⟩
  have hlength := hchunk.length_le
  rw [hmade.wellFramed_iff_of_size, hchunk.size]
  exact and_iff_left (by omega)

theorem bytesLeft_minimal (cname : List UInt8) : bytesLeft [(.cname, some cname)] = 0 := by
  change (fillBlock (fillBlock (0, 4) 2) (min cname.length 255)).1 = 0
  rw [show fillBlock (0, 4) 2 = (0, 6) from rfl, fillBlock, if_neg (by dsimp only; omega)]

theorem build_sdes (h : Described session cname texts) {full : Bool}
    (hsources : full = true → session.contributingSources = []) :
    ∃ session' m, session.build (.sdes full) = .ok (session', some m) ∧
      KeptBy session session' cname texts ∧ (∀ b ∈ m.blocks, b.WF) ∧
      (m.WellFramed ↔ (full = true → bytesLeft (sdesItems (some cname) texts) % 4 = 0)) := by
  obtain ⟨ssrc, sdes, hfull, hfullChunk⟩ := h.full
  obtain ⟨ssrc', sdes', hminimal, hminimalChunk⟩ := h.minimal
  cases full with
  | true =>
    have hsdes : (if true then session.fullSdes else session.minimalSdes) = some sdes := hfull
    obtain ⟨m, hm, hpacket⟩ := createRtcpSdesPacket_ok hsdes hfullChunk hsources
    refine ⟨session.withSdes true (sdesChunkSetSsrc sdes session.sndSsrc), m, ?_,
      ⟨⟨⟨_, _, rfl, hfullChunk.setSsrc session.sndSsrc⟩, h.minimal⟩, rfl, rfl⟩, hpacket.wf, ?_⟩
    · rw [build, hm]
      rfl
    · rw [hpacket.wellFramed_iff (Nat.le_refl 7)]
      exact ⟨fun hwords _ => hwords, fun hwords => hwords rfl⟩
  | false =>
    have hsdes : (if false then session.fullSdes else session.minimalSdes) = some sdes' := hminimal
    obtain ⟨m, hm, hpacket⟩ := createRtcpSdesPacket_ok hsdes hminimalChunk hsources
    refine ⟨session.withSdes false (sdesChunkSetSsrc sdes' session.sndSsrc), m, ?_,
      ⟨⟨h.full, ⟨_, _, rfl, hminimalChunk.setSsrc session.sndSsrc⟩⟩, rfl, rfl⟩, hpacket.wf, ?_⟩
    · rw [build, hm]
      rfl
    · rw [hpacket.wellFramed_iff (by simp), bytesLeft_minimal]
      simp

/-- The answer to a received TMMBR that has its control information. -/
theorem makeRtcpFbTmmbn_ok {received : Mblk} (hreceived : session.tmmbrReceived = some received)
    (hsize : 20 ≤ rtcpGetSize received.bytes) (hlength : 20 ≤ received.bytes.length)
    (ssrc : UInt32) :
    ∃ m, makeRtcpFbTmmbn session ssrc = .ok (some m) ∧ (∀ b ∈ m.blocks, b.WF) ∧ m.WellFramed := by
  have hread : readBytes received.bytes 12 8 = .ok ((received.bytes.drop 12).take 8) :=
    readBytes_of_le (by omega)
  have hfci : (htonl ssrc.toNat ++ ((received.bytes.drop 12).take 8).drop 4).length = 8 := by
    simp only [length_append, length_htonl, length_drop, length_take]
    omega
  obtain ⟨m, hm, hframed⟩ := makeRtcpFb_wellFramed .rtpfb 4 session.sndSsrc 0
    (show 12 + (htonl ssrc.toNat ++ ((received.bytes.drop 12).take 8).drop 4).length ≤ 20 by
      exact Nat.le_of_eq (by rw [hfci])) (by rw [hfci]) (by
      rw [hfci]
      decide)
  refine ⟨m, ?_, hframed⟩
  simp only [makeRtcpFbTmmbn, hreceived, rtpfbTmmbrGetFci, if_neg (Nat.not_lt.mpr hsize), hread, hm,
    bind, Except.bind]
  rfl

/-- Without it the packet cannot be read. -/
theorem makeRtcpFbTmmbn_fault {received : Mblk} (hreceived : session.tmmbrReceived = some received)
    (hshort : ¬(20 ≤ rtcpGetSize received.bytes ∧ 20 ≤ received.bytes.length)) (ssrc : UInt32) :
    ∃ fault, makeRtcpFbTmmbn session ssrc = .error fault := by
  unfold makeRtcpFbTmmbn rtpfbTmmbrGetFci
  rw [hreceived]
  by_cases hsize : 20 > rtcpGetSize received.bytes
  · exact ⟨.nullDereference, by simp only [if_pos hsize]⟩
  · have hread : readBytes received.bytes 12 8 = .error .outOfBounds :=
      readBytes_of_lt (by decide) (by omega)
    refine ⟨.outOfBounds, ?_⟩
    simp only [if_neg hsize, hread, bind, Except.bind]

/-- The arguments of a call decide whether its packet is well framed. -/
theorem buildsWell_of_framable (h : Described session cname texts)
    (hcall : call.Framable session cname texts) : session.BuildsWell call cname texts := by
  cases call with
  | bye reason =>
    refine buildsWell_made h rfl ?_
    cases reason with
    | none =>
      obtain ⟨m, hm, hmade⟩ := bye_none session.sndSsrc
      exact ⟨m, hm, hmade.wf, hmade.wellFramed_iff.mpr (by rw [length_htonl]; decide)⟩
    | some reason => exact bye_some session.sndSsrc fun hnil => hcall (congrArg some hnil)
  | sdes full =>
    obtain ⟨session', m, hm, hkept, hwf, hframed⟩ := build_sdes h fun hfull => (hcall hfull).1
    refine ⟨session', some m, hm, hkept, fun p hp => ?_⟩
    cases hp
    exact ⟨hwf, hframed.mpr fun hfull => (hcall hfull).2⟩
  | app subtype name data =>
    obtain ⟨m, hm, hwf, hframed⟩ := app_ok session subtype name data
    exact buildsWell_made h rfl ⟨m, hm, hwf, hframed.mpr hcall⟩
  | pli =>
    exact buildsWell_made h rfl (makeRtcpFb_wellFramed _ _ _ _ (by decide) (by decide) (by decide))
  | fir =>
    obtain ⟨m, hm, hframed⟩ := makeRtcpFb_wellFramed .psfb 4 0 session.rcvSsrc
      (show 12 + (htonl session.sndSsrc.toNat ++ [session.firSeqNr, 0, 0, 0] ++
        (htonl session.rcvSsrc.toNat ++ [session.firSeqNr, 0, 0, 0])).length ≤ 28 by simp)
      (by simp) (by simp)
    refine ⟨{ session with firSeqNr := session.firSeqNr + 1 }, some m, ?_,
      ⟨⟨h.full, h.minimal⟩, rfl, rfl⟩, fun p hp => ?_⟩
    · simp only [build, makeRtcpFbFir, hm, bind, Except.bind, pure, Except.pure]
    · cases hp
      exact hframed
  | sli first number pictureId =>
    exact buildsWell_made h rfl (makeRtcpFb_wellFramed _ _ _ _ (by simp) (by simp) (by simp))
  | rpsi bitString bitStringLen =>
    obtain ⟨region, hregion, hlength⟩ := rpsiBitString_ok bitString hcall
    have hfci : ∀ pb pt : UInt8, ([pb, pt] ++ region.take 2).length = 4 := by
      intro pb pt
      rw [length_append, length_take, Nat.min_eq_left hlength]
      rfl
    obtain ⟨m, hm, hframed⟩ := makeRtcpFb_wellFramed .psfb 3 session.sndSsrc session.rcvSsrc
      (show 12 + ([ofNat (if bitStringLen.toNat ≤ 16 then 16 - bitStringLen.toNat
          else (bitStringLen.toNat - 16) % 32), ofNat (session.rcvPt % 128).toNat] ++
        region.take 2).length ≤ 16 + (bitStringBytes bitStringLen - 2) by
          rw [hfci]
          omega) (by rw [hfci]) (by
      rw [hfci]
      decide)
    refine buildsWell_made h rfl ⟨m, ?_, hframed⟩
    simp only [makeRtcpFbRpsi, hregion, bind, Except.bind]
    exact hm
  | genericNack pid blp =>
    exact buildsWell_made h rfl (makeRtcpFb_wellFramed _ _ _ _ (by simp) (by simp) (by simp))
  | tmmbr mxtbr measuredOverhead =>
    obtain ⟨m, hm, hframed⟩ := makeRtcpFb_wellFramed .rtpfb 3 session.sndSsrc 0
      (show 12 + (htonl session.rcvSsrc.toNat ++ htonl ((mxtbrParts mxtbr.toNat 0).2 % 2 ^ 6 *
        2 ^ 26 +
        (mxtbrParts mxtbr.toNat 0).1 % 2 ^ 17 * 2 ^ 9 + measuredOverhead.toNat % 2 ^ 9)).length ≤
          20 by simp) (by simp) (by simp)
    refine ⟨{ session with tmmbrSent := some (ofBytes m.bytes) }, some m, ?_,
      ⟨⟨h.full, h.minimal⟩, rfl, rfl⟩, fun p hp => ?_⟩
    · simp only [build, makeRtcpFbTmmbr, hm, bind, Except.bind, pure, Except.pure]
    · cases hp
      exact hframed
  | tmmbn ssrc =>
    cases hreceived : session.tmmbrReceived with
    | none =>
      refine ⟨session, none, ?_, ⟨h, rfl, rfl⟩, fun p hp => nomatch hp⟩
      simp [build, makeRtcpFbTmmbn, hreceived, bind, Except.bind, pure, Except.pure]
    | some received =>
      obtain ⟨hsize, hlength⟩ := hcall received hreceived
      obtain ⟨m, hm, hframed⟩ := makeRtcpFbTmmbn_ok hreceived hsize hlength ssrc
      refine ⟨session, some m, ?_, ⟨h, rfl, rfl⟩, fun p hp => ?_⟩
      · simp only [build, hm, bind, Except.bind, pure, Except.pure]
      · cases hp
        exact hframed

variable {session' : RtcpSession}

theorem framable_of_wellFramed (h : Described session cname texts)
    {m : Option Mblk} (hbuild : session.build call = .ok (session', m))
    (hframed : ∀ p, m = some p → p.WellFramed) : call.Framable session cname texts := by
  cases call with
  | bye reason =>
    rintro rfl
    obtain ⟨m', hm, hmade⟩ := bye_empty session.sndSsrc
    simp only [build, made, hm, bind, Except.bind, pure, Except.pure] at hbuild
    cases hbuild
    have hnot := hmade.wellFramed_iff.mp (hframed m' rfl)
    rw [length_append, length_htonl] at hnot
    exact absurd hnot.1 (by decide)
  | sdes full =>
    rintro rfl
    by_cases hsources : session.contributingSources = []
    · obtain ⟨session'', m', hm, -, -, hiff⟩ := build_sdes h fun _ : true = true => hsources
      rw [hm] at hbuild
      cases hbuild
      exact ⟨hsources, hiff.mp (hframed m' rfl) rfl⟩
    · simp only [build, createRtcpSdesPacket_sources hsources, bind, Except.bind] at hbuild
      cases hbuild
  | app subtype name data =>
    obtain ⟨m', hm, -, hiff⟩ := app_ok session subtype name data
    simp only [build, made, hm, bind, Except.bind, pure, Except.pure] at hbuild
    cases hbuild
    exact hiff.mp (hframed m' rfl)
  | rpsi bitString bitStringLen =>
    refine Classical.byContradiction fun hnot => ?_
    have hover := rpsiBitString_overflow bitString hnot
    simp only [build, made, makeRtcpFbRpsi, hover, bind, Except.bind] at hbuild
    cases hbuild
  | tmmbn ssrc =>
    intro received hreceived
    refine Classical.byContradiction fun hnot => ?_
    obtain ⟨fault, hfault⟩ := makeRtcpFbTmmbn_fault hreceived hnot ssrc
    simp only [build, hfault, bind, Except.bind] at hbuild
    cases hbuild
  | pli => trivial
  | fir => trivial
  | sli first number pictureId => trivial
  | genericNack pid blp => trivial
  | tmmbr mxtbr measuredOverhead => trivial

theorem KeptBy.framable_iff (h : KeptBy session session' cname texts) (call : RtcpCall) :
    call.Framable session' cname texts ↔ call.Framable session cname texts := by
  cases call with
  | sdes full => rw [RtcpCall.Framable, RtcpCall.Framable, h.contributingSources]
  | tmmbn ssrc => rw [RtcpCall.Framable, RtcpCall.Framable, h.tmmbrReceived]
  | bye reason => exact Iff.rfl
  | app subtype name data => exact Iff.rfl
  | rpsi bitString bitStringLen => exact Iff.rfl
  | pli => exact Iff.rfl
  | fir => exact Iff.rfl
  | sli first number pictureId => exact Iff.rfl
  | genericNack pid blp => exact Iff.rfl
  | tmmbr mxtbr measuredOverhead => exact Iff.rfl

/-! ## Compound packets -/

/-- `concatb` of some packets. -/
def compound (first : Mblk) (rest : List Mblk) : Mblk := rest.foldl concatb first

theorem bytes_compound (first : Mblk) (rest : List Mblk) :
    (compound first rest).bytes = first.bytes ++ (rest.map bytes).flatten := by
  induction rest generalizing first with
  | nil => simp [compound]
  | cons second rest ih =>
    have hrest := ih (first.concatb second)
    rw [bytes_concatb] at hrest
    rw [map_cons, flatten_cons, ← append_assoc]
    exact hrest

/-- Every packet that the calls give is well framed, and a receiver of the compound packet finds
exactly them, in order. -/
def WellBuilt (session : RtcpSession) (calls : List RtcpCall) : Prop :=
  ∃ session' ms, session.buildAll calls = .ok (session', ms) ∧ (∀ m ∈ ms, m.WellFramed) ∧
    ∀ first rest, ms = first :: rest → rtcpPackets (compound first rest).bytes = ms.map bytes

theorem rtcpPackets_compound {first : Mblk} {rest : List Mblk}
    (hall : ∀ m ∈ first :: rest, (∀ b ∈ m.blocks, b.WF) ∧ m.WellFramed) :
    rtcpPackets (compound first rest).bytes = (first :: rest).map bytes := by
  have hfirst := hall first mem_cons_self
  rw [bytes_compound, map_cons]
  refine rtcpPackets_flatten (hfirst.2.bytes hfirst.1) fun p hp => ?_
  obtain ⟨m, hm, rfl⟩ := mem_map.mp hp
  have hm := hall m (mem_cons_of_mem _ hm)
  exact hm.2.bytes hm.1

theorem buildAll_ok (h : Described session cname texts) {calls : List RtcpCall}
    (hcalls : ∀ call ∈ calls, call.Framable session cname texts) :
    ∃ session' ms, session.buildAll calls = .ok (session', ms) ∧
      ∀ m ∈ ms, (∀ b ∈ m.blocks, b.WF) ∧ m.WellFramed := by
  induction calls generalizing session with
  | nil => exact ⟨session, [], rfl, fun m hm => nomatch hm⟩
  | cons call calls ih =>
    obtain ⟨session₁, m, hm, hkept, hframed⟩ :=
      buildsWell_of_framable h (hcalls call mem_cons_self)
    obtain ⟨session₂, ms, hms, hall⟩ := ih hkept.described fun c hc =>
      (hkept.framable_iff c).mpr (hcalls c (mem_cons_of_mem call hc))
    refine ⟨session₂, m.toList ++ ms, ?_, fun p hp => ?_⟩
    · simp only [buildAll, hm, hms, bind, Except.bind, pure, Except.pure]
    · rcases mem_append.mp hp with hp | hp
      · exact hframed p (Option.mem_toList.mp hp)
      · exact hall p hp

theorem framable_of_buildAll (h : Described session cname texts) {calls : List RtcpCall}
    {ms : List Mblk} (hbuild : session.buildAll calls = .ok (session', ms))
    (hall : ∀ m ∈ ms, m.WellFramed) : ∀ call ∈ calls, call.Framable session cname texts := by
  induction calls generalizing session session' ms with
  | nil => exact fun call hcall => nomatch hcall
  | cons call calls ih =>
    rw [buildAll] at hbuild
    cases hm : session.build call with
    | error fault =>
      simp only [hm, bind, Except.bind] at hbuild
      cases hbuild
    | ok built =>
      cases hms : built.1.buildAll calls with
      | error fault =>
        simp only [hm, hms, bind, Except.bind] at hbuild
        cases hbuild
      | ok rest =>
        simp only [hm, hms, bind, Except.bind, pure, Except.pure, Except.ok.injEq,
          Prod.mk.injEq] at hbuild
        obtain ⟨-, rfl⟩ := hbuild
        have hcall : call.Framable session cname texts := framable_of_wellFramed h hm fun p hp =>
          hall p (mem_append_left _ (Option.mem_toList.mpr hp))
        obtain ⟨session₁, m₁, hm₁, hkept, -⟩ := buildsWell_of_framable h hcall
        rw [hm] at hm₁
        cases hm₁
        have hrest := ih hkept.described hms fun p hp => hall p (mem_append_right _ hp)
        intro c hc
        rcases mem_cons.mp hc with rfl | hc
        · exact hcall
        · exact (hkept.framable_iff c).mp (hrest c hc)

/-- In a session with a description the packets are well framed, and all found in their compound,
exactly when the arguments are of the kind that `RtcpCall.Framable` describes. -/
theorem wellBuilt_iff (h : Described session cname texts) (calls : List RtcpCall) :
    WellBuilt session calls ↔ ∀ call ∈ calls, call.Framable session cname texts := by
  constructor
  · rintro ⟨session', ms, hbuild, hall, -⟩
    exact framable_of_buildAll h hbuild hall
  · intro hcalls
    obtain ⟨session', ms, hbuild, hall⟩ := buildAll_ok h hcalls
    refine ⟨session', ms, hbuild, fun m hm => (hall m hm).2, ?_⟩
    rintro first rest rfl
    exact rtcpPackets_compound hall

end Calls

/-! ## Some packets -/

/-- `wellBuilt_iff` for packets of every kind, one after the other. -/
theorem wellBuilt_compound :
    ∃ session, ({ sndSsrc := 7, rcvSsrc := 9 } : RtcpSession).setSourceDescription [97, 64, 98]
        { tool := some [111] } = .ok session ∧
      WellBuilt session [.sdes true, .app 1 [110] [1, 2, 3, 4], .rpsi (fun _ => 255) 16, .fir,
        .tmmbr 64000 28, .tmmbn 9, .bye (some [98, 121, 101])] := by
  obtain ⟨session, hset, hdescribed, -, hqueue, hreceived⟩ := setSourceDescription_ok
    { sndSsrc := 7, rcvSsrc := 9 } [97, 64, 98] { tool := some [111] }
  refine ⟨session, hset, (wellBuilt_iff hdescribed _).mpr ?_⟩
  simp only [mem_cons, not_mem_nil, or_false, forall_eq_or_imp, forall_eq,
    RtcpCall.Framable, hqueue, hreceived]
  exact ⟨fun _ => ⟨trivial, by decide⟩, by decide, by decide, trivial, trivial, by simp, by simp⟩

/-- Four long texts. -/
def longTexts : SdesTexts where
  name := some (replicate 255 97)
  email := some (replicate 255 98)
  phone := some (replicate 255 99)
  loc := some (replicate 255 100)

/-- An empty reason, a single byte of data, nine bits and four long texts make packets that are not
well framed. -/
theorem packets_misframed :
    ∃ session, ({ sndSsrc := 7, rcvSsrc := 9 } : RtcpSession).setSourceDescription [97, 64, 98]
        longTexts = .ok session ∧
      ∀ call ∈ [.bye (some []), .app 1 [110] [1], .rpsi (fun _ => 255) 9, .sdes true],
        ¬WellBuilt session [call] := by
  obtain ⟨session, hset, hdescribed, -⟩ := setSourceDescription_ok
    { sndSsrc := 7, rcvSsrc := 9 } [97, 64, 98] longTexts
  refine ⟨session, hset, fun call hcall => ?_⟩
  rintro ⟨session', ms, hbuild, hall, -⟩
  have hframable := framable_of_buildAll hdescribed hbuild hall call mem_cons_self
  simp only [mem_cons, not_mem_nil, or_false] at hcall
  rcases hcall with rfl | rfl | rfl | rfl
  · exact hframable rfl
  · exact absurd hframable.1 (by decide)
  · rw [RtcpCall.Framable] at hframable
    exact absurd hframable (by decide)
  · exact absurd (hframable rfl).2 (by decide +kernel)

end GrooveIp.Ortp
