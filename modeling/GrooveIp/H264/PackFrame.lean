import GrooveIp.H264.Packing

/-!
# One frame through the packer

The loop of `rfc3984_pack_mode_1` holds back at most one packet, a small NALU or a STAP-A
packet that grows; `PackInv` says what it and the queue hold after some NALUs. The result is
stated for both modes by `rfc3984Pack_sent`.
-/

namespace GrooveIp.H264

open Lib Ortp List

/-! ### Aggregation -/

/-- A STAP-A packet under construction that holds the NALUs of `group`. -/
structure IsStap (m : Mblk) (group : List (List UInt8)) : Prop where
  encodes : Encodes m.bytes (.aggregate group)
  wf : ∀ b ∈ m.blocks, b.WF
  cseq_eq : m.cseq = 0
  header : ∃ h t, m.first.bytes = h :: t ∧ nalHeaderGetType h = typeStapA

variable {m : Mblk} {group : List (List UInt8)}

theorem IsStap.carries (h : IsStap m group) (hlen : m.bytes.length < 2 ^ 31) :
    Carries m (.aggregate group) := by
  obtain ⟨b, t, hb, -⟩ := h.header
  exact ⟨h.encodes, h.wf, .inr hlen, hb ▸ cons_ne_nil b t⟩

theorem prependStapa_stap (mem : Memory) (hm : IsNalu m) (hlen : m.bytes.length < 65536) :
    ∃ m', prependStapa mem m = .ok m' ∧ IsStap m' [m.bytes] ∧
      m'.bytes.length = m.bytes.length + 3 := by
  obtain ⟨h, t, hb, -, -⟩ := hm.header
  have hsize := msgdsize_eq hm.plain.pullable.wf
  let hdr := nalHeaderInit (nalHeaderGetNri h) typeStapA
  let m' : Mblk := { Mblk.ofBytes (hdr :: putNalSize m.bytes.length) with cont := m.blocks }
  have hrun : prependStapa mem m = .ok m' := by
    rw [prependStapa, hm.peek mem hb, hsize]
    rfl
  have hbytes : m'.bytes = hdr :: (putNalSize m.bytes.length ++ m.bytes) := by
    rfl
  have htype : nalHeaderGetType hdr = typeStapA := nalHeaderGetType_init _ _
  have henc : Encodes (hdr :: [m.bytes].flatMap fun n => putNalSize n.length ++ n)
      (.aggregate [m.bytes]) :=
    .aggregate htype fun n hn => by rw [mem_singleton.mp hn]; exact hlen
  rw [flatMap_singleton, ← hbytes] at henc
  have hfirst : m'.first.bytes = hdr :: putNalSize m.bytes.length := Block.bytes_ofBytes _
  refine ⟨m', hrun, ⟨henc, ?_, rfl, hdr, _, hfirst, htype⟩, ?_⟩
  · intro b hb'
    rcases mem_cons.mp hb' with rfl | hb'
    · exact Block.wf_ofBytes _
    · exact hm.plain.pullable.wf b hb'
  · rw [hbytes]
    simp only [putNalSize, length_cons, length_append, length_nil]
    omega

theorem IsStap.concat (hs : IsStap m group) {n : Mblk} (hn : IsNalu n)
    (hlen : n.bytes.length < 65536) :
    let l := { Mblk.ofBytes (putNalSize n.msgdsize) with cont := n.blocks }
    IsStap (m.concatb l) (group ++ [n.bytes]) ∧
      (m.concatb l).bytes.length = m.bytes.length + (n.bytes.length + 2) := by
  intro l
  have hlb : l.bytes = putNalSize n.bytes.length ++ n.bytes := by
    show (Block.ofBytes _).bytes ++ n.bytes = _
    rw [Block.bytes_ofBytes, msgdsize_eq hn.plain.pullable.wf]
  have hbytes : (m.concatb l).bytes = m.bytes ++ (putNalSize n.bytes.length ++ n.bytes) := by
    rw [Mblk.bytes_concatb, hlb]
  obtain ⟨h, t, hfirst, htype⟩ := hs.header
  have hblocks : (m.concatb l).blocks = m.blocks ++ Block.ofBytes (putNalSize n.msgdsize) ::
      n.blocks := rfl
  have henc : Encodes (m.concatb l).bytes (.aggregate (group ++ [n.bytes])) := by
    rw [hbytes]
    have := hs.encodes
    generalize m.bytes = bs at this
    cases this with
    | @aggregate b _ ha hsz =>
      have hmore : Encodes (b :: (group ++ [n.bytes]).flatMap fun n => putNalSize n.length ++ n)
          (.aggregate (group ++ [n.bytes])) := by
        refine .aggregate ha fun x hx => ?_
        rcases mem_append.mp hx with hx | hx
        · exact hsz x hx
        · rw [mem_singleton.mp hx]; exact hlen
      rwa [flatMap_append, flatMap_singleton, ← cons_append] at hmore
  refine ⟨⟨henc, ?_, hs.cseq_eq, h, t, hfirst, htype⟩, ?_⟩
  · intro b hb
    rw [hblocks, hn.plain.blocks_eq] at hb
    rcases mem_append.mp hb with hb | hb
    · exact hs.wf b hb
    · rcases mem_cons.mp hb with rfl | hb
      · exact Block.wf_ofBytes _
      · rw [mem_singleton.mp hb]
        exact hn.plain.wf
  · rw [hbytes]
    simp only [putNalSize, length_cons, length_append, length_nil]
    omega

/-- The packet held back between two turns, its size as a STAP-A packet, and the NALUs it
holds. -/
inductive Holding (maxsz : Nat) : Option Mblk → Int → List (List UInt8) → Prop where
  | none (prevsz : Int) : Holding maxsz none prevsz []
  | one {m : Mblk} (hm : IsNalu m) (hlt : m.bytes.length < maxsz / 2) :
      Holding maxsz (some m) (m.bytes.length + 3) [m.bytes]
  | stap {m : Mblk} {group : List (List UInt8)} (hm : IsStap m group)
      (hlt : m.bytes.length < maxsz) : Holding maxsz (some m) m.bytes.length group

theorem Holding.packet {maxsz : Nat} (hmax : maxsz < 65536) {prevsz : Int}
    (h : Holding maxsz (some m) prevsz group) :
    ∃ p, Carries m p ∧ m.cseq = 0 ∧ m.bytes.length ≤ maxsz ∧ Packed group [p] := by
  cases h with
  | one hm hlt => exact ⟨_, hm.carries, hm.cseq_eq, by omega, .single _ .nil⟩
  | stap hm hlt =>
    have hp := Packed.aggregate group .nil
    rw [append_nil] at hp
    exact ⟨_, hm.carries (by omega), hm.cseq_eq, by omega, hp⟩

theorem Holding.concat {maxsz : Nat} (mem : Memory) (hmax : maxsz < 65536) {prevsz : Int}
    (h : Holding maxsz (some m) prevsz group) {n : Mblk} (hn : IsNalu n)
    (hfit : prevsz + n.bytes.length < maxsz - 2) : ∃ m', concatNalus mem m n = .ok m' ∧
      Holding maxsz (some m') (prevsz + (n.bytes.length + 2)) (group ++ [n.bytes]) := by
  cases h with
  | one hm hlt =>
    obtain ⟨h, t, hb, ha, -⟩ := hm.header
    obtain ⟨m', hrun, hs, hlen⟩ := prependStapa_stap mem hm (by omega)
    obtain ⟨hs', hlen'⟩ := hs.concat hn (by omega)
    have hh : Holding maxsz _ _ _ := .stap hs' (by omega)
    have he : (((m.bytes.length + 3 + (n.bytes.length + 2) : Nat)) : Int) =
        (m.bytes.length : Int) + 3 + ((n.bytes.length : Int) + 2) := by omega
    rw [hlen', hlen, he] at hh
    refine ⟨_, ?_, hh⟩
    rw [concatNalus, hm.peek mem hb]
    simp only [bind, Except.bind, if_pos ha, hrun]
    rfl
  | stap hm hlt =>
    obtain ⟨h, t, hb, ha⟩ := hm.header
    obtain ⟨hs', hlen'⟩ := hm.concat hn (by omega)
    have hh : Holding maxsz _ _ _ := .stap hs' (by omega)
    have he : (((m.bytes.length + (n.bytes.length + 2) : Nat)) : Int) =
        (m.bytes.length : Int) + ((n.bytes.length : Int) + 2) := by omega
    rw [hlen', he] at hh
    refine ⟨_, ?_, hh⟩
    rw [concatNalus, mem.peek_of_getElem (v := h) (by rw [hb]; rfl)]
    simp only [bind, Except.bind, if_neg (not_not_intro ha)]
    rfl

/-! ### The loop of mode 1 -/

/-- How a NALU arrives: in mode 1 a fragmented one loses its forbidden bit (`rfc3984.c:125–129`). -/
def naluOnWire (mode : UInt8) (maxsz : Int) (nal : List UInt8) : List UInt8 :=
  if mode = 1 ∧ (nal.length : Int) > maxsz then nal.modifyHead (· &&& 0x7F) else nal

/-- A NALU whose forbidden bit is clear arrives as it is. -/
theorem naluOnWire_of_clear (mode : UInt8) (maxsz : Int) {h : UInt8} (t : List UInt8)
    (hf : h &&& 0x80 = 0) : naluOnWire mode maxsz (h :: t) = h :: t := by
  have hclear : ∀ n < 256, UInt8.ofNat n &&& 0x80 = 0 → UInt8.ofNat n &&& 0x7F = UInt8.ofNat n := by
    decide +kernel
  have hh := hclear h.toNat h.toNat_lt
  rw [UInt8.ofNat_toNat] at hh
  unfold naluOnWire
  split
  · rw [modifyHead_cons, hh hf]
  · rfl

section Mode1

variable {ts : UInt32} {ctx0 : Rfc3984Context} {maxsz : Nat}

/-- The packets of mode 1 are at most `maxsz` bytes. -/
def FitsMtu (maxsz n : Nat) : Prop := n ≤ maxsz

variable {s : PackState}

variable (mem : Memory)

theorem sendAlone_sent (h4 : 4 ≤ maxsz) (hmax : maxsz < 65536)
    {ps : List Payload} (hsz : s.ctx.maxsz = maxsz)
    (ho : Outgoing (FitsMtu maxsz) ts ctx0 false s.ctx s.rtpq ps) {m : Mblk} (hm : IsNalu m)
    (hlen : m.bytes.length + maxsz < 2 ^ 31) (last : Bool) :
    ∃ ctx' rtpq' fs, sendAlone mem ts m last s = .ok { s with ctx := ctx', rtpq := rtpq' } ∧
      Outgoing (FitsMtu maxsz) ts ctx0 last ctx' rtpq' (ps ++ fs) ∧
      Packed [naluOnWire 1 maxsz m.bytes] fs := by
  obtain ⟨h, t, hb, -, -⟩ := hm.header
  have hint : toInt32 m.first.size = m.bytes.length := by
    rw [hm.plain.size_eq]
    exact toInt32_of_range (by omega) (by omega)
  by_cases hgt : maxsz < m.bytes.length
  · obtain ⟨ctx', rtpq', fs, hrun, hout, hpk⟩ :=
      fragNaluAndSend_sent mem h4 (by omega) (fun _ hn => hn) ho hm hb hgt last
    have hwire : naluOnWire 1 maxsz m.bytes = (h &&& 0x7F) :: t := by
      rw [naluOnWire, if_pos ⟨rfl, by omega⟩, hb, modifyHead_cons]
    refine ⟨ctx', rtpq', fs, ?_, hout, hwire ▸ hpk⟩
    rw [sendAlone, hint, hsz, if_pos (by omega), hrun]
    rfl
  · have hwire : naluOnWire 1 maxsz m.bytes = m.bytes := by
      rw [naluOnWire, if_neg (by omega)]
    have hfit : FitsMtu maxsz m.bytes.length := Nat.not_lt.mp hgt
    refine ⟨_, _, [.single m.bytes], ?_, ho.send hm.carries hm.cseq_eq hfit last,
      hwire.symm ▸ .single _ .nil⟩
    rw [sendAlone, hint, hsz, if_neg (by omega)]
    rfl

/-- The state after the NALUs `done`: what was sent and what is held back carry them, and the
frame is open while a packet is held back. -/
structure PackInv (ts : UInt32) (ctx0 : Rfc3984Context) (maxsz : Nat)
    (done : List (List UInt8)) (last : Bool) (s : PackState) : Prop where
  holds : ∃ ps sent group,
    Outgoing (FitsMtu maxsz) ts ctx0 (last && s.prevm.isNone) s.ctx s.rtpq ps ∧
    Packed sent ps ∧ Holding maxsz s.prevm s.prevsz group ∧ done = sent ++ group
  unheld : ctx0.stapAAllowed = false → s.prevm = none

variable {done : List (List UInt8)}

theorem packUnaggregated_inv (h4 : 4 ≤ maxsz) (hmax : maxsz < 65536)
    (hsz : ctx0.maxsz = maxsz) {ps : List Payload}
    (ho : Outgoing (FitsMtu maxsz) ts ctx0 false s.ctx s.rtpq ps) (hpk : Packed done ps)
    (hprev : s.prevm = none) (hallow : ctx0.stapAAllowed = true) {m : Mblk} (hm : IsNalu m)
    (hlen : m.bytes.length + maxsz < 2 ^ 31) (last : Bool) :
    ∃ s', packUnaggregated mem ts m last s = .ok s' ∧
      PackInv ts ctx0 maxsz (done ++ [naluOnWire 1 maxsz m.bytes]) last s' := by
  have hctx : s.ctx.maxsz = maxsz := by rw [ho.ctx_eq]; exact hsz
  have hint : toInt32 m.first.size = m.bytes.length := by
    rw [hm.plain.size_eq]
    exact toInt32_of_range (by omega) (by omega)
  have hhalf : (maxsz : Int).tdiv 2 = (maxsz / 2 : Nat) := rfl
  unfold packUnaggregated
  simp only [hint, hctx, hhalf]
  split
  · next hlt =>
    have hwire : naluOnWire 1 maxsz m.bytes = m.bytes := by
      rw [naluOnWire, if_neg (by omega)]
    rw [hwire]
    refine ⟨_, rfl, ⟨ps, done, [m.bytes], ?_, hpk, .one hm (by omega), rfl⟩, fun hf => ?_⟩
    · simpa using ho
    · rw [hallow] at hf; cases hf
  · obtain ⟨ctx', rtpq', fs, hrun, hout, hpf⟩ :=
      sendAlone_sent mem h4 hmax hctx ho hm hlen last
    refine ⟨_, hrun, ⟨ps ++ fs, done ++ [naluOnWire 1 maxsz m.bytes], [], ?_, hpk.append hpf, ?_,
      (append_nil _).symm⟩, fun _ => hprev⟩
    · simpa [hprev] using hout
    · rw [hprev]
      exact .none _

theorem packMode1Step_inv (h4 : 4 ≤ maxsz) (hmax : maxsz < 65536)
    (hsz : ctx0.maxsz = maxsz) (hi : PackInv ts ctx0 maxsz done false s) {m : Mblk}
    (hm : IsNalu m) (hlen : m.bytes.length + maxsz < 2 ^ 31) (last : Bool) :
    ∃ s', packMode1Step mem ts m last s = .ok s' ∧
      PackInv ts ctx0 maxsz (done ++ [naluOnWire 1 maxsz m.bytes]) last s' := by
  obtain ⟨ps, sent, group, ho, hpk, hhold, rfl⟩ := hi.holds
  have hstapEq : s.ctx.stapAAllowed = ctx0.stapAAllowed := by rw [ho.ctx_eq]
  have hctx : s.ctx.maxsz = maxsz := by rw [ho.ctx_eq]; exact hsz
  have hint : toInt32 m.first.size = m.bytes.length := by
    rw [hm.plain.size_eq]
    exact toInt32_of_range (by omega) (by omega)
  rw [packMode1Step, hstapEq]
  cases hallow : ctx0.stapAAllowed with
  | false =>
    have hprev := hi.unheld hallow
    rw [hprev] at hhold
    cases hhold
    obtain ⟨ctx', rtpq', fs, hrun, hout, hpf⟩ :=
      sendAlone_sent mem h4 hmax hctx ho hm hlen last
    rw [append_nil]
    refine ⟨_, hrun, ⟨ps ++ fs, sent ++ [naluOnWire 1 maxsz m.bytes], [], ?_, hpk.append hpf, ?_,
      (append_nil _).symm⟩, fun _ => hprev⟩
    · simpa [hprev] using hout
    · rw [hprev]
      exact .none _
  | true =>
    rw [if_pos rfl]
    cases hprev : s.prevm with
    | none =>
      rw [hprev] at hhold
      cases hhold
      rw [append_nil]
      exact packUnaggregated_inv mem h4 hmax hsz ho hpk hprev hallow hm hlen last
    | some prevm =>
      rw [hprev] at hhold
      simp only [hint, hctx]
      have hbound : 0 ≤ s.prevsz ∧ s.prevsz ≤ maxsz := by
        generalize s.prevsz = prevsz at hhold
        cases hhold with
        | one _ hlt => omega
        | stap _ hlt => omega
      rw [toInt32_of_range (by omega) (by omega)]
      split
      · next hfit =>
        have hwire : naluOnWire 1 maxsz m.bytes = m.bytes := by
          rw [naluOnWire, if_neg (by omega)]
        obtain ⟨m', hrun, hhold'⟩ := hhold.concat mem hmax hm hfit
        rw [hrun, hwire]
        refine ⟨_, rfl, ⟨ps, sent, group ++ [m.bytes], ?_, hpk, hhold', append_assoc ..⟩,
          fun hf => ?_⟩
        · simpa using ho
        · rw [hallow] at hf; cases hf
      · obtain ⟨p, hcarries, hc, hle, hpp⟩ := hhold.packet hmax
        have ho' := ho.send hcarries hc hle false
        exact packUnaggregated_inv (s := ⟨_, _, none, 0⟩) mem h4 hmax hsz ho' (hpk.append hpp)
          rfl hallow hm hlen last

theorem packMode1Loop_inv (h4 : 4 ≤ maxsz) (hmax : maxsz < 65536)
    (hsz : ctx0.maxsz = maxsz) (naluq : MSQueue) (hi : PackInv ts ctx0 maxsz done naluq.isEmpty s)
    (hne : naluq = [] → done ≠ []) (hm : ∀ m ∈ naluq, IsNalu m ∧ m.bytes.length + maxsz < 2 ^ 31) :
    ∃ s', packMode1Loop mem ts naluq s = .ok s' ∧
      PackInv ts ctx0 maxsz (done ++ naluq.map fun m => naluOnWire 1 maxsz m.bytes) true s' := by
  induction naluq generalizing s done with
  | nil => exact ⟨s, rfl, by simpa using hi⟩
  | cons m naluq ih =>
    obtain ⟨hnalu, hlen⟩ := hm m mem_cons_self
    obtain ⟨s', hrun, hi'⟩ := packMode1Step_inv mem h4 hmax hsz hi hnalu hlen naluq.isEmpty
    obtain ⟨s'', hrun', hi''⟩ := ih hi' (fun _ => append_ne_nil_of_right_ne_nil _ (by simp))
      (fun x hx => hm x (mem_cons_of_mem _ hx))
    refine ⟨s'', ?_, ?_⟩
    · rw [packMode1Loop, hrun]
      exact hrun'
    · rwa [append_assoc] at hi''

theorem packMode1_sent (ts : UInt32) (mem : Memory) (h4 : 4 ≤ maxsz) (hmax : maxsz < 65536)
    (hsz : ctx0.maxsz = maxsz) {naluq : MSQueue} (hne : naluq ≠ [])
    (hm : ∀ m ∈ naluq, IsNalu m ∧ m.bytes.length + maxsz < 2 ^ 31) :
    ∃ ctx' rtpq ps, rfc3984PackMode1 mem ts naluq ctx0 [] = .ok (ctx', rtpq) ∧
      Outgoing (FitsMtu maxsz) ts ctx0 true ctx' rtpq ps ∧
      Packed (naluq.map fun m => naluOnWire 1 maxsz m.bytes) ps := by
  have hempty : naluq.isEmpty = false := by simpa using hne
  have hstart : PackInv ts ctx0 maxsz [] naluq.isEmpty ⟨ctx0, [], none, 0⟩ := by
    rw [hempty]
    exact ⟨⟨[], [], [], outgoing_nil _ _ _, .nil, .none _, rfl⟩, fun _ => rfl⟩
  obtain ⟨s, hrun, hi⟩ := packMode1Loop_inv mem h4 hmax hsz naluq hstart (fun h => absurd h hne) hm
  obtain ⟨ps, sent, group, ho, hpk, hhold, hdone⟩ := hi.holds
  rw [nil_append] at hdone
  rw [rfc3984PackMode1, hrun, hdone]
  cases hprev : s.prevm with
  | none =>
    rw [hprev] at hhold ho
    cases hhold
    refine ⟨s.ctx, s.rtpq, ps, ?_, ho, by rwa [append_nil]⟩
    simp only [bind, Except.bind, hprev]
    rfl
  | some prevm =>
    rw [hprev] at hhold ho
    obtain ⟨p, hcarries, hc, hle, hpp⟩ := hhold.packet hmax
    refine ⟨_, _, ps ++ [p], ?_, Outgoing.send ho hcarries hc hle true, hpk.append hpp⟩
    simp only [bind, Except.bind, hprev]
    rfl

end Mode1

/-! ### Both modes -/

theorem packMode0_sent {ts : UInt32} {ctx0 : Rfc3984Context} (naluq : MSQueue)
    (hne : naluq ≠ []) (hm : ∀ m ∈ naluq, IsNalu m) {ctx : Rfc3984Context} {rtpq : MSQueue}
    {ps : List Payload} (ho : Outgoing (fun _ => True) ts ctx0 false ctx rtpq ps)
    {done : List (List UInt8)} (hpk : Packed done ps) :
    ∃ ps', Outgoing (fun _ => True) ts ctx0 true (rfc3984PackMode0 ts naluq ctx rtpq).1
        (rfc3984PackMode0 ts naluq ctx rtpq).2 ps' ∧ Packed (done ++ naluq.map Mblk.bytes) ps' := by
  induction naluq generalizing ctx rtpq ps done with
  | nil => exact absurd rfl hne
  | cons m naluq ih =>
    have hnalu := hm m mem_cons_self
    have ho' := ho.send hnalu.carries hnalu.cseq_eq trivial naluq.isEmpty
    have hpk' := hpk.append (.single m.bytes .nil)
    cases naluq with
    | nil => exact ⟨_, ho', hpk'⟩
    | cons m' naluq =>
      obtain ⟨ps', hout, hp⟩ := ih (cons_ne_nil _ _)
        (fun x hx => hm x (mem_cons_of_mem _ hx)) ho' hpk'
      refine ⟨ps', hout, ?_⟩
      rwa [append_assoc] at hp

/-- What a packer may be given and set to: a mode, a payload limit, NALUs, and in mode 1 sizes
that leave room for the limit in an `int`. -/
structure PackerInput (ctx : Rfc3984Context) (naluq : MSQueue) : Prop where
  mode_eq : ctx.mode = 0 ∨ ctx.mode = 1
  maxsz_ge : 4 ≤ ctx.maxsz
  maxsz_le : ctx.maxsz ≤ 65535
  ne_nil : naluq ≠ []
  isNalu : ∀ m ∈ naluq, IsNalu m
  size_lt : ctx.mode = 1 → ∀ m ∈ naluq, (m.bytes.length : Int) + ctx.maxsz < 2 ^ 31

/-- `rfc3984_pack` sends one closed frame whose payloads carry the NALUs, in mode 1 within the
payload limit. -/
theorem rfc3984Pack_sent (mem : Memory) (ts : UInt32) {ctx : Rfc3984Context} {naluq : MSQueue}
    (h : PackerInput ctx naluq) :
    ∃ ctx' rtpq ps, rfc3984Pack mem ctx naluq [] ts = .ok (ctx', rtpq) ∧
      Outgoing (fun n => ctx.mode = 1 → (n : Int) ≤ ctx.maxsz) ts ctx true ctx' rtpq ps ∧
      Packed (naluq.map fun m => naluOnWire ctx.mode ctx.maxsz m.bytes) ps := by
  have weaken {fits fits' : Nat → Prop} (hf : ∀ n, fits n → fits' n) {c : UInt16}
      {ms : MSQueue} {ps : List Payload} (hs : Sent fits ts c ms ps) : Sent fits' ts c ms ps := by
    induction hs with
    | nil c => exact .nil c
    | cons hm hts hc hfit _ ih => exact .cons hm hts hc (hf _ hfit) ih
  rcases h.mode_eq with hmode | hmode
  · obtain ⟨ps, ho, hpk⟩ := packMode0_sent naluq h.ne_nil h.isNalu
      (outgoing_nil (fun _ => True) ts ctx) .nil
    have hwire : naluq.map Mblk.bytes =
        naluq.map fun m => naluOnWire ctx.mode ctx.maxsz m.bytes := by
      refine map_congr_left fun m _ => ?_
      rw [naluOnWire, hmode, if_neg fun h => absurd h.1 (by decide)]
    refine ⟨_, _, ps, by rw [rfc3984Pack, if_pos hmode],
      ⟨ho.ctx_eq, weaken (fun n _ hm => ?_) ho.sent, ho.marked⟩, hwire ▸ hpk⟩
    rw [hmode] at hm
    cases hm
  · obtain ⟨maxsz, hsz⟩ : ∃ maxsz : Nat, ctx.maxsz = maxsz :=
      ⟨ctx.maxsz.toNat, by have := h.maxsz_ge; omega⟩
    have h4 := h.maxsz_ge
    have hmax := h.maxsz_le
    obtain ⟨ctx', rtpq, ps, hrun, ho, hpk⟩ := packMode1_sent ts mem
      (by omega) (by omega) hsz h.ne_nil fun m hm =>
        ⟨h.isNalu m hm, by have := h.size_lt hmode m hm; omega⟩
    refine ⟨ctx', rtpq, ps, by rw [rfc3984Pack, hmode]; exact hrun,
      ⟨ho.ctx_eq, weaken (fun n hn _ => ?_) ho.sent, ho.marked⟩, by rw [hmode, hsz]; exact hpk⟩
    have : n ≤ maxsz := hn
    omega

end GrooveIp.H264
