import GrooveIp.H264.Reception

/-!
# Hostile payloads

Whatever a peer sends reaches `rfc3984_unpack2` as one block of at least one byte. The reads
of the STAP-A loop, of `aggregate_fua` and of `store_nal` are not all bounded; `WellShaped`
is the condition on a payload, against the flags and the pending chain of the context, under
which none leaves its block. Along a run of such steps the queues only hold ranges of
received bytes.
-/

namespace GrooveIp.H264

open Lib Ortp List Mblk

/-! ### The condition on a payload -/

/-- `store_nal` reads the header byte, and the next one when a marked NALU that is no IDR slice
follows both parameter sets (`rfc3984.c:334, 342`). -/
def Storable (hasSPS hasPPS marker : Bool) : List UInt8 → Prop
  | [] => False
  | h :: t => hasSPS = true → hasPPS = true → marker = true →
      nalHeaderGetType h ≠ naluTypeIDR → t ≠ []

/-- Whether the header byte of a NALU has a type. -/
def hasType (type : UInt8) (nal : List UInt8) : Bool :=
  nal.head?.any fun h => nalHeaderGetType h == type

/-- The entries of a STAP-A packet: each one has both bytes of its size and can be stored,
until the payload ends or an entry is longer than what is left. -/
inductive StapShaped (marker : Bool) : Bool → Bool → List UInt8 → Prop where
  | done (hasSPS hasPPS : Bool) : StapShaped marker hasSPS hasPPS []
  | truncated (hasSPS hasPPS : Bool) {hi lo : UInt8} {rest : List UInt8}
      (h : rest.length < hi.toNat * 256 + lo.toNat) :
      StapShaped marker hasSPS hasPPS (hi :: lo :: rest)
  | entry {hasSPS hasPPS : Bool} {hi lo : UInt8} {nal rest : List UInt8}
      (hsz : nal.length = hi.toNat * 256 + lo.toNat) (hs : Storable hasSPS hasPPS marker nal)
      (h : StapShaped marker (hasSPS || hasType naluTypeSPS nal)
        (hasPPS || hasType naluTypePPS nal) rest) :
      StapShaped marker hasSPS hasPPS (hi :: lo :: (nal ++ rest))

/-- The NALU a last fragment completes, if there is one. -/
def completedBy (m : Option Mblk) (h fu : UInt8) (body : List UInt8) : Option (List UInt8) :=
  if fu >>> 7 ≠ 0 then some (nalHeaderInit (nalHeaderGetNri h) (nalHeaderGetType fu) :: body)
  else m.map fun m => m.bytes ++ body

/-- The payloads `rfc3984_unpack2` handles within its blocks. -/
def WellShaped (ctx : Rfc3984Context) (im : Mblk) : Prop :=
  let status := (flushOnNewTimestamp ctx [] im.timestamp).1.status
  match im.bytes with
  | [] => False
  | h :: rest =>
    if nalHeaderGetType h = typeStapA then
      StapShaped im.marker status.hasSPS status.hasPPS rest
    else if nalHeaderGetType h = typeFuA then
      match rest with
      | [] => False
      | fu :: body => (fu >>> 6) &&& 0x1 ≠ 0 → ∀ nal, completedBy ctx.m h fu body = some nal →
          nal.length < 2 ^ 31 ∧ Storable status.hasSPS status.hasPPS im.marker nal
    else Storable status.hasSPS status.hasPPS im.marker (h :: rest)

/-! ### What the queues hold -/

/-- A rebuilt header followed by the ends of payloads. -/
def Rebuilt (payloads : List (List UInt8)) (nal : List UInt8) : Prop :=
  ∃ (h : UInt8) (pieces : List (List UInt8)), nal = h :: pieces.flatten ∧
    ∀ x ∈ pieces, ∃ p ∈ payloads, x <:+ p

/-- A NALU made of received bytes: a range of one payload that is not empty, or one rebuilt from
several. -/
def FromReceived (payloads : List (List UInt8)) (nal : List UInt8) : Prop :=
  (nal ≠ [] ∧ ∃ p ∈ payloads, nal <:+: p) ∨ Rebuilt payloads nal

/-- A context whose blocks lie in their data and hold received bytes. -/
structure Sane (payloads : List (List UInt8)) (ctx : Rfc3984Context) : Prop where
  queued : ∀ nal ∈ ctx.q, nal.Plain ∧ FromReceived payloads nal.bytes
  pending : ∀ m, ctx.m = some m → (∀ b ∈ m.blocks, b.WF) ∧ Rebuilt payloads m.bytes
  noSps : ctx.sps = none

theorem sane_init (payloads : List (List UInt8)) : Sane payloads rfc3984Init :=
  ⟨fun _ h => absurd h not_mem_nil, fun _ h => (nomatch h), rfl⟩

section Steps

variable {payloads : List (List UInt8)} {ctx : Rfc3984Context}

theorem sane_storeNal (h : Sane payloads ctx) (nal : Mblk) (hp : nal.Plain)
    (hs : Storable ctx.status.hasSPS ctx.status.hasPPS nal.marker nal.bytes)
    (hr : FromReceived payloads nal.bytes) :
    ∃ ctx', storeNal strictMemory ctx nal = .ok ctx' ∧ Sane payloads ctx' ∧
      ctx'.status.hasSPS = (ctx.status.hasSPS || hasType naluTypeSPS nal.bytes) ∧
      ctx'.status.hasPPS = (ctx.status.hasPPS || hasType naluTypePPS nal.bytes) := by
  cases hb : nal.bytes with
  | nil => rw [hb] at hs; exact hs.elim
  | cons b t =>
    rw [hb] at hs
    have hget (i : Nat) : nal.first.bytes[i]? = (b :: t)[i]? := by rw [← hp.bytes_eq, hb]
    have h0 := strictMemory.peek_of_getElem (b := nal.first) (i := 0) (v := b) (hget 0)
    have hrun : ∃ unique, storeNal strictMemory ctx nal =
        .ok (storeTyped ctx (nalHeaderGetType b) unique nal) := by
      unfold storeNal
      simp only [h0, bind, Except.bind]
      split
      · next hc =>
        obtain ⟨hsps, hpps, hidr, hmk⟩ := hc
        obtain ⟨c, t, rfl⟩ := exists_cons_of_ne_nil (hs hsps hpps hmk hidr)
        rw [strictMemory.peek_of_getElem (b := nal.first) (i := 1) (v := c) (hget 1)]
        exact ⟨_, rfl⟩
      · exact ⟨_, rfl⟩
    obtain ⟨unique, hrun⟩ := hrun
    refine ⟨_, hrun, ?_⟩
    have hq : ∀ x ∈ ctx.q ++ [nal], x.Plain ∧ FromReceived payloads x.bytes := by
      intro x hx
      rcases mem_append.mp hx with hx | hx
      · exact h.queued x hx
      · rw [mem_singleton.mp hx]
        exact ⟨hp, hr⟩
    have htype (type : UInt8) : hasType type (b :: t) = (nalHeaderGetType b == type) := rfl
    rw [htype, htype]
    unfold storeTyped noteNaluType
    split
    · next he =>
      rw [he]
      exact ⟨⟨hq, h.pending, h.noSps⟩, (Bool.or_false _).symm, (Bool.or_false _).symm⟩
    · split
      · next he =>
        rw [he]
        exact ⟨⟨hq, h.pending, h.noSps⟩, (Bool.or_true _).symm, (Bool.or_false _).symm⟩
      · next hsps =>
        have hsps : (nalHeaderGetType b == naluTypeSPS) = false := beq_eq_false_iff_ne.mpr hsps
        split
        · next he =>
          rw [he]
          exact ⟨⟨hq, h.pending, h.noSps⟩, (Bool.or_false _).symm, (Bool.or_true _).symm⟩
        · next hpps =>
          have hpps : (nalHeaderGetType b == naluTypePPS) = false :=
            beq_eq_false_iff_ne.mpr hpps
          rw [hsps, hpps]
          exact ⟨⟨hq, h.pending, h.noSps⟩, (Bool.or_false _).symm, (Bool.or_false _).symm⟩

theorem sane_stapALoop {im : Mblk} (hp : im.Plain) (hmem : im.bytes ∈ payloads)
    {hasSPS hasPPS : Bool} {rest : List UInt8} (hs : StapShaped im.marker hasSPS hasPPS rest)
    {ctx : Rfc3984Context} (h : Sane payloads ctx) (hsps : ctx.status.hasSPS = hasSPS)
    (hpps : ctx.status.hasPPS = hasPPS) {p fuel : Nat} (hple : p ≤ im.bytes.length)
    (hrest : im.bytes.drop p = rest) (hf : im.bytes.length - p < fuel) :
    ∃ ctx', stapALoop strictMemory im fuel p ctx = .ok ctx' ∧ Sane payloads ctx' := by
  obtain ⟨fuel, rfl⟩ : ∃ k, fuel = k + 1 := ⟨fuel - 1, by omega⟩
  have hget (i : Nat) : im.first.bytes[p + i]? = (im.bytes.drop p)[i]? := by
    rw [List.getElem?_drop, hp.bytes_eq]
  have hlen : (im.bytes.drop p).length = im.bytes.length - p := length_drop
  rw [hrest] at hlen
  induction hs generalizing ctx p fuel with
  | done =>
    rw [length_nil] at hlen
    rw [stapALoop, hp.size_eq, if_neg (by omega)]
    exact ⟨ctx, rfl, h⟩
  | @truncated _ _ hi lo rest hshort =>
    rw [length_cons, length_cons] at hlen
    have hhi := strictMemory.peek_of_getElem (b := im.first) (i := p) (v := hi)
      (by rw [← Nat.add_zero p, hget, hrest]; rfl)
    have hlo := strictMemory.peek_of_getElem (b := im.first) (i := p + 1) (v := lo)
      (by rw [hget, hrest]; rfl)
    rw [stapALoop, hp.size_eq, if_pos (by omega), hhi, hlo]
    simp only [bind, Except.bind]
    rw [if_pos (by omega)]
    exact ⟨ctx, rfl, h⟩
  | @entry _ _ hi lo nal rest hsz hstore _ ih =>
    rw [length_cons, length_cons, length_append] at hlen
    have hhi := strictMemory.peek_of_getElem (b := im.first) (i := p) (v := hi)
      (by rw [← Nat.add_zero p, hget, hrest]; rfl)
    have hlo := strictMemory.peek_of_getElem (b := im.first) (i := p + 1) (v := lo)
      (by rw [hget, hrest]; rfl)
    obtain ⟨fuel, rfl⟩ : ∃ k, fuel = k + 1 := ⟨fuel - 1, by omega⟩
    have hwin := window_bytes hp (p := p + 2) (n := nal.length) (by omega)
    have hplain := window_plain hp (p := p + 2) (n := nal.length) (by omega)
    have hdrop : (im.bytes.drop (p + 2)) = nal ++ rest := by
      rw [← drop_drop, hrest]
      rfl
    rw [hdrop, take_left] at hwin
    have hinfix : nal <:+: im.bytes := by
      refine ⟨im.bytes.take (p + 2), rest, ?_⟩
      rw [append_assoc, ← hdrop, take_append_drop]
    have hne : nal ≠ [] := by
      intro hnil
      rw [hnil] at hstore
      exact hstore
    generalize hn : (im.dupb.setRptr (im.first.rptr + (p + 2))).setWptr
      (im.first.rptr + (p + 2) + nal.length) = n at hwin hplain
    obtain ⟨hplain, hmk⟩ := hplain
    obtain ⟨ctx1, hrun, hsane, hs1, hp1⟩ := sane_storeNal h n hplain
      (by rw [hsps, hpps, hmk, hwin]; exact hstore)
      (by rw [hwin]; exact .inl ⟨hne, _, hmem, hinfix⟩)
    rw [hwin] at hs1 hp1
    rw [hsps] at hs1
    rw [hpps] at hp1
    have hrest' : im.bytes.drop (p + 2 + nal.length) = rest := by
      rw [← drop_drop, hdrop, drop_left]
    obtain ⟨ctx2, hrun2, hsane2⟩ := ih hsane hs1 hp1 (p := p + 2 + nal.length) (by omega) hrest'
      fuel (by omega) (fun i => by rw [List.getElem?_drop, hp.bytes_eq]) (by omega)
    refine ⟨ctx2, ?_, hsane2⟩
    rw [stapALoop, hp.size_eq, if_pos (by omega), hhi, hlo]
    simp only [bind, Except.bind, ← hsz]
    rw [if_neg (by omega), hn, hrun]
    exact hrun2

theorem sane_fragment (h : Sane payloads ctx) {im : Mblk} (hp : im.Plain)
    (hmem : im.bytes ∈ payloads) {b fu : UInt8} {body : List UInt8}
    (hb : im.bytes = b :: fu :: body)
    (hs : (fu >>> 6) &&& 0x1 ≠ 0 → ∀ nal, completedBy ctx.m b fu body = some nal →
      nal.length < 2 ^ 31 ∧ Storable ctx.status.hasSPS ctx.status.hasPPS im.marker nal) :
    ∃ ctx', ((aggregateFua strictMemory ctx im).bind fun (ctx, o) =>
      storeCompleted strictMemory ctx o) = .ok ctx' ∧ Sane payloads ctx' := by
  have hget (i : Nat) : im.first.bytes[i]? = (b :: fu :: body)[i]? := by rw [← hp.bytes_eq, hb]
  have h0 := strictMemory.peek_of_getElem (b := im.first) (i := 0) (v := b) (hget 0)
  have h1 := strictMemory.peek_of_getElem (b := im.first) (i := 1) (v := fu) (hget 1)
  obtain ⟨hpb, hbody⟩ := fragmentBody hp hb
  have hsuffix : body <:+ im.bytes := ⟨[b, fu], by rw [hb]; rfl⟩
  -- the chain this fragment leaves is well formed and holds received bytes
  obtain ⟨m, hchain, hbytes, hsane⟩ : ∃ m, fuaChain strictMemory ctx.m im fu = .ok m ∧
      m.map bytes = completedBy ctx.m b fu body ∧
      ∀ m', m = some m' → (∀ x ∈ m'.blocks, x.WF) ∧ Rebuilt payloads m'.bytes := by
    unfold fuaChain completedBy
    split
    · rw [h0]
      refine ⟨_, rfl, ?_, fun m hm => ?_⟩
      · rw [Option.map_some, bytes_concatb, hbody]
        exact congrArg (fun x => some (x ++ body)) (bytes_ofBytes _)
      · cases hm
        refine ⟨fun x hx => ?_, nalHeaderInit (nalHeaderGetNri b) (nalHeaderGetType fu),
          [body], ?_, fun x hx => ?_⟩
        · rcases mem_cons.mp hx with rfl | hx
          · exact Block.wf_ofBytes _
          · have hx : x ∈ (im.setRptr (im.first.rptr + 2)).blocks := hx
            rw [hpb.blocks_eq, mem_singleton] at hx
            exact hx ▸ hpb.wf
        · rw [bytes_concatb, hbody, flatten_singleton]
          exact congrArg (· ++ body) (bytes_ofBytes _)
        · rw [mem_singleton.mp hx]
          exact ⟨_, hmem, hsuffix⟩
    · refine ⟨_, rfl, ?_, fun m hm => ?_⟩
      · rw [Option.map_map]
        refine congrArg (fun f => ctx.m.map f) (funext fun m => ?_)
        show (m.concatb _).bytes = m.bytes ++ body
        rw [bytes_concatb, hbody]
      · cases hcm : ctx.m with
        | none => rw [hcm] at hm; cases hm
        | some m0 =>
          rw [hcm] at hm
          cases hm
          obtain ⟨hwf, hd, pieces, hpieces, hall⟩ := h.pending m0 hcm
          refine ⟨fun x hx => ?_, hd, pieces ++ [body], ?_, fun x hx => ?_⟩
          · have hx : x ∈ m0.blocks ++ (im.setRptr (im.first.rptr + 2)).blocks := hx
            rw [hpb.blocks_eq] at hx
            rcases mem_append.mp hx with hx | hx
            · exact hwf x hx
            · exact mem_singleton.mp hx ▸ hpb.wf
          · rw [bytes_concatb, hbody, hpieces, flatten_append, flatten_singleton, cons_append]
          · rcases mem_append.mp hx with hx | hx
            · exact hall x hx
            · rw [mem_singleton.mp hx]
              exact ⟨_, hmem, hsuffix⟩
  have hrun : aggregateFua strictMemory ctx im = fuaFinish ctx fu im.marker m := by
    simp only [aggregateFua, h1, bind, Except.bind, hchain]
  rw [hrun]
  have hnone : Sane payloads { ctx with m := none } :=
    ⟨h.queued, fun _ hn => (by cases hn), h.noSps⟩
  cases m with
  | none => exact ⟨_, rfl, hnone⟩
  | some m =>
    unfold fuaFinish
    by_cases he : (fu >>> 6) &&& 0x1 ≠ 0
    · obtain ⟨hlt, hstore⟩ := hs he m.bytes hbytes.symm
      obtain ⟨hwf, hreb⟩ := hsane m rfl
      obtain ⟨om, hok, hplain, hob, -, -, -⟩ := msgpullup_eq hwf (.inr hlt)
      obtain ⟨ctx', hst, hsn, -⟩ := sane_storeNal hnone (om.setMarkerInfo im.marker)
        ⟨hplain.cont_eq, hplain.wf⟩ (by rw [bytes_setMarkerInfo, hob]; exact hstore)
        (by rw [bytes_setMarkerInfo, hob]; exact .inr hreb)
      simp only [if_pos he, hok]
      exact ⟨ctx', hst, hsn⟩
    · simp only [if_neg he]
      refine ⟨_, rfl, h.queued, fun m' hm' => ?_, h.noSps⟩
      cases hm'
      exact hsane m rfl

/-- A well-shaped payload is handled within its blocks, and what is handed out is made of
received bytes. -/
theorem sane_unpack2 (h : Sane payloads ctx) {im : Mblk} (hp : im.Plain)
    (hmem : im.bytes ∈ payloads) (hw : WellShaped ctx im) :
    ∃ ctx' out ret, rfc3984Unpack2 strictMemory ctx im [] = .ok (ctx', out, ret) ∧
      Sane payloads ctx' ∧ ∀ nal ∈ out, nal.Plain ∧ FromReceived payloads nal.bytes := by
  have hflush : Sane payloads (flushOnNewTimestamp ctx [] im.timestamp).1 ∧
      (flushOnNewTimestamp ctx [] im.timestamp).1.m = ctx.m ∧
      ∀ nal ∈ (flushOnNewTimestamp ctx [] im.timestamp).2.1,
        nal.Plain ∧ FromReceived payloads nal.bytes := by
    unfold flushOnNewTimestamp
    split
    · simp only
      split
      · rw [outputFrame_eq { ctx with lastTs := im.timestamp } h.noSps]
        exact ⟨⟨fun _ hx => absurd hx not_mem_nil, h.pending, h.noSps⟩, rfl, h.queued⟩
      · exact ⟨⟨h.queued, h.pending, h.noSps⟩, rfl, fun _ hx => absurd hx not_mem_nil⟩
    · exact ⟨h, rfl, fun _ hx => absurd hx not_mem_nil⟩
  unfold WellShaped at hw
  obtain ⟨hsane, hm, hout⟩ := hflush
  have hpull : msgpullup im = .ok im := by rw [msgpullup, if_pos hp.cont_eq]
  unfold rfc3984Unpack2
  generalize flushOnNewTimestamp ctx [] im.timestamp = f at hw hsane hm hout
  obtain ⟨fctx, fout, fret⟩ := f
  have hcheck : Sane payloads (checkCseq fctx im.cseq) ∧ (checkCseq fctx im.cseq).m = ctx.m ∧
      (checkCseq fctx im.cseq).status.hasSPS = fctx.status.hasSPS ∧
      (checkCseq fctx im.cseq).status.hasPPS = fctx.status.hasPPS := by
    unfold checkCseq
    split
    · simp only
      split
      · exact ⟨⟨hsane.queued, hsane.pending, hsane.noSps⟩, hm, rfl, rfl⟩
      · exact ⟨⟨hsane.queued, hsane.pending, hsane.noSps⟩, hm, rfl, rfl⟩
    · exact ⟨⟨hsane.queued, hsane.pending, hsane.noSps⟩, hm, rfl, rfl⟩
  generalize hcc : checkCseq fctx im.cseq = cctx at hcheck
  obtain ⟨hcs, hcm, hsps, hpps⟩ := hcheck
  simp only at hw hout
  rw [← hsps, ← hpps, ← hcm] at hw
  cases hb : im.bytes with
  | nil => rw [hb] at hw; exact hw.elim
  | cons b rest =>
    rw [hb] at hw
    have h0 := strictMemory.peek_of_getElem (b := im.first) (i := 0) (v := b)
      (by rw [← hp.bytes_eq, hb]; rfl)
    have hdisp : ∃ ctx', dispatch strictMemory cctx (nalHeaderGetType b) im = .ok ctx' ∧
        Sane payloads ctx' := by
      unfold dispatch
      simp only at hw
      split at hw
      · next ha =>
        rw [if_pos ha]
        refine sane_stapALoop hp hmem hw hcs rfl rfl ?_ ?_ ?_
        · rw [hb]; exact Nat.le_add_left 1 _
        · rw [hb]; rfl
        · rw [hp.size_eq]; omega
      · next ha =>
        split at hw
        · next hf =>
          rw [if_neg ha, if_pos hf]
          cases rest with
          | nil => exact hw.elim
          | cons fu body => exact sane_fragment hcs hp hmem hb hw
        · next hf =>
          rw [if_neg ha, if_neg hf]
          have hr : FromReceived payloads im.bytes :=
            .inl ⟨by rw [hb]; exact cons_ne_nil _ _, _, hmem, infix_refl _⟩
          have hpurged : Sane payloads { cctx with m := none } :=
            ⟨hcs.queued, fun _ hn => (nomatch hn), hcs.noSps⟩
          obtain ⟨ctx', hst, hsn, -⟩ := sane_storeNal hpurged im hp (by rw [hb]; exact hw) hr
          exact ⟨ctx', hst, hsn⟩
    obtain ⟨ctx', hrun, hsn⟩ := hdisp
    simp only [h0, hpull, bind, Except.bind, hcc, hrun]
    split
    · rw [outputFrame_eq { ctx' with lastTs := im.timestamp } hsn.noSps]
      refine ⟨_, _, _, rfl, ⟨fun _ hx => absurd hx not_mem_nil, hsn.pending, hsn.noSps⟩,
        fun nal hn => ?_⟩
      rcases mem_append.mp hn with hn | hn
      · exact hout nal hn
      · exact hsn.queued nal hn
    · exact ⟨_, _, _, rfl, hsn, hout⟩

end Steps

/-! ### Runs -/

/-- A run over received packets: the last context and the queue each call filled. -/
def unpackRun (mem : Memory) : Rfc3984Context → List Mblk →
    Except Fault (Rfc3984Context × List MSQueue)
  | ctx, [] => .ok (ctx, [])
  | ctx, im :: ims => do
    let (ctx, out, _) ← rfc3984Unpack2 mem ctx im []
    let (ctx, outs) ← unpackRun mem ctx ims
    return (ctx, out :: outs)

/-- Every packet of a run is well shaped for the context it meets. -/
def StepsShaped : Rfc3984Context → List Mblk → Prop
  | _, [] => True
  | ctx, im :: ims => WellShaped ctx im ∧
      ∀ ctx' out ret, rfc3984Unpack2 strictMemory ctx im [] = .ok (ctx', out, ret) →
        StepsShaped ctx' ims

theorem sane_unpackRun {payloads : List (List UInt8)} (ims : List Mblk)
    {ctx : Rfc3984Context} (h : Sane payloads ctx)
    (hrec : ∀ im ∈ ims, im.Plain ∧ im.bytes ∈ payloads) (hs : StepsShaped ctx ims) :
    ∃ ctx' outs, unpackRun strictMemory ctx ims = .ok (ctx', outs) ∧ Sane payloads ctx' ∧
      ∀ out ∈ outs, ∀ nal ∈ out, nal.Plain ∧ FromReceived payloads nal.bytes := by
  induction ims generalizing ctx with
  | nil => exact ⟨ctx, [], rfl, h, fun _ hx => absurd hx not_mem_nil⟩
  | cons im ims ih =>
    obtain ⟨hp, hmem⟩ := hrec im mem_cons_self
    obtain ⟨ctx1, out, ret, hrun, hsane, hout⟩ := sane_unpack2 h hp hmem hs.1
    obtain ⟨ctx2, outs, hrun2, hsane2, houts⟩ := ih hsane
      (fun x hx => hrec x (mem_cons_of_mem _ hx)) (hs.2 _ _ _ hrun)
    refine ⟨ctx2, out :: outs, ?_, hsane2, fun o ho => ?_⟩
    · rw [unpackRun, hrun]
      simp only [bind, Except.bind, hrun2]
      rfl
    · rcases mem_cons.mp ho with rfl | ho
      · exact hout
      · exact houts o ho

/-- A run over well shaped payloads reads no byte at or past a write pointer and turns no block
around; chain and queues hold well-formed blocks, and every NALU handed out is made of received
bytes. -/
theorem unpackRun_safe (ims : List Mblk) (hrec : ∀ im ∈ ims, im.Plain ∧ im.bytes ≠ [])
    (hs : StepsShaped rfc3984Init ims) :
    ∃ ctx outs, unpackRun strictMemory rfc3984Init ims = .ok (ctx, outs) ∧
      Sane (ims.map bytes) ctx ∧
      ∀ out ∈ outs, ∀ nal ∈ out, nal.Plain ∧ FromReceived (ims.map bytes) nal.bytes :=
  sane_unpackRun ims (sane_init _) (fun im him => ⟨(hrec im him).1, mem_map_of_mem him⟩) hs

/-- A parameter set followed by a marked aggregate of one IDR slice. -/
theorem unpackRun_safe_aggregate :
    let ims := [ofBytes [0x67, 1], (ofBytes [0x78, 0, 1, 0x65]).setMarkerInfo true]
    ∃ ctx outs, unpackRun strictMemory rfc3984Init ims = .ok (ctx, outs) ∧
      Sane (ims.map bytes) ctx ∧
      ∀ out ∈ outs, ∀ nal ∈ out, nal.Plain ∧ FromReceived (ims.map bytes) nal.bytes := by
  intro ims
  refine unpackRun_safe ims (fun im him => ?_) ⟨fun _ hf => absurd hf (by decide), ?_⟩
  · simp only [ims, mem_cons, not_mem_nil, or_false] at him
    rcases him with rfl | rfl
    · exact ⟨⟨rfl, Block.wf_ofBytes _⟩, by decide⟩
    · exact ⟨⟨rfl, Block.wf_ofBytes _⟩, by decide⟩
  · intro ctx' out ret hrun
    have heq : (_, _, _) = (ctx', out, ret) := Except.ok.inj hrun
    cases heq
    refine ⟨?_, fun _ _ _ _ => trivial⟩
    refine @StapShaped.entry _ _ _ _ _ [0x65] [] rfl ?_ (.done _ _)
    exact fun _ hpps => absurd hpps (by decide)

/-- A STAP-A packet with one byte where the size of an entry should be is read past its end. -/
theorem unpackRun_stapOneByte : ¬ ∀ ims : List Mblk, (∀ im ∈ ims, im.Plain ∧ im.bytes ≠ []) →
      ∃ ctx outs, unpackRun strictMemory rfc3984Init ims = .ok (ctx, outs) := by
  intro hclaim
  obtain ⟨ctx, outs, hrun⟩ := hclaim [ofBytes [0x78, 0]] fun im him => by
    rw [mem_singleton.mp him]
    exact ⟨⟨rfl, Block.wf_ofBytes _⟩, by decide⟩
  cases hrun

end GrooveIp.H264
