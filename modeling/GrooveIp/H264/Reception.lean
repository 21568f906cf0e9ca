import GrooveIp.H264.PackFrame

/-!
# The unpacker refines an abstract receiver

`Reception` is `Rfc3984Context` as a receiver needs it: the store of NALUs, whether a packet
was missed, the last time stamp and sequence number. `rfc3984Unpack2_refines` shows that
`rfc3984_unpack2` computes one step of it on every packet that carries a payload; what is
read past a write pointer only reaches the key frame flag.
-/

namespace GrooveIp.H264

open Lib Ortp List

/-! ### The abstract receiver -/

/-- A receiver between two packets. -/
structure Reception where
  assembly : Assembly
  corrupted : Bool
  lastTs : UInt32
  refCseq : Option UInt16

/-- What one call hands out. -/
structure Delivery where
  out : List (List UInt8)
  available : Bool
  corrupted : Bool

namespace Reception

/-- The state a context starts in. -/
def initial : Reception := ⟨⟨[], none⟩, false, 0x943FEA43, none⟩

/-- A new time stamp hands out what an unfinished frame left, as corrupted. -/
def flush (r : Reception) (ts : UInt32) : Reception × Delivery :=
  if r.lastTs ≠ ts then
    if r.assembly.pending.isNone ∧ ¬ r.assembly.nals.isEmpty then
      (⟨⟨[], r.assembly.pending⟩, false, ts, r.refCseq⟩, ⟨r.assembly.nals, true, true⟩)
    else ({ r with lastTs := ts }, ⟨[], false, false⟩)
  else (r, ⟨[], false, false⟩)

/-- A gap in the sequence numbers corrupts the frame. -/
def check (r : Reception) (cseq : UInt16) : Reception :=
  { r with
    refCseq := some cseq
    corrupted := r.corrupted || match r.refCseq with
      | some c => decide (c + 1 ≠ cseq)
      | none => false }

/-- One packet. -/
def receive (r : Reception) (p : Payload) (ts : UInt32) (cseq : UInt16) (marker : Bool) :
    Reception × Delivery :=
  let d := (r.flush ts).2
  let r := (r.flush ts).1.check cseq
  let a := r.assembly.absorb p
  if marker then
    (⟨⟨[], a.pending⟩, false, ts, r.refCseq⟩, ⟨d.out ++ a.nals, true, r.corrupted⟩)
  else ({ r with assembly := a }, d)

end Reception

/-! ### The abstraction relation -/

/-- A context seen as a receiver. There are no out-of-band parameter sets, and the NALU being
rebuilt is a chain `msgpullup` measures correctly. -/
structure View (ctx : Rfc3984Context) (r : Reception) : Prop where
  nals : ctx.q.map Mblk.bytes = r.assembly.nals
  pending : ctx.m.map Mblk.bytes = r.assembly.pending
  corrupted : ctx.status.frameCorrupted = r.corrupted
  lastTs : ctx.lastTs = r.lastTs
  refCseq : r.refCseq = if ctx.initializedRefCseq then some ctx.refCseq else none
  noSps : ctx.sps = none
  pullable : ∀ m, ctx.m = some m → m.Pullable ∧ m.cont ≠ []

/-- A fresh context is a fresh receiver. -/
theorem view_init : View rfc3984Init Reception.initial :=
  ⟨rfl, rfl, rfl, rfl, rfl, rfl, fun _ h => nomatch h⟩

section Stages

variable {ctx : Rfc3984Context} {r : Reception}

/-- `output_frame` without out-of-band parameter sets empties the queue. -/
theorem outputFrame_eq (ctx : Rfc3984Context) (h : ctx.sps = none) (out : MSQueue) (corrupted : Bool) :
    outputFrame ctx out corrupted = ({ ctx with q := [], status := {} }, out ++ ctx.q,
      { ctx.status with
        frameAvailable := true
        frameCorrupted := ctx.status.frameCorrupted || corrupted }) := by
  cases hk : ctx.status.isKeyFrame <;> simp [outputFrame, h, hk]

theorem view_flush (h : View ctx r) (ts : UInt32) :
    View (flushOnNewTimestamp ctx [] ts).1 (r.flush ts).1 ∧
      (flushOnNewTimestamp ctx [] ts).2.1.map Mblk.bytes = (r.flush ts).2.out ∧
      (flushOnNewTimestamp ctx [] ts).2.2.frameAvailable = (r.flush ts).2.available ∧
      (flushOnNewTimestamp ctx [] ts).2.2.frameCorrupted = (r.flush ts).2.corrupted := by
  have hm : ctx.m.isNone = r.assembly.pending.isNone := by rw [← h.pending, Option.isNone_map]
  have hq : ctx.q.isEmpty = r.assembly.nals.isEmpty := by rw [← h.nals, isEmpty_map]
  unfold flushOnNewTimestamp Reception.flush
  rw [h.lastTs]
  split
  · simp only [hm, hq]
    split
    · rw [outputFrame_eq { ctx with lastTs := ts } h.noSps]
      refine ⟨⟨rfl, h.pending, rfl, rfl, h.refCseq, h.noSps, h.pullable⟩, ?_, rfl, Bool.or_true _⟩
      exact h.nals
    · exact ⟨⟨h.nals, h.pending, h.corrupted, rfl, h.refCseq, h.noSps, h.pullable⟩, rfl, rfl, rfl⟩
  · exact ⟨h, rfl, rfl, rfl⟩

theorem view_check (h : View ctx r) (cseq : UInt16) : View (checkCseq ctx cseq) (r.check cseq) := by
  unfold checkCseq Reception.check
  rw [h.refCseq]
  cases hi : ctx.initializedRefCseq with
  | false =>
    exact ⟨h.nals, h.pending, by simpa using h.corrupted, h.lastTs, rfl, h.noSps, h.pullable⟩
  | true =>
    by_cases hc : ctx.refCseq + 1 = cseq
    · simp only [if_true, ne_eq, hc, not_true, if_false]
      exact ⟨h.nals, h.pending, by simpa using h.corrupted, h.lastTs, by simp, h.noSps, h.pullable⟩
    · simp only [if_true, ne_eq, hc, not_false_eq_true]
      exact ⟨h.nals, h.pending, by simp, h.lastTs, by simp, h.noSps, h.pullable⟩

theorem view_storeTyped (h : View ctx r) (type : UInt8) (unique : Bool) (nal : Mblk) :
    (storeTyped ctx type unique nal).m = ctx.m ∧ View (storeTyped ctx type unique nal)
        { r with assembly := ⟨r.assembly.nals ++ [nal.bytes], r.assembly.pending⟩ } := by
  have hq : (ctx.q ++ [nal]).map Mblk.bytes = r.assembly.nals ++ [nal.bytes] := by
    rw [map_append, h.nals]
    rfl
  unfold storeTyped noteNaluType
  split
  · exact ⟨rfl, hq, h.pending, h.corrupted, h.lastTs, h.refCseq, h.noSps, h.pullable⟩
  · split
    · exact ⟨rfl, hq, h.pending, h.corrupted, h.lastTs, h.refCseq, h.noSps, h.pullable⟩
    · split
      · exact ⟨rfl, hq, h.pending, h.corrupted, h.lastTs, h.refCseq, h.noSps, h.pullable⟩
      · exact ⟨rfl, hq, h.pending, h.corrupted, h.lastTs, h.refCseq, h.noSps, h.pullable⟩

variable (junk : UInt8)

theorem storeNal_loose (ctx : Rfc3984Context) (nal : Mblk) :
    ∃ type unique, storeNal (looseMemory junk) ctx nal = .ok (storeTyped ctx type unique nal) := by
  unfold storeNal
  simp only [looseMemory, bind, Except.bind]
  split
  · exact ⟨_, _, rfl⟩
  · exact ⟨_, _, rfl⟩

theorem putNalSize_value {n : Nat} (hn : n < 65536) :
    ∃ hi lo : UInt8, putNalSize n = [hi, lo] ∧ hi.toNat * 256 + lo.toNat = n := by
  refine ⟨_, _, rfl, ?_⟩
  have hhi : ((n : Int) % 65536 / 256).toNat = n / 256 := by omega
  have hlo : ((n : Int) % 256).toNat = n % 256 := by omega
  rw [hhi, hlo, UInt8.toNat_ofNat_of_lt' (by show n / 256 < 256; omega),
    UInt8.toNat_ofNat_of_lt' (by show n % 256 < 256; omega)]
  omega

variable {im : Mblk}

/-- A window of a message of one block is a message with the bytes of the window. -/
theorem window_bytes (hp : im.Plain) {p n : Nat} (h : p + n ≤ im.bytes.length) :
    ((im.dupb.setRptr (im.first.rptr + p)).setWptr (im.first.rptr + p + n)).bytes =
      (im.bytes.drop p).take n := by
  have hsize := hp.size_eq
  unfold Block.size at hsize
  rw [hp.bytes_eq, ← Block.bytes_window im.first (p := p) (n := n) (by omega)]
  exact append_nil _

/-- Such a window is a message of one block with the marker of the packet. -/
theorem window_plain (hp : im.Plain) {p n : Nat} (h : p + n ≤ im.bytes.length) :
    ((im.dupb.setRptr (im.first.rptr + p)).setWptr (im.first.rptr + p + n)).Plain ∧
      ((im.dupb.setRptr (im.first.rptr + p)).setWptr (im.first.rptr + p + n)).marker =
        im.marker := by
  have hsize := hp.size_eq
  have hw := hp.wf.wptr_le
  unfold Block.size at hsize
  refine ⟨⟨rfl, ⟨Nat.le_add_right _ _, ?_⟩⟩, rfl⟩
  show im.first.rptr + p + n ≤ im.first.datap.length
  omega

theorem view_stapALoop (hp : im.Plain) (nals : List (List UInt8))
    {p fuel : Nat} {ctx : Rfc3984Context} {r : Reception} (h : View ctx r)
    (hple : p ≤ im.bytes.length)
    (hrest : im.bytes.drop p = nals.flatMap fun n => putNalSize n.length ++ n)
    (hs : ∀ n ∈ nals, n.length < 65536) (hf : im.bytes.length - p < fuel) :
    ∃ ctx', stapALoop (looseMemory junk) im fuel p ctx = .ok ctx' ∧
      View ctx' { r with assembly := ⟨r.assembly.nals ++ nals, r.assembly.pending⟩ } := by
  induction nals generalizing p fuel ctx r with
  | nil =>
    have hlen : (im.bytes.drop p).length = 0 := by rw [hrest]; rfl
    rw [length_drop] at hlen
    obtain ⟨fuel, rfl⟩ : ∃ k, fuel = k + 1 := ⟨fuel - 1, by omega⟩
    rw [stapALoop, hp.size_eq, if_neg (by omega)]
    exact ⟨ctx, rfl, by rw [append_nil]; exact h⟩
  | cons n nals ih =>
    obtain ⟨hi, lo, hput, hval⟩ := putNalSize_value (hs n mem_cons_self)
    have hdrop : im.bytes.drop p = hi :: lo :: (n ++ nals.flatMap fun n =>
        putNalSize n.length ++ n) := by
      rw [hrest, flatMap_cons, hput, append_assoc]
      rfl
    have hlen : im.bytes.length = p + (2 + (n.length + (nals.flatMap fun n =>
        putNalSize n.length ++ n).length)) := by
      have := congrArg List.length hdrop
      rw [length_drop, length_cons, length_cons, length_append] at this
      omega
    have hget (i : Nat) : im.first.bytes[p + i]? = (im.bytes.drop p)[i]? := by
      rw [List.getElem?_drop, hp.bytes_eq]
    have hhi := (looseMemory junk).peek_of_getElem (b := im.first) (i := p) (v := hi)
      (by rw [← Nat.add_zero p, hget, hdrop]; rfl)
    have hlo := (looseMemory junk).peek_of_getElem (b := im.first) (i := p + 1) (v := lo)
      (by rw [hget, hdrop]; rfl)
    have hnal := window_bytes hp (p := p + 2) (n := n.length) (by omega)
    rw [← drop_drop, hdrop] at hnal
    have hnal' : (List.drop 2 (hi :: lo :: (n ++ nals.flatMap fun n =>
        putNalSize n.length ++ n))).take n.length = n := by
      simp
    rw [hnal'] at hnal
    obtain ⟨type, unique, hstore⟩ := storeNal_loose junk ctx
      ((im.dupb.setRptr (im.first.rptr + (p + 2))).setWptr (im.first.rptr + (p + 2) + n.length))
    have hview := (view_storeTyped h type unique
      ((im.dupb.setRptr (im.first.rptr + (p + 2))).setWptr (im.first.rptr + (p + 2) + n.length))).2
    rw [hnal] at hview
    obtain ⟨fuel, rfl⟩ : ∃ k, fuel = k + 1 := ⟨fuel - 1, by omega⟩
    have hrest' : im.bytes.drop (p + 2 + n.length) = nals.flatMap fun n =>
        putNalSize n.length ++ n := by
      rw [← drop_drop, ← drop_drop, hdrop]
      simp
    obtain ⟨ctx', hrun, hv⟩ := ih hview (by omega) hrest' (fun m hm => hs m (mem_cons_of_mem _ hm))
      (show im.bytes.length - (p + 2 + n.length) < fuel by omega)
    refine ⟨ctx', ?_, ?_⟩
    · rw [stapALoop, hp.size_eq, if_pos (by omega), hhi, hlo]
      simp only [bind, Except.bind, hval]
      rw [if_neg (by omega), hstore]
      exact hrun
    · rwa [append_assoc] at hv

theorem pullable_concatb {m body : Mblk} (hm : m.Pullable ∧ m.cont ≠ [])
    (hb : body.Plain) (hlen : body.bytes.length < 2 ^ 31) :
    (m.concatb body).Pullable ∧ (m.concatb body).cont ≠ [] := by
  have hblocks : (m.concatb body).blocks = m.blocks ++ [body.first] := by
    rw [← hb.blocks_eq]
    rfl
  refine ⟨⟨fun b hmem => ?_, .inr fun b hmem => ?_⟩, ?_⟩
  · rw [hblocks] at hmem
    rcases mem_append.mp hmem with hmem | hmem
    · exact hm.1.wf b hmem
    · exact mem_singleton.mp hmem ▸ hb.wf
  · rw [hblocks] at hmem
    rcases mem_append.mp hmem with hmem | hmem
    · exact hm.1.small.resolve_left hm.2 b hmem
    · rw [mem_singleton.mp hmem, ← hb.bytes_eq]
      exact hlen
  · show m.cont ++ body.blocks ≠ []
    exact append_ne_nil_of_right_ne_nil _ (cons_ne_nil _ _)

theorem pullable_start {header : UInt8} {m0 : Mblk} (h0 : m0.blocks = [.ofBytes [header]])
    {body : Mblk} (hb : body.Plain) (hlen : body.bytes.length < 2 ^ 31) :
    (m0.concatb body).Pullable ∧ (m0.concatb body).cont ≠ [] := by
  have hblocks : (m0.concatb body).blocks = [.ofBytes [header], body.first] := by
    show m0.blocks ++ body.blocks = _
    rw [h0, hb.blocks_eq]
    rfl
  refine ⟨⟨fun b hmem => ?_, .inr fun b hmem => ?_⟩, ?_⟩
  · rw [hblocks] at hmem
    rcases mem_cons.mp hmem with rfl | hmem
    · exact Block.wf_ofBytes _
    · exact mem_singleton.mp hmem ▸ hb.wf
  · rw [hblocks] at hmem
    rcases mem_cons.mp hmem with rfl | hmem
    · rw [Block.bytes_ofBytes]
      exact (by decide : 1 < 2 ^ 31)
    · rw [mem_singleton.mp hmem, ← hb.bytes_eq]
      exact hlen
  · show m0.cont ++ body.blocks ≠ []
    exact append_ne_nil_of_right_ne_nil _ (cons_ne_nil _ _)

theorem view_complete (h : View ctx r) {m : Mblk}
    (hm : m.Pullable ∧ m.cont ≠ []) (marker : Bool) : (∃ om ctx', msgpullup m = .ok om ∧
      storeNal (looseMemory junk) { ctx with m := none } (om.setMarkerInfo marker) = .ok ctx' ∧
      View ctx' { r with assembly := ⟨r.assembly.nals ++ [m.bytes], none⟩ }) ∨
    ((∃ e, msgpullup m = .error e) ∧ 2 ^ 31 ≤ m.bytes.length) := by
  cases hr : msgpullup m with
  | error e =>
    refine .inr ⟨⟨e, rfl⟩, Nat.not_lt.mp fun hlt => ?_⟩
    obtain ⟨m', hok⟩ := msgpullup_total hm.1.wf (.inl hlt)
    rw [hr] at hok
    cases hok
  | ok om =>
    obtain ⟨-, hbytes, -⟩ := msgpullup_ok hm.1 hr
    obtain ⟨type, unique, hstore⟩ :=
      storeNal_loose junk { ctx with m := none } (om.setMarkerInfo marker)
    have hv : View { ctx with m := none } { r with assembly := ⟨r.assembly.nals, none⟩ } :=
      ⟨h.nals, rfl, h.corrupted, h.lastTs, h.refCseq, h.noSps, fun _ hn => nomatch hn⟩
    have hview := (view_storeTyped hv type unique (om.setMarkerInfo marker)).2
    rw [Mblk.bytes_setMarkerInfo, hbytes] at hview
    exact .inl ⟨om, _, rfl, hstore, hview⟩

variable {body : List UInt8}

/-- `im->b_rptr += 2` on a fragment leaves its body. -/
theorem fragmentBody (hp : im.Plain) {b fu : UInt8} (hb : im.bytes = b :: fu :: body) :
    (im.setRptr (im.first.rptr + 2)).Plain ∧ (im.setRptr (im.first.rptr + 2)).bytes = body := by
  have hsize := hp.size_eq
  have hlb : im.bytes.length = body.length + 2 := by rw [hb]; rfl
  have hpb : (im.setRptr (im.first.rptr + 2)).Plain := by
    refine ⟨hp.cont_eq, ⟨?_, hp.wf.wptr_le⟩⟩
    unfold Block.size at hsize
    show im.first.rptr + 2 ≤ im.first.wptr
    omega
  refine ⟨hpb, ?_⟩
  rw [hpb.bytes_eq]
  refine (Block.bytes_skip im.first 2).trans ?_
  rw [← hp.bytes_eq, hb]
  rfl

theorem fuaChain_loose (h : View ctx r) (hp : im.Plain) {b fu : UInt8}
    (hb : im.bytes = b :: fu :: body) (hlen : body.length + 2 < 2 ^ 31) :
    ∃ m, fuaChain (looseMemory junk) ctx.m im fu = .ok m ∧
      m.map Mblk.bytes = (if decide (fu >>> 7 ≠ 0) then
        some (nalHeaderInit (nalHeaderGetNri b) (nalHeaderGetType fu) :: body)
        else r.assembly.pending.map (· ++ body)) ∧
      ∀ m', m = some m' → m'.Pullable ∧ m'.cont ≠ [] := by
  obtain ⟨hpb, hbody⟩ := fragmentBody hp hb
  have hbl : (im.setRptr (im.first.rptr + 2)).bytes.length < 2 ^ 31 := by rw [hbody]; omega
  unfold fuaChain
  by_cases hs : fu >>> 7 ≠ 0
  · rw [if_pos hs, (looseMemory junk).peek_of_getElem (v := b) (by rw [← hp.bytes_eq, hb]; rfl),
      if_pos (decide_eq_true hs)]
    refine ⟨_, rfl, ?_, fun m hm => ?_⟩
    · rw [Option.map_some, Mblk.bytes_concatb, hbody]
      exact congrArg (fun x => some (x ++ body)) (Mblk.bytes_ofBytes _)
    · cases hm
      exact pullable_start rfl hpb hbl
  · rw [if_neg hs, if_neg (by simpa using hs)]
    refine ⟨_, rfl, ?_, fun m hm => ?_⟩
    · rw [← h.pending, Option.map_map, Option.map_map]
      refine congrArg (fun f => ctx.m.map f) (funext fun m => ?_)
      show (m.concatb _).bytes = m.bytes ++ body
      rw [Mblk.bytes_concatb, hbody]
    · cases hcm : ctx.m with
      | none => rw [hcm] at hm; cases hm
      | some m0 =>
        rw [hcm] at hm
        cases hm
        exact pullable_concatb (h.pullable m0 hcm) hpb hbl

theorem view_fragment (h : View ctx r) (hp : im.Plain) {b fu : UInt8}
    (hb : im.bytes = b :: fu :: body) (hlen : body.length + 2 < 2 ^ 31) :
    let a := r.assembly.absorb (.fragment (decide (fu >>> 7 ≠ 0))
      (decide ((fu >>> 6) &&& 0x1 ≠ 0)) (nalHeaderInit (nalHeaderGetNri b) (nalHeaderGetType fu))
      body)
    let run := (aggregateFua (looseMemory junk) ctx im).bind fun (ctx, o) =>
      storeCompleted (looseMemory junk) ctx o
    (∃ ctx', run = .ok ctx' ∧ View ctx' { r with assembly := a }) ∨
      ((∃ e, run = .error e) ∧ ∃ nal ∈ a.nals, 2 ^ 31 ≤ nal.length) := by
  intro a run
  obtain ⟨m, hchain, hbytes, hpull⟩ := fuaChain_loose junk h hp hb hlen
  have hrun : run = (fuaFinish ctx fu im.marker m).bind fun (ctx, o) =>
      storeCompleted (looseMemory junk) ctx o := by
    simp only [run, aggregateFua, (looseMemory junk).peek_of_getElem (b := im.first) (i := 1)
      (v := fu) (by rw [← hp.bytes_eq, hb]; rfl), bind, Except.bind, hchain]
  rw [hrun]
  simp only [a, Assembly.absorb, ← hbytes]
  cases m with
  | none =>
    exact .inl ⟨_, rfl, h.nals, rfl, h.corrupted, h.lastTs, h.refCseq, h.noSps,
      fun _ hn => nomatch hn⟩
  | some m =>
    unfold fuaFinish
    by_cases he : (fu >>> 6) &&& 0x1 ≠ 0
    · simp only [Option.map_some, if_pos he, decide_eq_true he, if_true]
      rcases view_complete junk h (hpull m rfl) im.marker with
        ⟨om, ctx', hok, hstore, hview⟩ | ⟨⟨e, hbad⟩, hbig⟩
      · rw [hok]
        exact .inl ⟨ctx', hstore, hview⟩
      · rw [hbad]
        exact .inr ⟨⟨e, rfl⟩, m.bytes, mem_append_right _ mem_cons_self, hbig⟩
    · simp only [Option.map_some, if_neg he, decide_eq_false he, Bool.false_eq_true, if_false]
      refine .inl ⟨_, rfl, h.nals, rfl, h.corrupted, h.lastTs, h.refCseq, h.noSps, fun m' hm' => ?_⟩
      cases hm'
      exact hpull m rfl

theorem view_dispatch (h : View ctx r) (hp : im.Plain) {p : Payload}
    (he : Encodes im.bytes p) : ∃ b, im.bytes.head? = some b ∧
    ((∃ ctx', dispatch (looseMemory junk) ctx (nalHeaderGetType b) im = .ok ctx' ∧
        View ctx' { r with assembly := r.assembly.absorb p }) ∨
      ((∃ e, dispatch (looseMemory junk) ctx (nalHeaderGetType b) im = .error e) ∧
        ∃ nal ∈ (r.assembly.absorb p).nals, 2 ^ 31 ≤ nal.length)) := by
  generalize hbs : im.bytes = bs at he
  unfold dispatch
  cases he with
  | @single b t ha hf =>
    refine ⟨b, rfl, .inl ?_⟩
    rw [if_neg ha, if_neg hf]
    obtain ⟨type, unique, hstore⟩ := storeNal_loose junk { ctx with m := none } im
    have hv : View { ctx with m := none } { r with assembly := ⟨r.assembly.nals, none⟩ } :=
      ⟨h.nals, rfl, h.corrupted, h.lastTs, h.refCseq, h.noSps, fun _ hn => nomatch hn⟩
    have hview := (view_storeTyped hv type unique im).2
    rw [hbs] at hview
    exact ⟨_, hstore, hview⟩
  | @aggregate b nals ha hs =>
    refine ⟨b, rfl, .inl ?_⟩
    rw [if_pos ha]
    refine view_stapALoop junk hp nals h ?_ ?_ hs ?_
    · rw [hbs]; exact Nat.le_add_left 1 _
    · rw [hbs]; rfl
    · rw [hp.size_eq]; omega
  | @fragment b fu body hf hs =>
    refine ⟨b, rfl, ?_⟩
    have ha : nalHeaderGetType b ≠ typeStapA := by rw [hf]; decide
    rw [if_neg ha, if_pos hf]
    exact view_fragment junk h hp hbs hs

end Stages

/-- `rfc3984_unpack2` on a packet that carries a payload is one step of the receiver. It fails
only when a rebuilt NALU reaches 2^31 bytes. -/
theorem rfc3984Unpack2_refines (junk : UInt8) {ctx : Rfc3984Context} {r : Reception}
    (h : View ctx r) {im : Mblk} {p : Payload} (hc : Carries im p) :
    (∃ ctx' out ret, rfc3984Unpack2 (looseMemory junk) ctx im [] = .ok (ctx', out, ret) ∧
      View ctx' (r.receive p im.timestamp im.cseq im.marker).1 ∧
      out.map Mblk.bytes = (r.receive p im.timestamp im.cseq im.marker).2.out ∧
      ret.frameAvailable = (r.receive p im.timestamp im.cseq im.marker).2.available ∧
      ret.frameCorrupted = (r.receive p im.timestamp im.cseq im.marker).2.corrupted) ∨
    ((∃ e, rfc3984Unpack2 (looseMemory junk) ctx im [] = .error e) ∧
      ∃ nal ∈ (((r.flush im.timestamp).1.check im.cseq).assembly.absorb p).nals,
        2 ^ 31 ≤ nal.length) := by
  obtain ⟨im', hpull, hp, hbytes, hts, hmk, hcs⟩ := msgpullup_eq hc.wf hc.short
  obtain ⟨hv, hout, hav, hcor⟩ := view_flush h im.timestamp
  have hvc := view_check hv im.cseq
  obtain ⟨b, hhead, hdisp⟩ := view_dispatch junk hvc hp (hbytes ▸ hc.encodes)
  have hpeek : (looseMemory junk).peek im.first 0 = .ok b := by
    refine (looseMemory junk).peek_of_getElem ?_
    rw [hbytes, Mblk.bytes_eq] at hhead
    cases hf : im.first.bytes with
    | nil => exact absurd hf hc.first_ne
    | cons x xs => rw [hf] at hhead; exact hhead
  have hrun : rfc3984Unpack2 (looseMemory junk) ctx im [] = (dispatch (looseMemory junk)
        (checkCseq (flushOnNewTimestamp ctx [] im.timestamp).1 im.cseq)
        (nalHeaderGetType b) im').bind fun ctx' =>
        if im.marker then .ok (outputFrame { ctx' with lastTs := im.timestamp }
          (flushOnNewTimestamp ctx [] im.timestamp).2.1 false)
        else .ok (ctx', (flushOnNewTimestamp ctx [] im.timestamp).2) := by
    simp only [rfc3984Unpack2, hpeek, hpull, bind, Except.bind, hts, hmk, hcs]
    rfl
  rw [hrun]
  rcases hdisp with ⟨ctx', hok, hview⟩ | ⟨⟨e, hbad⟩, hbig⟩
  · refine .inl ?_
    rw [hok]
    unfold Reception.receive
    cases hm : im.marker with
    | false =>
      exact ⟨ctx', _, _, rfl, hview, hout, hav, hcor⟩
    | true =>
      simp only [Except.bind, if_true]
      rw [outputFrame_eq { ctx' with lastTs := im.timestamp } hview.noSps]
      refine ⟨_, _, _, rfl, ⟨rfl, hview.pending, rfl, rfl, hview.refCseq, hview.noSps,
        hview.pullable⟩, ?_, rfl, ?_⟩
      · rw [map_append, hout, hview.nals]
      · rw [Bool.or_false]
        exact hview.corrupted
  · exact .inr ⟨⟨e, by rw [hbad]; rfl⟩, hbig⟩

end GrooveIp.H264
