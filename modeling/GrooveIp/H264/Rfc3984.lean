import GrooveIp.Ortp.Mblk

/-!
# H264 over RTP

The packer and the unpacker of `rfc3984.c`: a NALU travels alone, aggregated with others
in a STAP-A packet, or cut into FU-A packets. Both directions share `Rfc3984Context`. Reads
through `b_rptr` go through a `Memory`, so that a read past a write pointer is either a
fault or an arbitrary byte.
-/

namespace GrooveIp.H264

open Lib Ortp

/-- `TYPE_FU_A` (`rfc3984.c:26`). -/
def typeFuA : UInt8 := 28

/-- `TYPE_STAP_A` (`rfc3984.c:27`). -/
def typeStapA : UInt8 := 24

/-- `MSH264NaluTypeIDR` (`h264utils.h:30`). -/
def naluTypeIDR : UInt8 := 5

/-- `MSH264NaluTypeSPS` (`h264utils.h:32`). -/
def naluTypeSPS : UInt8 := 7

/-- `MSH264NaluTypePPS` (`h264utils.h:33`). -/
def naluTypePPS : UInt8 := 8

/-- `nal_header_init` (`rfc3984.c:30–32`). -/
def nalHeaderInit (nri type : UInt8) : UInt8 := ((nri &&& 0x3) <<< 5) ||| (type &&& 0x1F)

/-- `nal_header_get_type` (`rfc3984.c:34–36`). -/
def nalHeaderGetType (h : UInt8) : UInt8 := h &&& 0x1F

/-- `nal_header_get_nri` (`rfc3984.c:38–40`). -/
def nalHeaderGetNri (h : UInt8) : UInt8 := (h >>> 5) &&& 0x3

/-- The bits of `Rfc3984Status` (`rfc3984.h:35–44`), each as a field. -/
structure Rfc3984Status where
  frameAvailable : Bool := false
  frameCorrupted : Bool := false
  isKeyFrame : Bool := false
  newSPS : Bool := false
  newPPS : Bool := false
  hasSPS : Bool := false
  hasPPS : Bool := false
  hasIDR : Bool := false
  deriving DecidableEq, Repr

/-- `Rfc3984Context` (`rfc3984.h:46–58`). -/
structure Rfc3984Context where
  q : MSQueue := []
  m : Option Mblk := none
  maxsz : Int := 1440
  status : Rfc3984Status := {}
  sps : Option Mblk := none
  pps : Option Mblk := none
  lastSps : Option Mblk := none
  lastPps : Option Mblk := none
  lastTs : UInt32 := 0x943FEA43
  refCseq : UInt16 := 0
  mode : UInt8 := 0
  stapAAllowed : Bool := true
  initializedRefCseq : Bool := false
  deriving DecidableEq, Repr

/-- `rfc3984_new` and `rfc3984_init` (`rfc3984.c:42–63`). -/
def rfc3984Init : Rfc3984Context := {}

/-! ## Packing -/

/-- `send_packet` (`rfc3984.c:76–81`). -/
def sendPacket (ctx : Rfc3984Context) (rtpq : MSQueue) (ts : UInt32) (m : Mblk)
    (marker : Bool) : Rfc3984Context × MSQueue :=
  let m := ((m.setTimestampInfo ts).setMarkerInfo marker).setCseq ctx.refCseq
  ({ ctx with refCseq := ctx.refCseq + 1 }, rtpq ++ [m])

/-- `put_nal_size` (`rfc3984.c:83–87`): the size as 16 bits in network order. -/
def putNalSize (sz : Int) : List UInt8 :=
  [UInt8.ofNat (sz % 65536 / 256).toNat, UInt8.ofNat (sz % 256).toNat]

variable (mem : Memory)

/-- `prepend_stapa` (`rfc3984.c:89–96`). -/
def prependStapa (m : Mblk) : Except Fault Mblk := do
  let h ← mem.peek m.first 0
  let hm := Mblk.ofBytes (nalHeaderInit (nalHeaderGetNri h) typeStapA :: putNalSize m.msgdsize)
  return { hm with cont := m.blocks }

/-- `concat_nalus` (`rfc3984.c:98–108`). -/
def concatNalus (m1 m2 : Mblk) : Except Fault Mblk := do
  let h ← mem.peek m1.first 0
  let m1 ← if nalHeaderGetType h ≠ typeStapA then prependStapa mem m1 else pure m1
  let l := { Mblk.ofBytes (putNalSize m2.msgdsize) with cont := m2.blocks }
  return m1.concatb l

/-- `prepend_fu_indicator_and_header` (`rfc3984.c:110–119`); a start fragment loses the
original NALU header. -/
def prependFuIndicatorAndHeader (m : Mblk) (indicator : UInt8) (start last : Bool)
    (type : UInt8) : Mblk :=
  let h := Mblk.ofBytes
    [indicator, (if start then 0x80 else 0) ||| (if last then 0x40 else 0) ||| type]
  let m := if start then m.setRptr (m.first.rptr + 1) else m
  { h with cont := m.blocks }

/-- The loop of `frag_nalu_and_send` (`rfc3984.c:130–137`); it returns what is left of the
NALU. -/
def fragLoop (ts : UInt32) (payloadMaxSize : Int) (fuIndicator type : UInt8) :
    Nat → Rfc3984Context → MSQueue → Mblk → Bool → Except Fault (Rfc3984Context × MSQueue × Mblk)
  | 0, _, _, _, _ => .error .diverged
  | fuel + 1, ctx, rtpq, nalu, start =>
    if nalu.first.size > payloadMaxSize then
      let cut := (nalu.first.rptr + payloadMaxSize).toNat
      let m := prependFuIndicatorAndHeader (nalu.dupb.setWptr cut) fuIndicator start false type
      let (ctx, rtpq) := sendPacket ctx rtpq ts m false
      fragLoop ts payloadMaxSize fuIndicator type fuel ctx rtpq (nalu.setRptr cut) false
    else .ok (ctx, rtpq, nalu)

/-- `frag_nalu_and_send` (`rfc3984.c:121–141`). -/
def fragNaluAndSend (ctx : Rfc3984Context) (rtpq : MSQueue) (ts : UInt32)
    (nalu : Mblk) (marker : Bool) (maxsize : Int) : Except Fault (Rfc3984Context × MSQueue) := do
  let h ← mem.peek nalu.first 0
  let type := nalHeaderGetType h
  let fuIndicator := nalHeaderInit (nalHeaderGetNri h) typeFuA
  let (ctx, rtpq, nalu) ←
    fragLoop ts (maxsize - 2) fuIndicator type (nalu.first.size.toNat + 1) ctx rtpq nalu true
  let m := prependFuIndicatorAndHeader nalu fuIndicator false true type
  return sendPacket ctx rtpq ts m marker

/-- `rfc3984_pack_mode_0` (`rfc3984.c:143–155`): an oversized NALU is only warned about. -/
def rfc3984PackMode0 (ts : UInt32) : MSQueue → Rfc3984Context → MSQueue → Rfc3984Context × MSQueue
  | [], ctx, rtpq => (ctx, rtpq)
  | m :: naluq, ctx, rtpq =>
    let (ctx, rtpq) := sendPacket ctx rtpq ts m naluq.isEmpty
    rfc3984PackMode0 ts naluq ctx rtpq

/-- The locals of `rfc3984_pack_mode_1` that live across its loop, with the context and the
queue it writes. -/
structure PackState where
  ctx : Rfc3984Context
  rtpq : MSQueue
  prevm : Option Mblk
  prevsz : Int

variable (ts : UInt32)

/-- A NALU that is not aggregated: `FU-A` when it is too large, alone otherwise
(`rfc3984.c:193–200, 203–209`). -/
def sendAlone (m : Mblk) (last : Bool) (s : PackState) : Except Fault PackState := do
  let (ctx, rtpq) ← if toInt32 m.first.size > s.ctx.maxsz then
      fragNaluAndSend mem s.ctx s.rtpq ts m last s.ctx.maxsz
    else pure (sendPacket s.ctx s.rtpq ts m last)
  return { s with ctx := ctx, rtpq := rtpq }

/-- The part of the loop after the pending packet was dealt with (`rfc3984.c:186–201`). -/
def packUnaggregated (m : Mblk) (last : Bool) (s : PackState) : Except Fault PackState :=
  let sz := toInt32 m.first.size
  if sz < s.ctx.maxsz.tdiv 2 then .ok { s with prevm := some m, prevsz := sz + 3 }
  else sendAlone mem ts m last s

/-- One turn of the loop of `rfc3984_pack_mode_1` (`rfc3984.c:162–210`). -/
def packMode1Step (m : Mblk) (last : Bool) (s : PackState) : Except Fault PackState :=
  if s.ctx.stapAAllowed then
    match s.prevm with
    | some prevm =>
      let sz := toInt32 m.first.size
      if toInt32 (s.prevsz + sz) < s.ctx.maxsz - 2 then do
        let prevm ← concatNalus mem prevm m
        return { s with prevm := some prevm, prevsz := s.prevsz + (sz + 2) }
      else
        let (ctx, rtpq) := sendPacket s.ctx s.rtpq ts prevm false
        packUnaggregated mem ts m last ⟨ctx, rtpq, none, 0⟩
    | none => packUnaggregated mem ts m last s
  else sendAlone mem ts m last s

/-- The loop of `rfc3984_pack_mode_1`. -/
def packMode1Loop (mem : Memory) (ts : UInt32) : MSQueue → PackState → Except Fault PackState
  | [], s => .ok s
  | m :: naluq, s => do
    let s ← packMode1Step mem ts m naluq.isEmpty s
    packMode1Loop mem ts naluq s

/-- `rfc3984_pack_mode_1` (`rfc3984.c:158–214`). -/
def rfc3984PackMode1 (naluq : MSQueue) (ctx : Rfc3984Context)
    (rtpq : MSQueue) : Except Fault (Rfc3984Context × MSQueue) := do
  let s ← packMode1Loop mem ts naluq ⟨ctx, rtpq, none, 0⟩
  match s.prevm with
  | some prevm => return sendPacket s.ctx s.rtpq ts prevm true
  | none => return (s.ctx, s.rtpq)

/-- `rfc3984_pack` (`rfc3984.c:449–460`); another mode sends nothing. -/
def rfc3984Pack (ctx : Rfc3984Context) (naluq rtpq : MSQueue) (ts : UInt32) :
    Except Fault (Rfc3984Context × MSQueue) :=
  if ctx.mode = 0 then .ok (rfc3984PackMode0 ts naluq ctx rtpq)
  else if ctx.mode = 1 then rfc3984PackMode1 mem ts naluq ctx rtpq
  else .ok (ctx, rtpq)

/-! ## Unpacking -/

/-- The chain of `ctx->m` after a fragment (`rfc3984.c:227–250`): a start fragment replaces it
by a rebuilt header, another one is lost when there is no chain. -/
def fuaChain (m : Option Mblk) (im : Mblk) (fuHeader : UInt8) : Except Fault (Option Mblk) :=
  let body := im.setRptr (im.first.rptr + 2)
  if fuHeader >>> 7 ≠ 0 then do
    let nri := nalHeaderGetNri (← mem.peek im.first 0)
    let newHeader := im.metaCopy (Mblk.ofBytes [nalHeaderInit nri (nalHeaderGetType fuHeader)])
    return some (newHeader.concatb body)
  else return m.map fun m => m.concatb body

/-- The end of a fragmented NALU (`rfc3984.c:251–258`), which takes the marker of its last
fragment. -/
def fuaFinish (ctx : Rfc3984Context) (fuHeader : UInt8) (marker : Bool) (m : Option Mblk) :
    Except Fault (Rfc3984Context × Option Mblk) :=
  match m with
  | some m =>
    if (fuHeader >>> 6) &&& 0x1 ≠ 0 then do
      let om ← msgpullup m
      return ({ ctx with m := none }, some (om.setMarkerInfo marker))
    else return ({ ctx with m := some m }, none)
  | none => return ({ ctx with m := none }, none)

/-- `aggregate_fua` (`rfc3984.c:216–260`). -/
def aggregateFua (ctx : Rfc3984Context) (im : Mblk) :
    Except Fault (Rfc3984Context × Option Mblk) := do
  let fuHeader ← mem.peek im.first 1
  let m ← fuaChain mem ctx.m im fuHeader
  fuaFinish ctx fuHeader im.marker m

/-- `output_frame` (`rfc3984.c:279–309`); `flags` is the corruption bit that is set along with
`Rfc3984FrameAvailable`. -/
def outputFrame (ctx : Rfc3984Context) (out : MSQueue) (corrupted : Bool) :
    Rfc3984Context × MSQueue × Rfc3984Status :=
  let res := { ctx.status with
    frameAvailable := true
    frameCorrupted := ctx.status.frameCorrupted || corrupted }
  let (ctx, out) :=
    match res.isKeyFrame, ctx.sps, ctx.pps with
    | true, some sps, some pps => ({ ctx with sps := none, pps := none }, out ++ [sps, pps])
    | _, _, _ => (ctx, out)
  ({ ctx with q := [], status := {} }, out ++ ctx.q, res)

/-- `update_parameter_set` (`rfc3984.c:311–326`): whether the set is new. -/
def updateParameterSet (last : Option Mblk) (new : Mblk) : Bool :=
  match last with
  | some last => decide (last.first.bytes ≠ new.first.bytes)
  | none => true

/-- `is_unique_I_slice` (`rfc3984.c:328–331`). -/
def isUniqueISlice (sliceHeader : UInt8) : Bool := sliceHeader == 0x88

/-- The status bits and the stored parameter sets after a NALU of a type
(`rfc3984.c:347–361`). -/
def noteNaluType (ctx : Rfc3984Context) (type : UInt8) (nal : Mblk) : Rfc3984Context :=
  if type = naluTypeIDR then
    { ctx with status := { ctx.status with hasIDR := true, isKeyFrame := true } }
  else if type = naluTypeSPS then
    let new := updateParameterSet ctx.lastSps nal
    { ctx with
      status := { ctx.status with hasSPS := true, newSPS := ctx.status.newSPS || new }
      lastSps := if new then some nal else ctx.lastSps }
  else if type = naluTypePPS then
    let new := updateParameterSet ctx.lastPps nal
    { ctx with
      status := { ctx.status with hasPPS := true, newPPS := ctx.status.newPPS || new }
      lastPps := if new then some nal else ctx.lastPps }
  else ctx

/-- What `store_nal` does once the type of the NALU is known and whether it is a single
I-slice that makes a key frame (`rfc3984.c:342–362`). -/
def storeTyped (ctx : Rfc3984Context) (type : UInt8) (unique : Bool) (nal : Mblk) :
    Rfc3984Context :=
  let ctx := { ctx with
    status := { ctx.status with isKeyFrame := ctx.status.isKeyFrame || unique } }
  let ctx := noteNaluType ctx type nal
  { ctx with q := ctx.q ++ [nal] }

/-- `store_nal` (`rfc3984.c:333–363`). -/
def storeNal (ctx : Rfc3984Context) (nal : Mblk) : Except Fault Rfc3984Context := do
  let type := nalHeaderGetType (← mem.peek nal.first 0)
  let unique ← if ctx.status.hasSPS ∧ ctx.status.hasPPS ∧ type ≠ naluTypeIDR ∧ nal.marker then
      isUniqueISlice <$> mem.peek nal.first 1
    else pure false
  return storeTyped ctx type unique nal

/-- The STAP-A loop (`rfc3984.c:408–425`); `p` is the cursor's offset from `b_rptr`. -/
def stapALoop (mem : Memory) (im : Mblk) : Nat → Nat → Rfc3984Context → Except Fault Rfc3984Context
  | 0, _, _ => .error .diverged
  | fuel + 1, p, ctx =>
    if p < im.first.size then do
      let hi ← mem.peek im.first p
      let lo ← mem.peek im.first (p + 1)
      let sz := hi.toNat * 256 + lo.toNat
      let p := p + 2
      let start := im.first.rptr + p
      let nal := (im.dupb.setRptr start).setWptr (start + sz)
      let p := p + sz
      if p > im.first.size then return ctx
      else do
        let ctx ← storeNal mem ctx nal
        stapALoop mem im fuel p ctx
    else .ok ctx

/-- The sequence number check (`rfc3984.c:389–399`). -/
def checkCseq (ctx : Rfc3984Context) (cseq : UInt16) : Rfc3984Context :=
  if ctx.initializedRefCseq then
    let ctx := { ctx with refCseq := ctx.refCseq + 1 }
    if ctx.refCseq ≠ cseq then
      { ctx with refCseq := cseq, status := { ctx.status with frameCorrupted := true } }
    else ctx
  else { ctx with initializedRefCseq := true, refCseq := cseq }

/-- `if (o) store_nal(ctx, o)` (`rfc3984.c:429`). -/
def storeCompleted (ctx : Rfc3984Context) : Option Mblk → Except Fault Rfc3984Context
  | some o => storeNal mem ctx o
  | none => .ok ctx

/-- The three payload kinds (`rfc3984.c:401–437`). -/
def dispatch (ctx : Rfc3984Context) (type : UInt8) (im : Mblk) : Except Fault Rfc3984Context :=
  if type = typeStapA then stapALoop mem im (im.first.size.toNat + 1) 1 ctx
  else if type = typeFuA then do
    let (ctx, o) ← aggregateFua mem ctx im
    storeCompleted mem ctx o
  -- a single NAL unit purges a discontinued FU-A
  else storeNal mem { ctx with m := none } im

/-- The output of a frame whose marker was not seen (`rfc3984.c:375–385`). -/
def flushOnNewTimestamp (ctx : Rfc3984Context) (out : MSQueue) (ts : UInt32) :
    Rfc3984Context × MSQueue × Rfc3984Status :=
  if ctx.lastTs ≠ ts then
    let ctx := { ctx with lastTs := ts }
    if ctx.m.isNone ∧ ¬ ctx.q.isEmpty then outputFrame ctx out true else (ctx, out, {})
  else (ctx, out, {})

/-- `rfc3984_unpack2` (`rfc3984.c:365–446`). -/
def rfc3984Unpack2 (ctx : Rfc3984Context) (im : Mblk) (out : MSQueue) :
    Except Fault (Rfc3984Context × MSQueue × Rfc3984Status) := do
  let type := nalHeaderGetType (← mem.peek im.first 0)
  let (ctx, out, ret) := flushOnNewTimestamp ctx out im.timestamp
  let im ← msgpullup im
  let ctx := checkCseq ctx im.cseq
  let ctx ← dispatch mem ctx type im
  if im.marker then return outputFrame { ctx with lastTs := im.timestamp } out false
  else return (ctx, out, ret)

end GrooveIp.H264
