import GrooveIp.Ortp.Rtcp

/-!
# Source descriptions

How the chunks of an SDES packet are filled with `appendb` (`rtcp.c:72–150`), how the packet is put
together (`rtcp.c:186`) and how it is parsed (`rtcpparse.c:143`).
-/

namespace GrooveIp.Ortp

open Lib List
open Block (alloc append_alloc)
open List (replicate)

/-! ## Chunks -/

/-- `rtcp_sdes_type_t` of the items that are sent (`rtcp.h:148`). -/
inductive SdesType where
  | cname
  | name
  | email
  | phone
  | loc
  | tool
  | note
  deriving DecidableEq, Repr

/-- The numbers of the types. -/
def SdesType.code : SdesType → UInt8
  | .cname => 1
  | .name => 2
  | .email => 3
  | .phone => 4
  | .loc => 5
  | .tool => 6
  | .note => 7

/-- The optional texts of a source description. -/
structure SdesTexts where
  name : Option (List UInt8) := none
  email : Option (List UInt8) := none
  phone : Option (List UInt8) := none
  loc : Option (List UInt8) := none
  tool : Option (List UInt8) := none
  note : Option (List UInt8) := none
  deriving DecidableEq, Repr

/-- A chunk that is being filled: the blocks left behind and the block that `m` points to. -/
structure SdesChunk where
  left : List Block
  last : Block

namespace SdesChunk

/-- The message that starts with the chunk's first block. -/
def message (m : SdesChunk) : Mblk :=
  match m.left with
  | [] => { first := m.last }
  | b :: bs => { first := b, cont := bs ++ [m.last] }

/-- `m = appendb(m, ..)`. -/
def appendb (m : SdesChunk) (data : List UInt8) (pad : Bool) : Except Fault SdesChunk := do
  let (b, behind) ← m.last.appendb data pad
  return match behind with
    | none => { m with last := b }
    | some new => ⟨m.left ++ [b], new⟩

/-- `sdes_chunk_new` (`rtcp.c:72`). -/
def new (ssrc : UInt32) : Except Fault SdesChunk := do
  let b ← (alloc 1024).append (htonl ssrc.toNat)
  return ⟨[], b⟩

/-- `sdes_chunk_append_item` (`rtcp.c:80`). -/
def appendItem (m : SdesChunk) (item : SdesType × Option (List UInt8)) : Except Fault SdesChunk :=
  match item.2 with
  | none => .ok m
  | some content => do
    let len := min content.length 255
    let m ← m.appendb [item.1.code, UInt8.ofNat len] false
    m.appendb (content.take len) false

/-- `sdes_chunk_pad` (`rtcp.c:99`): the terminator and zeros up to a multiple of four. -/
def pad (m : SdesChunk) : Except Fault SdesChunk := m.appendb [0] true

/-- `sdes_chunk_set_minimal_items` (`rtcp.c:103`). -/
def setMinimalItems (m : SdesChunk) (cname : Option (List UInt8)) : Except Fault SdesChunk :=
  m.appendItem (.cname, some (cname.getD "Unknown".toUTF8.toList))

/-- `sdes_chunk_set_full_items` (`rtcp.c:110`). -/
def setFullItems (m : SdesChunk) (cname : Option (List UInt8)) (texts : SdesTexts) :
    Except Fault SdesChunk := do
  let m ← m.setMinimalItems cname
  let m ← m.appendItem (.name, texts.name)
  let m ← m.appendItem (.email, texts.email)
  let m ← m.appendItem (.phone, texts.phone)
  let m ← m.appendItem (.loc, texts.loc)
  let m ← m.appendItem (.tool, texts.tool)
  let m ← m.appendItem (.note, texts.note)
  m.pad

end SdesChunk

/-! ## The session -/

/-- What the RTCP part of a session keeps (`rtpsession.h`). A round trip time is kept as the two
fields of the report that it is computed from. -/
structure RtcpSession where
  sndSsrc : UInt32
  rcvSsrc : UInt32
  rcvPt : Int := -1
  avpfEnabled : Bool := false
  tmmbrFeature : Bool := false
  fullSdes : Option Mblk := none
  minimalSdes : Option Mblk := none
  contributingSources : List Mblk := []
  fbPackets : List Mblk := []
  firSeqNr : UInt8 := 0
  tmmbrSent : Option Mblk := none
  tmmbrReceived : Option Mblk := none
  lastRcvSrTs : Nat := 0
  rtt : Option (Nat × Nat) := none
  cumLoss : Int := 0
  lastRcvrRttTs : Nat := 0

namespace RtcpSession

/-- `rtp_session_set_source_description` (`rtcp.c:128`). -/
def setSourceDescription (session : RtcpSession) (cname : List UInt8) (texts : SdesTexts) :
    Except Fault RtcpSession := do
  let full ← (← SdesChunk.new session.sndSsrc).setFullItems (some cname) texts
  let minimal ← (← (← SdesChunk.new session.sndSsrc).setMinimalItems (some cname)).pad
  return { session with fullSdes := some full.message, minimalSdes := some minimal.message }

/-- `rtp_session_add_contributing_source` (`rtcp.c:156`). -/
def addContributingSource (session : RtcpSession) (csrc : UInt32) (cname : Option (List UInt8))
    (texts : SdesTexts) : Except Fault RtcpSession := do
  let chunk ← (← SdesChunk.new csrc).setFullItems cname texts
  return { session with contributingSources := session.contributingSources ++ [chunk.message] }

end RtcpSession

/-- `sdes_chunk_set_ssrc` (`rtcp.c:92`), into the data block of the chunk. -/
def sdesChunkSetSsrc (m : Mblk) (ssrc : UInt32) : Mblk :=
  { m with first := { m.first with
      datap := m.first.datap.take m.first.rptr ++ htonl ssrc.toNat ++
        m.first.datap.drop (m.first.rptr + 4) } }

/-- The loop over the contributing sources (`rtcp.c:206`) with `tmp` on a source, at the end of the
queue (`some []`) or NULL. Its step is `qnext(q, mp)`, the `b_next` of the packet that is built. -/
def concatSources (bNext : Option (List Mblk)) (mp : Mblk) (rc : Nat) :
    Nat → Option (List Mblk) → Except Fault (Mblk × Nat)
  | 0, _ => .error .diverged
  | _ + 1, none => .error .nullDereference
  | _ + 1, some [] => .ok (mp, rc)
  | n + 1, some (tmp :: _) => concatSources bNext (mp.concatb tmp) (rc + 1) n bNext

variable (item : SdesType × Option (List UInt8)) (session : RtcpSession)

/-- The chunks behind the header, and their number. `allocb` has left `mp->b_next` NULL. -/
def concatChunks (full : Bool) (mp sdes : Mblk) : Except Fault (Mblk × Nat) :=
  if full then
    concatSources none (mp.concatb sdes) 1 2 (some session.contributingSources)
  else .ok (mp.concatb sdes, 1)

/-- The session with another chunk in place of the one that a packet is made of. -/
def RtcpSession.withSdes (full : Bool) (sdes : Mblk) : RtcpSession :=
  if full then { session with fullSdes := some sdes } else { session with minimalSdes := some sdes }

/-- `rtp_session_create_rtcp_sdes_packet` (`rtcp.c:186`). -/
def createRtcpSdesPacket (full : Bool) : Except Fault (RtcpSession × Mblk) :=
  match if full then session.fullSdes else session.minimalSdes with
  | none => .error .nullDereference
  | some sdes => do
    let sdes := sdesChunkSetSsrc sdes session.sndSsrc
    let first ← (alloc 4).append [0, 0, 0, 0]
    let (mp, rc) ← concatChunks session full { first := first } sdes
    let header ← (alloc 4).append (rtcpCommonHeaderInit .sdes rc mp.msgdsize.toNat)
    return (session.withSdes full sdes, { mp with first := header })

/-! ## Parsing -/

/-- What the callback of `rtcp_sdes_parse` is given. -/
structure SdesItemFound where
  ssrc : Nat
  type : UInt8
  content : List UInt8
  deriving DecidableEq, Repr

/-- The loop of `rtcp_sdes_parse` (`rtcpparse.c:153`) over a packet that starts at a multiple of
four. -/
def sdesParseLoop (m : List UInt8) (stop rptr ssrc nchunk : Nat) (chunkStart : Bool) :
    List SdesItemFound :=
  if rptr < stop then
    if chunkStart then
      if rptr + 4 ≤ stop then
        sdesParseLoop m stop (rptr + 4) (beNat ((m.drop rptr).take 4)) nchunk false
      else []
    else if rptr + 2 ≤ stop then
      let type := m.getD rptr 0
      let len := (m.getD (rptr + 1) 0).toNat
      if type = 0 then
        if nchunk + 1 < rtcpRc m then
          sdesParseLoop m stop ((rptr + 4) / 4 * 4) ssrc (nchunk + 1) true
        else []
      else if rptr + 2 + len ≤ stop then
        ⟨ssrc, type, (m.drop (rptr + 2)).take len⟩ ::
          sdesParseLoop m stop (rptr + 2 + len) ssrc nchunk false
      else []
    else []
  else []
termination_by stop - rptr

/-- `rtcp_sdes_parse` (`rtcpparse.c:143`): what the callback is given, in order. -/
def rtcpSdesParse (m : List UInt8) : List SdesItemFound :=
  sdesParseLoop m (min (4 + 4 * (rtcpLength m + 1)) m.length) 4 0 0 true

/-! ## What a chunk holds -/

/-- A piece of so many bytes goes behind the `cur` bytes of a block, or into a new block: the bytes
in the blocks left behind and in the last one. -/
def fillBlock (filled : Nat × Nat) (n : Nat) : Nat × Nat :=
  if filled.2 + n > 1024 then (filled.1 + filled.2, n) else (filled.1, filled.2 + n)

/-- The bytes of an item. -/
def itemOctets : List UInt8 :=
  match item.2 with
  | none => []
  | some content =>
    [item.1.code, UInt8.ofNat (min content.length 255)] ++ content.take (min content.length 255)

/-- The sizes of the pieces in which an item is appended: its header and its text. -/
def itemPieces : List Nat :=
  match item.2 with
  | none => []
  | some content => [2, min content.length 255]

/-- A chunk that holds some bytes in blocks of 1024. -/
structure SdesChunk.Holds (m : SdesChunk) (ssrc : UInt32) (octets : List UInt8)
    (filled : Nat × Nat) : Prop where
  left_wf : ∀ b ∈ m.left, b.WF
  last_wf : m.last.WF
  rptr : m.last.rptr = 0
  wptr : m.last.wptr = filled.2
  capacity : m.last.datap.length = 1024
  behind : (m.left.flatMap Block.bytes).length = filled.1
  bytes : m.left.flatMap Block.bytes ++ m.last.bytes = htonl ssrc.toNat ++ octets
  head : 4 ≤ m.message.first.wptr ∧ m.message.first.rptr = 0

namespace SdesChunk.Holds

variable {m : SdesChunk} {ssrc : UInt32} {octets : List UInt8} {filled : Nat × Nat}

theorem length_last (h : m.Holds ssrc octets filled) : m.last.bytes.length = filled.2 := by
  have hsize := h.last_wf.size_eq
  have hrptr := h.rptr
  have hwptr := h.wptr
  unfold Block.size at hsize
  omega

theorem new (ssrc : UInt32) : ∃ m, SdesChunk.new ssrc = .ok m ∧ m.Holds ssrc [] (0, 4) := by
  have room : (htonl ssrc.toNat).length ≤ 1024 := by simp
  obtain ⟨b, hb, happ⟩ := append_alloc room
  refine ⟨⟨[], b⟩, ?_, ?_⟩
  · rw [SdesChunk.new, hb]
    rfl
  · have hwptr : b.wptr = 4 := happ.wptr
    have hrptr : b.rptr = 0 := happ.rptr
    refine ⟨by simp, happ.wf, hrptr, hwptr, ?_, rfl, ?_, ?_⟩
    · exact happ.capacity.trans (Block.capacity_alloc 1024)
    · simpa using happ.bytes
    · exact ⟨Nat.le_of_eq hwptr.symm, hrptr⟩

variable {data : List UInt8}

theorem push {new : Block} (h : m.Holds ssrc octets filled)
    (happ : Block.Appended (alloc 1024) data new) :
    (⟨m.left ++ [m.last], new⟩ : SdesChunk).Holds ssrc (octets ++ data)
      (filled.1 + filled.2, data.length) where
  left_wf b hb := by
    rcases mem_append.mp hb with hb | hb
    · exact h.left_wf b hb
    · exact mem_singleton.mp hb ▸ h.last_wf
  last_wf := happ.wf
  rptr := happ.rptr
  wptr := happ.wptr.trans (Nat.zero_add _)
  capacity := happ.capacity.trans (Block.capacity_alloc 1024)
  behind := by
    rw [flatMap_append, length_append, h.behind]
    simp [h.length_last]
  bytes := by
    rw [flatMap_append, flatMap_singleton, happ.bytes, Block.bytes_alloc, nil_append,
      h.bytes, append_assoc]
  head := by
    have hhead := h.head
    unfold message at hhead ⊢
    cases hleft : m.left with
    | nil => simpa [hleft] using hhead
    | cons c cs => simpa [hleft] using hhead

theorem grow {b : Block} (h : m.Holds ssrc octets filled) (happ : Block.Appended m.last data b) :
    ({ m with last := b } : SdesChunk).Holds ssrc (octets ++ data)
      (filled.1, filled.2 + data.length) where
  left_wf := h.left_wf
  last_wf := happ.wf
  rptr := happ.rptr.trans h.rptr
  wptr := by rw [happ.wptr, h.wptr]
  capacity := happ.capacity.trans h.capacity
  behind := h.behind
  bytes := by rw [happ.bytes, ← append_assoc, h.bytes, append_assoc]
  head := by
    have hhead := h.head
    unfold message at hhead ⊢
    cases hleft : m.left with
    | nil =>
      simp only [hleft] at hhead ⊢
      rw [happ.wptr, happ.rptr]
      exact ⟨by omega, hhead.2⟩
    | cons c cs => simpa [hleft] using hhead

theorem appendb (h : m.Holds ssrc octets filled) (hsize : data.length ≤ 1024) :
    ∃ m', m.appendb data false = .ok m' ∧
      m'.Holds ssrc (octets ++ data) (fillBlock filled data.length) := by
  unfold SdesChunk.appendb Block.appendb fillBlock
  simp only [Bool.false_eq_true, if_false, Nat.add_zero, replicate_zero, append_nil,
    h.capacity, h.wptr]
  split
  · next hfull =>
    obtain ⟨new, hnew, happ⟩ := append_alloc hsize
    refine ⟨⟨m.left ++ [m.last], new⟩, ?_, h.push happ⟩
    rw [Nat.max_eq_left hsize, hnew]
    rfl
  · next hroom =>
    have room : m.last.wptr + data.length ≤ m.last.datap.length := by
      rw [h.wptr, h.capacity]
      omega
    obtain ⟨b, hb, happ⟩ := h.last_wf.append room
    refine ⟨{ m with last := b }, ?_, h.grow happ⟩
    rw [hb]
    rfl

theorem pad (h : m.Holds ssrc octets filled) : ∃ m' n filled', m.pad = .ok m' ∧ 0 < n ∧ n ≤ 4 ∧
      m'.Holds ssrc (octets ++ replicate n 0) filled' ∧
      (filled'.1 + filled'.2) % 4 = filled.1 % 4 := by
  have zeros : ∀ n, [0] ++ replicate n (0 : UInt8) = replicate (n + 1) 0 := fun n => rfl
  unfold SdesChunk.pad SdesChunk.appendb Block.appendb
  simp only [if_true, length_singleton, h.capacity, h.wptr, zeros]
  generalize hpad : (4 - (filled.2 + 1) % 4) % 4 = padcnt
  have hlength : (replicate (padcnt + 1) (0 : UInt8)).length = padcnt + 1 :=
    length_replicate
  split
  · next hfull =>
    have hsize : (replicate (padcnt + 1) (0 : UInt8)).length ≤ max 1024 1 := by
      omega
    obtain ⟨new, hnew, happ⟩ := append_alloc hsize
    refine ⟨⟨m.left ++ [m.last], new⟩, padcnt + 1, _, ?_, Nat.succ_pos _, by omega, h.push happ, ?_⟩
    · rw [hnew]
      rfl
    · rw [hlength]
      omega
  · next hroom =>
    have room : m.last.wptr + (replicate (padcnt + 1) (0 : UInt8)).length ≤
        m.last.datap.length := by
      rw [h.wptr, h.capacity, hlength]
      omega
    obtain ⟨b, hb, happ⟩ := h.last_wf.append room
    refine ⟨{ m with last := b }, padcnt + 1, _, ?_, Nat.succ_pos _, by omega, h.grow happ, ?_⟩
    · rw [hb]
      rfl
    · rw [hlength]
      omega

theorem appendItem (h : m.Holds ssrc octets filled) (item : SdesType × Option (List UInt8)) :
    ∃ m', m.appendItem item = .ok m' ∧
      m'.Holds ssrc (octets ++ itemOctets item) ((itemPieces item).foldl fillBlock filled) := by
  unfold SdesChunk.appendItem itemOctets itemPieces
  split
  · exact ⟨m, rfl, by rwa [append_nil]⟩
  · next content _ =>
    have htext : (content.take (min content.length 255)).length = min content.length 255 :=
      length_take_of_le (by omega)
    have hsmall : (content.take (min content.length 255)).length ≤ 1024 := by
      omega
    obtain ⟨m₁, h₁, hold₁⟩ := h.appendb
      (show [item.1.code, UInt8.ofNat (min content.length 255)].length ≤ 1024 by simp)
    obtain ⟨m₂, h₂, hold₂⟩ := hold₁.appendb hsmall
    refine ⟨m₂, ?_, ?_⟩
    · change (m.appendb [item.1.code, UInt8.ofNat (min content.length 255)] false >>= fun m =>
        m.appendb (content.take (min content.length 255)) false) = _
      rw [h₁]
      exact h₂
    · rw [htext, append_assoc] at hold₂
      exact hold₂

theorem appendItems (h : m.Holds ssrc octets filled)
    (items : List (SdesType × Option (List UInt8))) :
    ∃ m', items.foldlM SdesChunk.appendItem m = .ok m' ∧
      m'.Holds ssrc (octets ++ items.flatMap itemOctets)
        ((items.flatMap itemPieces).foldl fillBlock filled) := by
  induction items generalizing m octets filled with
  | nil => exact ⟨m, rfl, by rwa [flatMap_nil, append_nil]⟩
  | cons item items ih =>
    obtain ⟨m₁, h₁, hold₁⟩ := h.appendItem item
    obtain ⟨m₂, h₂, hold₂⟩ := ih hold₁
    refine ⟨m₂, ?_, ?_⟩
    · rw [foldlM_cons, h₁]
      exact h₂
    · rw [flatMap_cons, flatMap_cons, foldl_append, ← append_assoc]
      exact hold₂

end SdesChunk.Holds

/-! ## The messages of the chunks -/

/-- The items of a description, in the order in which they are appended. -/
def sdesItems (cname : Option (List UInt8)) (texts : SdesTexts) :
    List (SdesType × Option (List UInt8)) :=
  [(.cname, some (cname.getD "Unknown".toUTF8.toList)), (.name, texts.name), (.email, texts.email),
    (.phone, texts.phone), (.loc, texts.loc), (.tool, texts.tool), (.note, texts.note)]

/-- The bytes in the blocks that filling a chunk leaves behind. -/
def bytesLeft (items : List (SdesType × Option (List UInt8))) : Nat :=
  ((items.flatMap itemPieces).foldl fillBlock (0, 4)).1

/-- A message that is the chunk of some items. -/
structure ChunkOf (ssrc : UInt32) (items : List (SdesType × Option (List UInt8))) (m : Mblk) :
    Prop where
  wf : ∀ b ∈ m.blocks, b.WF
  head : 4 ≤ m.first.wptr ∧ m.first.rptr = 0
  bytes : ∃ n, 0 < n ∧ n ≤ 4 ∧
    m.bytes = htonl ssrc.toNat ++ (items.flatMap itemOctets ++ replicate n 0)
  size : m.bytes.length % 4 = bytesLeft items % 4

theorem SdesChunk.blocks_message (m : SdesChunk) : m.message.blocks = m.left ++ [m.last] := by
  unfold SdesChunk.message Mblk.blocks
  split
  · next h => rw [h]; rfl
  · next h => rw [h]; rfl

theorem chunk_made (ssrc : UInt32) (items : List (SdesType × Option (List UInt8))) :
    ∃ m, (do (← items.foldlM SdesChunk.appendItem (← SdesChunk.new ssrc)).pad) = .ok m ∧
      ChunkOf ssrc items m.message := by
  obtain ⟨m₀, h₀, hold₀⟩ := SdesChunk.Holds.new ssrc
  obtain ⟨m₁, h₁, hold₁⟩ := hold₀.appendItems items
  obtain ⟨m₂, n, filled, h₂, hpos, hle, hold₂, hsize⟩ := hold₁.pad
  have bytes : m₂.message.bytes = m₂.left.flatMap Block.bytes ++ m₂.last.bytes := by
    rw [Mblk.bytes, SdesChunk.blocks_message, flatMap_append, flatMap_singleton]
  refine ⟨m₂, ?_, ?_, hold₂.head, ⟨n, hpos, hle, ?_⟩, ?_⟩
  · simp only [h₀, h₁, bind, Except.bind]
    exact h₂
  · rw [SdesChunk.blocks_message]
    intro b hb
    rcases mem_append.mp hb with hb | hb
    · exact hold₂.left_wf b hb
    · exact mem_singleton.mp hb ▸ hold₂.last_wf
  · rw [bytes, hold₂.bytes, nil_append]
  · rw [bytes, length_append, hold₂.behind, hold₂.length_last, hsize]
    rfl

theorem SdesChunk.setFullItems_eq (m : SdesChunk) (cname : Option (List UInt8))
    (texts : SdesTexts) : m.setFullItems cname texts =
      (do (← (sdesItems cname texts).foldlM SdesChunk.appendItem m).pad) := by
  simp [setFullItems, setMinimalItems, sdesItems]

variable {ssrc : UInt32} {items : List (SdesType × Option (List UInt8))}

/-- `sdes_chunk_set_ssrc` makes it a chunk of the other source. -/
theorem ChunkOf.setSsrc {m : Mblk} (h : ChunkOf ssrc items m) (ssrc' : UInt32) :
      ChunkOf ssrc' items (sdesChunkSetSsrc m ssrc') := by
  obtain ⟨hwptr, hrptr⟩ := h.head
  have hwf := h.wf m.first mem_cons_self
  have hcapacity := hwf.wptr_le
  have first : (sdesChunkSetSsrc m ssrc').first.bytes = htonl ssrc'.toNat ++
    m.first.bytes.drop 4 := by
    simp only [sdesChunkSetSsrc, Block.bytes, hrptr, take_zero, nil_append, drop_zero,
      Nat.zero_add, Nat.sub_zero, drop_take]
    rw [take_append, length_htonl, take_of_length_le (by simpa using hwptr)]
  have hlength : m.first.bytes.length = m.first.wptr := by
    have hsize := hwf.size_eq
    unfold Block.size at hsize
    omega
  have bytes : (sdesChunkSetSsrc m ssrc').bytes = htonl ssrc'.toNat ++ m.bytes.drop 4 := by
    rw [Mblk.bytes_eq, first, Mblk.bytes_eq, drop_append_of_le_length (by omega), append_assoc]
    rfl
  obtain ⟨n, hpos, hle, hbytes⟩ := h.bytes
  have length : (sdesChunkSetSsrc m ssrc').bytes.length = m.bytes.length := by
    rw [bytes, length_append, length_drop, length_htonl, hbytes, length_append, length_htonl]
    omega
  refine ⟨?_, h.head, ⟨n, hpos, hle, ?_⟩, length ▸ h.size⟩
  · intro b hb
    rcases mem_cons.mp hb with rfl | hb
    · refine ⟨hwf.rptr_le, ?_⟩
      simp only [sdesChunkSetSsrc, hrptr, take_zero, nil_append, length_append,
        length_htonl, length_drop]
      omega
    · exact h.wf b (mem_cons_of_mem _ hb)
  · rw [bytes, hbytes, drop_left' (length_htonl _)]

/-! ## What the parser finds -/

/-- The items of a source that its chunk tells. -/
def itemsFound (ssrc : UInt32) (items : List (SdesType × Option (List UInt8))) :
    List SdesItemFound :=
  items.filterMap fun item => item.2.map fun content =>
    ⟨ssrc.toNat, item.1.code, content.take 255⟩

theorem SdesType.code_ne_zero (t : SdesType) : t.code ≠ 0 := by
  cases t <;> decide

theorem getD_length_add (pre l : List UInt8) (i : Nat) :
    (pre ++ l).getD (pre.length + i) 0 = l.getD i 0 := by
  rw [getD_eq_getElem?_getD, List.getElem?_append_right (by omega),
    Nat.add_sub_cancel_left, ← getD_eq_getElem?_getD]

theorem sdesParseLoop_items (ssrc : UInt32) {m pre : List UInt8} {nchunk n : Nat} (hn : 0 < n)
    (hrc : rtcpRc m ≤ nchunk + 1) (items : List (SdesType × Option (List UInt8)))
    (hm : m = pre ++ (items.flatMap itemOctets ++ replicate n 0)) :
    sdesParseLoop m m.length pre.length ssrc.toNat nchunk false = itemsFound ssrc items := by
  induction items generalizing pre with
  | nil =>
    have hzero : m.getD pre.length 0 = 0 := by
      rw [hm]
      obtain ⟨n, rfl⟩ := Nat.exists_eq_add_one.mpr hn
      exact getD_length_add pre _ 0
    unfold sdesParseLoop
    simp only [Bool.false_eq_true, if_false, hzero, if_true, if_neg (Nat.not_lt.mpr hrc), ite_self]
    rfl
  | cons item items ih =>
    obtain ⟨type, none | content⟩ := item
    · exact ih hm
    · have hnext : m = (pre ++ itemOctets (type, some content)) ++
          (items.flatMap itemOctets ++ replicate n 0) := by
        rw [hm, flatMap_cons]
        simp
      have rest := ih hnext
      have htext : (content.take (min content.length 255)).length = min content.length 255 :=
        length_take_of_le (by omega)
      have hoctets : (itemOctets (type, some content)).length = 2 + min content.length 255 := by
        rw [itemOctets, length_append, htext]
        rfl
      have hlength : pre.length + (2 + min content.length 255) ≤ m.length := by
        rw [hnext, length_append, length_append, hoctets]
        omega
      have htype : m.getD pre.length 0 = type.code := by
        rw [hnext, append_assoc]
        exact getD_length_add pre _ 0
      have hlen : (m.getD (pre.length + 1) 0).toNat = min content.length 255 := by
        rw [hnext, append_assoc, getD_length_add pre _ 1]
        change (UInt8.ofNat (min content.length 255)).toNat = _
        rw [UInt8.toNat_ofNat']
        omega
      have hdrop : (m.drop (pre.length + 2)).take (min content.length 255) = content.take 255 := by
        rw [hnext, append_assoc, drop_append, drop_of_length_le (by omega),
          nil_append, Nat.add_sub_cancel_left]
        change (content.take (min content.length 255) ++ _).take _ = _
        rw [take_left' htext, Nat.min_comm]
        exact take_eq_take_min.symm
      rw [length_append, hoctets, ← Nat.add_assoc] at rest
      unfold sdesParseLoop
      rw [if_pos (by omega), if_neg (by simp), if_pos (by omega)]
      simp only [htype, hlen, if_neg type.code_ne_zero, hdrop, rest]
      rw [if_pos (by omega)]
      rfl

theorem rtcpSdesParse_chunk (ssrc : UInt32) {body : List UInt8} {n : Nat} (hn : 0 < n)
    (items : List (SdesType × Option (List UInt8)))
    (hbody : body = htonl ssrc.toNat ++ (items.flatMap itemOctets ++ replicate n 0))
    (hsmall : body.length < 2 ^ 16) :
    rtcpSdesParse (rtcpCommonHeaderInit .sdes 1 (4 + body.length) ++ body) =
      itemsFound ssrc items := by
  have hheader := length_rtcpCommonHeaderInit .sdes 1 (4 + body.length)
  have hrc : rtcpRc (rtcpCommonHeaderInit .sdes 1 (4 + body.length) ++ body) ≤ 0 + 1 :=
    Nat.le_of_eq (rtcpRc_init .sdes 1 _ body)
  have hfield := rtcpLength_init .sdes 1 (4 + body.length) body
  generalize rtcpCommonHeaderInit .sdes 1 (4 + body.length) = header at hheader hrc hfield ⊢
  have hlength : (header ++ body).length = 4 + body.length := by rw [length_append, hheader]
  have hmore : 4 ≤ body.length := by
    rw [hbody, length_append, length_htonl]
    omega
  have hstop : min (4 + 4 * (rtcpLength (header ++ body) + 1)) (4 + body.length) =
      4 + body.length := by
    omega
  have hpacket : header ++ body = (header ++ htonl ssrc.toNat) ++
      (items.flatMap itemOctets ++ replicate n 0) := by
    rw [append_assoc, ← hbody]
  have hitems := sdesParseLoop_items ssrc hn hrc items hpacket
  have hssrc : ((header ++ body).drop 4).take 4 = htonl ssrc.toNat := by
    rw [drop_left' hheader, hbody, take_left' (length_htonl _)]
  have hnat : beNat (htonl ssrc.toNat) = ssrc.toNat := by
    rw [beNat_htonl]
    exact Nat.mod_eq_of_lt ssrc.toNat_lt
  rw [hlength, length_append, hheader, length_htonl] at hitems
  rw [rtcpSdesParse, hlength, hstop]
  unfold sdesParseLoop
  rw [if_pos (by omega), if_pos rfl, if_pos (by omega), hssrc, hnat, hitems]

/-! ## The packet -/

theorem length_itemOctets : (itemOctets item).length ≤ 257 := by
  unfold itemOctets
  split
  · simp
  · rw [length_append, length_take]
    simp only [length_cons, length_nil]
    omega

theorem ChunkOf.length_le {m : Mblk} (h : ChunkOf ssrc items m) :
    m.bytes.length ≤ 8 + 257 * items.length := by
  obtain ⟨n, -, hle, hbytes⟩ := h.bytes
  have hitems : (items.flatMap itemOctets).length ≤ 257 * items.length := by
    clear hbytes h
    induction items with
    | nil => simp
    | cons item items ih =>
      have := length_itemOctets item
      rw [flatMap_cons, length_append, length_cons]
      omega
  rw [hbytes, length_append, length_htonl, length_append, length_replicate]
  omega

theorem header_made (type : RtcpType) (rc bytesLen : Nat) :
    ∃ b, (alloc 4).append (rtcpCommonHeaderInit type rc bytesLen) = .ok b ∧ b.WF ∧
      b.bytes = rtcpCommonHeaderInit type rc bytesLen := by
  have room : (rtcpCommonHeaderInit type rc bytesLen).length ≤ 4 := by simp
  obtain ⟨b, hb, happ⟩ := append_alloc room
  exact ⟨b, hb, happ.wf, happ.bytes⟩

/-- The packet that is made of a chunk. -/
structure SdesPacket (ssrc : UInt32) (items : List (SdesType × Option (List UInt8))) (m : Mblk) :
    Prop where
  wf : ∀ b ∈ m.blocks, b.WF
  bytes : ∃ chunk, ChunkOf ssrc items chunk ∧
    m.bytes = rtcpCommonHeaderInit .sdes 1 (4 + chunk.bytes.length) ++ chunk.bytes

/-- `rtp_session_create_rtcp_sdes_packet` where there are no contributing sources to go through. -/
theorem createRtcpSdesPacket_ok {session : RtcpSession} {full : Bool} {sdes : Mblk}
    (hsdes : (if full then session.fullSdes else session.minimalSdes) = some sdes)
    (hchunk : ChunkOf ssrc items sdes) (hsources : full = true → session.contributingSources = []) :
    ∃ m, createRtcpSdesPacket session full =
        .ok (session.withSdes full (sdesChunkSetSsrc sdes session.sndSsrc), m) ∧
      SdesPacket session.sndSsrc items m := by
  have hset := hchunk.setSsrc session.sndSsrc
  have room : ([0, 0, 0, 0] : List UInt8).length ≤ 4 := Nat.le_refl _
  obtain ⟨first, hfirst, happ⟩ := append_alloc room
  have hwf : ∀ b ∈ (({ first := first } : Mblk).concatb
      (sdesChunkSetSsrc sdes session.sndSsrc)).blocks, b.WF := by
    intro b hb
    rcases mem_cons.mp hb with rfl | hb
    · exact happ.wf
    · exact hset.wf b hb
  have hsize : (({ first := first } : Mblk).concatb
      (sdesChunkSetSsrc sdes session.sndSsrc)).msgdsize.toNat =
      4 + (sdesChunkSetSsrc sdes session.sndSsrc).bytes.length := by
    rw [msgdsize_eq hwf, Mblk.bytes_concatb, length_append, Mblk.bytes_eq, happ.bytes]
    rfl
  obtain ⟨header, hheader, hheaderWf, hheaderBytes⟩ :=
    header_made .sdes 1 (4 + (sdesChunkSetSsrc sdes session.sndSsrc).bytes.length)
  have hloop : concatChunks session full { first := first }
        (sdesChunkSetSsrc sdes session.sndSsrc) =
      .ok (({ first := first } : Mblk).concatb (sdesChunkSetSsrc sdes session.sndSsrc), 1) := by
    unfold concatChunks
    split
    · next hfull => rw [hsources hfull]; rfl
    · rfl
  refine ⟨{ (({ first := first } : Mblk).concatb (sdesChunkSetSsrc sdes session.sndSsrc)) with
    first := header }, ?_, ?_, ⟨_, hset, ?_⟩⟩
  · unfold createRtcpSdesPacket
    rw [hsdes]
    simp only [hfirst, hloop, bind, Except.bind, hsize, hheader]
    rfl
  · intro b hb
    rcases mem_cons.mp hb with rfl | hb
    · exact hheaderWf
    · exact hset.wf b hb
  · rw [Mblk.bytes_eq, hheaderBytes]
    rfl

/-- With a contributing source `dupmsg` is given NULL. -/
theorem createRtcpSdesPacket_sources {session : RtcpSession}
    (hsources : session.contributingSources ≠ []) :
    createRtcpSdesPacket session true = .error .nullDereference := by
  obtain ⟨source, sources, hlist⟩ := exists_cons_of_ne_nil hsources
  have room : ([0, 0, 0, 0] : List UInt8).length ≤ 4 := Nat.le_refl _
  obtain ⟨first, hfirst, -⟩ := append_alloc room
  unfold createRtcpSdesPacket
  cases hsdes : session.fullSdes with
  | none => simp
  | some sdes => 
    simp [hfirst, concatChunks, hlist, bind, Except.bind, concatSources]

/-! ## The round trip -/

/-- A contributing source and its description. -/
structure ContributingSource where
  csrc : UInt32
  cname : Option (List UInt8) := none
  texts : SdesTexts := {}

/-- A session in which a description was set and contributing sources were added. -/
def describe (cname : List UInt8) (texts : SdesTexts)
    (sources : List ContributingSource) : Except Fault RtcpSession := do
  let session ← session.setSourceDescription cname texts
  sources.foldlM (fun session source =>
    session.addContributingSource source.csrc source.cname source.texts) session

/-- The chunks that a session keeps are those of a description. -/
structure Described (session : RtcpSession) (cname : List UInt8) (texts : SdesTexts) : Prop where
  full : ∃ ssrc m, session.fullSdes = some m ∧ ChunkOf ssrc (sdesItems (some cname) texts) m
  minimal : ∃ ssrc m, session.minimalSdes = some m ∧ ChunkOf ssrc [(.cname, some cname)] m

/-- Setting a description keeps its chunks. -/
theorem setSourceDescription_ok (cname : List UInt8) (texts : SdesTexts) :
    ∃ session', session.setSourceDescription cname texts = .ok session' ∧
      Described session' cname texts ∧ session'.sndSsrc = session.sndSsrc ∧
      session'.contributingSources = session.contributingSources ∧
      session'.tmmbrReceived = session.tmmbrReceived := by
  obtain ⟨full, hfull, hfullChunk⟩ :=
    chunk_made session.sndSsrc (sdesItems (some cname) texts)
  obtain ⟨minimal, hminimal, hminimalChunk⟩ :=
    chunk_made session.sndSsrc [(.cname, some cname)]
  refine ⟨{ session with fullSdes := some full.message, minimalSdes := some minimal.message }, ?_,
    ⟨⟨_, _, rfl, hfullChunk⟩, ⟨_, _, rfl, hminimalChunk⟩⟩, rfl, rfl, rfl⟩
  have hfull' : (do (← SdesChunk.new session.sndSsrc).setFullItems (some cname) texts) =
    .ok full := by
    simp only [SdesChunk.setFullItems_eq]
    exact hfull
  have hminimal' : (do
      (← (← SdesChunk.new session.sndSsrc).setMinimalItems (some cname)).pad) = .ok minimal := by
    simp only [foldlM_cons, foldlM_nil, bind_pure] at hminimal
    exact hminimal
  have hset : session.setSourceDescription cname texts = (do
      let full ← (do (← SdesChunk.new session.sndSsrc).setFullItems (some cname) texts)
      let minimal ← (do (← (← SdesChunk.new session.sndSsrc).setMinimalItems (some cname)).pad)
      return { session with
        fullSdes := some full.message, minimalSdes := some minimal.message }) := by
    simp [RtcpSession.setSourceDescription]
  rw [hset, hfull', hminimal']
  rfl

theorem addContributingSource_ok (source : ContributingSource) :
    ∃ chunk, session.addContributingSource source.csrc source.cname source.texts =
      .ok { session with
        contributingSources := session.contributingSources ++ [chunk] } := by
  obtain ⟨chunk, hchunk, -⟩ := chunk_made source.csrc (sdesItems source.cname source.texts)
  have hchunk' : (do
      (← SdesChunk.new source.csrc).setFullItems source.cname source.texts) = .ok chunk := by
    simp only [SdesChunk.setFullItems_eq]
    exact hchunk
  refine ⟨chunk.message, ?_⟩
  have hadd : session.addContributingSource source.csrc source.cname source.texts = (do
      let chunk ← (do (← SdesChunk.new source.csrc).setFullItems source.cname source.texts)
      return { session with
        contributingSources := session.contributingSources ++ [chunk.message] }) := by
    simp [RtcpSession.addContributingSource]
  rw [hadd, hchunk']
  rfl

theorem describe_ok (cname : List UInt8) (texts : SdesTexts) (sources : List ContributingSource) :
    ∃ session', describe session cname texts sources = .ok session' ∧
      Described session' cname texts ∧ session'.sndSsrc = session.sndSsrc ∧
      session'.contributingSources.length = session.contributingSources.length +
        sources.length := by
  obtain ⟨described, hset, hdescribed, hssrc, hqueue, -⟩ :=
    setSourceDescription_ok session cname texts
  have add : ∀ (l : List ContributingSource) (s : RtcpSession), ∃ chunks,
      l.foldlM (fun session source =>
        session.addContributingSource source.csrc source.cname source.texts) s =
        .ok { s with contributingSources := s.contributingSources ++ chunks } ∧
      chunks.length = l.length := by
    intro l
    induction l with
    | nil => exact fun s => ⟨[], by simp [pure, Except.pure], rfl⟩
    | cons source l ih =>
      intro s
      obtain ⟨chunk, hchunk⟩ := addContributingSource_ok s source
      obtain ⟨chunks, hchunks, hlength⟩ := ih
        { s with contributingSources := s.contributingSources ++ [chunk] }
      refine ⟨chunk :: chunks, ?_, by rw [length_cons, length_cons, hlength]⟩
      rw [foldlM_cons, hchunk]
      simp only [append_assoc, singleton_append] at hchunks
      exact hchunks
  obtain ⟨chunks, hchunks, hlength⟩ := add sources described
  refine ⟨{ described with contributingSources := described.contributingSources ++ chunks }, ?_,
    ⟨hdescribed.full, hdescribed.minimal⟩, hssrc, ?_⟩
  · rw [describe, hset]
    exact hchunks
  · rw [length_append, hqueue, hlength]

/-- The full packet is parsed, after `msgpullup` into a buffer that starts at a multiple of four, to
the items of the session and then those of each contributing source. -/
def SdesRoundTrips (cname : List UInt8) (texts : SdesTexts)
    (sources : List ContributingSource) : Prop :=
  ∃ described session' m m', describe session cname texts sources = .ok described ∧
    createRtcpSdesPacket described true = .ok (session', m) ∧ msgpullup m = .ok m' ∧
    rtcpSdesParse m'.bytes = itemsFound described.sndSsrc (sdesItems (some cname) texts) ++
      sources.flatMap fun source => itemsFound source.csrc (sdesItems source.cname source.texts)

theorem SdesPacket.parse {m : Mblk} (h : SdesPacket ssrc items m) (hitems : items.length ≤ 7) :
    ∃ m', msgpullup m = .ok m' ∧ rtcpSdesParse m'.bytes = itemsFound ssrc items := by
  obtain ⟨chunk, hchunk, hbytes⟩ := h.bytes
  have hle := hchunk.length_le
  obtain ⟨n, hpos, -, hchunkBytes⟩ := hchunk.bytes
  have hlength : m.bytes.length = 4 + chunk.bytes.length := by
    rw [hbytes, length_append, length_rtcpCommonHeaderInit]
  obtain ⟨m', hpull, -, hsame, -⟩ := msgpullup_eq h.wf (.inr (by omega))
  refine ⟨m', hpull, ?_⟩
  rw [hsame, hbytes]
  exact rtcpSdesParse_chunk ssrc hpos items hchunkBytes (by omega)

/-- A description comes back exactly when there are no contributing sources. -/
theorem sdesRoundTrips_iff {session : RtcpSession} (hnone : session.contributingSources = [])
    (cname : List UInt8) (texts : SdesTexts) (sources : List ContributingSource) :
    SdesRoundTrips session cname texts sources ↔ sources = [] := by
  obtain ⟨described, hdescribe, hdescribed, -, hqueue⟩ := describe_ok session cname texts sources
  rw [hnone, length_nil, Nat.zero_add] at hqueue
  constructor
  · rintro ⟨described', session', m, m', hdescribe', hcreate, -⟩
    refine Classical.byContradiction fun hsources => ?_
    rw [hdescribe] at hdescribe'
    cases hdescribe'
    have hne : described.contributingSources ≠ [] := by
      intro hnil
      rw [hnil, length_nil] at hqueue
      exact hsources (eq_nil_of_length_eq_zero hqueue.symm)
    rw [createRtcpSdesPacket_sources hne] at hcreate
    cases hcreate
  · rintro rfl
    obtain ⟨ssrc, sdes, hsdes, hchunk⟩ := hdescribed.full
    have hsdes' : (if true then described.fullSdes else described.minimalSdes) = some sdes := hsdes
    obtain ⟨m, hcreate, hpacket⟩ := createRtcpSdesPacket_ok hsdes' hchunk
      fun _ => eq_nil_of_length_eq_zero hqueue
    obtain ⟨m', hpull, hparse⟩ := hpacket.parse (Nat.le_refl 7)
    refine ⟨described, _, m, m', hdescribe, hcreate, hpull, ?_⟩
    rw [hparse, flatMap_nil, append_nil]

/-- `sdesRoundTrips_iff` for a name and a tool. -/
theorem sdesRoundTrips_tool :
    SdesRoundTrips { sndSsrc := 7, rcvSsrc := 9 } [97, 64, 98] { tool := some [111] } [] :=
  (sdesRoundTrips_iff rfl _ _ _).mpr rfl

/-- With a contributing source no packet is made. -/
theorem contributingSource_lost :
    ¬SdesRoundTrips { sndSsrc := 7, rcvSsrc := 9 } [97, 64, 98] {} [{ csrc := 11 }] := by
  rintro ⟨described, session', m, m', hdescribe, hcreate, -⟩
  obtain ⟨described', hdescribe', -, -, hqueue⟩ :=
    describe_ok { sndSsrc := 7, rcvSsrc := 9 } [97, 64, 98] {} [{ csrc := 11 }]
  rw [hdescribe'] at hdescribe
  cases hdescribe
  rw [createRtcpSdesPacket_sources (ne_nil_of_length_pos (by rw [hqueue]; decide))] at hcreate
  cases hcreate

end GrooveIp.Ortp
