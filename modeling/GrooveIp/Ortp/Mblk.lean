import GrooveIp.Lib.Fuelled
import GrooveIp.Lib.Memory

/-!
# Message blocks

`mblk_t` of `ortp/str_utils.h` with the operations of `str_utils.c` the packetizers use.
A block is a window `[b_rptr, b_wptr)` of a data block; a message is a block and the
chain behind its `b_cont`. Sizes are the signed pointer differences of the source, so a
window whose read pointer has passed its write pointer can be expressed.
-/

namespace GrooveIp.Ortp

open Lib List

/-- One block: the bytes from `db_base` to `db_lim` and the two pointers as offsets. -/
structure Block where
  datap : List UInt8
  rptr : Nat
  wptr : Nat
  deriving DecidableEq, Repr

namespace Block

variable (bs : List UInt8) (b : Block)

/-- A freshly allocated block filled with `bs` (`str_utils.c:96–108`). -/
def ofBytes : Block := ⟨bs, 0, bs.length⟩

/-- `b_wptr - b_rptr`. -/
def size : Int := b.wptr - b.rptr

/-- The bytes of the window. -/
def bytes : List UInt8 := (b.datap.drop b.rptr).take (b.wptr - b.rptr)

/-- The window lies in its data block and is not turned around. -/
structure WF (b : Block) : Prop where
  rptr_le : b.rptr ≤ b.wptr
  wptr_le : b.wptr ≤ b.datap.length

/-- A fresh block is well formed. -/
theorem wf_ofBytes : (ofBytes bs).WF := ⟨Nat.zero_le _, Nat.le_refl _⟩

/-- A fresh block holds what it was filled with. -/
@[simp] theorem bytes_ofBytes : (ofBytes bs).bytes = bs := by
  simp [bytes, ofBytes]

/-- The size of a well-formed block is the number of its bytes. -/
theorem WF.size_eq {b : Block} (h : b.WF) : b.size = b.bytes.length := by
  have hr := h.rptr_le
  have hw := h.wptr_le
  simp only [size, bytes, length_take, length_drop]
  omega

/-- Moving the read pointer drops bytes. -/
theorem bytes_skip (n : Nat) : ({ b with rptr := b.rptr + n } : Block).bytes = b.bytes.drop n := by
  simp only [bytes, drop_take, drop_drop]
  rw [Nat.sub_add_eq]

/-- Moving the write pointer back keeps a prefix. -/
theorem bytes_cut {n : Nat} (h : b.rptr + n ≤ b.wptr) :
    ({ b with wptr := b.rptr + n } : Block).bytes = b.bytes.take n := by
  simp only [bytes, take_take]
  rw [Nat.add_sub_cancel_left, Nat.min_eq_left (by omega)]

/-- A sub-window of a block, given by its offset and length. -/
theorem bytes_window {p n : Nat} (h : p + n ≤ b.wptr - b.rptr) :
    ({ b with rptr := b.rptr + p, wptr := b.rptr + p + n } : Block).bytes =
      (b.bytes.drop p).take n := by
  simp only [bytes, drop_take, drop_drop, take_take]
  rw [Nat.add_sub_cancel_left, Nat.min_eq_left (by omega)]

end Block

/-! ### Reading through `b_rptr` -/

/-- How a read `b_rptr[i]` is answered. Inside the window it is the byte there; the two
instances below differ in what stands at and behind `b_wptr`. -/
structure Memory where
  peek : Block → Nat → Except Fault UInt8
  peek_of_getElem : ∀ {b : Block} {i : Nat} {v : UInt8}, b.bytes[i]? = some v → peek b i = .ok v

/-- Every read at or past `b_wptr` is a fault. -/
def strictMemory : Memory where
  peek b i := match b.bytes[i]? with
    | some v => .ok v
    | none => .error .outOfBounds
  peek_of_getElem h := by simp only [h]

/-- A read at or past `b_wptr` finds what the data block holds there, and `junk` behind it. -/
def looseMemory (junk : UInt8) : Memory where
  peek b i := .ok (b.datap[b.rptr + i]?.getD junk)
  peek_of_getElem {b i v} h := by
    have hi : b.datap[b.rptr + i]? = some v := by
      rw [Block.bytes, List.getElem?_take] at h
      split at h
      · rwa [List.getElem?_drop] at h
      · cases h
    rw [hi]
    rfl

/-! ### Messages -/

/-- A message: its first block, the blocks behind `b_cont`, the time stamp of `reserved1` and
from `reserved2` the marker (bit 0) and the sequence number (bits 16 to 31)
(`msqueue.h:96–117`). -/
structure Mblk where
  first : Block
  cont : List Block := []
  timestamp : UInt32 := 0
  marker : Bool := false
  cseq : UInt16 := 0
  deriving DecidableEq, Repr

/-- `MSQueue`: `ms_queue_put` appends, `ms_queue_get` takes the head (`msqueue.h:40–48`). -/
abbrev MSQueue := List Mblk

namespace Mblk

/-- The blocks of a message, in order. -/
def blocks (m : Mblk) : List Block := m.first :: m.cont

/-- The bytes of a message. -/
def bytes (m : Mblk) : List UInt8 := m.blocks.flatMap Block.bytes

/-- `allocb` of `bs.length` bytes, filled. -/
def ofBytes (bs : List UInt8) : Mblk := { first := Block.ofBytes bs }

/-- `mblk_set_timestamp_info` (`msqueue.h:99`). -/
def setTimestampInfo (m : Mblk) (ts : UInt32) : Mblk := { m with timestamp := ts }

/-- `mblk_set_marker_info` (`msqueue.h:101`). -/
def setMarkerInfo (m : Mblk) (bit : Bool) : Mblk := { m with marker := bit }

/-- `mblk_set_cseq` (`msqueue.h:116`), which only ever sets bits. -/
def setCseq (m : Mblk) (value : UInt16) : Mblk := { m with cseq := m.cseq ||| value }

/-- `dupb` (`str_utils.c:151–163`): the first block alone, with its meta data. -/
def dupb (m : Mblk) : Mblk := { m with cont := [] }

/-- `m->b_rptr = p`. -/
def setRptr (m : Mblk) (p : Nat) : Mblk := { m with first := { m.first with rptr := p } }

/-- `m->b_wptr = p`. -/
def setWptr (m : Mblk) (p : Nat) : Mblk := { m with first := { m.first with wptr := p } }

/-- `concatb` (`str_utils.c:335–340`): `b` and its chain go to the end of the chain of `m`. -/
def concatb (m b : Mblk) : Mblk := { m with cont := m.cont ++ b.blocks }

/-- `mblk_meta_copy` (`str_utils.c:41–50`) of the fields kept here. -/
def metaCopy (source dest : Mblk) : Mblk :=
  { dest with timestamp := source.timestamp, marker := source.marker, cseq := source.cseq }

/-- `msgdsize` (`str_utils.c:243–251`). No message is as large as the address space, so the
sum is not reduced; a negative sum stands for the huge `size_t` it converts to. -/
def msgdsize (m : Mblk) : Int := m.blocks.foldl (fun sz b => sz + b.size) 0

section Meta

variable (m : Mblk)

@[simp] theorem bytes_setTimestampInfo (ts : UInt32) : (m.setTimestampInfo ts).bytes = m.bytes :=
  rfl

@[simp] theorem bytes_setMarkerInfo (bit : Bool) : (m.setMarkerInfo bit).bytes = m.bytes := rfl

@[simp] theorem bytes_setCseq (value : UInt16) : (m.setCseq value).bytes = m.bytes := rfl

end Meta

/-- The bytes of a chain are those of its first block and of the blocks behind it. -/
theorem bytes_eq (m : Mblk) : m.bytes = m.first.bytes ++ m.cont.flatMap Block.bytes := rfl

/-- A fresh message holds what it was filled with. -/
@[simp] theorem bytes_ofBytes (bs : List UInt8) : (ofBytes bs).bytes = bs := by
  simp [bytes_eq, ofBytes]

/-- Chaining appends bytes. -/
theorem bytes_concatb (m b : Mblk) : (m.concatb b).bytes = m.bytes ++ b.bytes := by
  simp [bytes, blocks, concatb]

/-- A message of one well-formed block. -/
structure Plain (m : Mblk) : Prop where
  cont_eq : m.cont = []
  wf : m.first.WF

/-- The chain of a message of one block. -/
theorem Plain.blocks_eq {m : Mblk} (h : m.Plain) : m.blocks = [m.first] := by
  rw [blocks, h.cont_eq]

/-- A message of one block has the bytes of the block. -/
theorem Plain.bytes_eq {m : Mblk} (h : m.Plain) : m.bytes = m.first.bytes := by
  rw [Mblk.bytes_eq, h.cont_eq, flatMap_nil, append_nil]

/-- The size of a message of one block. -/
theorem Plain.size_eq {m : Mblk} (h : m.Plain) : m.first.size = m.bytes.length := by
  rw [h.bytes_eq, h.wf.size_eq]

/-- A chain `msgpullup` can copy: well-formed blocks, and if there are several of them each
of a size an `int` holds. -/
structure Pullable (m : Mblk) : Prop where
  wf : ∀ b ∈ m.blocks, b.WF
  small : m.cont = [] ∨ ∀ b ∈ m.blocks, b.bytes.length < 2 ^ 31

/-- One block needs no copy. -/
theorem Plain.pullable {m : Mblk} (h : m.Plain) : m.Pullable where
  wf b hb := by
    rw [h.blocks_eq, mem_singleton] at hb
    exact hb ▸ h.wf
  small := .inl h.cont_eq

end Mblk

/-- The copy loop of `msgpullup` (`str_utils.c:261–272`). The two lengths are `int`, and a
negative one is a huge `size_t` for `memcpy`. -/
def pullupLoop (len : Int) : List Block → Int → List UInt8 → Except Fault (List UInt8)
  | [], _, acc => .ok acc
  | b :: bs, wlen, acc =>
    if wlen < len then
      let remain := toInt32 (len - wlen)
      let mlen := toInt32 b.size
      if mlen ≤ remain then
        if mlen < 0 then .error .outOfBounds
        else pullupLoop len bs (wlen + mlen) (acc ++ b.bytes.take mlen.toNat)
      else if remain < 0 then .error .outOfBounds
      -- `mp` stays where it is: once `remain` is zero the loop copies nothing for ever
      else if wlen + remain < len then .error .diverged
      else .ok (acc ++ b.bytes.take remain.toNat)
    else .ok acc

variable {bs : List Block}

theorem foldl_size (h : ∀ b ∈ bs, b.WF) (n : Int) :
    bs.foldl (fun sz b => sz + b.size) n = n + (bs.flatMap Block.bytes).length := by
  induction bs generalizing n with
  | nil => simp
  | cons b bs ih =>
    have hb := (h b mem_cons_self).size_eq
    rw [foldl_cons, ih fun c hc => h c (mem_cons_of_mem _ hc), flatMap_cons, length_append]
    omega

variable {m : Mblk}

/-- `msgdsize` of well-formed blocks counts the bytes. -/
theorem msgdsize_eq (h : ∀ b ∈ m.blocks, b.WF) : m.msgdsize = m.bytes.length := by
  rw [Mblk.msgdsize, foldl_size h, Mblk.bytes]
  omega

theorem pullupLoop_ok (hwf : ∀ b ∈ bs, b.WF)
    (hsmall : ∀ b ∈ bs, b.bytes.length < 2 ^ 31) {len wlen : Int} {acc r : List UInt8}
    (hlen : len = wlen + (bs.flatMap Block.bytes).length)
    (hr : pullupLoop len bs wlen acc = .ok r) : r = acc ++ bs.flatMap Block.bytes := by
  induction bs generalizing wlen acc with
  | nil => cases hr; simp
  | cons b bs ih =>
    have hb := (hwf b mem_cons_self).size_eq
    have hs := hsmall b mem_cons_self
    rw [flatMap_cons, length_append] at hlen
    have hm : toInt32 b.size = b.bytes.length := by
      rw [hb]
      exact toInt32_of_range (by omega) (by omega)
    rw [pullupLoop] at hr
    simp only [hm] at hr
    split at hr
    · split at hr
      · rw [if_neg (by omega)] at hr
        have htake : b.bytes.take (b.bytes.length : Int).toNat = b.bytes := by simp
        rw [htake] at hr
        have := ih (fun c hc => hwf c (mem_cons_of_mem _ hc))
          (fun c hc => hsmall c (mem_cons_of_mem _ hc)) (by omega) hr
        rw [this, flatMap_cons, append_assoc]
      · next hle =>
        split at hr
        · cases hr
        · split at hr
          · cases hr
          -- the bytes left are `remain` up to a multiple of 2^32, and more than `remain`
          · unfold toInt32 at *
            omega
    · next hlt =>
      have hz : (b.bytes ++ bs.flatMap Block.bytes).length = 0 := by
        rw [length_append]
        omega
      cases hr
      rw [flatMap_cons, eq_nil_of_length_eq_zero hz, append_nil]

theorem pullupLoop_total (hwf : ∀ b ∈ bs, b.WF) {len wlen : Int}
    {acc : List UInt8} (hlen : len = wlen + (bs.flatMap Block.bytes).length)
    (hsmall : (bs.flatMap Block.bytes).length < 2 ^ 31) :
    ∃ r, pullupLoop len bs wlen acc = .ok r := by
  induction bs generalizing wlen acc with
  | nil => exact ⟨acc, rfl⟩
  | cons b bs ih =>
    have hb := (hwf b mem_cons_self).size_eq
    rw [flatMap_cons, length_append] at hlen hsmall
    have hm : toInt32 b.size = b.bytes.length := by
      rw [hb]
      exact toInt32_of_range (by omega) (by omega)
    have hrem : toInt32 (len - wlen) = len - wlen := toInt32_of_range (by omega) (by omega)
    rw [pullupLoop]
    split
    · rw [if_pos (by omega), if_neg (by omega)]
      exact ih (fun c hc => hwf c (mem_cons_of_mem _ hc)) (by omega) (by omega)
    · exact ⟨acc, rfl⟩

/-- `msgpullup(m, -1)` (`str_utils.c:253–282`). -/
def msgpullup (m : Mblk) : Except Fault Mblk :=
  if m.cont = [] then .ok m
  else if m.msgdsize < 0 then .error .outOfBounds
  else do
    let bytes ← pullupLoop m.msgdsize m.blocks 0 []
    return { m with first := Block.ofBytes bytes, cont := [] }

theorem length_le_of_mem_blocks {b : Block} (h : b ∈ m.blocks) :
    b.bytes.length ≤ m.bytes.length := by
  rw [Mblk.bytes]
  generalize m.blocks = bs at h
  induction bs with
  | nil => cases h
  | cons c bs ih =>
    rw [flatMap_cons, length_append]
    rcases mem_cons.mp h with rfl | h
    · omega
    · have := ih h
      omega

/-- What `msgpullup` leaves is one block with the bytes of the chain. -/
theorem msgpullup_ok {m' : Mblk} (h : m.Pullable) (hr : msgpullup m = .ok m') :
    m'.Plain ∧ m'.bytes = m.bytes ∧ m'.timestamp = m.timestamp ∧ m'.marker = m.marker ∧
      m'.cseq = m.cseq := by
  unfold msgpullup at hr
  split at hr
  · next hc =>
    cases hr
    exact ⟨⟨hc, h.wf _ mem_cons_self⟩, rfl, rfl, rfl, rfl⟩
  · next hc =>
    have hsize := msgdsize_eq h.wf
    rw [if_neg (by omega)] at hr
    obtain ⟨bytes, hp, hr⟩ := bind_eq_ok.mp hr
    cases hr
    have hbytes := pullupLoop_ok h.wf (h.small.resolve_left hc)
      (by rw [hsize, Mblk.bytes]; omega) hp
    refine ⟨⟨rfl, Block.wf_ofBytes _⟩, ?_, rfl, rfl, rfl⟩
    simp [Mblk.bytes_eq, hbytes, Mblk.blocks]

/-- A chain of fewer than 2^31 bytes is pulled up. -/
theorem msgpullup_total (hwf : ∀ b ∈ m.blocks, b.WF)
    (hsmall : m.bytes.length < 2 ^ 31 ∨ m.cont = []) : ∃ m', msgpullup m = .ok m' := by
  unfold msgpullup
  split
  · exact ⟨m, rfl⟩
  · next hc =>
    have hsize := msgdsize_eq hwf
    rw [if_neg (by omega)]
    obtain ⟨r, hr⟩ : ∃ r, pullupLoop m.msgdsize m.blocks 0 [] = .ok r :=
      pullupLoop_total hwf (by rw [hsize, Mblk.bytes]; omega) (hsmall.resolve_right hc)
    exact ⟨_, by rw [hr]; rfl⟩

/-- A short chain becomes one block with its bytes and its meta data. -/
theorem msgpullup_eq (hwf : ∀ b ∈ m.blocks, b.WF) (hsmall : m.cont = [] ∨ m.bytes.length < 2 ^ 31) :
    ∃ m', msgpullup m = .ok m' ∧ m'.Plain ∧ m'.bytes = m.bytes ∧
      m'.timestamp = m.timestamp ∧ m'.marker = m.marker ∧ m'.cseq = m.cseq := by
  obtain ⟨m', hr⟩ := msgpullup_total hwf hsmall.symm
  refine ⟨m', hr, msgpullup_ok ⟨hwf, hsmall.imp_right fun h b hb => ?_⟩ hr⟩
  exact Nat.lt_of_le_of_lt (length_le_of_mem_blocks hb) h

end GrooveIp.Ortp
