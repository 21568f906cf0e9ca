import GrooveIp.Vp8.SentFrames

/-!
# Lost packets of VP8 frames

Whether a frame of which packets were lost is recorded without an error. Of what comes under the
number 0 only an unbroken beginning is accepted. If anything came under another number, all of the
frame came; if not, nothing else is checked, and a frame of which the end was lost is accepted when
the header of its beginning is.
-/

namespace GrooveIp.Vp8

open Lib Ortp List
open Prod (fst)

section Arrivals

variable {before : Before} {frame : List (Mblk × Bool)} {timestamp : UInt32}

/-- What comes was sent. -/
theorem exists_of_mem_arrivals {p : UnpackedPacket} (h : p ∈ arrivals before frame) :
    ∃ x ∈ frame, x.2 = true ∧ ∃ gap, p = arrival (x.1, gap) := by
  obtain ⟨x, hx, rfl⟩ := mem_map.mp h
  exact ⟨(x.1, true), mem_of_mem_noted hx, rfl, x.2, rfl⟩

theorem arrivals_append (before : Before) (l l' : List (Mblk × Bool)) :
    arrivals before (l ++ l') = arrivals before l ++ arrivals (beforeNext before l) l' := by
  rw [arrivals, noted_append, map_append]
  rfl

end Arrivals

/-! ## Unbroken partitions -/

section Chunk

variable {timestamp : UInt32} {pid : UInt8} {start marker : Bool} {bytes : List UInt8}
  {before : Before} {chunk : List (Mblk × Bool)}

theorem IsChunk.unbroken (h : IsChunk timestamp pid true marker bytes (chunk.map fst))
    (hun : Unbroken (arrivals before chunk)) :
    ∃ a head tail, chunk = (a, true) :: (head ++ tail) ∧ before ≠ .lost ∧
      (∀ x ∈ head, x.2 = true) ∧ ∀ x ∈ tail, x.2 = false := by
  obtain ⟨⟨first, rest, heq, hstart⟩, hunnoticed⟩ := hun
  cases chunk with
  | nil => cases heq
  | cons x chunk =>
    obtain ⟨a, kept⟩ := x
    cases kept with
    | false =>
      -- A later packet of the partition would be a start.
      have hmem : first ∈ arrivals before.lose chunk := by
        rw [show arrivals before.lose chunk = first :: rest from heq]
        exact mem_cons_self
      obtain ⟨x, hx, -, gap, rfl⟩ := exists_of_mem_arrivals hmem
      have hnot := (h.start a _ rfl).2 x.1 (mem_map_of_mem hx)
      rw [show (arrival (x.1, gap)).pd = (unpacked x.1).pd from rfl, hnot] at hstart
      cases hstart
    | true =>
      have hfirst := hunnoticed (arrival (a, before == .lost)) mem_cons_self
      have hbefore : before ≠ .lost := fun hlost => by
        rw [hlost] at hfirst
        cases hfirst
      have hrest : ∀ x ∈ noted .taken chunk, x.2 = false := fun x hx =>
        hunnoticed (arrival x) (mem_cons_of_mem _ (mem_map_of_mem hx))
      obtain ⟨head, tail, rfl, hhead, htail⟩ := exists_split_of_unnoticed hrest
      exact ⟨a, head, tail, rfl, hbefore, hhead, htail⟩

/-- A marked packet ends the last partition. -/
theorem IsChunk.marked_last (h : IsChunk timestamp pid start marker bytes (chunk.map fst))
    {x : Mblk × Bool} (hx : x ∈ chunk) (hmark : x.1.marker = true) :
    marker = true ∧ ∃ init, chunk = init ++ [x] := by
  rcases eq_nil_or_concat chunk with rfl | ⟨init, last, rfl⟩
  · cases hx
  rw [concat_eq_append] at hx h ⊢
  obtain ⟨hlast, hinit⟩ := h.marked (init.map fst) last.1 (by simp)
  rcases mem_append.mp hx with hx | hx
  · rw [hinit x.1 (mem_map_of_mem hx)] at hmark
    cases hmark
  · obtain rfl := mem_singleton.mp hx
    exact ⟨hlast.symm.trans hmark, init, rfl⟩

end Chunk

/-! ## Numbered partitions -/

section Numbered

variable {parts : List Packet} {chunks : List (List (Mblk × Bool))} {before : Before}
variable {i : Nat}

/-- Each chunk is that of a partition. -/
theorem AreChunks.getElem (h : AreChunks parts chunks) {chunk : List (Mblk × Bool)}
    (hi : chunks[i]? = some chunk) : ∃ p, parts[i]? = some p ∧ IsChunk p.m.timestamp p.pd.pid
      p.pd.startOfPartition p.m.marker p.m.first.bytes (chunk.map fst) := by
  induction h generalizing i with
  | nil => cases hi
  | cons hchunk _ ih =>
    cases i with
    | zero =>
      cases hi
      exact ⟨_, rfl, hchunk⟩
    | succ i => exact ih hi

theorem numbered_arrivals {k : Nat} (hpid : ∀ i chunk, chunks[i]? = some chunk →
      ∀ x ∈ chunk, (unpacked x.1).pd.pid.toNat = k + i) (before : Before) (i : Nat) :
    numbered (k + i) (arrivals before chunks.flatten) =
      arrivals (beforeNext before (chunks.take i).flatten) (chunks.getD i []) := by
  induction chunks generalizing k i before with
  | nil => rfl
  | cons chunk chunks ih =>
    have hrest : ∀ i c, chunks[i]? = some c → ∀ x ∈ c, (unpacked x.1).pd.pid.toNat = k + 1 + i :=
      fun i c hc x hx => (hpid (i + 1) c hc x hx).trans (by omega)
    have hfirst : ∀ p ∈ arrivals before chunk, p.pd.pid.toNat = k := fun p hp => by
      obtain ⟨x, hx, -, gap, rfl⟩ := exists_of_mem_arrivals hp
      exact hpid 0 chunk rfl x hx
    rw [flatten_cons, arrivals_append, numbered, filter_append]
    cases i with
    | zero =>
      have hall : (arrivals before chunk).filter (fun p => p.pd.pid.toNat = k + 0) =
          arrivals before chunk := filter_eq_self.mpr fun p hp =>
        decide_eq_true (hfirst p hp)
      have hnone : (arrivals (beforeNext before chunk) chunks.flatten).filter
          (fun p => p.pd.pid.toNat = k + 0) = [] := filter_eq_nil_iff.mpr fun p hp => by
        obtain ⟨x, hx, -, gap, rfl⟩ := exists_of_mem_arrivals hp
        obtain ⟨c, hc, hx⟩ := mem_flatten.mp hx
        obtain ⟨j, hj⟩ := List.getElem?_of_mem hc
        have hother : (arrival (x.1, gap)).pd.pid.toNat = k + 1 + j := hrest j c hj x hx
        rw [decide_eq_true_eq]
        omega
      rw [hall, hnone, append_nil]
      rfl
    | succ i =>
      have hnone : (arrivals before chunk).filter (fun p => p.pd.pid.toNat = k + (i + 1)) = [] :=
        filter_eq_nil_iff.mpr fun p hp => by
          have := hfirst p hp
          rw [decide_eq_true_eq]
          omega
      have hnext := ih hrest (beforeNext before chunk) i
      rw [numbered, Nat.add_assoc, Nat.add_comm 1] at hnext
      rw [hnone, nil_append, hnext, take_succ_cons, flatten_cons, beforeNext_append]
      rfl

/-- What the numbered partitions of a frame have in common. -/
structure NumberedFrame (timestamp : UInt32) (parts : List Packet)
    (chunks : List (List (Mblk × Bool))) : Prop where
  encoded : EncodedFrame timestamp parts
  pids : ∀ (i : Nat) (p : Packet), parts[i]? = some p → p.pd.pid.toNat = i
  declares : Declares (parts.map (·.m.first.bytes))
  chunks : AreChunks parts chunks

variable {timestamp : UInt32}

theorem NumberedFrame.chunk (h : NumberedFrame timestamp parts chunks)
    {chunk : List (Mblk × Bool)} (hi : chunks[i]? = some chunk) : ∃ p, parts[i]? = some p ∧
      IsChunk p.m.timestamp p.pd.pid true p.m.marker p.m.first.bytes (chunk.map fst) := by
  obtain ⟨p, hp, hchunk⟩ := h.chunks.getElem hi
  rw [h.encoded.start p (mem_of_getElem? hp)] at hchunk
  exact ⟨p, hp, hchunk⟩

/-- What comes under a number. -/
theorem NumberedFrame.arrivals (h : NumberedFrame timestamp parts chunks) (before : Before)
    (i : Nat) : numbered i (arrivals before chunks.flatten) =
      arrivals (beforeNext before (chunks.take i).flatten) (chunks.getD i []) := by
  have hpid : ∀ i chunk, chunks[i]? = some chunk →
      ∀ x ∈ chunk, (unpacked x.1).pd.pid.toNat = 0 + i := fun i chunk hi x hx => by
    obtain ⟨p, hp, hchunk⟩ := h.chunk hi
    rw [hchunk.pid_eq x.1 (mem_map_of_mem hx), h.pids i p hp, Nat.zero_add]
  have hall := numbered_arrivals hpid before i
  rwa [Nat.zero_add] at hall

end Numbered

end GrooveIp.Vp8
