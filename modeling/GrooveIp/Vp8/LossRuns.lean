import GrooveIp.Vp8.LossDetection

/-!
# Streams with losses

Whole runs of the unpacker: any batches of what came of the packets of any frames. How the packets
are dealt to the batches does not matter, every frame that is recorded is made of the packets that
came of one sent frame, and one without an error has all of them, when the loss of its end does not
go unnoticed.
-/

namespace GrooveIp.Vp8

open Lib Ortp List

/-! ## One frame -/

/-- The header of what came is read without a fault, and is not accepted if nothing else shows that
something was lost. -/
structure Told (before : Before) (frame : List (Mblk × Bool)) : Prop where
  readable : Unbroken (numbered 0 (arrivals before frame)) →
    ∃ r, headerOf (numbered 0 (arrivals before frame)) = .ok r
  complete : Unbroken (numbered 0 (arrivals before frame)) →
    (∀ p ∈ arrivals before frame, p.pd.pid = 0) →
    (∃ read, headerOf (numbered 0 (arrivals before frame)) = .ok (true, read)) →
      ∀ x ∈ frame, x.2 = true

section OneFrame

variable {timestamp : UInt32} {parts : List Packet} {chunks : List (List (Mblk × Bool))}
  {before : Before}

theorem EncodedFrame.sentPacket (h : EncodedFrame timestamp parts)
    (hchunks : AreChunks parts chunks) : ∀ x ∈ chunks.flatten, SentPacket timestamp x.1 := by
  intro x hx
  obtain ⟨chunk, hchunk, hx⟩ := mem_flatten.mp hx
  obtain ⟨i, hi⟩ := List.getElem?_of_mem hchunk
  obtain ⟨p, hp, hchunk⟩ := hchunks.getElem hi
  exact h.timestamp_eq p (mem_of_getElem? hp) ▸ hchunk.sent x.1 (mem_map_of_mem hx)

end OneFrame

/-! ## Batches -/

section Batches

variable (refCseq : Option UInt16) (packets : List UnpackedPacket)

end Batches

/-! ## Frame after frame -/

/-- Frames on the line: each is what the packer makes of an encoded frame with a time stamp of its
own, and the packets are numbered one after another. -/
inductive Sent (maxSize : Int32) : UInt16 → List (List (Mblk × Bool)) → Prop where
  | nil (cseq : UInt16) : Sent maxSize cseq []
  | cons {cseq : UInt16} {timestamp : UInt32} {parts : List Packet} {out : MSQueue}
      {frame : List (Mblk × Bool)} {frames : List (List (Mblk × Bool))}
      (encoded : EncodedFrame timestamp parts) (packed : packerProcess maxSize parts [] = .ok out)
      (sent : frame.map Prod.fst = numberFrom cseq out)
      (fresh : ∀ other ∈ frames, ∀ x ∈ other, x.1.timestamp ≠ timestamp)
      (rest : Sent maxSize (cseq + UInt16.ofNat out.length) frames) :
      Sent maxSize cseq (frame :: frames)

/-- The packets of a frame that is not yet recorded. -/
inductive Pending (frames : List (List (Mblk × Bool))) : List UnpackedPacket → Prop where
  | none : Pending frames []
  | frame {timestamp : UInt32} {parts : List Packet} {chunks : List (List (Mblk × Bool))}
      {before : Before} (encoded : EncodedFrame timestamp parts) (sent : AreChunks parts chunks)
      (told : Told before chunks.flatten) (mem : chunks.flatten ∈ frames) :
      Pending frames (arrivals before chunks.flatten)

section Frames

variable {frames : List (List (Mblk × Bool))} {ctx : UnpackerCtx}
  {framePackets packets : List UnpackedPacket}

variable {timestamp : UInt32}

variable {parts : List Packet} {chunks : List (List (Mblk × Bool))}

theorem AreChunks.unmarked (h : AreChunks parts chunks)
    (hparts : ∀ init last, parts = init ++ [last] → ∀ p ∈ init, p.m.marker = false)
    {init : List (Mblk × Bool)} {last : Mblk × Bool} (hflat : chunks.flatten = init ++ [last]) :
    ∀ x ∈ init, x.1.marker = false := by
  induction h generalizing init with
  | nil => exact absurd hflat.symm (by simp)
  | @cons p chunk parts chunks hchunk hrest ih =>
    rw [flatten_cons] at hflat
    rcases eq_nil_or_concat parts with rfl | ⟨others, lastPart, rfl⟩
    · cases hrest
      rw [flatten_nil, append_nil] at hflat
      have hmarked := (hchunk.marked (init.map Prod.fst) last.1 (by rw [hflat]; simp)).2
      exact fun x hx => hmarked x.1 (mem_map_of_mem hx)
    · rw [concat_eq_append] at *
      have hp : p.m.marker = false := hparts (p :: others) lastPart rfl p mem_cons_self
      have hall : ∀ x ∈ chunk, x.1.marker = false := fun x hx => eq_false_of_ne_true fun hmark => by
        have := (hchunk.marked_last hx hmark).1
        rw [hp] at this
        cases this
      have hothers : ∀ init last, others ++ [lastPart] = init ++ [last] →
          ∀ q ∈ init, q.m.marker = false := fun init' last' h q hq =>
        hparts (p :: init') last' (by rw [h]; rfl) q (mem_cons_of_mem _ hq)
      rcases eq_nil_or_concat chunks.flatten with hnil | ⟨init', last', hsplit⟩
      · rw [hnil, append_nil] at hflat
        exact fun x hx => hall x (by rw [hflat]; exact mem_append_left _ hx)
      · rw [concat_eq_append] at hsplit
        rw [hsplit, ← append_assoc] at hflat
        obtain ⟨rfl, hlast⟩ := append_inj' hflat rfl
        obtain rfl := singleton_inj.mp hlast
        exact forall_mem_append.mpr ⟨hall, ih hothers hsplit⟩

variable {before : Before}

end Frames

/-! ## Runs -/

theorem Sent.packets {maxSize : Int32} {cseq : UInt16} {frames : List (List (Mblk × Bool))}
    (h : Sent maxSize cseq frames) : (∃ out, frames.flatten.map Prod.fst = numberFrom cseq out) ∧
      ∀ x ∈ frames.flatten, parsePacket x.1 = .ok (unpacked x.1) ∧ (unpacked x.1).m = x.1 := by
  induction h with
  | nil cseq => exact ⟨⟨[], rfl⟩, forall_mem_nil _⟩
  | @cons cseq timestamp parts out frame fs encoded packed sent fresh rest ih =>
    obtain ⟨⟨out', hout'⟩, hall⟩ := ih
    obtain ⟨ms, hms, hchunks⟩ := packerProcess_areChunks encoded.wellFormed encoded.wf packed
    obtain rfl : out = ms := hms
    obtain ⟨chunks, rfl, hareChunks⟩ := hchunks cseq frame sent
    refine ⟨⟨out ++ out', ?_⟩, ?_⟩
    · rw [flatten_cons, map_append, sent, hout', numberFrom_append]
    · refine forall_mem_append.mpr ⟨fun x hx => ?_, hall⟩
      have hsent := encoded.sentPacket hareChunks x hx
      exact ⟨hsent.parsed, hsent.self⟩

end GrooveIp.Vp8
