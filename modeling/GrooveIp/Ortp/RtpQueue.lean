import GrooveIp.Lib.LinkedRing
import GrooveIp.Lib.Memory

/-!
# The reception queue

`queue_t` of `str_utils.c`, a ring of messages over a stopper, and the functions of
`rtpsession.c` that keep the packets of a stream in it: `rtp_putq` puts them in the order of
their sequence numbers, and three functions take them from the front.
-/

namespace GrooveIp.Ortp

open Lib List

/-- The fields of `rtp_header_t` the queue reads. -/
structure RtpHeader where
  seqNumber : UInt16
  timestamp : UInt32

/-- `RTP_TIMESTAMP_IS_NEWER_THAN` (`rtp.h:90`). -/
def timestampIsNewer (ts1 ts2 : UInt32) : Bool := ts1 - ts2 < 0x80000000

/-- `RTP_SEQ_IS_STRICTLY_GREATER_THAN` (`rtp.h:96`). -/
def seqIsStrictlyGreater (seq1 seq2 : UInt16) : Bool := seq1 - seq2 < 0x8000 && seq1 != seq2

/-- `queue_t`: the links of all messages and of the stopper, and `q_mcount`. Messages are known by
their addresses. -/
structure RtpQueue (α : Type) where
  links : Links α
  mcount : Int := 0

namespace RtpQueue

variable {α : Type} [DecidableEq α] (stopper : α) (rtp : α → RtpHeader)

/-- `qinit` (`str_utils.c:29–34`). -/
def qinit (links : Links α) : RtpQueue α where
  links := (links.setNext stopper (some stopper)).setPrev stopper (some stopper)

/-- `qempty` (`str_utils.h:154`). -/
def qempty (q : RtpQueue α) : Bool := q.links.next stopper == some stopper

/-- `qfirst` (`str_utils.h:155`). -/
def qfirst (q : RtpQueue α) : Option α :=
  if q.links.next stopper ≠ some stopper then q.links.next stopper else none

/-- `qlast` (`str_utils.h:157`). -/
def qlast (q : RtpQueue α) : Option α :=
  if q.links.prev stopper ≠ some stopper then q.links.prev stopper else none

/-- `putq` (`str_utils.c:181–188`). -/
def putq (q : RtpQueue α) (mp : α) : Except Fault (RtpQueue α) :=
  match q.links.prev stopper with
  | none => .error .nullDereference
  | some last =>
    let links := (q.links.setNext last (some mp)).setPrev mp (some last)
    let links := (links.setNext mp (some stopper)).setPrev stopper (some mp)
    .ok { links, mcount := q.mcount + 1 }

/-- `getq` (`str_utils.c:190–201`). -/
def getq (q : RtpQueue α) : Except Fault (Option α × RtpQueue α) :=
  match q.links.next stopper with
  | none => .error .nullDereference
  | some tmp =>
    if tmp = stopper then .ok (none, q)
    else
      match q.links.unlinkFirst stopper tmp with
      | none => .error .nullDereference
      | some links => .ok (some tmp, { links, mcount := q.mcount - 1 })

/-- `insq` (`str_utils.c:211–221`). -/
def insq (q : RtpQueue α) (emp : Option α) (mp : α) : Except Fault (RtpQueue α) :=
  match emp with
  | none => putq stopper q mp
  | some emp =>
    match q.links.insertBefore emp mp with
    | none => .error .nullDereference
    | some links => .ok { links, mcount := q.mcount + 1 }

/-- The loop of `rtp_putq` from the last packet to the first (`rtpsession.c:128–146`), and what
follows it. -/
def putqLoop (q : RtpQueue α) (mp : α) : Nat → Option α → Except Fault (Int × RtpQueue α)
  | 0, _ => .error .diverged
  | _ + 1, none => .error .nullDereference
  | fuel + 1, some tmp =>
    if tmp = stopper then (0, ·) <$> insq stopper q (qfirst stopper q) mp
    else if (rtp mp).seqNumber = (rtp tmp).seqNumber then .ok (-1, q)
    else if seqIsStrictlyGreater (rtp mp).seqNumber (rtp tmp).seqNumber then
      (0, ·) <$> insq stopper q (q.links.next tmp) mp
    else putqLoop q mp fuel (q.links.prev tmp)

/-- `rtp_putq` (`rtpsession.c:114–151`). The packet is freed where `-1` is returned. -/
def rtpPutq (fuel : Nat) (q : RtpQueue α) (mp : α) : Except Fault (Int × RtpQueue α) :=
  if qempty stopper q then (0, ·) <$> putq stopper q mp
  else putqLoop stopper rtp q mp fuel (qlast stopper q)

/-- The loop of `rtp_getq` (`rtpsession.c:170–197`) with the packet to return and its time stamp:
what is returned, and the packets it frees. -/
def getqLoop (timestamp : UInt32) : Nat → RtpQueue α → Option α → UInt32 → List α →
    Except Fault (Option α × List α × RtpQueue α)
  | 0, _, _, _, _ => .error .diverged
  | fuel + 1, q, ret, tsFound, rejected =>
    match qfirst stopper q with
    | none => .ok (ret, rejected, q)
    | some tmp =>
      if timestampIsNewer timestamp (rtp tmp).timestamp then
        if ret.isSome ∧ (rtp tmp).timestamp = tsFound then .ok (ret, rejected, q)
        else do
          let (got, q) ← getq stopper q
          getqLoop timestamp fuel q got (rtp tmp).timestamp (rejected ++ ret.toList)
      else .ok (ret, rejected, q)

/-- `rtp_getq` (`rtpsession.c:154–199`): what is returned, and the packets it frees, whose number
is `*rejected`. -/
def rtpGetq (fuel : Nat) (q : RtpQueue α) (timestamp : UInt32) :
    Except Fault (Option α × List α × RtpQueue α) :=
  if qempty stopper q then .ok (none, [], q)
  else getqLoop stopper rtp timestamp fuel q none 0 []

/-- `rtp_getq_permissive` (`rtpsession.c:201–223`). -/
def rtpGetqPermissive (q : RtpQueue α) (timestamp : UInt32) :
    Except Fault (Option α × RtpQueue α) :=
  if qempty stopper q then .ok (none, q)
  else
    match qfirst stopper q with
    | none => .error .nullDereference
    | some tmp =>
      if timestampIsNewer timestamp (rtp tmp).timestamp then getq stopper q
      else .ok (none, q)

/-! ## The queue stands for a list -/

/-- The messages that are queued, in order. -/
structure Holds (q : RtpQueue α) (l : List α) : Prop where
  ring : q.links.Ring stopper l
  mcount_eq : q.mcount = l.length

variable {stopper} {q : RtpQueue α} {l : List α}

omit [DecidableEq α] in
/-- The queue holds one list only. -/
theorem Holds.unique {l' : List α} (h : Holds stopper q l) (h' : Holds stopper q l') : l = l' :=
  h.ring.unique h'.ring

/-- An initialised queue is empty. -/
theorem holds_qinit (links : Links α) : Holds stopper (qinit stopper links) [] where
  ring := Links.ring_nil links stopper
  mcount_eq := rfl

theorem Holds.qfirst_eq (h : Holds stopper q l) : qfirst stopper q = l.head? := by
  have hnext := h.ring.next_stopper
  have hnodup := h.ring.nodup
  unfold qfirst
  rw [hnext]
  cases l with
  | nil => simp
  | cons a l =>
    have hne : a ≠ stopper := fun he => (nodup_cons.mp hnodup).1 (he ▸ mem_cons_self)
    simp [hne]

theorem Holds.qlast_eq (h : Holds stopper q l) : qlast stopper q = l.getLast? := by
  have hprev := h.ring.prev_stopper
  have hnodup := h.ring.nodup
  unfold qlast
  rw [hprev]
  rcases eq_nil_or_concat l with rfl | ⟨l, a, rfl⟩
  · simp
  · have hne : a ≠ stopper := fun he => (nodup_cons.mp hnodup).1 (he ▸ by simp)
    simp [hne]

/-- Whether there is one. -/
theorem Holds.qempty_eq (h : Holds stopper q l) : qempty stopper q = l.isEmpty := by
  have hfirst := h.qfirst_eq
  unfold qfirst at hfirst
  unfold qempty
  cases l with
  | nil => simp [h.ring.next_stopper]
  | cons a l =>
    have hne : q.links.next stopper ≠ some stopper := by
      intro he
      rw [if_neg (not_not.mpr he)] at hfirst
      cases hfirst
    simpa using hne

section Insert

variable {mp : α}

theorem Holds.insq (l₁ l₂ : List α) (h : Holds stopper q (l₁ ++ l₂))
    (hmp : mp ∉ stopper :: (l₁ ++ l₂)) :
    ∃ q', insq stopper q (some (l₂.headD stopper)) mp = .ok q' ∧
      Holds stopper q' (l₁ ++ mp :: l₂) := by
  obtain ⟨links, hlinks, hring⟩ := h.ring.insertBefore hmp
  refine ⟨{ links, mcount := q.mcount + 1 }, by rw [RtpQueue.insq, hlinks], hring, ?_⟩
  have hcount := h.mcount_eq
  simp only [length_append, length_cons] at hcount ⊢
  omega

/-- A message is put in at the end. -/
theorem Holds.putq (h : Holds stopper q l) (hmp : mp ∉ stopper :: l) :
    ∃ q', putq stopper q mp = .ok q' ∧ Holds stopper q' (l ++ [mp]) := by
  have hins : RtpQueue.putq stopper q mp = RtpQueue.insq stopper q (some stopper) mp := by
    unfold RtpQueue.putq RtpQueue.insq
    dsimp only
    unfold Links.insertBefore
    cases q.links.prev stopper <;> rfl
  rw [hins]
  exact Holds.insq l [] (by rwa [append_nil]) (by rwa [append_nil])

theorem Holds.insq_first (h : Holds stopper q l) (hmp : mp ∉ stopper :: l) :
    ∃ q', RtpQueue.insq stopper q (qfirst stopper q) mp = .ok q' ∧ Holds stopper q' (mp :: l) := by
  rw [h.qfirst_eq]
  cases l with
  | nil => exact h.putq hmp
  | cons a l => exact Holds.insq [] (a :: l) h hmp

end Insert

theorem Holds.getq_nil (h : Holds stopper q []) : getq stopper q = .ok (none, q) := by
  unfold getq
  rw [h.ring.next_stopper]
  simp

/-- The first message is taken from a queue. -/
theorem Holds.getq_cons {a : α} (h : Holds stopper q (a :: l)) :
    ∃ q', getq stopper q = .ok (some a, q') ∧ Holds stopper q' l := by
  obtain ⟨links, hlinks, hring⟩ := h.ring.unlinkFirst
  have hne : a ≠ stopper :=
    fun he => (nodup_cons.mp h.ring.nodup).1 (he ▸ mem_cons_self)
  refine ⟨{ links, mcount := q.mcount - 1 }, ?_, hring, ?_⟩
  · unfold getq
    rw [h.ring.next_stopper]
    simp [hne, hlinks]
  · have hcount := h.mcount_eq
    simp only [length_cons] at hcount ⊢
    omega

/-! ## The order of the queue -/

variable {rtp : α → RtpHeader}

/-- Sequence numbers within fewer than 2^15 of some base. -/
def InWindow (rtp : α → RtpHeader) (l : List α) : Prop :=
  ∃ base : UInt16, ∀ x ∈ l, ((rtp x).seqNumber - base).toNat < 2 ^ 15 - 1

/-- One packet comes before another. -/
def Before (rtp : α → RtpHeader) (x y : α) : Prop :=
  seqIsStrictlyGreater (rtp y).seqNumber (rtp x).seqNumber = true

/-- How far a sequence number is from the base. -/
def place (rtp : α → RtpHeader) (base : UInt16) (x : α) : Nat :=
  ((rtp x).seqNumber - base).toNat

variable {base : UInt16}

theorem seqIsStrictlyGreater_iff {a b : UInt16} (ha : (a - base).toNat < 2 ^ 15)
    (hb : (b - base).toNat < 2 ^ 15) :
    seqIsStrictlyGreater a b = true ↔ (b - base).toNat < (a - base).toNat := by
  have hlt : a - b < 0x8000 ↔ (a - b).toNat < 2 ^ 15 := Iff.rfl
  have hne : a ≠ b ↔ a.toNat ≠ b.toNat := by rw [Ne, Ne, UInt16.toNat_inj]
  have halt := a.toNat_lt
  have hblt := b.toNat_lt
  unfold seqIsStrictlyGreater
  rw [Bool.and_eq_true, decide_eq_true_eq, bne_iff_ne, hlt, hne]
  simp only [UInt16.toNat_sub] at *
  omega

theorem eq_iff_place_eq {a b : UInt16} : a = b ↔ (a - base).toNat = (b - base).toNat := by
  rw [UInt16.toNat_inj]
  constructor
  · rintro rfl
    rfl
  · exact fun h => (UInt16.sub_left_inj _).mp h

/-! ## Putting a packet in -/

/-- What the loop of `rtp_putq` makes of the list: `front` holds the packets still to be looked at,
from the last to the first, and `back` those it has passed. -/
def scan (rtp : α → RtpHeader) (mp : α) : List α → List α → Option (List α)
  | [], back => some (mp :: back)
  | tmp :: front, back =>
    if (rtp mp).seqNumber = (rtp tmp).seqNumber then none
    else if seqIsStrictlyGreater (rtp mp).seqNumber (rtp tmp).seqNumber then
      some ((tmp :: front).reverse ++ mp :: back)
    else scan rtp mp front (tmp :: back)

omit [DecidableEq α] in
theorem getLastD_reverse (front : List α) (x : α) : front.reverse.getLastD x = front.headD x := by
  cases front <;> simp

variable {fuel : Nat}

theorem putqLoop_eq (rtp : α → RtpHeader) {mp : α} (front back : List α)
    (h : Holds stopper q (front.reverse ++ back)) (hmp : mp ∉ stopper :: (front.reverse ++ back))
    (hfuel : front.length < fuel) : match scan rtp mp front back with
    | none => putqLoop stopper rtp q mp fuel (some (front.headD stopper)) = .ok (-1, q)
    | some l' => ∃ q', putqLoop stopper rtp q mp fuel (some (front.headD stopper)) = .ok (0, q') ∧
        Holds stopper q' l' := by
  induction front generalizing back fuel with
  | nil =>
    obtain ⟨fuel, rfl⟩ : ∃ n, fuel = n + 1 := ⟨fuel - 1, by omega⟩
    obtain ⟨q', hq', hholds⟩ := Holds.insq_first (l := back) h hmp
    refine ⟨q', ?_, hholds⟩
    rw [headD_nil, putqLoop, if_pos rfl, hq']
    rfl
  | cons tmp front ih =>
    obtain ⟨fuel, rfl⟩ : ∃ n, fuel = n + 1 := ⟨fuel - 1, by omega⟩
    have hsplit : (tmp :: front).reverse ++ back = front.reverse ++ tmp :: back := by simp
    have hcut := h
    rw [hsplit] at hcut
    have hne : tmp ≠ stopper := by
      intro he
      exact (nodup_cons.mp h.ring.nodup).1 (he ▸ by simp)
    rw [headD_cons, putqLoop, if_neg hne, scan]
    by_cases hdup : (rtp mp).seqNumber = (rtp tmp).seqNumber
    · rw [if_pos hdup, if_pos hdup]
    rw [if_neg hdup, if_neg hdup]
    by_cases hgt : seqIsStrictlyGreater (rtp mp).seqNumber (rtp tmp).seqNumber = true
    · rw [if_pos hgt, if_pos hgt, hcut.ring.next_cell]
      obtain ⟨q', hq', hholds⟩ := Holds.insq (tmp :: front).reverse back h hmp
      exact ⟨q', by rw [hq']; rfl, hholds⟩
    · rw [if_neg hgt, if_neg hgt, hcut.ring.prev_cell, getLastD_reverse]
      exact ih (tmp :: back) hcut (by rwa [← hsplit]) (by simpa using hfuel)

omit [DecidableEq α] in
theorem scan_spec {mp : α} (front back : List α)
    (hwindow : ∀ x ∈ mp :: (front.reverse ++ back), place rtp base x < 2 ^ 15 - 1)
    (hsorted : (front.reverse ++ back).Pairwise (Before rtp))
    (hback : ∀ x ∈ back, place rtp base mp < place rtp base x) :
    (scan rtp mp front back = none ∧ (rtp mp).seqNumber ∈
        (front.reverse ++ back).map fun x => (rtp x).seqNumber) ∨
      ∃ l₁ l₂, scan rtp mp front back = some (l₁ ++ mp :: l₂) ∧ front.reverse ++ back = l₁ ++ l₂ ∧
        (∀ x ∈ l₁, place rtp base x < place rtp base mp) ∧
        ∀ x ∈ l₂, place rtp base mp < place rtp base x := by
  induction front generalizing back with
  | nil => exact .inr ⟨[], back, rfl, rfl, fun _ hx => (nomatch hx), hback⟩
  | cons tmp front ih =>
    have hsplit : (tmp :: front).reverse ++ back = front.reverse ++ tmp :: back := by simp
    rw [hsplit] at hwindow hsorted ⊢
    have hmp : place rtp base mp < 2 ^ 15 - 1 := hwindow mp mem_cons_self
    have htmp : place rtp base tmp < 2 ^ 15 - 1 := hwindow tmp (by simp)
    have hgreater : seqIsStrictlyGreater (rtp mp).seqNumber (rtp tmp).seqNumber = true ↔
        place rtp base tmp < place rtp base mp :=
      seqIsStrictlyGreater_iff (Nat.lt_of_lt_of_le hmp (by decide))
        (Nat.lt_of_lt_of_le htmp (by decide))
    have hequal : (rtp mp).seqNumber = (rtp tmp).seqNumber ↔
        place rtp base mp = place rtp base tmp := eq_iff_place_eq
    rw [scan]
    by_cases hdup : (rtp mp).seqNumber = (rtp tmp).seqNumber
    · rw [if_pos hdup, hdup]
      exact .inl ⟨rfl, mem_map_of_mem (f := fun x => (rtp x).seqNumber) (by simp)⟩
    rw [if_neg hdup]
    by_cases hgt : seqIsStrictlyGreater (rtp mp).seqNumber (rtp tmp).seqNumber = true
    · rw [if_pos hgt]
      refine .inr ⟨(tmp :: front).reverse, back, rfl, hsplit.symm, fun x hx => ?_, hback⟩
      have htmp_lt := hgreater.mp hgt
      rcases mem_cons.mp (mem_reverse.mp hx) with rfl | hx
      · exact htmp_lt
      · -- what stands before `tmp` comes before it
        have hx' : x ∈ front.reverse := mem_reverse.mpr hx
        have hbefore : Before rtp x tmp :=
          (pairwise_append.mp hsorted).2.2 x hx' tmp mem_cons_self
        have hx_lt : place rtp base x < 2 ^ 15 - 1 := hwindow x (by simp [hx])
        have := (seqIsStrictlyGreater_iff (Nat.lt_of_lt_of_le htmp (by decide))
          (Nat.lt_of_lt_of_le hx_lt (by decide))).mp hbefore
        exact Nat.lt_trans this htmp_lt
    · rw [if_neg hgt]
      refine ih (tmp :: back) hwindow hsorted fun x hx => ?_
      rcases mem_cons.mp hx with rfl | hx
      · have hnle := mt hgreater.mpr hgt
        have hneq := mt hequal.mpr hdup
        omega
      · exact hback x hx

/-- The effect of `rtp_putq` on the list of packets. -/
structure Put (rtp : α → RtpHeader) (mp : α) (l : List α) (ret : Int) (l' : List α) : Prop where
  rejects_iff : ret = -1 ↔ (rtp mp).seqNumber ∈ l.map fun x => (rtp x).seqNumber
  rejected : ret = -1 → l' = l
  accepted : ret ≠ -1 → ret = 0 ∧ ∃ l₁ l₂, l = l₁ ++ l₂ ∧ l' = l₁ ++ mp :: l₂

omit [DecidableEq α] in
theorem sorted_insert {mp : α} {l₁ l₂ : List α}
    (hwindow : ∀ x ∈ mp :: (l₁ ++ l₂), place rtp base x < 2 ^ 15 - 1)
    (hsorted : (l₁ ++ l₂).Pairwise (Before rtp))
    (h₁ : ∀ x ∈ l₁, place rtp base x < place rtp base mp)
    (h₂ : ∀ x ∈ l₂, place rtp base mp < place rtp base x) : (l₁ ++ mp :: l₂).Pairwise (Before rtp) ∧
      (rtp mp).seqNumber ∉ (l₁ ++ l₂).map fun x => (rtp x).seqNumber := by
  have hbefore {x y : α} (hx : x ∈ mp :: (l₁ ++ l₂)) (hy : y ∈ mp :: (l₁ ++ l₂))
      (hlt : place rtp base x < place rtp base y) : Before rtp x y :=
    (seqIsStrictlyGreater_iff (Nat.lt_of_lt_of_le (hwindow y hy) (by decide))
      (Nat.lt_of_lt_of_le (hwindow x hx) (by decide))).mpr hlt
  obtain ⟨hl₁, hl₂, hcross⟩ := pairwise_append.mp hsorted
  constructor
  · refine pairwise_append.mpr ⟨hl₁, pairwise_cons.mpr ⟨fun y hy => ?_, hl₂⟩, ?_⟩
    · exact hbefore mem_cons_self (by simp [hy]) (h₂ y hy)
    · intro x hx y hy
      rcases mem_cons.mp hy with rfl | hy
      · exact hbefore (by simp [hx]) mem_cons_self (h₁ x hx)
      · exact hcross x hx y hy
  · intro hmem
    obtain ⟨x, hx, he⟩ := mem_map.mp hmem
    have hplace : place rtp base x = place rtp base mp := eq_iff_place_eq.mp he
    rcases mem_append.mp hx with hx | hx
    · exact absurd (h₁ x hx) (by omega)
    · exact absurd (h₂ x hx) (by omega)

/-- `rtp_putq` rejects the packets whose number is queued and no others, and keeps the order. -/
theorem Holds.rtpPutq (h : Holds stopper q l) (hsorted : l.Pairwise (Before rtp)) {mp : α}
    (hmp : mp ∉ stopper :: l) (hwindow : InWindow rtp (mp :: l)) (hfuel : l.length < fuel) :
    ∃ ret q' l', rtpPutq stopper rtp fuel q mp = .ok (ret, q') ∧ Holds stopper q' l' ∧
      l'.Pairwise (Before rtp) ∧ Put rtp mp l ret l' ∧ (ret = -1 → q' = q) := by
  obtain ⟨base, hwindow⟩ := hwindow
  have hloop : RtpQueue.rtpPutq stopper rtp fuel q mp =
      if l = [] then (0, ·) <$> RtpQueue.putq stopper q mp
      else putqLoop stopper rtp q mp fuel (some (l.reverse.headD stopper)) := by
    unfold RtpQueue.rtpPutq
    rw [h.qempty_eq, h.qlast_eq]
    rcases eq_nil_or_concat l with rfl | ⟨l, a, rfl⟩ <;> simp
  rw [hloop]
  split
  · next hnil =>
    subst hnil
    obtain ⟨q', hq', hholds⟩ := h.putq hmp
    refine ⟨0, q', [mp], by rw [hq']; rfl, hholds, pairwise_singleton _ _, ?_,
      fun he => absurd he (by decide)⟩
    exact ⟨by simp, by simp, fun _ => ⟨rfl, [], [], rfl, rfl⟩⟩
  · have hrev : l.reverse.reverse ++ [] = l := by simp
    have hspec := putqLoop_eq rtp l.reverse [] (hrev.symm ▸ h) (hrev.symm ▸ hmp)
      (length_reverse.symm ▸ hfuel)
    have hscan := scan_spec l.reverse [] (hrev.symm ▸ hwindow) (hrev.symm ▸ hsorted)
      (fun _ hx => nomatch hx)
    rw [hrev] at hscan
    rcases hscan with ⟨hnone, hmem⟩ | ⟨l₁, l₂, hsome, rfl, h₁, h₂⟩
    · rw [hnone] at hspec
      exact ⟨-1, q, l, hspec, h, hsorted, ⟨iff_of_true rfl hmem, fun _ => rfl,
        fun hne => absurd rfl hne⟩, fun _ => rfl⟩
    · rw [hsome] at hspec
      obtain ⟨q', hq', hholds⟩ := hspec
      obtain ⟨hsorted', hnew⟩ := sorted_insert hwindow hsorted h₁ h₂
      exact ⟨0, q', _, hq', hholds, hsorted', ⟨iff_of_false (by decide) hnew, by simp,
        fun _ => ⟨rfl, l₁, l₂, rfl, rfl⟩⟩, fun he => absurd he (by decide)⟩

/-! ## Taking packets out -/

/-- The effect of taking packets from the front: some are freed and the next one is delivered, and
it comes before every packet that stays. -/
structure Taken (rtp : α → RtpHeader) (l : List α) (delivered : Option α) (rejected l' : List α) :
    Prop where
  split : l = rejected ++ (delivered.toList ++ l')
  first : ∀ x ∈ delivered, x ∉ l' ∧ ∀ y ∈ l', Before rtp x y

omit [DecidableEq α] in
/-- What is taken from the front of an ordered queue leaves an ordered one. -/
theorem Holds.taken (h : Holds stopper q l) (hsorted : l.Pairwise (Before rtp))
    (delivered : Option α) (rejected : List α) {l' : List α}
    (hsplit : l = rejected ++ (delivered.toList ++ l')) :
    Taken rtp l delivered rejected l' ∧ l'.Pairwise (Before rtp) := by
  have hnodup := (nodup_cons.mp h.ring.nodup).2
  rw [hsplit] at hnodup hsorted
  have hrest := (pairwise_append.mp hsorted).2.1
  have hnodup' := (nodup_append.mp hnodup).2.1
  refine ⟨⟨hsplit, fun x hx => ?_⟩, (pairwise_append.mp hrest).2.1⟩
  have hmem : x ∈ delivered.toList := Option.mem_toList.mpr hx
  refine ⟨fun hx' => ?_, fun y hy => (pairwise_append.mp hrest).2.2 x hmem y hy⟩
  exact (nodup_append.mp hnodup').2.2 x hmem x hx' rfl

/-- `getq` takes the first packet. -/
theorem Holds.getq_eq (h : Holds stopper q l) :
    ∃ q', RtpQueue.getq stopper q = .ok (l.head?, q') ∧ Holds stopper q' l.tail := by
  cases l with
  | nil => exact ⟨q, h.getq_nil, h⟩
  | cons a l => exact h.getq_cons

theorem getqLoop_spec (timestamp : UInt32) (h : Holds stopper q l)
    (hfuel : l.length < fuel) (ret : Option α) (tsFound : UInt32) (rejected : List α) :
    ∃ ret' rejected' q' l' removed, getqLoop stopper rtp timestamp fuel q ret tsFound rejected =
        .ok (ret', rejected', q') ∧ Holds stopper q' l' ∧ l = removed ++ l' ∧
      rejected' ++ ret'.toList = rejected ++ ret.toList ++ removed := by
  induction fuel generalizing q l ret tsFound rejected with
  | zero => omega
  | succ fuel ih =>
    rw [getqLoop, h.qfirst_eq]
    cases l with
    | nil => exact ⟨ret, rejected, q, [], [], rfl, h, rfl, by simp⟩
    | cons tmp l =>
      dsimp
      split
      · split
        · exact ⟨ret, rejected, q, tmp :: l, [], rfl, h, rfl, by simp⟩
        · obtain ⟨q', hq', hholds⟩ := h.getq_cons
          obtain ⟨ret', rejected', q'', l', removed, hloop, hholds', hsplit, hall⟩ :=
            ih hholds (by simpa using hfuel) (some tmp) (rtp tmp).timestamp (rejected ++ ret.toList)
          refine ⟨ret', rejected', q'', l', tmp :: removed, ?_, hholds', ?_, ?_⟩
          · rw [hq']
            exact hloop
          · rw [hsplit, cons_append]
          · simpa using hall
      · exact ⟨ret, rejected, q, tmp :: l, [], rfl, h, rfl, by simp⟩

/-- `rtp_getq` takes packets from the front, delivers the last of them and frees the others. -/
theorem Holds.rtpGetq (h : Holds stopper q l) (hsorted : l.Pairwise (Before rtp))
    (timestamp : UInt32) (hfuel : l.length < fuel) :
    ∃ delivered rejected q' l', rtpGetq stopper rtp fuel q timestamp =
        .ok (delivered, rejected, q') ∧ Holds stopper q' l' ∧ l'.Pairwise (Before rtp) ∧
      Taken rtp l delivered rejected l' := by
  unfold RtpQueue.rtpGetq
  split
  · obtain ⟨htaken, hsorted'⟩ := h.taken hsorted none [] rfl
    exact ⟨none, [], q, l, rfl, h, hsorted', htaken⟩
  · obtain ⟨ret, rejected, q', l', removed, hloop, hholds, hsplit, hall⟩ :=
      getqLoop_spec timestamp h hfuel none 0 []
    have hall' : rejected ++ ret.toList = removed := by simpa using hall
    rw [← hall', append_assoc] at hsplit
    obtain ⟨htaken, hsorted'⟩ := h.taken hsorted ret rejected hsplit
    exact ⟨ret, rejected, q', l', hloop, hholds, hsorted', htaken⟩

/-- `rtp_getq_permissive` takes the first packet or none. -/
theorem Holds.rtpGetqPermissive (h : Holds stopper q l) (hsorted : l.Pairwise (Before rtp))
    (timestamp : UInt32) :
    ∃ delivered q' l', rtpGetqPermissive stopper rtp q timestamp = .ok (delivered, q') ∧
      Holds stopper q' l' ∧ l'.Pairwise (Before rtp) ∧ Taken rtp l delivered [] l' := by
  have hnone := h.taken hsorted none [] rfl
  unfold RtpQueue.rtpGetqPermissive
  rw [h.qempty_eq, h.qfirst_eq]
  cases l with
  | nil => exact ⟨none, q, [], rfl, h, hsorted, hnone.1⟩
  | cons tmp l =>
    simp only [isEmpty_cons, Bool.false_eq_true, if_false, List.head?_cons]
    split
    · obtain ⟨q', hq', hholds⟩ := h.getq_cons
      obtain ⟨htaken, hsorted'⟩ := h.taken hsorted (some tmp) [] rfl
      exact ⟨some tmp, q', l, hq', hholds, hsorted', htaken⟩
    · exact ⟨none, q, tmp :: l, rfl, h, hsorted, hnone.1⟩

end RtpQueue

end GrooveIp.Ortp
