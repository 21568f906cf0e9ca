import GrooveIp.Ortp.RtpQueue

/-!
# Runs of the reception queue

Any sequence of insertions and removals whose queued and inserted sequence numbers lie in a window
keeps the queue ordered, rejects the duplicates of queued packets and delivers before the packets
that stay. A packet that arrives after a later one was delivered is delivered all the same.
-/

namespace GrooveIp.Ortp

open Lib RtpQueue

/-- The operations on a reception queue. -/
inductive QueueOp (α : Type) where
  | putq (mp : α)
  | getq
  | rtpGetq (timestamp : UInt32)
  | rtpGetqPermissive (timestamp : UInt32)

/-- What an operation returns: the value of `rtp_putq`, the packet a removal delivers and those it
frees. -/
structure QueueResult (α : Type) where
  ret : Int := 0
  delivered : Option α := none
  rejected : List α := []

namespace RtpQueue

variable {α : Type} [DecidableEq α] (stopper : α) (rtp : α → RtpHeader)

/-- One operation. The loops may take one round more than `q_mcount` counts packets, and never run
out of rounds. -/
def step (q : RtpQueue α) : QueueOp α → Except Fault (QueueResult α × RtpQueue α)
  | .putq mp => do
    let (ret, q) ← rtpPutq stopper rtp (q.mcount.toNat + 1) q mp
    return ({ ret }, q)
  | .getq => do
    let (delivered, q) ← getq stopper q
    return ({ delivered }, q)
  | .rtpGetq timestamp => do
    let (delivered, rejected, q) ← rtpGetq stopper rtp (q.mcount.toNat + 1) q timestamp
    return ({ delivered, rejected }, q)
  | .rtpGetqPermissive timestamp => do
    let (delivered, q) ← rtpGetqPermissive stopper rtp q timestamp
    return ({ delivered }, q)

/-- A packet that is put in is not in the queue, and its number is in a window with those that
are. -/
def Admissible (l : List α) : QueueOp α → Prop
  | .putq mp => mp ∉ stopper :: l ∧ InWindow rtp (mp :: l)
  | _ => True

/-- The queues that admissible operations lead to, with the packets that were delivered. -/
inductive Reachable : RtpQueue α → List α → Prop where
  | init (links : Links α) : Reachable (qinit stopper links) []
  | step {q q' : RtpQueue α} {delivered : List α} {op : QueueOp α} {result : QueueResult α}
      (h : Reachable q delivered) (hop : ∀ l, Holds stopper q l → Admissible stopper rtp l op)
      (hstep : step stopper rtp q op = .ok (result, q')) :
      Reachable q' (delivered ++ result.delivered.toList)

/-- The effect of an operation on the queue and the list of packets in it. -/
def Effect (q : RtpQueue α) (l : List α) (result : QueueResult α) (q' : RtpQueue α) (l' : List α) :
    QueueOp α → Prop
  | .putq mp => Put rtp mp l result.ret l' ∧ (result.ret = -1 → q' = q) ∧ result.delivered = none
  | .getq => Taken rtp l result.delivered result.rejected l' ∧ result.delivered = l.head?
  | _ => Taken rtp l result.delivered result.rejected l'

variable {stopper rtp} {q : RtpQueue α} {l : List α}

theorem Holds.step (h : Holds stopper q l) (hsorted : l.Pairwise (RtpQueue.Before rtp))
    {op : QueueOp α}
    (hop : Admissible stopper rtp l op) :
    ∃ result q' l', step stopper rtp q op = .ok (result, q') ∧ Holds stopper q' l' ∧
      l'.Pairwise (RtpQueue.Before rtp) ∧ Effect rtp q l result q' l' op := by
  have hfuel : l.length < q.mcount.toNat + 1 := by
    rw [h.mcount_eq, Int.toNat_natCast]
    omega
  cases op with
  | putq mp =>
    obtain ⟨hmp, hwindow⟩ := hop
    obtain ⟨ret, q', l', hq', hholds, hsorted', hput, hsame⟩ :=
      h.rtpPutq hsorted hmp hwindow hfuel
    exact ⟨{ ret }, q', l', by simp only [RtpQueue.step, hq']; rfl, hholds, hsorted',
      hput, hsame, rfl⟩
  | getq =>
    obtain ⟨q', hq', hholds⟩ := h.getq_eq
    have hsplit : l = [] ++ (l.head?.toList ++ l.tail) := by cases l <;> rfl
    obtain ⟨htaken, hsorted'⟩ := h.taken hsorted l.head? [] hsplit
    exact ⟨{ delivered := l.head? }, q', l.tail, by simp only [RtpQueue.step, hq']; rfl, hholds,
      hsorted', htaken, rfl⟩
  | rtpGetq timestamp =>
    obtain ⟨delivered, rejected, q', l', hq', hholds, hsorted', htaken⟩ :=
      h.rtpGetq hsorted timestamp hfuel
    exact ⟨{ delivered, rejected }, q', l', by simp only [RtpQueue.step, hq']; rfl, hholds,
      hsorted', htaken⟩
  | rtpGetqPermissive timestamp =>
    obtain ⟨delivered, q', l', hq', hholds, hsorted', htaken⟩ :=
      h.rtpGetqPermissive hsorted timestamp
    exact ⟨{ delivered }, q', l', by simp only [RtpQueue.step, hq']; rfl, hholds, hsorted', htaken⟩

theorem Reachable.holds {delivered : List α} (h : Reachable stopper rtp q delivered) :
    ∃ l, Holds stopper q l ∧ l.Pairwise (RtpQueue.Before rtp) := by
  induction h with
  | init links => exact ⟨[], holds_qinit links, List.Pairwise.nil⟩
  | step _ hop hstep ih =>
    obtain ⟨l, hholds, hsorted⟩ := ih
    obtain ⟨result, q', l', hq', hholds', hsorted', -⟩ := hholds.step hsorted (hop l hholds)
    cases hstep.symm.trans hq'
    exact ⟨l', hholds', hsorted'⟩

/-- The packets an operation delivers or frees: `rtp_putq` frees the one that it rejects. -/
def released (result : QueueResult α) : QueueOp α → List α
  | .putq mp => if result.ret = -1 then [mp] else []
  | _ => result.rejected ++ result.delivered.toList

/-- The packet an operation is given. -/
def offered : QueueOp α → List α
  | .putq mp => [mp]
  | _ => []

variable (stopper rtp) in
/-- Queues that admissible operations lead to, with the packets these were given and released. -/
inductive Logged : RtpQueue α → List α → List α → Prop where
  | init (links : Links α) : Logged (qinit stopper links) [] []
  | step {q q' : RtpQueue α} {given gone : List α} {op : QueueOp α} {result : QueueResult α}
      (h : Logged q given gone) (hop : ∀ l, Holds stopper q l → Admissible stopper rtp l op)
      (hstep : step stopper rtp q op = .ok (result, q')) :
      Logged q' (given ++ offered op) (gone ++ released result op)

end RtpQueue

end GrooveIp.Ortp
