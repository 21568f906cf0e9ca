import GrooveIp.Ortp.MetaTransport

/-!
# Delivery through the modifiers

When a received packet reaches RTP or RTCP processing as the modifiers of its kind leave it, and
why a message that was sent through inverting modifiers comes back.
-/

namespace GrooveIp.Ortp

open Lib List RtpTransportModifier

/-- A modifier as a layer: what its sizes cut from the buffer, where a size it may not report
refuses the message. -/
def RtpTransportModifier.layer (rtm : RtpTransportModifier) : Layer (List UInt8) where
  wrap m :=
    let (ret, data) := rtm.processOnSend m
    if ret ≤ 0 then none else some (data.take ret.toNat)
  unwrap m :=
    let (ret, data) := rtm.processOnReceive m
    if ret < 0 then none else some (data.take ret.toNat)

/-- The bytes that every modifier leaves, applied in reverse sending order, when none returns a
negative size. -/
def unwrapped (modifiers : List RtpTransportModifier) (packet : List UInt8) : Option (List UInt8) :=
  Layer.unwrapAll (modifiers.map layer) packet

/-- The same, when the final size is also positive. -/
def accepted (modifiers : List RtpTransportModifier) (packet : List UInt8) : Option (List UInt8) :=
  (unwrapped modifiers packet).filter fun m => !m.isEmpty

/-- The kind of a packet: with rtcp-mux the port of RTP receives both kinds. -/
def kindOf (s : MetaRtpSession) (isRtp : Bool) (packet : List UInt8) : Bool :=
  isRtp && !(s.rtcpMux && looksLikeRtcp packet)

/-- The packet is handed to the processing of its kind exactly when the modifiers of that kind
accept it, and then as they leave it. -/
def Delivered (s : MetaRtpSession) (isRtp : Bool) (packet : List UInt8) : Prop :=
  rtpSessionRecv s isRtp packet = match accepted (s.modifiers (kindOf s isRtp packet)) packet with
    | some m => [(kindOf s isRtp packet, m)]
    | none => []

/-- A connected socket bypasses the modifiers; an RTCP packet on the RTP port must exceed the
fixed header and pass the modifiers of a linked transport; any other packet goes as it should. -/
def DeliveryMeets (s : MetaRtpSession) (isRtp : Bool) (packet : List UInt8) : Prop :=
  if s.connected isRtp then
    kindOf s isRtp packet = isRtp ∧ accepted (s.modifiers isRtp) packet = some packet
  else if kindOf s isRtp packet = isRtp then True
  else if rtpFixedHeaderSize ≤ packet.length then
    s.linked = true ∧ (accepted s.rtcpModifiers packet).isSome = true
  else accepted s.rtpModifiers packet = none ∧ accepted s.rtcpModifiers packet = none

/-- A walk ended as a stack of layers did: with the bytes and their size, or with a negative
size. -/
def WalkOk : Option (List UInt8) → Int × Message → Prop
  | some m, res => res.1 = m.length ∧ res.2.wptr = m.length ∧ res.2.bytes = m
  | none, res => res.1 < 0

theorem bytes_length {msg : Message} (h0 : 0 ≤ msg.wptr) (h : msg.wptr ≤ msg.data.length) :
    (msg.bytes.length : Int) = msg.wptr := by
  rw [Message.bytes, length_take]
  omega

variable (tpm : Option Nat) (l : List (RtpTransportModifier × Nat))

theorem recvLoop_found (msg : Message) (h0 : 0 ≤ msg.wptr) (h : msg.wptr ≤ msg.data.length) :
    WalkOk ((l.map fun p => p.1.layer).foldlM (fun m layer => layer.unwrap m) msg.bytes)
      (recvLoop tpm true l msg.wptr msg) := by
  induction l generalizing msg with
  | nil =>
    have hlen := bytes_length h0 h
    exact ⟨hlen.symm, hlen.symm, rfl⟩
  | cons p l ih =>
    obtain ⟨rtm, i⟩ := p
    have hle := rtm.processOnReceive_le msg.bytes
    rw [recvLoop, map_cons, foldlM_cons]
    dsimp only [layer]
    by_cases hneg : (rtm.processOnReceive msg.bytes).1 < 0
    · simp only [hneg, if_true]
      exact hneg
    · simp only [hneg, if_true, if_false, Bool.true_or]
      have hw : msg.wptr + ((rtm.processOnReceive msg.bytes).1 - msg.wptr) =
          (rtm.processOnReceive msg.bytes).1 := by omega
      rw [hw]
      exact ih ⟨(rtm.processOnReceive msg.bytes).2, (rtm.processOnReceive msg.bytes).1⟩
        (by dsimp only; omega) hle

theorem layers_zipIdx (modifiers : List RtpTransportModifier) :
    (modifiers.zipIdx.map fun p => p.1.layer) = modifiers.map layer := by
  have hcomp : (fun p : RtpTransportModifier × Nat => p.1.layer) =
      layer ∘ Prod.fst := rfl
  rw [hcomp, ← map_map, zipIdx_map_fst]

theorem recvLoop_modifiers (modifiers : List RtpTransportModifier)
    (packet : List UInt8) : WalkOk (unwrapped modifiers packet)
      (recvLoop tpm true modifiers.zipIdx.reverse packet.length ⟨packet, packet.length⟩) := by
  have h := recvLoop_found tpm modifiers.zipIdx.reverse ⟨packet, packet.length⟩ (by simp) (by simp)
  rw [map_reverse, layers_zipIdx] at h
  simpa [unwrapped, Layer.unwrapAll, Message.bytes] using h

variable {modifiers : List RtpTransportModifier} {packet m : List UInt8}

theorem accepted_eq_some :
    accepted modifiers packet = some m ↔ unwrapped modifiers packet = some m ∧ m ≠ [] := by
  rw [accepted, Option.filter_eq_some_iff]
  simp

theorem accepted_eq_none : accepted modifiers packet = none ↔
      unwrapped modifiers packet = none ∨ unwrapped modifiers packet = some [] := by
  unfold accepted
  cases unwrapped modifiers packet with
  | none => simp
  | some m => cases m <;> simp

theorem handed_of_walk {res : Int × Message} (kind : Bool)
    (h : WalkOk (unwrapped modifiers packet) res) : (if res.1 > 0 then
        [(kind, { res.2 with wptr := res.2.wptr - res.1 + res.1 : Message }.bytes)]
      else []) = match accepted modifiers packet with
      | some m => [(kind, m)]
      | none => [] := by
  have hmsg : ({ res.2 with wptr := res.2.wptr - res.1 + res.1 } : Message) = res.2 := by
    rw [Int.sub_add_cancel]
  rw [hmsg]
  cases hu : unwrapped modifiers packet with
  | none =>
    rw [hu] at h
    have hret : ¬ res.1 > 0 := by
      have hneg : res.1 < 0 := h
      omega
    rw [accepted_eq_none.mpr (.inl hu), if_neg hret]
  | some m =>
    rw [hu] at h
    obtain ⟨hret, -, hbytes⟩ := h
    cases m with
    | nil =>
      rw [accepted_eq_none.mpr (.inr hu), if_neg (by simp [hret])]
    | cons b m =>
      rw [accepted_eq_some.mpr ⟨hu, by simp⟩, if_pos (by simp [hret]), hbytes]

variable {s : MetaRtpSession} {isRtp : Bool}

theorem rtpSessionRecv_port (hp : packet ≠ []) (hc : s.connected isRtp = false)
    (hmux : (s.rtcpMux && isRtp && decide (rtpFixedHeaderSize ≤ packet.length) && looksLikeRtcp
      packet) = false) : rtpSessionRecv s isRtp packet =
      match accepted (s.modifiers isRtp) packet with
      | some m => [(isRtp, m)]
      | none => [] := by
  have hlen : ¬ packet.length = 0 := by simpa using hp
  have hwalk := recvLoop_modifiers none (s.modifiers isRtp) packet
  rw [← handed_of_walk isRtp hwalk]
  unfold rtpSessionRecv metaRtpTransportRecvfrom
  simp [hc, hlen, hmux, recvThroughModifiers]

/-- An RTCP packet on the RTP port that exceeds the fixed header is handed over whatever the
modifiers of a linked RTCP transport returned, and goes to RTP without one. -/
theorem rtpSessionRecv_mux (hc : s.connected true = false) (hm : s.rtcpMux = true)
    (hl : rtpFixedHeaderSize ≤ packet.length) (hr : looksLikeRtcp packet = true) :
    rtpSessionRecv s true packet = if s.linked then
        [(false, (recvThroughModifiers s.rtcpModifiers none ⟨packet, packet.length⟩).2.bytes)]
      else [(true, packet)] := by
  have hlen : 12 ≤ packet.length := hl
  have hne : ¬ packet.length = 0 := by omega
  have hpos : 0 < packet.length := by omega
  unfold rtpSessionRecv metaRtpTransportRecvfrom
  simp only [hc, Bool.false_eq_true, if_false, hne, hm, hl, hr, decide_true, Bool.and_self, if_true]
  cases s.linked with
  | true => simp
  | false => simp [Message.bytes, hpos]

theorem handed_mux_iff :
    [(false, (recvThroughModifiers modifiers none ⟨packet, packet.length⟩).2.bytes)] =
        (match accepted modifiers packet with
        | some m => [(false, m)]
        | none => []) ↔
      (accepted modifiers packet).isSome = true := by
  cases ha : accepted modifiers packet with
  | none => simp
  | some m =>
    have hu := (accepted_eq_some.mp ha).1
    have hwalk : WalkOk (unwrapped modifiers packet)
        (recvThroughModifiers modifiers none ⟨packet, packet.length⟩) :=
      recvLoop_modifiers none modifiers packet
    rw [hu] at hwalk
    simp [hwalk.2.2]

theorem delivered_iff (s : MetaRtpSession) (isRtp : Bool) (hp : packet ≠ []) :
    Delivered s isRtp packet ↔ DeliveryMeets s isRtp packet := by
  have hpos : 0 < packet.length := length_pos_iff.mpr hp
  unfold Delivered DeliveryMeets
  by_cases hc : s.connected isRtp = true
  · -- the socket is connected: the packet is handed over as it came
    rw [if_pos hc, rtpSessionRecv, if_pos hc, if_pos hpos]
    constructor
    · intro h
      cases ha : accepted (s.modifiers (kindOf s isRtp packet)) packet with
      | none =>
        rw [ha] at h
        cases h
      | some m =>
        rw [ha] at h
        simp only [List.cons.injEq, Prod.mk.injEq, and_true] at h
        rw [← h.1] at ha
        exact ⟨h.1.symm, by rw [ha, h.2]⟩
    · rintro ⟨hk, ha⟩
      rw [hk, ha]
  · rw [if_neg hc]
    have hc' : s.connected isRtp = false := by simpa using hc
    by_cases hk : kindOf s isRtp packet = isRtp
    · -- the packet is of the kind of its port
      rw [if_pos hk, hk]
      refine iff_of_true (rtpSessionRecv_port hp hc' ?_) trivial
      unfold kindOf at hk
      cases isRtp with
      | false => simp
      | true =>
        have hno : s.rtcpMux = false ∨ looksLikeRtcp packet = false := by simpa using hk
        rcases hno with h | h <;> simp [h]
    · rw [if_neg hk]
      obtain ⟨rfl, hm, hr⟩ : isRtp = true ∧ s.rtcpMux = true ∧ looksLikeRtcp packet = true := by
        unfold kindOf at hk
        cases isRtp with
        | false => simp at hk
        | true => simpa using hk
      have hkind : kindOf s true packet = false := by simp [kindOf, hm, hr]
      rw [hkind]
      by_cases hl : rtpFixedHeaderSize ≤ packet.length
      · rw [if_pos hl, rtpSessionRecv_mux hc' hm hl hr]
        cases hlink : s.linked with
        | true =>
          simpa [MetaRtpSession.modifiers] using handed_mux_iff
        | false =>
          cases accepted (s.modifiers false) packet <;> simp
      · -- a short RTCP packet goes through the modifiers of RTP
        rw [if_neg hl, rtpSessionRecv_port hp hc' (by simp [hl])]
        simp only [MetaRtpSession.modifiers, if_true, Bool.false_eq_true, if_false]
        cases accepted s.rtpModifiers packet <;> cases accepted s.rtcpModifiers packet <;> simp

theorem sendLoop_found (msg : Message)
    {out : Message} (hout : sendLoop tpm true l msg.wptr msg = .ok out) :
    (l.map fun p => p.1.layer).foldlM (fun m layer => layer.wrap m) msg.bytes = some out.bytes := by
  induction l generalizing msg with
  | nil =>
    cases hout
    rfl
  | cons p l ih =>
    obtain ⟨rtm, i⟩ := p
    rw [sendLoop] at hout
    rw [map_cons, foldlM_cons]
    dsimp only [layer] at hout ⊢
    by_cases hstop : (rtm.processOnSend msg.bytes).1 ≤ 0
    · simp only [hstop, if_true] at hout
      cases hout
    · simp only [hstop, if_true, if_false, Bool.true_or] at hout ⊢
      have hw : msg.wptr + ((rtm.processOnSend msg.bytes).1 - msg.wptr) =
          (rtm.processOnSend msg.bytes).1 := by omega
      rw [hw] at hout
      exact ih ⟨(rtm.processOnSend msg.bytes).2, (rtm.processOnSend msg.bytes).1⟩ hout

variable {wire : List UInt8}

theorem metaRtpTransportSendto_wrapped {port : Bool}
    (h : metaRtpTransportSendto s isRtp m = some (port, wire)) :
    Layer.wrapAll ((s.modifiers isRtp).map layer) m = some wire := by
  unfold metaRtpTransportSendto at h
  cases hs : sendLoop none true (s.modifiers isRtp).zipIdx m.length ⟨m, m.length⟩ with
  | error ret =>
    rw [hs] at h
    cases h
  | ok out =>
    have hwrap := sendLoop_found none (s.modifiers isRtp).zipIdx ⟨m, m.length⟩ hs
    rw [layers_zipIdx] at hwrap
    have hbytes : (⟨m, m.length⟩ : Message).bytes = m := by simp [Message.bytes]
    rw [hbytes] at hwrap
    rw [hs] at h
    dsimp only at h
    have hout : out.bytes = wire := by
      split at h
      · split at h
        · exact (Prod.mk.inj (Option.some.inj h)).2
        · cases h
      · exact (Prod.mk.inj (Option.some.inj h)).2
    rw [← hout]
    exact hwrap

theorem accepted_sent {port : Bool} (hinv : ∀ rtm ∈ s.modifiers isRtp, rtm.layer.Inverts)
    (hm : m ≠ []) (h : metaRtpTransportSendto s isRtp m = some (port, wire)) :
    accepted (s.modifiers isRtp) wire = some m := by
  refine accepted_eq_some.mpr ⟨?_, hm⟩
  apply Layer.unwrapAll_wrapAll
  · intro l hl
    obtain ⟨rtm, hrtm, rfl⟩ := mem_map.mp hl
    exact hinv rtm hrtm
  · exact metaRtpTransportSendto_wrapped h

variable {rtm : RtpTransportModifier}

theorem recvLoop_skip {tpm : Nat} (rest : List (RtpTransportModifier × Nat))
    (hl : ∀ p ∈ l, p.2 ≠ tpm) (ret : Int) (msg : Message) :
    recvLoop (some tpm) false (l ++ (rtm, tpm) :: rest) ret msg =
      recvLoop (some tpm) true rest ret msg := by
  induction l with
  | nil => simp [recvLoop]
  | cons p l ih =>
    obtain ⟨rtm', i⟩ := p
    have hi : tpm ≠ i := fun h => hl (rtm', i) mem_cons_self h.symm
    rw [cons_append, recvLoop]
    have hne : (some tpm == some i) = false := by simpa using hi
    rw [hne]
    exact ih fun p hp => hl p (mem_cons_of_mem _ hp)

theorem recvThroughModifiers_inject (before after : List RtpTransportModifier)
    (rtm : RtpTransportModifier) (m : List UInt8) : WalkOk (unwrapped before m)
      (recvThroughModifiers (before ++ rtm :: after) (some before.length) ⟨m, m.length⟩) := by
  have hsplit : (before ++ rtm :: after).zipIdx.reverse =
      (after.zipIdx (before.length + 1)).reverse ++
        (rtm, before.length) :: before.zipIdx.reverse := by
    rw [zipIdx_append, zipIdx_cons, Nat.zero_add]
    simp
  unfold recvThroughModifiers
  rw [hsplit, Option.isNone_some, recvLoop_skip]
  · exact recvLoop_modifiers _ before m
  · intro p hp
    have hle := le_snd_of_mem_zipIdx (mem_reverse.mp hp)
    omega

theorem wrap_ne_nil {m' : List UInt8} (h : rtm.layer.wrap m = some m') : m' ≠ [] := by
  have hle := rtm.processOnSend_le m
  dsimp only [layer] at h
  split at h
  · cases h
  · next hpos =>
    cases h
    have hpos' : ¬ (rtm.processOnSend m).1 ≤ 0 := hpos
    have hlen : 0 < ((rtm.processOnSend m).2.take (rtm.processOnSend m).1.toNat).length := by
      rw [length_take]
      omega
    exact ne_nil_of_length_pos hlen

theorem wrapAll_ne_nil (hm : m ≠ [])
    (h : Layer.wrapAll (modifiers.map layer) m = some wire) : wire ≠ [] := by
  induction modifiers generalizing m with
  | nil =>
    cases h
    exact hm
  | cons rtm modifiers ih =>
    rw [map_cons, Layer.wrapAll_cons] at h
    cases hw : rtm.layer.wrap m with
    | none =>
      rw [hw] at h
      cases h
    | some m' =>
      rw [hw] at h
      exact ih (wrap_ne_nil hw) h

/-- The packet injected by a modifier is handed over as the modifiers before it accept it. -/
def InjectionDelivered (s : MetaRtpSession) (isRtp : Bool) (before : List RtpTransportModifier)
    (m : List UInt8) : Prop :=
  injectPacketToRecv s isRtp (some before.length) m = match accepted before m with
    | some m' => [(isRtp, m')]
    | none => []

theorem injectionDelivered_iff {before after : List RtpTransportModifier}
    (hs : s.modifiers isRtp = before ++ rtm :: after) (m : List UInt8) :
    InjectionDelivered s isRtp before m ↔ (accepted before m).isSome = true := by
  have hwalk := recvThroughModifiers_inject before after rtm m
  unfold InjectionDelivered injectPacketToRecv
  rw [hs]
  cases ha : accepted before m with
  | none => simp
  | some m' =>
    rw [(accepted_eq_some.mp ha).1] at hwalk
    simp [hwalk.2.2]

/-- Packets reach the session through all the modifiers of their kind exactly under the condition
on delivery; an injected one when the modifiers accept it; and a message sent through inverting
modifiers comes back when its packet is received as its kind under that condition. -/
theorem modifiers_delivery_iff (s : MetaRtpSession) :
    (∀ isRtp packet, packet ≠ [] → (Delivered s isRtp packet ↔ DeliveryMeets s isRtp packet)) ∧
    (∀ isRtp before rtm after m, s.modifiers isRtp = before ++ rtm :: after →
      (InjectionDelivered s isRtp before m ↔ (accepted before m).isSome = true)) ∧
    (∀ isRtp port m wire, (∀ rtm ∈ s.modifiers isRtp, rtm.layer.Inverts) → m ≠ [] →
      metaRtpTransportSendto s isRtp m = some (port, wire) → kindOf s port wire = isRtp →
      DeliveryMeets s port wire → rtpSessionRecv s port wire = [(isRtp, m)]) := by
  refine ⟨fun isRtp packet hp => delivered_iff s isRtp hp,
    fun isRtp before rtm after m hs => injectionDelivered_iff hs m, ?_⟩
  intro isRtp port m wire hinv hm hsent hkind hmeets
  have hwire := wrapAll_ne_nil hm (metaRtpTransportSendto_wrapped hsent)
  have hdel := (delivered_iff s port hwire).mpr hmeets
  rw [hdel, hkind, accepted_sent hinv hm hsent]

/-- A modifier that refuses every packet and leaves it as it was. -/
def refuseAll : RtpTransportModifier where
  processOnSend m := (-1, m)
  processOnReceive m := (-1, m)
  processOnSend_le m := by dsimp only; omega
  processOnReceive_le m := by dsimp only; omega

/-- With rtcp-mux, a receiver report that the RTCP modifier refuses reaches RTCP processing. -/
theorem modifiers_delivery_refused :
    ¬ Delivered { rtpModifiers := [], rtcpModifiers := [refuseAll], rtcpMux := true } true
      (0x80 :: 0xC9 :: List.replicate 10 0) := by
  intro h
  have hhanded : rtpSessionRecv
      { rtpModifiers := [], rtcpModifiers := [refuseAll], rtcpMux := true } true
      (0x80 :: 0xC9 :: List.replicate 10 0) =
        [(false, 0x80 :: 0xC9 :: List.replicate 10 0)] := by decide
  rw [Delivered, hhanded] at h
  exact absurd h (by decide)

/-! ## Injected messages on the way out -/

theorem sendLoop_eq (msg : Message) :
    (sendLoop tpm true l msg.wptr msg).toOption.map Message.bytes =
      (l.map fun p => p.1.layer).foldlM (fun m layer => layer.wrap m) msg.bytes := by
  induction l generalizing msg with
  | nil => rfl
  | cons p l ih =>
    obtain ⟨rtm, i⟩ := p
    rw [sendLoop, map_cons, foldlM_cons]
    dsimp only [layer]
    by_cases hstop : (rtm.processOnSend msg.bytes).1 ≤ 0
    · simp only [hstop, if_true]
      rfl
    · simp only [hstop, if_false, Bool.true_or]
      have hw : msg.wptr + ((rtm.processOnSend msg.bytes).1 - msg.wptr) =
          (rtm.processOnSend msg.bytes).1 := by omega
      rw [hw]
      exact ih ⟨(rtm.processOnSend msg.bytes).2, (rtm.processOnSend msg.bytes).1⟩

theorem sendLoop_behind {n k : Nat} (hn : n ≤ k) (ret : Int) (msg : Message) :
    sendLoop (some k) false (modifiers.zipIdx n) ret msg =
      sendLoop (some k) true ((modifiers.drop (k + 1 - n)).zipIdx (k + 1)) ret msg := by
  induction modifiers generalizing n with
  | nil => simp [sendLoop]
  | cons rtm modifiers ih =>
    rw [zipIdx_cons, sendLoop]
    by_cases heq : k = n
    · simp [heq]
    · have hfound : (k == n) = false := beq_false_of_ne heq
      simpa [hfound, Nat.succ_sub hn] using ih (n := n + 1) (by omega)

/-- A message that the `k`-th modifier injects leaves as the modifiers behind it wrap it, unless one
of them refuses it, and through the port of its own kind also with rtcp-mux. -/
theorem injectPacketToSendTo_eq (k : Nat) : injectPacketToSendTo s isRtp (some k) m =
    (Layer.wrapAll (((s.modifiers isRtp).drop (k + 1)).map layer) m).map (isRtp, ·) := by
  have hwalk := sendLoop_eq (some k) (((s.modifiers isRtp).drop (k + 1)).zipIdx (k + 1))
    ⟨m, m.length⟩
  have hbytes : (⟨m, m.length⟩ : Message).bytes = m := by simp [Message.bytes]
  rw [hbytes, ← Function.comp_def layer Prod.fst, ← map_map, zipIdx_map_fst] at hwalk
  unfold injectPacketToSendTo
  rw [Option.isNone_some, sendLoop_behind k.zero_le, Layer.wrapAll, ← hwalk]
  cases sendLoop _ _ _ _ _ <;> rfl

end GrooveIp.Ortp
