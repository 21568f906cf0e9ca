import GrooveIp.Rtt.Bounds
import GrooveIp.Rtt.Utf8

/-!
# What a packet with redundancy carries

A packet carries the text of its interval and of the two intervals before it, and the sink takes from it
the text of as many intervals as it needs.
-/

namespace GrooveIp.Rtt

open GrooveIp.Lib List RealTimeTextSourceData
open UInt8 (ofNat)

/-- A packet with redundancy carries two older texts and a new one. -/
def Carries (pt : Int) (payload : List UInt8) (older old new : List Nat) : Prop :=
  ∃ first second : UInt32, payload =
    htonl (getRedSubheader (pt % 128) first (encode older).length) ++
      (htonl (getRedSubheader (pt % 128) second (encode old).length) ++
        (ofNat (pt % 128).toNat :: (encode older ++ (encode old ++ encode new))))

/-! ## The sink -/

theorem getRedSubheader_div (pt : Int) (offset : UInt32) (length : Nat) :
    getRedSubheader pt offset length / 2 ^ 24 = 128 + (pt % 128).toNat := by
  unfold getRedSubheader
  have hdiv : ∀ a b : Nat, (a ||| b) / 2 ^ 24 = a / 2 ^ 24 ||| b / 2 ^ 24 :=
    fun a b => Nat.or_div_two_pow
  have hlength : (length &&& 0x3FF) / 2 ^ 24 = 0 := by
    rw [show (0x3FF : Nat) = 2 ^ 10 - 1 from rfl, Nat.and_two_pow_sub_one_eq_mod]
    omega
  have hoffset : (offset.toNat &&& 0x3FFF) <<< 10 / 2 ^ 24 = 0 := by
    rw [Nat.shiftLeft_eq, show (0x3FFF : Nat) = 2 ^ 14 - 1 from rfl, Nat.and_two_pow_sub_one_eq_mod]
    omega
  have hpt : (pt % 128).toNat <<< 24 / 2 ^ 24 = (pt % 128).toNat := by
    omega
  rw [hdiv, hdiv, hdiv, hlength, hoffset, hpt, Nat.or_zero, Nat.or_zero,
    show (2 ^ 31 / 2 ^ 24 : Nat) = 1 <<< 7 from rfl, ← Nat.shiftLeft_add_eq_or_of_lt (by omega)]
  rfl

theorem header_bits {n : Nat} (h : n < 128) :
    ofNat (128 + n) &&& 0x80 ≠ 0 ∧ (ofNat (128 + n) &&& 0x7F).toNat = n ∧
      ofNat n &&& 0x80 = 0 ∧ (ofNat n).toNat = n := by
  have hall : ∀ n < 128, ofNat (128 + n) &&& 0x80 ≠ 0 ∧
      (ofNat (128 + n) &&& 0x7F).toNat = n ∧ ofNat n &&& 0x80 = 0 ∧
        (ofNat n).toNat = n := by decide +kernel
  exact hall n h

variable {pt : Int} {payload : List UInt8} {older old new : List Nat}

theorem Carries.bytes (h : Carries pt payload older old new) :
    payload.length = 9 + (encode older).length + (encode old).length + (encode new).length ∧
      payload[0]? = some (ofNat (128 + (pt % 128).toNat)) ∧
      payload[4]? = some (ofNat (128 + (pt % 128).toNat)) ∧
      payload[8]? = some (ofNat (pt % 128).toNat) ∧
      payload.drop 9 = encode older ++ (encode old ++ encode new) := by
  obtain ⟨first, second, rfl⟩ := h
  have hfirst := getRedSubheader_div (pt % 128) first (encode older).length
  have hsecond := getRedSubheader_div (pt % 128) second (encode old).length
  have hmod : pt % 128 % 128 = pt % 128 := by omega
  rw [hmod] at hfirst hsecond
  unfold htonl
  rw [hfirst, hsecond]
  refine ⟨?_, rfl, rfl, rfl, rfl⟩
  simp only [length_append, length_cons, length_nil]
  omega

theorem Carries.blockLength (h : Carries pt payload older old new)
    (hshort : (encode older).length < 1024 ∧ (encode old).length < 1024) :
    blockLength payload 0 = .ok (encode older).length ∧
      blockLength payload 1 = .ok (encode old).length := by
  obtain ⟨first, second, rfl⟩ := h
  constructor
  · have := blockLength_htonl [] (htonl (getRedSubheader (pt % 128) second (encode old).length) ++
      (ofNat (pt % 128).toNat :: (encode older ++ (encode old ++ encode new)))) 0 rfl
      (getRedSubheader (pt % 128) first (encode older).length)
    rw [getRedSubheader_mod, Nat.mod_eq_of_lt hshort.1] at this
    exact this
  · have := blockLength_htonl (htonl (getRedSubheader (pt % 128) first (encode older).length))
      (ofNat (pt % 128).toNat :: (encode older ++ (encode old ++ encode new))) 1 rfl
      (getRedSubheader (pt % 128) second (encode old).length)
    rw [getRedSubheader_mod, Nat.mod_eq_of_lt hshort.2, append_assoc] at this
    exact this

/-- The text that a sink takes from a packet when some before it are lost. -/
def taken (lost : Int) (older old new : List Nat) : List Nat :=
  if lost ≤ 0 then new else if lost = 1 then old ++ new else older ++ (old ++ new)

variable {sink : RealTimeTextSinkData}

theorem Carries.countHeaders (h : Carries pt payload older old new) (hpt : 0 ≤ pt ∧ pt < 128)
    (hsink : sink.ptT140 = pt) :
    sink.countHeaders payload (payload.length + 1) 0 = .ok (some 2) := by
  obtain ⟨hlength, h0, h4, h8, -⟩ := h.bytes
  obtain ⟨hmark, hsame, hplain, -⟩ := header_bits (n := (pt % 128).toNat) (by omega)
  have hnumber : (((pt % 128).toNat : Nat) : Int) = sink.ptT140 := by omega
  obtain ⟨fuel, hfuel⟩ : ∃ fuel, payload.length + 1 = fuel + 3 := ⟨payload.length - 2, by omega⟩
  rw [hfuel, RealTimeTextSinkData.countHeaders]
  simp only [Nat.mul_zero, h0, hmark, hsame, hnumber, ne_eq, not_false_eq_true, not_true_eq_false,
    if_true, if_false]
  rw [RealTimeTextSinkData.countHeaders]
  simp only [Nat.zero_add, Nat.mul_one, h4, hmark, hsame, hnumber, ne_eq, not_false_eq_true,
    not_true_eq_false, if_true, if_false]
  rw [RealTimeTextSinkData.countHeaders]
  simp [h8, hplain]

theorem Carries.locateRed (h : Carries pt payload older old new) (hpt : 0 ≤ pt ∧ pt < 128)
    (hsink : sink.ptT140 = pt)
    (hshort : (encode older).length < 1024 ∧ (encode old).length < 1024) {seqno : Int}
    (hneeded : 0 ≤ sink.needed seqno) : ∃ readstart, sink.locateRed seqno payload =
        .ok (some (readstart, decide (sink.needed seqno > 2))) ∧ readstart ≤ payload.length ∧
      payload.drop readstart = encode (taken (sink.needed seqno) older old new) := by
  obtain ⟨hlength, -, -, h8, hdrop⟩ := h.bytes
  obtain ⟨-, -, -, hnat⟩ := header_bits (n := (pt % 128).toNat) (by omega)
  have hnumber : (((pt % 128).toNat : Nat) : Int) = sink.ptT140 := by omega
  obtain ⟨hfirst, hsecond⟩ := h.blockLength hshort
  have hbyte : byteAt payload (4 * 2) = .ok (ofNat (pt % 128).toNat) := by
    unfold byteAt
    rw [h8]
  have hskip : ∃ readstart, skipBlocks payload (2 * 4 + 1) (2 - (sink.needed seqno).toNat) =
        .ok readstart ∧ readstart ≤ payload.length ∧
      payload.drop readstart = encode (taken (sink.needed seqno) older old new) := by
    unfold taken
    by_cases hnone : sink.needed seqno = 0
    · refine ⟨9 + (encode older).length + (encode old).length, ?_, by omega, ?_⟩
      · rw [hnone]
        unfold skipBlocks
        simp only [Int.toNat_zero, Nat.sub_zero, range_succ, range_zero, nil_append,
          cons_append, foldlM_cons, foldlM_nil, bind, Except.bind, pure, Except.pure,
          hfirst, hsecond]
      · rw [if_pos (by omega), Nat.add_assoc, ← drop_drop, hdrop, ← append_assoc,
          ← length_append, drop_left]
    by_cases hone : sink.needed seqno = 1
    · refine ⟨9 + (encode older).length, ?_, by omega, ?_⟩
      · rw [hone]
        unfold skipBlocks
        simp [bind, Except.bind, pure, Except.pure, hfirst]
      · rw [if_neg (by omega), if_pos hone, ← drop_drop, hdrop, drop_left, encode_append]
    · refine ⟨9, ?_, by omega, ?_⟩
      · rw [show 2 - (sink.needed seqno).toNat = 0 by omega]
        rfl
      · rw [if_neg (by omega), if_neg hone, hdrop, encode_append, encode_append]
  obtain ⟨readstart, hok, hle, htext⟩ := hskip
  refine ⟨readstart, ?_, hle, htext⟩
  unfold RealTimeTextSinkData.locateRed
  rw [h.countHeaders hpt hsink]
  simp only [bind, Except.bind, hbyte, hnat, hnumber, hok, ne_eq, not_true_eq_false, if_false]
  rw [if_neg (by omega)]
  have hlost : decide ((sink.needed seqno).toNat > 2) = decide (sink.needed seqno > 2) := by
    rw [decide_eq_decide]
    omega
  rw [hlost]

theorem readNew_encode (hempty : sink.inbuf = []) {seqno : Int} {readstart : Nat}
    (hle : readstart ≤ payload.length) {cs : List Nat} (hplain : ∀ c ∈ cs, Plain c)
    (htext : payload.drop readstart = encode cs) (hshort : (encode cs).length + 3 ≤ inBufSize)
    (lost : Bool) : sink.readNew seqno payload readstart lost = .ok { sink with
        inbuf := encode ((if lost then [0xFFFD] else []) ++ cs), prevseqno := seqno } := by
  unfold RealTimeTextSinkData.readNew
  generalize hmarked : (if lost = true then { sink with inbuf := lostChar } else sink) = marked
  have hmarkedBuf : marked.inbuf = encode (if lost then [0xFFFD] else []) := by
    rw [← hmarked]
    cases lost
    · exact hempty
    · rfl
  have hused : marked.inbuf.length ≤ 3 := by
    rw [hmarkedBuf]
    cases lost <;> decide
  have hlength : payload.length - readstart = (encode cs).length := by
    rw [← htext, length_drop]
  have hread : marked.readT140Data payload readstart (payload.length - readstart) =
      .ok ({ marked with inbuf := marked.inbuf ++ encode cs }, true) := by
    unfold RealTimeTextSinkData.readT140Data
    rw [if_neg (by omega), if_neg (show ¬ ((payload.length : Int) - readstart >
      inBufSize - marked.inbuf.length) by omega)]
    by_cases hnone : (encode cs).length = 0
    · rw [if_neg (by omega), length_eq_zero_iff.mp hnone, append_nil]
    · rw [if_pos (by omega)]
      have hbytes : readBytes payload readstart ((payload.length : Int) - readstart).toNat =
          .ok (encode cs) := by
        rw [readBytes_of_le (by omega), htext, take_of_length_le (by omega)]
      simp only [bind, Except.bind, hbytes]
      rw [if_pos (isUtf8BufOk_encode hplain)]
      unfold RealTimeTextSinkData.append
      rw [if_pos (by omega)]
  unfold RealTimeTextSinkData.readFrom
  simp only [bind, Except.bind, hread, if_true]
  rw [encode_append, ← hmarkedBuf, ← hmarked]
  cases lost <;> rfl

/-- Text that is short enough to be sent with two others. -/
structure Short (cs : List Nat) : Prop where
  plain : ∀ c ∈ cs, Plain c
  length : (encode cs).length ≤ 300

theorem taken_plain (holder : Short older) (hold : Short old) (hnew : Short new) (lost : Int) :
    (∀ c ∈ taken lost older old new, Plain c) ∧
      (encode (taken lost older old new)).length + 3 ≤ inBufSize := by
  have h1 := holder.length
  have h2 := hold.length
  have h3 := hnew.length
  unfold taken inBufSize outBufSize redGen
  split
  · exact ⟨hnew.plain, by omega⟩
  split
  · refine ⟨fun c hc => (mem_append.mp hc).elim (hold.plain c) (hnew.plain c), ?_⟩
    rw [encode_append, length_append]
    omega
  · refine ⟨fun c hc => (mem_append.mp hc).elim (holder.plain c) fun hc =>
      (mem_append.mp hc).elim (hold.plain c) (hnew.plain c), ?_⟩
    rw [encode_append, encode_append, length_append, length_append]
    omega

/-- The characters that a sink notifies for a packet when some before it are lost. -/
def heard (lost : Int) (older old new : List Nat) : List Nat :=
  (if lost > 2 then [0xFFFD] else []) ++ (taken lost older old new).filter (· ≠ 0xFEFF)

/-- A packet that is not older than what the sink has is notified. -/
theorem Carries.process (h : Carries pt payload older old new) (hpt : 0 ≤ pt ∧ pt < 128)
    (hsink : sink.ptT140 = pt) (hred : sink.ptRed > 0) (holder : Short older) (hold : Short old)
    (hnew : Short new) (seqno : UInt16) (hneeded : 0 ≤ sink.needed seqno.toNat) :
    sink.process ⟨seqno, payload⟩ =
      .ok ({ sink with notFirst := true, prevseqno := seqno.toNat, inbuf := [], unread := [] },
        heard (sink.needed seqno.toNat) older old new) := by
  have h1 := holder.length
  have h2 := hold.length
  obtain ⟨readstart, hlocate, hle, htext⟩ := h.locateRed hpt hsink ⟨by omega, by omega⟩ hneeded
  obtain ⟨hplain, hfits⟩ := taken_plain holder hold hnew (sink.needed seqno.toNat)
  generalize htaken : taken (sink.needed seqno.toNat) older old new = cs at *
  have hread : sink.readTextPacket ⟨seqno, payload⟩ = .ok { sink with
      notFirst := true, prevseqno := seqno.toNat,
      inbuf := encode ((if sink.needed seqno.toNat > 2 then [0xFFFD] else []) ++ cs),
      unread := encode ((if sink.needed seqno.toNat > 2 then [0xFFFD] else []) ++ cs) } := by
    rw [readTextPacket_eq]
    unfold RealTimeTextSinkData.locate
    rw [if_pos hred]
    rw [hlocate]
    dsimp only
    rw [readNew_encode rfl hle hplain htext hfits]
    simp only [Except.map, decide_eq_true_eq]
  have hall : ∀ c ∈ (if sink.needed seqno.toNat > 2 then [0xFFFD] else []) ++ cs, Plain c := by
    intro c hc
    obtain hc | hc := mem_append.mp hc
    · split at hc
      · rw [mem_singleton.mp hc]
        exact ⟨by decide, by decide⟩
      · cases hc
    · exact hplain c hc
  unfold RealTimeTextSinkData.process
  simp only [bind, Except.bind, hread]
  have hheard : heard (sink.needed seqno.toNat) older old new =
      ((if sink.needed seqno.toNat > 2 then [0xFFFD] else []) ++ cs).filter (· ≠ 0xFEFF) := by
    unfold heard
    rw [htaken, filter_append]
    split <;> rfl
  rw [hheard]
  generalize (if sink.needed seqno.toNat > 2 then [0xFFFD] else []) ++ cs = all at *
  split
  · rw [notify_encode hall (Nat.lt_succ_of_le (length_le_encode hall))]
  · next hempty =>
    have hnil : all = [] := by
      have := length_le_encode hall
      rw [not_not.mp hempty] at this
      exact length_eq_zero_iff.mp (by simpa using this)
    rw [hnil]
    rfl

/-- A packet that is older than what the sink has is ignored. -/
theorem Carries.process_late (h : Carries pt payload older old new) (hpt : 0 ≤ pt ∧ pt < 128)
    (hsink : sink.ptT140 = pt) (hred : sink.ptRed > 0) (seqno : UInt16)
    (hneeded : sink.needed seqno.toNat < 0) : sink.process ⟨seqno, payload⟩ =
      .ok ({ sink with notFirst := true, inbuf := [], unread := [] }, []) := by
  obtain ⟨-, -, -, h8, -⟩ := h.bytes
  obtain ⟨-, -, -, hnat⟩ := header_bits (n := (pt % 128).toNat) (by omega)
  have hnumber : (((pt % 128).toNat : Nat) : Int) = sink.ptT140 := by omega
  have hbyte : byteAt payload (4 * 2) = .ok (ofNat (pt % 128).toNat) := by
    unfold byteAt
    rw [h8]
  have hlocate : sink.locate ⟨seqno, payload⟩ = .ok none := by
    unfold RealTimeTextSinkData.locate RealTimeTextSinkData.locateRed
    rw [if_pos hred]
    rw [h.countHeaders hpt hsink]
    simp only [bind, Except.bind, hbyte, hnat, hnumber, ne_eq, not_true_eq_false, if_false]
    rw [if_pos hneeded]
  unfold RealTimeTextSinkData.process
  rw [readTextPacket_eq, hlocate]
  rfl

/-! ## The source -/

/-- The buffers of a source hold two older texts and the one that is typed. -/
structure Buffered (pt : Int) (older old typed : List Nat) (stream : RealTimeTextSourceData) :
    Prop where
  ptT140 : stream.ptT140 = pt
  ptRed : stream.ptRed > 0
  primary : stream.buf stream.pribuf = encode typed
  last : stream.buf (stream.pribuf + 2) = encode old
  oldest : stream.buf (stream.pribuf + 1) = encode older
  older : Short older
  old : Short old
  typed : Short typed

variable {stream : RealTimeTextSourceData} {typed : List Nat}

/-- A character that is typed is buffered. -/
theorem Buffered.put (h : Buffered pt older old typed stream) {c : Nat} (hc : Plain c)
    (hshort : (encode (typed ++ [c])).length ≤ 300) :
    Buffered pt older old (typed ++ [c]) (stream.putchar32 c) := by
  have hencode : encode (typed ++ [c]) = encode typed ++ encodeChar c := by
    simp [encode]
  have hput : stream.putchar32 c = { stream with
      buf := fun i => if i = stream.pribuf then stream.buf i ++ encodeChar c else stream.buf i } := by
    unfold putchar32
    rw [if_pos]
    rw [h.primary]
    rw [hencode, length_append] at hshort
    unfold outBufSize
    omega
  have hother : ∀ pribuf : Fin 3, pribuf + 2 ≠ pribuf ∧ pribuf + 1 ≠ pribuf := by decide
  rw [hput]
  refine ⟨h.ptT140, h.ptRed, ?_, ?_, ?_, h.older, h.old, fun d hd => ?_, hshort⟩
  · dsimp only
    rw [if_pos rfl, h.primary, hencode]
  · exact (if_neg (hother _).1).trans h.last
  · exact (if_neg (hother _).2).trans h.oldest
  · obtain hd | hd := mem_append.mp hd
    · exact h.typed.plain d hd
    · rw [mem_singleton.mp hd]
      exact hc

theorem Buffered.send (h : Buffered pt older old typed stream) (timestamp : UInt32) :
    ∃ stream' packet, stream.send timestamp = .ok (stream', some packet) ∧
      Carries pt packet.payload older old typed ∧ Buffered pt old typed [] stream' := by
  generalize htimed : ({ stream with timestamp := fun i =>
    if i = stream.pribuf then timestamp else stream.timestamp i } : RealTimeTextSourceData) = timed
  have hbuf : timed.buf = stream.buf := by rw [← htimed]
  have hpribuf : timed.pribuf = stream.pribuf := by rw [← htimed]
  have hptT140 : timed.ptT140 = pt := by rw [← htimed]; exact h.ptT140
  have hptRed : timed.ptRed > 0 := by rw [← htimed]; exact h.ptRed
  have h1 := h.older.length
  have h2 := h.old.length
  have h3 := h.typed.length
  have hfits : (timed.pieces.map List.length).sum ≤ payloadSize := by
    rw [sum_pieces timed hptRed]
    unfold total payloadSize outBufSize redGen
    rw [hbuf, hpribuf, h.primary, h.last, h.oldest]
    omega
  unfold RealTimeTextSourceData.send
  rw [htimed]
  dsimp only
  rw [generateRedPacket_eq, if_pos hfits]
  refine ⟨_, _, rfl, ?_, ?_⟩
  · dsimp only
    rw [flatten_pieces timed hptRed]
    unfold subheader
    rw [hbuf, hpribuf, hptT140, h.primary, h.last, h.oldest]
    exact ⟨_, _, rfl⟩
  · have hnext : timed.getLastBuf = stream.pribuf + 1 := by
      unfold getLastBuf
      rw [hpribuf]
      have hall : ∀ pribuf : Fin 3, (if pribuf = 2 then 0 else pribuf + 1) = pribuf + 1 := by decide
      exact hall _
    have hturn : ∀ pribuf : Fin 3, pribuf + 1 + 2 = pribuf ∧ pribuf + 1 + 1 = pribuf + 2 ∧
        pribuf ≠ pribuf + 1 ∧ pribuf + 2 ≠ pribuf + 1 := by decide
    obtain ⟨htwo, hone, hne, hne'⟩ := hturn stream.pribuf
    refine ⟨hptT140, hptRed, ?_, ?_, ?_, h.old, h.typed, nofun, Nat.zero_le _⟩
    · unfold useNextBuf
      exact if_pos rfl
    · unfold useNextBuf
      dsimp only
      rw [hnext, htwo, if_neg hne, hbuf, h.primary]
    · unfold useNextBuf
      dsimp only
      rw [hnext, hone, if_neg hne', hbuf, h.last]

/-- A tick sends what is typed, or a byte order mark when there is no text at all, or nothing. -/
theorem Buffered.tick (h : Buffered pt older old typed stream) (timestamp : UInt32) :
    (∃ stream' packet text, stream.step (.tick timestamp) = .ok (stream', some packet) ∧
      text.filter (· ≠ 0xFEFF) = typed.filter (· ≠ 0xFEFF) ∧
      Short text ∧ Carries pt packet.payload older old text ∧ Buffered pt old text [] stream') ∨
    stream.step (.tick timestamp) = .ok (stream, none) := by
  unfold step
  dsimp only
  rw [sendData_eq]
  split
  · split
    · obtain ⟨stream', packet, hsend, hcarries, hbuffered⟩ := h.send timestamp
      exact .inl ⟨stream', packet, typed, hsend, rfl, h.typed, hcarries, hbuffered⟩
    · exact .inr rfl
  · next hnone =>
    split
    · have hnil : typed = [] := by
        unfold isDataToSend at hnone
        rw [if_pos h.ptRed] at hnone
        have hempty : stream.buf stream.pribuf = [] := by
          by_contra hsome
          exact hnone (decide_eq_true ⟨_, hsome⟩)
        have := length_le_encode h.typed.plain
        rw [← h.primary, hempty] at this
        exact length_eq_zero_iff.mp (by simpa using this)
      subst hnil
      have hbom : Buffered pt older old [0xFEFF] (stream.putchar32 0xFEFF) :=
        h.put ⟨by decide, by decide⟩ (by decide)
      obtain ⟨stream', packet, hsend, hcarries, hbuffered⟩ := hbom.send timestamp
      exact .inl ⟨stream', packet, [0xFEFF], hsend, rfl, hbom.typed, hcarries, hbuffered⟩
    · exact .inr rfl

end GrooveIp.Rtt
