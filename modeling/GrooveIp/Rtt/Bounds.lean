import GrooveIp.Rtt.Sink
import Mathlib.Algebra.BigOperators.Group.List.Basic

/-!
# The buffers of real-time text

When the source writes beyond its payload or a sub-header loses the length of its block, and when the sink
leaves the payload of a packet or the text of its dump.
-/

namespace GrooveIp.Rtt

open GrooveIp.Lib List RealTimeTextSourceData RealTimeTextSinkData

/-! ## The source -/

theorem foldlM_copyTo (pieces : List (List UInt8)) (payload : List UInt8)
    (h : payload.length ≤ payloadSize) : pieces.foldlM copyTo payload =
      if payload.length + (pieces.map List.length).sum ≤ payloadSize then
        .ok (payload ++ pieces.flatten)
      else .error .outOfBounds := by
  induction pieces generalizing payload with
  | nil => simp [h, pure, Except.pure]
  | cons piece pieces ih =>
    rw [foldlM_cons, copyTo]
    by_cases hfits : payload.length + piece.length ≤ payloadSize
    · rw [if_pos hfits]
      simp only [bind, Except.bind]
      rw [ih _ (by simpa using hfits)]
      simp [Nat.add_assoc]
    · rw [if_neg hfits, if_neg]
      · rfl
      · simp only [map_cons, sum_cons]
        omega

variable (stream : RealTimeTextSourceData)

theorem redundant_eq : stream.redundant = [stream.pribuf + 1, stream.pribuf + 2] := by
  obtain ⟨buf, pribuf, timestamp, ptT140, ptRed⟩ := stream
  match pribuf with
  | 0 => rfl
  | 1 => rfl
  | 2 => exact (by decide : ([0, 1] : List (Fin 3)) = [2 + 1, 2 + 2])

/-- The bytes of the redundant buffers and the primary one. -/
def RealTimeTextSourceData.total : Nat :=
  (stream.buf (stream.pribuf + 1)).length + (stream.buf (stream.pribuf + 2)).length +
    (stream.buf stream.pribuf).length

theorem length_subheader (cur : Fin 3) : (stream.subheader cur).length = 4 := rfl

/-- The bytes of a packet with redundancy. -/
theorem sum_pieces (hred : stream.ptRed > 0) :
    (stream.pieces.map List.length).sum = 9 + stream.total := by
  unfold pieces total
  rw [if_pos hred, redundant_eq]
  simp only [map_cons, map_nil, map_append, sum_append, sum_cons,
    sum_nil, length_subheader, length_cons, length_nil]
  omega

/-- The length in a sub-header. -/
theorem getRedSubheader_mod (pt : Int) (offset : UInt32) (length : Nat) :
    getRedSubheader pt offset length % 1024 = length % 1024 := by
  unfold getRedSubheader
  have hmod : ∀ a b : Nat, (a ||| b) % 1024 = a % 1024 ||| b % 1024 :=
    fun a b => Nat.or_mod_two_pow (n := 10)
  have hlength : (length &&& 0x3FF) % 1024 = length % 1024 := by
    rw [show (0x3FF : Nat) = 2 ^ 10 - 1 from rfl, Nat.and_two_pow_sub_one_eq_mod]
    simp
  have hoffset : (offset.toNat &&& 0x3FFF) <<< 10 % 1024 = 0 := by
    omega
  have hpt : (pt % 128).toNat <<< 24 % 1024 = 0 := by
    omega
  rw [hmod, hmod, hmod, hlength, hoffset, hpt]
  simp

/-- The length that a sink reads in a sub-header is the low ten bits of the length of the block. -/
theorem blockLength_htonl (before after : List UInt8) (i : Nat) (hbefore : before.length = 4 * i)
    (sub : Nat) : blockLength (before ++ htonl sub ++ after) i = .ok (sub % 1024) := by
  have hbyte : ∀ k (hk : k < 4), (before ++ htonl sub ++ after)[4 * i + k]? =
      some ((htonl sub).get ⟨k, hk⟩) := by
    intro k hk
    have hin : k < (htonl sub).length := hk
    rw [append_assoc, List.getElem?_append_right (by omega),
      List.getElem?_append_left (by omega), List.getElem?_eq_getElem (by omega)]
    simp [hbefore]
  have hhigh : byteAt (before ++ htonl sub ++ after) (4 * i + 2) =
      .ok (UInt8.ofNat (sub / 2 ^ 8)) := by
    unfold byteAt
    rw [hbyte 2 (by decide)]
    rfl
  have hlow : byteAt (before ++ htonl sub ++ after) (4 * i + 3) = .ok (UInt8.ofNat sub) := by
    unfold byteAt
    rw [hbyte 3 (by decide)]
    rfl
  unfold blockLength
  simp only [bind, Except.bind, hhigh, hlow]
  rw [show (0x3FF : Nat) = 2 ^ 10 - 1 from rfl, Nat.and_two_pow_sub_one_eq_mod,
    ← Nat.shiftLeft_add_eq_or_of_lt (UInt8.toNat_lt _), Nat.shiftLeft_eq]
  simp only [UInt8.toNat_ofNat']
  congr 1
  omega

/-- The payload of a packet. -/
theorem generateRedPacket_eq : stream.generateRedPacket =
      if (stream.pieces.map List.length).sum ≤ payloadSize then
        .ok (stream.pieces.flatten,
          !(decide (stream.ptRed > 0) && stream.redundant.any fun cur => stream.buf cur ≠ []))
      else .error .outOfBounds := by
  unfold generateRedPacket
  rw [foldlM_copyTo _ _ (Nat.zero_le _)]
  simp only [length_nil, Nat.zero_add, nil_append]
  split <;> rfl

/-- The sub-headers of a packet have the lengths of their blocks. -/
def SubheadersExact (payload : List UInt8) : Prop :=
  ∀ i cur, stream.redundant[i]? = some cur → blockLength payload i = .ok (stream.buf cur).length

/-- The pieces of a packet with redundancy in their order. -/
theorem flatten_pieces (hred : stream.ptRed > 0) :
    stream.pieces.flatten = stream.subheader (stream.pribuf + 1) ++
      (stream.subheader (stream.pribuf + 2) ++ (UInt8.ofNat (stream.ptT140 % 128).toNat ::
        (stream.buf (stream.pribuf + 1) ++ (stream.buf (stream.pribuf + 2) ++
          stream.buf stream.pribuf)))) := by
  unfold pieces
  rw [if_pos hred, redundant_eq]
  simp

theorem blockLength_pieces (hred : stream.ptRed > 0) {i : Nat} {cur : Fin 3}
    (hcur : stream.redundant[i]? = some cur) :
    blockLength stream.pieces.flatten i = .ok ((stream.buf cur).length % 1024) := by
  rw [flatten_pieces stream hred]
  rw [redundant_eq] at hcur
  match i, hcur with
  | 0, hcur =>
    cases hcur
    have := blockLength_htonl [] (stream.subheader (stream.pribuf + 2) ++ (UInt8.ofNat
        (stream.ptT140 % 128).toNat :: (stream.buf (stream.pribuf + 1) ++
          (stream.buf (stream.pribuf + 2) ++ stream.buf stream.pribuf)))) 0 rfl
      (getRedSubheader (stream.ptT140 % 128)
      (stream.timestamp stream.pribuf - stream.timestamp (stream.pribuf + 1))
      (stream.buf (stream.pribuf + 1)).length)
    rw [getRedSubheader_mod] at this
    exact this
  | 1, hcur =>
    cases hcur
    have := blockLength_htonl (stream.subheader (stream.pribuf + 1)) (UInt8.ofNat
        (stream.ptT140 % 128).toNat :: (stream.buf (stream.pribuf + 1) ++
          (stream.buf (stream.pribuf + 2) ++ stream.buf stream.pribuf))) 1 rfl
      (getRedSubheader (stream.ptT140 % 128)
        (stream.timestamp stream.pribuf - stream.timestamp (stream.pribuf + 2))
        (stream.buf (stream.pribuf + 2)).length)
    rw [getRedSubheader_mod, append_assoc] at this
    exact this

/-- No buffer is longer than it may be. -/
def Bounded : Prop := ∀ i, (stream.buf i).length ≤ outBufSize

variable {stream}

theorem Bounded.putchar32 (h : Bounded stream) (ic : Nat) : Bounded (stream.putchar32 ic) := by
  intro i
  unfold RealTimeTextSourceData.putchar32
  dsimp only
  split
  · next hfits =>
    dsimp only
    split
    · next heq => rw [heq, length_append]; exact hfits
    · exact h i
  · exact h i

theorem Bounded.useNextBuf (h : Bounded stream) : Bounded stream.useNextBuf := by
  intro i
  unfold RealTimeTextSourceData.useNextBuf
  dsimp only
  split
  · exact Nat.zero_le _
  · exact h i

/-- What a tick sends: the packet, from the stream with its time set. -/
def RealTimeTextSourceData.send (stream : RealTimeTextSourceData) (timestamp : UInt32) :
    Except Fault (RealTimeTextSourceData × Option TextPacket) := do
  let stream := { stream with
    timestamp := fun i => if i = stream.pribuf then timestamp else stream.timestamp i }
  let (payload, marker) ← stream.generateRedPacket
  .ok (stream.useNextBuf, some { payload, marker, timestamp })

theorem putchar32_bom (h : stream.buf stream.pribuf = []) : stream.putchar32 0xFEFF = { stream with
      buf := fun i => if i = stream.pribuf then [0xEF, 0xBB, 0xBF] else stream.buf i } := by
  unfold RealTimeTextSourceData.putchar32
  rw [h, if_pos (by decide)]
  congr 1
  funext i
  split
  · next heq =>
    rw [heq, h]
    rfl
  · rfl

/-- What a tick does: there is text to send, it is time for a byte order mark, or nothing is sent. -/
theorem sendData_eq (stream : RealTimeTextSourceData) (timestamp : UInt32) :
    sendData timestamp 2 stream = if stream.isDataToSend then
        if stream.over timestamp 299 then stream.send timestamp else .ok (stream, none)
      else if stream.over timestamp 25000 then (stream.putchar32 0xFEFF).send timestamp
      else .ok (stream, none) := by
  rw [sendData]
  split
  · rfl
  · next hnone =>
    split
    · next hover =>
      have hempty : stream.buf stream.pribuf = [] := by
        unfold RealTimeTextSourceData.isDataToSend at hnone
        split at hnone
        · by_contra hsome
          exact hnone (decide_eq_true ⟨stream.pribuf, hsome⟩)
        · by_contra hsome
          exact hnone (decide_eq_true hsome)
      have hdata : (stream.putchar32 0xFEFF).isDataToSend = true := by
        rw [putchar32_bom hempty]
        unfold RealTimeTextSourceData.isDataToSend
        split
        · exact decide_eq_true ⟨stream.pribuf, by simp⟩
        · exact decide_eq_true (by simp)
      have hover' : (stream.putchar32 0xFEFF).over timestamp 299 = true := by
        rw [putchar32_bom hempty]
        unfold RealTimeTextSourceData.over at hover ⊢
        simp only [Bool.or_eq_true, decide_eq_true_eq] at hover ⊢
        refine hover.imp id fun hlong => ?_
        exact UInt32.lt_trans (by decide : (299 : UInt32) < 25000) hlong
      rw [sendData, if_pos hdata, if_pos hover']
      rfl
    · rfl

/-- The buffers fit into a packet: together, and each redundant one in its sub-header. -/
def Fits (stream : RealTimeTextSourceData) : Prop :=
  stream.ptRed > 0 →
    9 + stream.total ≤ payloadSize ∧ ∀ cur ∈ stream.redundant, (stream.buf cur).length < 1024

theorem send_sound (h : Bounded stream) (timestamp : UInt32) :
    (∃ stream' packet, stream.send timestamp = .ok (stream', some packet) ∧
        (stream.ptRed > 0 → SubheadersExact stream packet.payload)) ↔ Fits stream := by
  generalize htimed : ({ stream with timestamp := fun i =>
    if i = stream.pribuf then timestamp else stream.timestamp i } : RealTimeTextSourceData) = timed
  have hbuf : timed.buf = stream.buf := by rw [← htimed]
  have hpribuf : timed.pribuf = stream.pribuf := by rw [← htimed]
  have hptRed : timed.ptRed = stream.ptRed := by rw [← htimed]
  have hredundant : timed.redundant = stream.redundant := by
    rw [redundant_eq, redundant_eq, hpribuf]
  have htotal : timed.total = stream.total := by
    unfold total
    rw [hbuf, hpribuf]
  unfold RealTimeTextSourceData.send Fits
  rw [htimed]
  dsimp only
  rw [generateRedPacket_eq]
  by_cases hred : stream.ptRed > 0
  · have hred' : timed.ptRed > 0 := hptRed ▸ hred
    rw [sum_pieces timed hred', htotal]
    by_cases hfits : 9 + stream.total ≤ payloadSize
    · rw [if_pos hfits]
      constructor
      · rintro ⟨stream', packet, hok, hexact⟩ -
        cases hok
        refine ⟨hfits, fun cur hcur => ?_⟩
        obtain ⟨i, hi⟩ := mem_iff_getElem?.mp hcur
        have hsays := hexact hred i cur hi
        rw [blockLength_pieces timed hred' (by rw [hredundant]; exact hi), hbuf] at hsays
        have := Except.ok.inj hsays
        omega
      · intro hboth
        refine ⟨_, _, rfl, fun _ i cur hi => ?_⟩
        rw [blockLength_pieces timed hred' (by rw [hredundant]; exact hi), hbuf,
          Nat.mod_eq_of_lt ((hboth hred).2 cur (mem_iff_getElem?.mpr ⟨i, hi⟩))]
    · rw [if_neg hfits]
      refine iff_of_false ?_ fun hboth => hfits (hboth hred).1
      rintro ⟨stream', packet, hok, -⟩
      cases hok
  · have hplain : (timed.pieces.map List.length).sum ≤ payloadSize := by
      have := h stream.pribuf
      unfold pieces
      rw [if_neg (hptRed ▸ hred), hbuf, hpribuf]
      simp only [nil_append, map_cons, map_nil, sum_cons, sum_nil]
      unfold payloadSize outBufSize redGen at *
      omega
    rw [if_pos hplain]
    refine iff_of_true ⟨_, _, rfl, fun hcontra => absurd hcontra hred⟩
      fun hcontra => absurd hcontra hred

theorem fits_bom (hnone : ¬ stream.isDataToSend = true) : Fits (stream.putchar32 0xFEFF) := by
  intro hred
  have hred' : stream.ptRed > 0 := by
    unfold RealTimeTextSourceData.putchar32 at hred
    dsimp only at hred
    split at hred <;> exact hred
  unfold RealTimeTextSourceData.isDataToSend at hnone
  rw [if_pos hred'] at hnone
  have hempty : ∀ i, stream.buf i = [] := fun i => by
    by_contra hsome
    exact hnone (decide_eq_true ⟨i, hsome⟩)
  rw [putchar32_bom (hempty stream.pribuf)]
  refine ⟨?_, fun cur _ => ?_⟩
  · unfold total
    simp only [hempty]
    split <;> split <;> simp [payloadSize, outBufSize, redGen]
  · dsimp only
    rw [hempty cur]
    split <;> simp

/-- An event of the source stays in its buffers and sends the lengths of its blocks. -/
def SourceStepSound (stream : RealTimeTextSourceData) (event : SourceEvent)
    (stream' : RealTimeTextSourceData) : Prop :=
  ∃ packet, stream.step event = .ok (stream', packet) ∧
    ∀ sent, packet = some sent → stream.ptRed > 0 → SubheadersExact stream sent.payload

/-- A tick that sends text finds buffers that fit. -/
def SourceFits (stream : RealTimeTextSourceData) : SourceEvent → Prop
  | .put _ => True
  | .tick time => stream.isDataToSend = true → stream.over time 299 = true → Fits stream

theorem subheadersExact_bom (hnone : ¬ stream.isDataToSend = true) {payload : List UInt8}
    (hred : stream.ptRed > 0) (h : SubheadersExact (stream.putchar32 0xFEFF) payload) :
    SubheadersExact stream payload := by
  unfold RealTimeTextSourceData.isDataToSend at hnone
  rw [if_pos hred] at hnone
  have hempty : stream.buf stream.pribuf = [] := by
    by_contra hsome
    exact hnone (decide_eq_true ⟨stream.pribuf, hsome⟩)
  rw [putchar32_bom hempty] at h
  intro i cur hi
  rw [redundant_eq] at hi
  have hother : cur ≠ stream.pribuf := by
    have hall : ∀ pribuf cur : Fin 3, cur ∈ [pribuf + 1, pribuf + 2] → cur ≠ pribuf := by decide
    exact hall _ _ (mem_of_getElem? hi)
  have hsays := h i cur (by rw [redundant_eq]; exact hi)
  dsimp only at hsays
  rw [if_neg hother] at hsays
  exact hsays

theorem Bounded.send (h : Bounded stream) {timestamp : UInt32} {stream' : RealTimeTextSourceData}
    {packet : Option TextPacket} (hok : stream.send timestamp = .ok (stream', packet)) :
    Bounded stream' ∧ packet ≠ none := by
  unfold RealTimeTextSourceData.send at hok
  simp only [bind, Except.bind] at hok
  split at hok
  · cases hok
  · cases hok
    refine ⟨Bounded.useNextBuf fun i => ?_, by simp⟩
    exact h i

theorem Bounded.step (h : Bounded stream) {event : SourceEvent} {stream' : RealTimeTextSourceData}
    {packet : Option TextPacket} (hok : stream.step event = .ok (stream', packet)) :
    Bounded stream' := by
  cases event with
  | put character =>
    cases hok
    exact h.putchar32 character
  | tick time =>
    unfold RealTimeTextSourceData.step at hok
    dsimp only at hok
    rw [sendData_eq] at hok
    split at hok
    · split at hok
      · exact (h.send hok).1
      · cases hok
        exact h
    · split at hok
      · exact ((h.putchar32 0xFEFF).send hok).1
      · cases hok
        exact h

theorem sourceStep_sound_iff (h : Bounded stream) (event : SourceEvent) :
    (∃ stream', SourceStepSound stream event stream') ↔ SourceFits stream event := by
  unfold SourceStepSound
  cases event with
  | put character => exact iff_of_true ⟨_, none, rfl, nofun⟩ trivial
  | tick time =>
    unfold SourceFits RealTimeTextSourceData.step
    dsimp only
    rw [sendData_eq]
    have hidle : ∃ stream', ∃ packet, (Except.ok (stream, none) :
        Except Fault (RealTimeTextSourceData × Option TextPacket)) = .ok (stream', packet) ∧
          ∀ sent, packet = some sent → stream.ptRed > 0 → SubheadersExact stream sent.payload :=
      ⟨stream, none, rfl, nofun⟩
    split
    · next hdata =>
      split
      · next hover =>
        have hiff := send_sound h time
        constructor
        · rintro ⟨stream', packet, hok, hexact⟩ - -
          cases packet with
          | none => exact absurd rfl (h.send hok).2
          | some sent => exact hiff.mp ⟨stream', sent, hok, hexact sent rfl⟩
        · intro hfits
          obtain ⟨stream', sent, hok, hexact⟩ := hiff.mpr (hfits hdata hover)
          refine ⟨stream', some sent, hok, fun _ heq => ?_⟩
          cases heq
          exact hexact
      · next hearly => exact iff_of_true hidle fun _ hcontra => absurd hcontra hearly
    · next hnone =>
      split
      · obtain ⟨stream', sent, hok, hexact⟩ :=
          (send_sound (h.putchar32 0xFEFF) time).mpr (fits_bom hnone)
        refine iff_of_true ⟨stream', some sent, hok, fun _ heq hred => ?_⟩
          fun hcontra => absurd hcontra hnone
        cases heq
        refine subheadersExact_bom hnone hred (hexact ?_)
        unfold RealTimeTextSourceData.putchar32
        dsimp only
        split <;> exact hred
      · exact iff_of_true hidle fun hcontra => absurd hcontra hnone

/-- Every event of a run stays in the buffers and sends the lengths of its blocks. -/
def SourceSound (stream : RealTimeTextSourceData) : List SourceEvent → Prop
  | [] => True
  | event :: events => ∃ stream', SourceStepSound stream event stream' ∧ SourceSound stream' events

/-- Every tick of a run that sends text finds buffers that fit. -/
def SourceFitting (stream : RealTimeTextSourceData) : List SourceEvent → Prop
  | [] => True
  | event :: events => SourceFits stream event ∧
    ∀ stream' packet, stream.step event = .ok (stream', packet) → SourceFitting stream' events

theorem source_sound_iff (h : Bounded stream) (events : List SourceEvent) :
    SourceSound stream events ↔ SourceFitting stream events := by
  induction events generalizing stream with
  | nil => exact Iff.rfl
  | cons event events ih =>
    constructor
    · rintro ⟨stream', hsound, hrest⟩
      refine ⟨(sourceStep_sound_iff h event).mp ⟨stream', hsound⟩, ?_⟩
      obtain ⟨packet, hok, -⟩ := hsound
      intro stream'' packet' hok'
      cases hok.symm.trans hok'
      exact (ih (h.step hok)).mp hrest
    · rintro ⟨hfits, hrest⟩
      obtain ⟨stream', packet, hok, hexact⟩ := (sourceStep_sound_iff h event).mpr hfits
      exact ⟨stream', ⟨packet, hok, hexact⟩, (ih (h.step hok)).mpr (hrest stream' packet hok)⟩

/-! ## The sink -/

/-- The length of the dump of some bytes. -/
def dumpLength (data : List UInt8) : Nat := (data.map fun c => (dumpByte c).length).sum

theorem foldlM_snprintfAt (data : List UInt8) (pos : Nat) :
    (∃ stop, data.foldlM (fun pos c => snprintfAt pos (dumpByte c)) pos = .ok stop ∧ stop < 1000) ↔
      pos + dumpLength data < 1000 := by
  induction data generalizing pos with
  | nil => simp [dumpLength, pure, Except.pure]
  | cons c data ih =>
    have hlength : dumpLength (c :: data) = (dumpByte c).length + dumpLength data := by
      simp [dumpLength]
    rw [foldlM_cons, snprintfAt, hlength]
    by_cases hpos : pos ≤ 1000
    · rw [if_pos hpos]
      simp only [bind, Except.bind]
      rw [ih]
      omega
    · rw [if_neg hpos]
      refine iff_of_false ?_ (by omega)
      rintro ⟨stop, hok, -⟩
      cases hok

theorem textStreamHexdump_ok_iff (data : List UInt8) :
    textStreamHexdump data = .ok () ↔ dumpLength data < 1000 := by
  have hfold := foldlM_snprintfAt data 0
  rw [Nat.zero_add] at hfold
  rw [← hfold]
  unfold textStreamHexdump
  cases hresult : data.foldlM (fun pos c => snprintfAt pos (dumpByte c)) 0 with
  | error fault => simp [bind, Except.bind]
  | ok stop =>
    simp only [bind, Except.bind, Except.ok.injEq, exists_eq_left']
    by_cases hstop : stop < 1000
    · simp [hstop]
    · simp [hstop]

/-- The text of a payload that there is room for. -/
def textFrom (payload : List UInt8) (readstart used : Nat) : List UInt8 :=
  (payload.drop readstart).take (inBufSize - used)

/-- Text that is valid, or whose dump is not too long. -/
def Printable (text : List UInt8) : Prop := isUtf8BufOk text = true ∨ dumpLength text < 1000

theorem readT140Data_ok_iff (stream : RealTimeTextSinkData) (h : stream.inbuf.length ≤ inBufSize)
    (payload : List UInt8) (readstart : Nat) :
    (∃ result, stream.readT140Data payload readstart (payload.length - readstart) = .ok result) ↔
      Printable (textFrom payload readstart stream.inbuf.length) := by
  unfold readT140Data
  have hnothing : payload.length ≤ readstart →
      Printable (textFrom payload readstart stream.inbuf.length) := by
    intro hend
    left
    unfold textFrom
    rw [drop_eq_nil_iff.mpr hend, take_nil]
    rfl
  split
  · next hnegative => exact iff_of_true ⟨_, rfl⟩ (hnothing (by omega))
  · next hsize =>
    by_cases hend : payload.length ≤ readstart
    · rw [if_neg (by split <;> omega)]
      exact iff_of_true ⟨_, rfl⟩ (hnothing hend)
    by_cases hfull : inBufSize = stream.inbuf.length
    · rw [if_neg (by split <;> omega)]
      refine iff_of_true ⟨_, rfl⟩ (.inl ?_)
      unfold textFrom
      rw [hfull, Nat.sub_self, take_zero]
      rfl
    rw [if_pos (by split <;> omega)]
    generalize hread : (if (payload.length - readstart : Int) > inBufSize - stream.inbuf.length then
      (inBufSize - stream.inbuf.length : Int) else payload.length - readstart) = size
    have htext : readBytes payload readstart size.toNat =
        .ok (textFrom payload readstart stream.inbuf.length) := by
      rw [readBytes_of_le (by rw [← hread]; split <;> omega)]
      unfold textFrom
      congr 1
      rw [← hread]
      split
      · congr 1
        omega
      · rw [take_of_length_le (by rw [length_drop]; omega),
          take_of_length_le (by rw [length_drop]; omega)]
    simp only [bind, Except.bind, htext]
    have hlength : stream.inbuf.length +
        (textFrom payload readstart stream.inbuf.length).length ≤ inBufSize := by
      unfold textFrom
      rw [length_take]
      omega
    unfold Printable
    split
    · next hvalid =>
      unfold RealTimeTextSinkData.append
      rw [if_pos hlength]
      exact iff_of_true ⟨_, rfl⟩ (.inl hvalid)
    · next hinvalid =>
      rw [← textStreamHexdump_ok_iff]
      cases hdump : textStreamHexdump (textFrom payload readstart stream.inbuf.length) with
      | error fault => simp [hinvalid]
      | ok _ => simp

theorem readNew_ok_iff (stream : RealTimeTextSinkData) (h : stream.inbuf = [])
    (seqno : Int) (payload : List UInt8) (readstart : Nat) (lost : Bool) :
    (∃ stream', stream.readNew seqno payload readstart lost = .ok stream') ↔
      Printable (textFrom payload readstart (if lost then 3 else 0)) := by
  unfold readNew RealTimeTextSinkData.readFrom
  generalize hmarked : (if lost = true then { stream with inbuf := lostChar } else stream) = marked
  have hused : marked.inbuf.length = if lost then 3 else 0 := by
    rw [← hmarked]
    cases lost
    · simp [h]
    · rfl
  rw [← hused, ← readT140Data_ok_iff marked (by
    rw [hused]
    unfold inBufSize outBufSize redGen
    split <;> omega)]
  simp only [bind, Except.bind]
  cases marked.readT140Data payload readstart (payload.length - readstart) with
  | error fault => simp
  | ok result => simp

/-- A redundancy sub-header of the payload number. -/
def IsHeader (ptT140 : Int) (payload : List UInt8) (i : Nat) : Prop :=
  ∃ b, payload[4 * i]? = some b ∧ b &&& 0x80 ≠ 0 ∧ ((b &&& 0x7F).toNat : Int) = ptT140

/-- The sub-headers end inside the payload. -/
def HeadersEnd (ptT140 : Int) (payload : List UInt8) : Prop :=
  ∀ n, (∀ i < n, IsHeader ptT140 payload i) → 4 * n < payload.length

theorem countHeaders_spec (stream : RealTimeTextSinkData) (payload : List UInt8) {fuel redgen : Nat}
    (hfuel : payload.length < fuel + redgen) (hbefore : redgen ≤ payload.length)
    (hheaders : ∀ i < redgen, IsHeader stream.ptT140 payload i) :
    ∃ n, (∀ i < n, IsHeader stream.ptT140 payload i) ∧ ¬ IsHeader stream.ptT140 payload n ∧
      (stream.countHeaders payload fuel redgen = .ok (some n) ∨
        4 * n < payload.length ∧ stream.countHeaders payload fuel redgen = .ok none) := by
  induction fuel generalizing redgen with
  | zero => omega
  | succ fuel ih =>
    rw [countHeaders]
    cases hbyte : payload[4 * redgen]? with
    | none =>
      refine ⟨redgen, hheaders, ?_, .inl rfl⟩
      rintro ⟨b, hb, -⟩
      rw [hbyte] at hb
      cases hb
    | some b =>
      have hinside : 4 * redgen < payload.length := (List.getElem?_eq_some_iff.mp hbyte).1
      dsimp only
      split
      · next hmark =>
        split
        · next hother =>
          refine ⟨redgen, hheaders, ?_, .inr ⟨hinside, rfl⟩⟩
          rintro ⟨b', hb', -, heq⟩
          cases hbyte.symm.trans hb'
          exact hother heq
        · next hsame =>
          refine ih (by omega) (by omega) fun i hi => ?_
          obtain hi | rfl := Nat.lt_succ_iff_lt_or_eq.mp hi
          · exact hheaders i hi
          · exact ⟨b, hbyte, hmark, by_contra hsame⟩
      · next hlast =>
        refine ⟨redgen, hheaders, ?_, .inl rfl⟩
        rintro ⟨b', hb', hmark, -⟩
        cases hbyte.symm.trans hb'
        exact hlast hmark

theorem byteAt_of_lt {payload : List UInt8} {pos : Nat} (h : pos < payload.length) :
    byteAt payload pos = .ok payload[pos] := by
  unfold byteAt
  rw [List.getElem?_eq_getElem h]

theorem skipBlocks_ok (payload : List UInt8) (readstart count : Nat)
    (h : ∀ i < count, 4 * i + 3 < payload.length) :
    ∃ stop, skipBlocks payload readstart count = .ok stop := by
  induction count with
  | zero => exact ⟨readstart, rfl⟩
  | succ count ih =>
    obtain ⟨stop, hstop⟩ := ih fun i hi => h i (by omega)
    have hlast := h count (by omega)
    unfold skipBlocks at hstop ⊢
    rw [range_succ, foldlM_append, hstop]
    unfold blockLength
    simp only [bind, Except.bind, foldlM_cons, foldlM_nil,
      byteAt_of_lt (show 4 * count + 2 < payload.length by omega), byteAt_of_lt hlast]
    exact ⟨_, rfl⟩

theorem locateRed_ok_iff (stream : RealTimeTextSinkData) (seqno : Int) (payload : List UInt8) :
    (∃ place, stream.locateRed seqno payload = .ok place) ↔ HeadersEnd stream.ptT140 payload := by
  obtain ⟨n, hheaders, hend, hcount⟩ := countHeaders_spec stream payload
    (show payload.length < payload.length + 1 + 0 by omega) (Nat.zero_le _) nofun
  have hiff : HeadersEnd stream.ptT140 payload ↔ 4 * n < payload.length := by
    refine ⟨fun h => h n hheaders, fun h m hm => ?_⟩
    obtain hlt | rfl | hgt := Nat.lt_trichotomy m n
    · omega
    · exact h
    · exact absurd (hm n hgt) hend
  rw [hiff]
  unfold locateRed
  obtain hcount | ⟨hinside, hcount⟩ := hcount
  · simp only [bind, Except.bind, hcount]
    by_cases hinside : 4 * n < payload.length
    · obtain ⟨stop, hstop⟩ := skipBlocks_ok payload (n * 4 + 1)
        (n - (stream.needed seqno).toNat) (fun i hi => by omega)
      simp only [byteAt_of_lt hinside, hstop]
      refine iff_of_true ?_ hinside
      split
      · exact ⟨_, rfl⟩
      · split <;> exact ⟨_, rfl⟩
    · have houtside : byteAt payload (4 * n) = .error .outOfBounds := by
        unfold byteAt
        rw [List.getElem?_eq_none (by omega)]
      simp only [houtside]
      exact iff_of_false (by simp) hinside
  · simp only [bind, Except.bind, hcount]
    exact iff_of_true ⟨_, rfl⟩ hinside

variable {bytes : List UInt8}

theorem getchar_spec {rest : List UInt8} {b : UInt8} (h : getchar bytes = some (b, rest)) :
    b ≠ 0 ∧ rest.length < bytes.length := by
  fun_induction getchar bytes with
  | case1 => cases h
  | case2 bytes ih =>
    obtain ⟨hb, hlt⟩ := ih h
    exact ⟨hb, by simp only [length_cons]; omega⟩
  | case3 b' bytes _ hb' =>
    cases h
    exact ⟨hb', by simp⟩
  | case4 b' bytes _ _ ih =>
    obtain ⟨hb, hlt⟩ := ih h
    exact ⟨hb, by simp only [length_cons]; omega⟩

theorem getByte_length_le (bytes : List UInt8) : (getByte bytes).2.length ≤ bytes.length := by
  unfold getByte
  split
  · next h => exact Nat.le_of_lt (getchar_spec h).2
  · exact Nat.le_refl _

theorem getchar32_length_lt (h : (getchar32 bytes).1 ≠ 0) :
    (getchar32 bytes).2.length < bytes.length := by
  have hfirst : getByte bytes = (0, bytes) ∨ (getByte bytes).2.length < bytes.length := by
    unfold getByte
    split
    · next hbyte => exact .inr (getchar_spec hbyte).2
    · exact .inl rfl
  obtain hnull | hlt := hfirst
  · unfold getchar32 at h
    rw [hnull] at h
    exact absurd rfl h
  · refine Nat.lt_of_le_of_lt ?_ hlt
    have hone := getByte_length_le (getByte bytes).2
    have htwo := getByte_length_le (getByte (getByte bytes).2).2
    have hthree := getByte_length_le (getByte (getByte (getByte bytes).2).2).2
    unfold getchar32
    dsimp only
    split
    · exact Nat.le_refl _
    · exact hone
    · exact Nat.le_trans htwo hone
    · exact Nat.le_trans hthree (Nat.le_trans htwo hone)
    · exact Nat.le_refl _

theorem notify_ok {fuel : Nat} (h : bytes.length < fuel) :
    ∃ characters, notify fuel bytes = .ok characters := by
  induction fuel generalizing bytes with
  | zero => cases h
  | succ fuel ih =>
    rw [notify]
    dsimp only
    split
    · next hsome =>
      have hlt := getchar32_length_lt hsome
      obtain ⟨later, hlater⟩ := ih (show (getchar32 bytes).2.length < fuel by omega)
      simp only [bind, Except.bind, hlater]
      exact ⟨_, rfl⟩
    · exact ⟨_, rfl⟩

variable (sink : RealTimeTextSinkData) (packet : Received)

/-- Where the new text of a packet starts, and whether text before it is lost. -/
def RealTimeTextSinkData.locate : Except Fault (Option (Nat × Bool)) :=
  if sink.ptRed > 0 then sink.locateRed packet.seqno.toNat packet.payload
  else .ok (sink.locateT140 packet.seqno.toNat)

/-- The new text of a packet. -/
def RealTimeTextSinkData.newText : List UInt8 :=
  match sink.locate packet with
  | .ok (some (readstart, lost)) => textFrom packet.payload readstart (if lost then 3 else 0)
  | _ => []

/-- What a sink takes for granted of a packet: the sub-headers end inside the payload, and the new text is
valid or its dump is not too long. -/
structure SinkFits : Prop where
  headers : sink.ptRed > 0 → HeadersEnd sink.ptT140 packet.payload
  text : Printable (sink.newText packet)

theorem locate_ok_iff : (∃ place, sink.locate packet = .ok place) ↔
      (sink.ptRed > 0 → HeadersEnd sink.ptT140 packet.payload) := by
  unfold locate
  split
  · next hred => simp [locateRed_ok_iff, hred]
  · next hplain => exact iff_of_true ⟨_, rfl⟩ fun hred => absurd hred hplain

/-- How a packet is read. -/
theorem readTextPacket_eq : sink.readTextPacket packet = match sink.locate packet with
      | .error fault => .error fault
      | .ok none => .ok { sink with inbuf := [], notFirst := true, unread := [] }
      | .ok (some (readstart, lost)) =>
        ({ sink with inbuf := [] } : RealTimeTextSinkData).readNew packet.seqno.toNat packet.payload
          readstart lost |>.map fun sink => { sink with notFirst := true, unread := sink.inbuf } := by
  have hcount : ∀ fuel redgen, ({ sink with inbuf := [] } : RealTimeTextSinkData).countHeaders
      packet.payload fuel redgen = sink.countHeaders packet.payload fuel redgen := by
    intro fuel
    induction fuel with
    | zero => intro redgen; rfl
    | succ fuel ih =>
      intro redgen
      unfold countHeaders
      simp only [ih]
  have hred : ({ sink with inbuf := [] } : RealTimeTextSinkData).locateRed packet.seqno.toNat
      packet.payload = sink.locateRed packet.seqno.toNat packet.payload := by
    unfold locateRed
    rw [hcount]
    rfl
  have ht140 : ({ sink with inbuf := [] } : RealTimeTextSinkData).locateT140 packet.seqno.toNat =
      sink.locateT140 packet.seqno.toNat := rfl
  unfold readTextPacket locate
  dsimp only
  split
  · unfold processRedPacket
    rw [hred]
    cases sink.locateRed packet.seqno.toNat packet.payload with
    | error fault => rfl
    | ok place =>
      cases place with
      | none => rfl
      | some place =>
        cases ({ sink with inbuf := [] } : RealTimeTextSinkData).readNew packet.seqno.toNat
          packet.payload place.1 place.2 <;> rfl
  · unfold processT140Packet
    rw [ht140]
    cases sink.locateT140 packet.seqno.toNat with
    | none => rfl
    | some place =>
      cases ({ sink with inbuf := [] } : RealTimeTextSinkData).readNew packet.seqno.toNat
        packet.payload place.1 place.2 <;> rfl

theorem process_ok_iff :
    (∃ sink' characters, sink.process packet = .ok (sink', characters)) ↔ SinkFits sink packet := by
  have hread : (∃ sink' characters, sink.process packet = .ok (sink', characters)) ↔
      ∃ sink', sink.readTextPacket packet = .ok sink' := by
    unfold RealTimeTextSinkData.process
    simp only [bind, Except.bind]
    cases sink.readTextPacket packet with
    | error fault => simp
    | ok sink' =>
      refine iff_of_true ?_ ⟨_, rfl⟩
      obtain ⟨characters, hcharacters⟩ :=
        notify_ok (Nat.lt_succ_self sink'.unread.length)
      dsimp only
      split
      · rw [hcharacters]
        exact ⟨_, _, rfl⟩
      · exact ⟨_, _, rfl⟩
  have hfits : SinkFits sink packet ↔ (∃ place, sink.locate packet = .ok place) ∧
      Printable (sink.newText packet) := by
    rw [locate_ok_iff]
    exact ⟨fun h => ⟨h.headers, h.text⟩, fun h => ⟨h.1, h.2⟩⟩
  rw [hread, hfits, readTextPacket_eq]
  unfold newText
  cases sink.locate packet with
  | error fault => simp
  | ok place =>
    cases place with
    | none => exact iff_of_true ⟨_, rfl⟩ ⟨⟨_, rfl⟩, .inl rfl⟩
    | some place =>
      have hnew := readNew_ok_iff { sink with inbuf := [] } rfl packet.seqno.toNat packet.payload
        place.1 place.2
      dsimp only
      rw [← hnew]
      cases ({ sink with inbuf := [] } : RealTimeTextSinkData).readNew packet.seqno.toNat
        packet.payload place.1 place.2 with
      | error fault => simp [Except.map]
      | ok sink' => simp [Except.map]

/-- The buffers of a source are safe just when at every tick the buffers fit, and the buffers of a sink just
when the packet is as it takes for granted. -/
theorem buffers_safe_iff (ptT140 ptRed : Int) (events : List SourceEvent) :
    (SourceSound (.new ptT140 ptRed) events ↔ SourceFitting (.new ptT140 ptRed) events) ∧
      ((∃ sink' characters, sink.process packet = .ok (sink', characters)) ↔
        SinkFits sink packet) :=
  ⟨source_sound_iff (fun _ => Nat.zero_le _) events, process_ok_iff sink packet⟩

/-- A packet of one sub-header is read behind its end. -/
theorem process_readsBehind :
    (RealTimeTextSinkData.new 98 99).process ⟨1, [0xE2, 0, 0, 0]⟩ = .error .outOfBounds := rfl

end GrooveIp.Rtt
