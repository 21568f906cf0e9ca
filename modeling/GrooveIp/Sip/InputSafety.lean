import GrooveIp.Sip.InputStream

/-!
# Hostile input on a SIP channel

What a peer can do to the input stream of a channel with any bytes, any headers and any chunking. The
pointers stay in the buffer and body handlers are given what was received, as long as no header is
used that is not there, and the loop around `inflate` ends. A scan that finds nothing goes on over
what it has thrown away, so a start line there must not be found either.
-/

namespace GrooveIp.Sip

open Lib List InputChannel ParsePoint

variable {μ : Type}

/-! ## The buffer -/

/-- The pointers lie in the buffer, in order, and unread characters are terminated. -/
structure BufferOk (buff : List Char) (readPtr writePtr : Nat) : Prop where
  read_le : readPtr ≤ writePtr
  write_lt : writePtr < networkBufferSize
  terminated : readPtr < writePtr → charAt buff writePtr = nul

/-- What was received and not yet read. -/
def InputChannel.unread (ch : InputChannel μ) : List Char :=
  window ch.buff ch.readPtr (ch.writePtr - ch.readPtr)

/-- The pointers of a channel are fine. -/
abbrev InputChannel.BufferOk (ch : InputChannel μ) : Prop :=
  Sip.BufferOk ch.buff ch.readPtr ch.writePtr

namespace InputChannel

variable {ch : InputChannel μ}

@[simp] theorem length_unread : ch.unread.length = ch.writePtr - ch.readPtr :=
  length_window _ _ _

theorem distance_eq (h : ch.BufferOk) : ch.distance = (ch.unread.length : Int) := by
  have := h.read_le
  rw [distance, length_unread]
  omega

/-- It is small enough for an `int`. -/
theorem toInt32_distance (h : ch.BufferOk) : toInt32 ch.distance = (ch.unread.length : Int) := by
  have hlt : ch.writePtr < 65535 := h.write_lt
  rw [distance_eq h]
  apply toInt32_of_range
  · omega
  · rw [length_unread]
    omega

/-- It is the same as a `size_t`. -/
theorem sizeOf_distance (h : ch.BufferOk) : (ch.distance % 2 ^ 64).toNat = ch.unread.length := by
  have hlt : ch.writePtr < 65535 := h.write_lt
  have hlen : ch.unread.length = ch.writePtr - ch.readPtr := length_unread
  rw [distance_eq h]
  omega

/-- Reading on drops what was read. -/
theorem unread_advance (k : Nat) :
    ({ ch with readPtr := ch.readPtr + k } : InputChannel μ).unread = ch.unread.drop k := by
  rw [unread, unread, drop_window]
  congr 1
  dsimp only
  omega

theorem bufferOk_advance (h : ch.BufferOk) {k : Nat} (hk : k ≤ ch.unread.length) :
    ({ ch with readPtr := ch.readPtr + k } : InputChannel μ).BufferOk := by
  rw [length_unread] at hk
  have hle := h.read_le
  exact ⟨by dsimp only; omega, h.write_lt, fun hlt => h.terminated (by dsimp only at hlt; omega)⟩

/-- The string at the read pointer is what is unread, up to a terminator in it. -/
theorem cStringAt_readPtr (h : ch.BufferOk) (hnul : charAt ch.buff ch.writePtr = nul) :
    cStringAt networkBufferSize ch.buff ch.readPtr = .ok (ch.unread.takeWhile (· ≠ nul)) := by
  have hat : ch.readPtr + (ch.writePtr - ch.readPtr) = ch.writePtr := by
    have := h.read_le
    omega
  apply cStringAt_eq
  · rw [hat]
    exact h.write_lt
  · rw [hat]
    exact hnul

theorem rewind_spec (h : ch.BufferOk) :
    ∃ buff, ch.rewind = { ch with buff := buff, readPtr := 0, writePtr := ch.unread.length } ∧
      Sip.BufferOk buff 0 ch.unread.length ∧ window buff 0 ch.unread.length = ch.unread := by
  have hlt : ch.unread.length < networkBufferSize := by
    have := h.write_lt
    rw [length_unread]
    omega
  unfold rewind
  rw [toInt32_distance h]
  by_cases he : ch.unread = []
  · refine ⟨ch.buff, by simp [he], ⟨Nat.zero_le _, hlt, ?_⟩, ?_⟩
    · simp [he]
    · simp [he, window]
  · have hpos := length_pos_iff.mpr he
    refine ⟨writeAt ch.buff 0 (ch.unread ++ [nul]), ?_, ⟨Nat.zero_le _, hlt, fun _ => ?_⟩, ?_⟩
    · rw [if_pos (by omega), Int.toNat_natCast, length_unread]
      rfl
    · simpa using charAt_writeAt_end ch.buff ch.unread 0 nul
    · exact window_writeAt_self ch.buff ch.unread [nul] 0

/-- A reset also forgets the message. -/
theorem reset_spec (h : ch.BufferOk) : ∃ buff, ch.reset = { ch with
        buff := buff, readPtr := 0, writePtr := ch.unread.length
        state := .waitingMessageStart, msg := none, chunckedMode := false
        contentLength := 2 ^ 64 - 1 } ∧
      Sip.BufferOk buff 0 ch.unread.length ∧ window buff 0 ch.unread.length = ch.unread := by
  obtain ⟨buff, heq, hok, hwin⟩ := rewind_spec h
  exact ⟨buff, by rw [reset, heq], hok, hwin⟩

/-- Feeding a body handler moves unread characters to it. -/
theorem feedBody_spec (h : ch.BufferOk) {msg : InMessage μ} {handler : RecvHandler}
    (hmsg : ch.msg = some msg) (hhandler : msg.bodyHandler = some handler) {len : Nat}
    (hlen : len ≤ ch.unread.length) : ∃ buff, ch.feedBody len = .ok { ch with
        buff := buff, readPtr := 0, writePtr := (ch.unread.drop len).length
        msg := some { msg with bodyHandler := some (handler.recvChunk (ch.unread.take len)) }
        fed := ch.fed ++ [ch.unread.take len] } ∧ Sip.BufferOk buff 0 (ch.unread.drop len).length ∧
      window buff 0 (ch.unread.drop len).length = ch.unread.drop len := by
  have hbytes : window ch.buff ch.readPtr len = ch.unread.take len := by
    rw [unread, take_window (by rwa [length_unread] at hlen)]
  have hroom : ch.readPtr + len ≤ networkBufferSize := by
    have := h.read_le
    have := h.write_lt
    rw [length_unread] at hlen
    omega
  have hmoved : InputChannel.BufferOk { ch with
      msg := some { msg with bodyHandler := some (handler.recvChunk (ch.unread.take len)) }
      readPtr := ch.readPtr + len
      fed := ch.fed ++ [ch.unread.take len] } := bufferOk_advance h hlen
  have hunread : InputChannel.unread { ch with
      msg := some { msg with bodyHandler := some (handler.recvChunk (ch.unread.take len)) }
      readPtr := ch.readPtr + len
      fed := ch.fed ++ [ch.unread.take len] } = ch.unread.drop len := unread_advance len
  have hspec := rewind_spec hmoved
  rw [hunread] at hspec
  obtain ⟨buff, heq, hok, hwin⟩ := hspec
  refine ⟨buff, ?_, hok, hwin⟩
  unfold feedBody
  simp only [hmsg, hhandler, if_pos hroom, hbytes, heq]

/-! ## The search for a start line -/

/-- Where the scan of what is unread finds nothing and the search goes on behind it, the scan of what
then is at the front of the buffer finds nothing either. -/
def SearchSafe (ch : InputChannel μ) : Prop :=
  getMessageStartPos ch.unread = none → ∀ i j, i < j → j + 1 < ch.unread.length →
    ch.searchDue i → charAt ch.buff j = '\r' → charAt ch.buff (j + 1) = '\n' →
    getMessageStartPos (window ch.buff 0 ch.unread.length) = none

/-- What is unread at the front of the buffer is not scanned again. -/
theorem searchSafe_of_front (h : ch.readPtr = 0) : ch.SearchSafe := by
  intro hnone i j _ _ _ _ _
  rw [length_unread, ← h]
  exact hnone

/-- A channel that threw everything away. -/
def emptied (ch : InputChannel μ) : InputChannel μ :=
  { ch with
    readPtr := 0, writePtr := 0, state := .waitingMessageStart, msg := none
    chunckedMode := false, contentLength := 2 ^ 64 - 1 }

theorem reset_eq_emptied : ({ ch with readPtr := ch.writePtr } : InputChannel μ).reset = ch.emptied := by
  have hzero : toInt32 0 = 0 := by decide
  simp [reset, rewind, distance, emptied, hzero]

theorem searchFrom_emptied {num left : Nat} (hleft : left ≤ num - 1)
    (hnone : ∀ j, num - 1 - left ≤ j → j + 1 < num → charAt ch.buff j = '\r' →
      charAt ch.buff (j + 1) = '\n' → getMessageStartPos (window ch.buff 0 num) = none) :
    searchFrom num left ch.emptied = (false, ch.emptied) := by
  induction left with
  | zero => rfl
  | succ left ih =>
    have ih := ih (by omega) (fun j hj => hnone j (by omega))
    rw [searchFrom]
    split
    · next hdue =>
      have hcrlf : charAt ch.buff (num - 1 - (left + 1)) = '\r' ∧
          charAt ch.buff (num - 1 - (left + 1) + 1) = '\n' := by
        simpa [searchDue, emptied, buffLength, networkBufferSize] using hdue
      have hscan : getMessageStartPos (window ch.emptied.buff ch.emptied.readPtr num) = none :=
        hnone _ (Nat.le_refl _) (by omega) hcrlf.1 hcrlf.2
      rw [hscan]
      rw [reset_eq_emptied]
      exact ih
    · exact ih

/-- How the search over unread characters ends: it was not due, it found a start, or it threw
everything away. -/
theorem searchFrom_cases (hsafe : ch.SearchSafe) {left : Nat} (hleft : left ≤ ch.unread.length - 1) :
    (searchFrom ch.unread.length left ch = (false, ch) ∧
      ∀ i, ch.unread.length - 1 - left ≤ i → i + 1 < ch.unread.length → ¬ ch.searchDue i) ∨
    ∃ i, i + 1 < ch.unread.length ∧ ch.searchDue i ∧
      ((∃ offset, getMessageStartPos ch.unread = some offset ∧
          searchFrom ch.unread.length left ch = (true, { ch with
            readPtr := ch.readPtr + offset, state := .messageAquisition })) ∨
        (getMessageStartPos ch.unread = none ∧
          searchFrom ch.unread.length left ch = (false, ch.emptied))) := by
  induction left with
  | zero => exact .inl ⟨rfl, fun i hi hlt => by omega⟩
  | succ left ih =>
    have hview : window ch.buff ch.readPtr ch.unread.length = ch.unread := by
      rw [length_unread, unread]
    rw [searchFrom]
    by_cases hdue : ch.searchDue (ch.unread.length - 1 - (left + 1))
    · rw [if_pos hdue, hview]
      refine .inr ⟨_, by omega, hdue, ?_⟩
      cases hscan : getMessageStartPos ch.unread with
      | some offset => exact .inl ⟨offset, rfl, rfl⟩
      | none =>
        refine .inr ⟨rfl, ?_⟩
        rw [reset_eq_emptied]
        apply searchFrom_emptied (by omega)
        intro j hj hlt hcr hlf
        exact hsafe hscan _ j (by omega) hlt hdue hcr hlf
    · rw [if_neg hdue]
      rcases ih (by omega) with ⟨hend, hnone⟩ | hfound
      · refine .inl ⟨hend, fun i hi hlt => ?_⟩
        by_cases hat : i = ch.unread.length - 1 - (left + 1)
        · rwa [hat]
        · exact hnone i (by omega) hlt
      · exact .inr hfound

theorem getMessageStartPos_lt {buff : List Char} {offset : Nat}
    (h : getMessageStartPos buff = some offset) : offset + 12 < buff.length := by
  have hmem := mem_of_find?_eq_some h
  rw [mem_range] at hmem
  omega

end InputChannel

/-! ## What may go wrong -/

/-- A multipart Content-Type names its boundary. -/
def Headers.HasBoundary (headers : Headers μ) : Prop :=
  ∀ contentType, headers.contentType = some contentType →
    contentType.type = multipart → strstr boundaryParam contentType.unparsed ≠ none

/-- `check_body` finds the values it reads: that of a Transfer-Encoding of an HTTP message with a
Content-Type, and the boundary where the channel makes a multipart handler. -/
structure Headers.Safe (env : InputEnv μ) (headers : Headers μ) : Prop where
  encoding : headers.isHttp → headers.contentType.isSome → headers.transferEncoding ≠ some none
  boundary : headers.expectsBody → env.headersListener headers = none →
    headers.contentEncoding = [] → headers.HasBoundary

/-- `uncompress_body_if_required` finds what it reads when a message is complete, and returns: the
value of the Content-Encoding and, where a deflated body is inflated, the Content-Length and the
boundary. -/
def InMessage.Safe (env : InputEnv μ) (msg : InMessage μ) : Prop :=
  ∀ handler encoding encodings bytes, msg.bodyHandler = some handler →
    msg.headers.contentEncoding = encoding :: encodings → 0 < handler.expectedSize →
    handler.type = .memory → handler.buffer = some bytes →
    encoding ≠ none ∧ (encoding = some deflateCoding →
      match env.inflate bytes handler.expectedSize with
      | .failed => True
      | .endless => False
      | .done _ => msg.headers.contentLength ≠ none ∧ msg.headers.HasBoundary)

/-- Nothing goes wrong at a point of the parsing loop. -/
def PointSafe (env : InputEnv μ) (ch : InputChannel μ) : ParsePoint → Prop
  | .top => ch.state = .waitingMessageStart → ch.SearchSafe
  | .aquisition => ch.state = .messageAquisition → ∀ k headers size,
      strstr (crlf ++ crlf) (ch.unread.takeWhile (· ≠ nul)) = some k →
      env.parseRaw ((ch.unread.takeWhile (· ≠ nul)).take (k + 4)) = (some headers, size) →
      0 < size → headers.Safe env
  | .body => True
  | .ready => ∀ msg, ch.msg = some msg → msg.endTransfer.Safe env

/-! ## What holds at every point -/

/-- A message is there whose body is received, and a chunk that was begun is not complete. -/
def InputChannel.BodyOk (ch : InputChannel μ) : Prop :=
  (∃ msg handler, ch.msg = some msg ∧ msg.bodyHandler = some handler) ∧
    (ch.chunckedMode → ch.chunkSize = -1 ∨ ch.chunkSize ≠ ch.chunkReadSize)

/-- The state goes with what is acquired. -/
def InputChannel.StateOk (ch : InputChannel μ) : Prop :=
  match ch.state with
  | .bodyAquisition => ch.BodyOk
  | .waitingMessageStart | .messageAquisition => ch.chunckedMode = false

theorem InputChannel.stateOk_of_body {ch : InputChannel μ} (hs : ch.state = .bodyAquisition)
    (hbody : ch.BodyOk) : ch.StateOk := by
  unfold StateOk
  rw [hs]
  exact hbody

/-- What unread characters are terminated by is there. -/
abbrev InputChannel.Terminated (ch : InputChannel μ) : Prop := charAt ch.buff ch.writePtr = nul

/-- What is known at a point. -/
def AtPoint (ch : InputChannel μ) : ParsePoint → Prop
  | .top => ch.StateOk
  | .aquisition => ch.Terminated ∧ ch.state ≠ .waitingMessageStart ∧ ch.StateOk
  | .body => ch.Terminated ∧ ch.state = .bodyAquisition ∧ ch.BodyOk
  | .ready => ch.msg ≠ none

/-- What is in the buffer, and what the body handlers were given, was received. -/
structure StreamOk (received : List Char) (ch : InputChannel μ) : Prop where
  buffer : ch.BufferOk
  unread : ch.unread <:+ received
  fed : ∀ bytes ∈ ch.fed, bytes <:+: received

/-- What holds where the parsing loop is, and between two calls as at its head. -/
structure PointOk (received : List Char) (point : ParsePoint) (ch : InputChannel μ) : Prop where
  stream : StreamOk received ch
  point : AtPoint ch point

/-- How far the loop still is from its end while nothing is read. -/
def ParsePoint.rank : ParsePoint → InputStreamState → Nat
  | .aquisition, .messageAquisition => 1
  | .aquisition, _ => 5
  | .top, .bodyAquisition => 6
  | .top, _ => 2
  | .ready, _ => 3
  | .body, _ => 4

/-- What the loop decreases. -/
def parseWork (s : ParsePoint × InputChannel μ) : Nat := 6 * s.2.unread.length + s.1.rank s.2.state

/-- A step goes on to a point nearer to the end, or returns. -/
def StepOk (received : List Char) (s : ParsePoint × InputChannel μ) (r : ParseStep μ) : Prop :=
  (∃ s', r = .ok (.inl s') ∧ PointOk received s'.1 s'.2 ∧ parseWork s' < parseWork s) ∨
    ∃ ch', r = .ok (.inr ch') ∧ PointOk received .top ch'

section Steps

variable {env : InputEnv μ} {received : List Char} {ch : InputChannel μ}

theorem StreamOk.advance (h : StreamOk received ch) (ch' : InputChannel μ) {k : Nat}
    (hk : k ≤ ch.unread.length) (hbuff : ch'.buff = ch.buff)
    (hread : ch'.readPtr = ch.readPtr + k) (hwrite : ch'.writePtr = ch.writePtr)
    (hfed : ch'.fed = ch.fed) : StreamOk received ch' ∧ ch'.unread = ch.unread.drop k := by
  have hunread : ch'.unread = ch.unread.drop k := by
    rw [← InputChannel.unread_advance, InputChannel.unread, InputChannel.unread, hbuff, hread, hwrite]
  have hbuffer : ch'.BufferOk := by
    unfold InputChannel.BufferOk
    rw [hbuff, hread, hwrite]
    exact InputChannel.bufferOk_advance h.buffer hk
  refine ⟨⟨hbuffer, ?_, ?_⟩, hunread⟩
  · rw [hunread]
    exact (drop_suffix k _).trans h.unread
  · rw [hfed]
    exact h.fed

theorem streamOk_emptied (h : StreamOk received ch) : StreamOk received ch.emptied where
  buffer := ⟨Nat.le_refl _, Nat.zero_lt_succ _, fun hlt => absurd hlt (Nat.lt_irrefl 0)⟩
  unread := nil_suffix
  fed := h.fed

theorem topStep_ok (h : PointOk received .top ch) (hsafe : PointSafe env ch .top) :
    StepOk received (.top, ch) (topStep ch) := by
  have hstate : ch.StateOk := h.point
  unfold topStep
  rw [toInt32_distance h.stream.buffer]
  dsimp only
  split
  · next hpos =>
    have hlt : ch.readPtr < ch.writePtr := by
      rw [length_unread] at hpos
      omega
    have hnul : ch.Terminated := h.stream.buffer.terminated hlt
    split
    · next hwaiting =>
      rw [Int.toNat_natCast]
      rcases searchFrom_cases (hsafe hwaiting) (Nat.le_refl _) with
        ⟨hsearch, -⟩ | ⟨i, hi, hdue, ⟨offset, hscan, hsearch⟩ | ⟨hscan, hsearch⟩⟩
      · rw [hsearch]
        exact .inr ⟨ch, rfl, h⟩
      · rw [hsearch]
        have hoff := getMessageStartPos_lt hscan
        have hplain : ch.chunckedMode = false := by simpa [StateOk, hwaiting] using hstate
        let ch' : InputChannel μ :=
          { ch with readPtr := ch.readPtr + offset, state := .messageAquisition }
        have hk : offset ≤ ch.unread.length := by omega
        obtain ⟨hstream, hunread⟩ := h.stream.advance ch' hk rfl rfl rfl rfl
        refine .inl ⟨_, rfl, ⟨hstream, hnul, nofun, hplain⟩, ?_⟩
        have hlen := length_drop (i := offset) (l := ch.unread)
        rw [← hunread] at hlen
        have hrank : rank .top ch.state = 2 := by rw [hwaiting]; rfl
        simp only [parseWork, hrank]
        change 6 * ch'.unread.length + 1 < _
        omega
      · rw [hsearch]
        exact .inr ⟨_, rfl, streamOk_emptied h.stream, rfl⟩
    · next hwaiting =>
      refine .inl ⟨_, rfl, ⟨h.stream, hnul, hwaiting, hstate⟩, ?_⟩
      cases hs : ch.state with
      | waitingMessageStart => exact absurd hs hwaiting
      | messageAquisition => simp [parseWork, hs, rank]
      | bodyAquisition => simp [parseWork, hs, rank]
  · exact .inr ⟨ch, rfl, h⟩

theorem boundaryOf_ok {unparsed : List Char} (h : strstr boundaryParam unparsed ≠ none) :
    ∃ boundary, boundaryOf unparsed = .ok boundary := by
  obtain ⟨k, hk⟩ := Option.ne_none_iff_exists'.mp h
  unfold boundaryOf
  rw [hk]
  exact ⟨_, rfl⟩

variable {headers : Headers μ}

theorem defaultHandler_ok (n : Nat) (h : headers.contentEncoding = [] → headers.HasBoundary) :
    ∃ type, defaultHandler headers n = .ok { type, expectedSize := n } := by
  unfold defaultHandler
  split
  · exact ⟨_, rfl⟩
  · next henc =>
    split
    · next contentType htype =>
      split
      · next hmulti =>
        obtain ⟨boundary, hb⟩ := boundaryOf_ok (h (not_not.mp henc) contentType htype hmulti)
        rw [hb]
        exact ⟨_, rfl⟩
      · exact ⟨_, rfl⟩
    · exact ⟨_, rfl⟩

theorem isChunked_ok (hsafe : headers.Safe env) : ∃ chunked, isChunked headers = .ok chunked := by
  unfold isChunked
  split
  · next hhttp =>
    split
    · exact ⟨_, rfl⟩
    · next hnone => exact absurd hnone (hsafe.encoding hhttp.1 hhttp.2)
    · exact ⟨_, rfl⟩
  · exact ⟨_, rfl⟩

theorem bodyHandlerFor_ok (hsafe : headers.Safe env) (n : Nat)
    (hexpects : headers.expectsBody) : ∃ handler, bodyHandlerFor env headers n = .ok handler := by
  unfold bodyHandlerFor
  split
  · exact ⟨_, rfl⟩
  · next hlistener =>
    obtain ⟨type, hdefault⟩ := defaultHandler_ok n (hsafe.boundary hexpects hlistener)
    rw [hdefault]
    exact ⟨_, rfl⟩

theorem checkBody_cases (hsafe : headers.Safe env) (hplain : ch.chunckedMode = false) :
    ∃ expects msg contentLength chunked chunkSize chunkReadSize,
      checkBody env headers ch = .ok (expects, { ch with
        msg := msg, contentLength := contentLength, chunckedMode := chunked
        chunkSize := chunkSize, chunkReadSize := chunkReadSize }) ∧ (chunked → chunkSize = -1) ∧
      if expects then ∃ m handler, msg = some m ∧ m.bodyHandler = some handler
      else msg = ch.msg := by
  obtain ⟨chunked, hchunked⟩ := isChunked_ok hsafe
  have hhandler : ∀ n, headers.expectsBody →
      ∃ handler, bodyHandlerFor env headers n = .ok handler := fun n => bodyHandlerFor_ok hsafe n
  unfold checkBody
  rw [hchunked]
  cases chunked with
  | true =>
    by_cases hexpects : headers.expectsBody
    · obtain ⟨handler, hhandler⟩ := hhandler 0 hexpects
      simp only [if_true, hexpects, hhandler]
      exact ⟨true, _, _, _, _, _, rfl, fun _ => rfl, by simp⟩
    · simp only [if_true, hexpects]
      exact ⟨false, _, _, _, _, _, rfl, fun _ => rfl, by simp⟩
  | false =>
    by_cases hexpects : headers.expectsBody
    · obtain ⟨handler, hhandler⟩ := hhandler headers.lengthOf hexpects
      simp only [hexpects, if_true, hhandler, Bool.false_eq_true, if_false]
      exact ⟨true, _, _, _, _, _, rfl, by simp [hplain], by simp⟩
    · simp only [hexpects, Bool.false_eq_true, if_false]
      exact ⟨false, _, _, _, _, _, rfl, by simp [hplain], by simp⟩

theorem parseWork_lt_of_advance {ch' : InputChannel μ} {point : ParsePoint} {k : Nat}
    (hunread : ch'.unread = ch.unread.drop k) (hpos : 0 < k) (hk : k ≤ ch.unread.length)
    (hpoint : point ≠ .aquisition) (hstate : point = .top → ch'.state ≠ .bodyAquisition) :
    parseWork (point, ch') < parseWork (.aquisition, ch) := by
  have hlen : ch'.unread.length = ch.unread.length - k := by rw [hunread, length_drop]
  have hrank : point.rank ch'.state ≤ 4 := by
    cases point with
    | top => cases hs : ch'.state <;> simp_all [rank]
    | aquisition => exact absurd rfl hpoint
    | body => simp [rank]
    | ready => simp [rank]
  unfold parseWork
  dsimp only
  omega

theorem messageParsed_ok {parsed : Option (Headers μ)} {endOfMessage size : Nat} (h : StreamOk received ch)
    (hnul : ch.Terminated) (hplain : ch.chunckedMode = false)
    (hsafe : ∀ headers, parsed = some headers → 0 < size → headers.Safe env)
    (hsize : size ≤ endOfMessage) (hend : endOfMessage ≤ ch.unread.length)
    (hpos : 0 < endOfMessage) :
    StepOk received (.aquisition, ch) (messageParsed env endOfMessage parsed size ch) := by
  -- a message that could not be parsed is skipped
  have hskip : ∀ msg, StepOk received (.aquisition, ch) (.ok (.inl (.top, { ch with
      readPtr := ch.readPtr + endOfMessage, msg := msg, state := .waitingMessageStart }))) := by
    intro msg
    let ch' : InputChannel μ := { ch with
      readPtr := ch.readPtr + endOfMessage, msg := msg, state := .waitingMessageStart }
    have hadvance := h.advance ch' hend rfl rfl rfl rfl
    refine .inl ⟨_, rfl, ⟨hadvance.1, hplain⟩, ?_⟩
    exact parseWork_lt_of_advance hadvance.2 hpos hend (by simp) (by simp)
  unfold messageParsed
  split
  · next headers hread =>
    have hread : 0 < size := by simpa using hread
    let ch' : InputChannel μ := { ch with readPtr := ch.readPtr + size, msg := some { headers } }
    have hplain' : ch'.chunckedMode = false := hplain
    have hcheck := checkBody_cases (hsafe headers rfl hread) hplain'
    obtain ⟨expects, msg, contentLength, chunked, chunkSize, chunkReadSize, hcheck, hchunk, hmsg⟩ :=
      hcheck
    have hadvance : ∀ state, StreamOk received { ch' with
          msg := msg, contentLength := contentLength, chunckedMode := chunked
          chunkSize := chunkSize, chunkReadSize := chunkReadSize, state := state } ∧
        InputChannel.unread { ch' with
          msg := msg, contentLength := contentLength, chunckedMode := chunked
          chunkSize := chunkSize, chunkReadSize := chunkReadSize, state := state } =
        ch.unread.drop size := fun state =>
      h.advance _ (by omega) rfl rfl rfl rfl
    dsimp only [Option.map_some]
    rw [show checkBody env headers _ = _ from hcheck]
    cases expects with
    | true =>
      obtain ⟨m, handler, rfl, hhandler⟩ := hmsg
      have hbody := hadvance .bodyAquisition
      refine .inl ⟨_, rfl, ⟨hbody.1, hnul, rfl, ⟨m, handler, rfl, hhandler⟩, fun hc => ?_⟩, ?_⟩
      · exact .inl (hchunk hc)
      · exact parseWork_lt_of_advance hbody.2 hread (by omega) (by simp) (by simp)
    | false =>
      have hmsg : msg = some { headers } := hmsg
      have hready := hadvance ch.state
      refine .inl ⟨_, rfl, ⟨hready.1, ?_⟩, ?_⟩
      · simp [AtPoint, hmsg]
      · exact parseWork_lt_of_advance hready.2 hread (by omega) (by simp) (by simp)
  · exact hskip _

theorem aquisitionStep_ok (h : PointOk received .aquisition ch) (hsafe : PointSafe env ch .aquisition) :
    StepOk received (.aquisition, ch) (aquisitionStep env ch) := by
  obtain ⟨hnul, hstarted, hstateOk⟩ : ch.Terminated ∧ ch.state ≠ .waitingMessageStart ∧ ch.StateOk :=
    h.point
  unfold aquisitionStep
  split
  · next hstate =>
    have hplain : ch.chunckedMode = false := by simpa [StateOk, hstate] using hstateOk
    rw [cStringAt_readPtr h.stream.buffer hnul]
    dsimp only
    have htext := ( takeWhile_prefix (l := ch.unread) (· ≠ nul)).length_le
    split
    · exact .inr ⟨ch, rfl, h.stream, hstateOk⟩
    · next k hfound =>
      have hk : k + 4 ≤ (ch.unread.takeWhile (· ≠ nul)).length := strstr_le hfound
      have hsize := env.parseRaw_le ((ch.unread.takeWhile (· ≠ nul)).take (k + 4))
      rw [length_take, Nat.min_eq_left hk] at hsize
      apply messageParsed_ok h.stream hnul hplain _ hsize (by omega) (by omega)
      intro headers hparsed hpos
      exact hsafe hstate k headers _ hfound (Prod.ext hparsed rfl) hpos
  · next hstate =>
    have hbody : ch.state = .bodyAquisition := by
      cases hs : ch.state with
      | waitingMessageStart => exact absurd hs hstarted
      | messageAquisition => exact absurd hs hstate
      | bodyAquisition => rfl
    have hbodyOk : ch.BodyOk := by simpa [StateOk, hbody] using hstateOk
    exact .inl ⟨_, rfl, ⟨h.stream, hnul, hbody, hbodyOk⟩, by simp [parseWork, hbody, rank]⟩

variable {msg : InMessage μ}

theorem StreamOk.feed (h : StreamOk received ch) {handler : RecvHandler}
    (hmsg : ch.msg = some msg) (hhandler : msg.bodyHandler = some handler) {len : Nat}
    (hlen : len ≤ ch.unread.length) : ∃ buff writePtr bytes, ch.feedBody len = .ok { ch with
        buff := buff, readPtr := 0, writePtr := writePtr
        msg := some { msg with bodyHandler := some (handler.recvChunk bytes) }
        fed := ch.fed ++ [bytes] } ∧
      (∀ ch' : InputChannel μ, ch'.buff = buff → ch'.readPtr = 0 → ch'.writePtr = writePtr →
        ch'.fed = ch.fed ++ [bytes] → StreamOk received ch' ∧ ch'.unread = ch.unread.drop len) := by
  obtain ⟨buff, heq, hok, hwin⟩ := feedBody_spec h.buffer hmsg hhandler hlen
  refine ⟨buff, _, _, heq, ?_⟩
  rintro ch' rfl hread hwrite hfed
  have hunread : ch'.unread = ch.unread.drop len := by
    rw [InputChannel.unread, hread, hwrite, Nat.sub_zero]
    exact hwin
  refine ⟨⟨?_, ?_, ?_⟩, hunread⟩
  · unfold InputChannel.BufferOk
    rw [hread, hwrite]
    exact hok
  · rw [hunread]
    exact (drop_suffix len _).trans h.unread
  · rw [hfed]
    intro bytes hbytes
    rcases mem_append.mp hbytes with hold | hnew
    · exact h.fed bytes hold
    · rw [mem_singleton.mp hnew]
      exact ( take_prefix _ _).isInfix.trans h.unread.isInfix

theorem acquireBodySimple_ok {endOfStream : Bool} (h : PointOk received .body ch)
    (hplain : ch.chunckedMode = false) :
    StepOk received (.body, ch) (acquireBodySimple endOfStream ch) := by
  obtain ⟨hnul, hstate, ⟨msg, handler, hmsg, hhandler⟩, -⟩ :
      ch.Terminated ∧ ch.state = .bodyAquisition ∧ ch.BodyOk := h.point
  have hbind : ch.msg.bind InMessage.bodyHandler = some handler := by
    rw [hmsg, Option.bind_some, hhandler]
  -- whatever was fed, the body is complete or goes on later
  have hend : ∀ ch' : InputChannel μ, StreamOk received ch' → ch'.unread.length ≤ ch.unread.length →
      ch'.state = .bodyAquisition → ch'.chunckedMode = false →
      (∃ msg handler, ch'.msg = some msg ∧ msg.bodyHandler = some handler) → ∀ {P} [Decidable P],
      StepOk received (.body, ch) (if P then .ok (.inl (.ready, ch')) else .ok (.inr ch')) := by
    intro ch' hstream hlen hs hc hm P _
    split
    · obtain ⟨m, _, hm, -⟩ := hm
      refine .inl ⟨_, rfl, ⟨hstream, by simp [AtPoint, hm]⟩, ?_⟩
      simp only [parseWork, rank]
      omega
    · exact .inr ⟨_, rfl, hstream, stateOk_of_body hs ⟨hm, by simp [hc]⟩⟩
  unfold acquireBodySimple
  rw [hbind, sizeOf_distance h.stream.buffer]
  dsimp only
  by_cases hnone : handler.transferedSize = 0 ∧ ch.unread.length = 0
  · rw [if_pos hnone]
    exact hend ch h.stream (Nat.le_refl _) hstate hplain ⟨msg, handler, hmsg, hhandler⟩
  · rw [if_neg hnone]
    obtain ⟨buff, writePtr, bytes, hfeed, hstream⟩ := h.stream.feed hmsg hhandler
      (Nat.min_le_right (((ch.contentLength : Int) - handler.transferedSize) % 2 ^ 64).toNat _)
    rw [hfeed]
    obtain ⟨hstream, hunread⟩ := hstream { ch with
        buff := buff, readPtr := 0, writePtr := writePtr
        msg := some { msg with bodyHandler := some (handler.recvChunk bytes) }
        fed := ch.fed ++ [bytes] } rfl rfl rfl rfl
    apply hend _ hstream _ hstate hplain ⟨_, _, rfl, rfl⟩
    rw [hunread, length_drop]
    omega

/-- The data of a chunk, where the chunk size was read before or the chunk is not complete. -/
theorem acquireChunk_ok {ch₀ : InputChannel μ} (h : StreamOk received ch) (hstate : ch.state = .bodyAquisition)
    (hm : ∃ msg handler, ch.msg = some msg ∧ msg.bodyHandler = some handler)
    (hwork : ch.unread.length < ch₀.unread.length ∨
      ch.unread.length = ch₀.unread.length ∧ ch.chunkSize ≠ ch.chunkReadSize) :
    StepOk received (.body, ch₀) (acquireChunk ch) := by
  -- what happens behind the feeding
  have hend : ∀ ch' : InputChannel μ, StreamOk received ch' → ch'.state = .bodyAquisition →
      (∃ msg handler, ch'.msg = some msg ∧ msg.bodyHandler = some handler) →
      (ch'.chunkSize = ch'.chunkReadSize → ch'.unread.length < ch₀.unread.length) →
      StepOk received (.body, ch₀) (if ch'.chunkSize = ch'.chunkReadSize then
        if 0 < ch'.distance then .ok (.inl (.body, { ch' with
          contentLength := ((ch'.contentLength + ch'.chunkSize) % 2 ^ 64).toNat, chunkSize := -1 }))
        else .ok (.inr { ch' with
          contentLength := ((ch'.contentLength + ch'.chunkSize) % 2 ^ 64).toNat, chunkSize := -1 })
        else .ok (.inr ch')) := by
    intro ch' hstream hs hm hlt
    by_cases hcomplete : ch'.chunkSize = ch'.chunkReadSize
    · rw [if_pos hcomplete]
      let ch'' : InputChannel μ := { ch' with
        contentLength := ((ch'.contentLength + ch'.chunkSize) % 2 ^ 64).toNat, chunkSize := -1 }
      have hstream' : StreamOk received ch'' := ⟨hstream.buffer, hstream.unread, hstream.fed⟩
      have hbody : ch''.BodyOk := ⟨hm, fun _ => .inl rfl⟩
      by_cases hmore : 0 < ch'.distance
      · rw [if_pos hmore]
        have hnul : ch''.Terminated := hstream.buffer.terminated (by
          simp only [distance] at hmore
          omega)
        refine .inl ⟨_, rfl, ⟨hstream', hnul, hs, hbody⟩, ?_⟩
        change 6 * ch'.unread.length + 4 < 6 * ch₀.unread.length + 4
        omega
      · rw [if_neg hmore]
        have hs' : ch''.state = .bodyAquisition := hs
        exact .inr ⟨_, rfl, hstream', stateOk_of_body hs' hbody⟩
    · rw [if_neg hcomplete]
      have hbody : ch'.BodyOk := ⟨hm, fun _ => .inr hcomplete⟩
      exact .inr ⟨_, rfl, hstream, stateOk_of_body hs hbody⟩
  unfold acquireChunk
  rw [toInt32_distance h.buffer]
  dsimp only
  by_cases hread : 0 < min (ch.unread.length : Int) (ch.chunkSize - ch.chunkReadSize)
  · rw [if_pos hread]
    obtain ⟨msg, handler, hmsg, hhandler⟩ := hm
    have hle : (min (ch.unread.length : Int) (ch.chunkSize - ch.chunkReadSize)).toNat ≤
        ch.unread.length := by omega
    obtain ⟨buff, writePtr, bytes, hfeed, hstream⟩ := h.feed hmsg hhandler hle
    rw [hfeed]
    obtain ⟨hstream, hunread⟩ := hstream { ch with
        buff := buff, readPtr := 0, writePtr := writePtr
        msg := some { msg with bodyHandler := some (handler.recvChunk bytes) }
        fed := ch.fed ++ [bytes]
        chunkReadSize := ch.chunkReadSize +
          min (ch.unread.length : Int) (ch.chunkSize - ch.chunkReadSize) } rfl rfl rfl rfl
    apply hend _ hstream hstate ⟨_, _, rfl, rfl⟩
    intro _
    rw [hunread, length_drop]
    omega
  · rw [if_neg hread]
    apply hend ch h hstate hm
    intro hcomplete
    rcases hwork with hlt | ⟨-, hne⟩
    · exact hlt
    · omega

theorem skipCrlf_le (s : List Char) : skipCrlf s ≤ s.length := by
  induction s using skipCrlf.induct with
  | case1 s ih =>
    rw [skipCrlf]
    simp only [length_cons]
    omega
  | case2 s h =>
    rw [skipCrlf]
    · omega
    · exact h

/-- A round of the chunk loop. -/
theorem acquireChunckedBody_ok (h : PointOk received .body ch) (hchunked : ch.chunckedMode) :
    StepOk received (.body, ch) (acquireChunckedBody ch) := by
  obtain ⟨hnul, hstate, hm, hchunk⟩ :
      ch.Terminated ∧ ch.state = .bodyAquisition ∧ ch.BodyOk := h.point
  unfold acquireChunckedBody
  split
  · next hsize =>
    rw [cStringAt_readPtr h.stream.buffer hnul]
    dsimp only
    have htext := ( takeWhile_prefix (l := ch.unread) (· ≠ nul)).length_le
    generalize ch.unread.takeWhile (· ≠ nul) = text at htext ⊢
    have hskip := skipCrlf_le text
    split
    · let ch' : InputChannel μ := { ch with readPtr := ch.readPtr + skipCrlf text }
      have hk : skipCrlf text ≤ ch.unread.length := by omega
      have hadvance := h.stream.advance ch' hk rfl rfl rfl rfl
      have hs' : ch'.state = .bodyAquisition := hstate
      have hbody : ch'.BodyOk := ⟨hm, fun _ => .inl hsize⟩
      exact .inr ⟨_, rfl, hadvance.1, stateOk_of_body hs' hbody⟩
    · next k hfound =>
      have hk : k + 2 ≤ (text.drop (skipCrlf text)).length := strstr_le hfound
      rw [length_drop] at hk
      have hw : ch.unread.length = ch.writePtr - ch.readPtr := length_unread
      split
      · split
        · -- the last chunk
          let ch' : InputChannel μ := { ch with
            readPtr := min (ch.readPtr + skipCrlf text + (k + 4)) ch.writePtr }
          have hread : ch'.readPtr =
              ch.readPtr + min (skipCrlf text + (k + 4)) ch.unread.length := by
            change min (ch.readPtr + skipCrlf text + (k + 4)) ch.writePtr = _
            omega
          have hadvance := h.stream.advance ch' (by omega) rfl hread rfl rfl
          refine .inl ⟨_, rfl, ⟨hadvance.1, ?_⟩, ?_⟩
          · obtain ⟨m, _, hm, -⟩ := hm
            simp [AtPoint, hm]
          · have hlen := congrArg List.length hadvance.2
            rw [length_drop] at hlen
            change 6 * ch'.unread.length + 3 < 6 * ch.unread.length + 4
            omega
        · -- a chunk begins
          let ch' : InputChannel μ := { ch with
            chunkSize := toInt32 (strtol16 (text.drop (skipCrlf text))), chunkReadSize := 0
            readPtr := ch.readPtr + skipCrlf text + (k + 2) }
          have hread : ch'.readPtr = ch.readPtr + (skipCrlf text + (k + 2)) := Nat.add_assoc _ _ _
          have hk' : skipCrlf text + (k + 2) ≤ ch.unread.length := by omega
          have hadvance := h.stream.advance ch' hk' rfl hread rfl rfl
          have hlen := congrArg List.length hadvance.2
          rw [length_drop] at hlen
          have hlt : ch'.unread.length < ch.unread.length := by omega
          exact acquireChunk_ok hadvance.1 hstate hm (.inl hlt)
      · -- a chunk size that is none
        let ch' : InputChannel μ := { ch with readPtr := ch.readPtr + skipCrlf text }
        have hk : skipCrlf text ≤ ch.unread.length := by omega
        have hadvance := h.stream.advance ch' hk rfl rfl rfl rfl
        obtain ⟨buff, hreset, hbuffer, hwin⟩ := reset_spec hadvance.1.buffer
        rw [hreset]
        refine .inl ⟨_, rfl, ⟨⟨hbuffer, ?_, hadvance.1.fed⟩, rfl⟩, ?_⟩
        · change window buff 0 ch'.unread.length <:+ received
          rw [hwin]
          exact hadvance.1.unread
        · have hlen := congrArg List.length hadvance.2
          rw [length_drop] at hlen
          have hlen' := congrArg List.length hwin
          change 6 * (window buff 0 ch'.unread.length).length + 2 < 6 * ch.unread.length + 4
          omega
  · next hsize =>
    exact acquireChunk_ok h.stream hstate hm (.inr ⟨rfl, (hchunk hchunked).resolve_left hsize⟩)

theorem uncompressedMessage_ok (handler : RecvHandler) (bytes : List Char)
    (hlength : headers.contentLength ≠ none) (hboundary : headers.HasBoundary) :
    ∃ msg, uncompressedMessage headers handler bytes = .ok msg := by
  obtain ⟨n, hn⟩ := Option.ne_none_iff_exists'.mp hlength
  unfold uncompressedMessage
  rw [hn]
  dsimp only
  split
  · next contentType htype =>
    split
    · next hmulti =>
      obtain ⟨boundary, hb⟩ := boundaryOf_ok (hboundary contentType htype hmulti)
      rw [hb]
      exact ⟨_, rfl⟩
    · exact ⟨_, rfl⟩
  · exact ⟨_, rfl⟩

theorem uncompressBodyIfRequired_ok (hsafe : msg.Safe env) :
    ∃ msg', uncompressBodyIfRequired env msg = .ok msg' := by
  unfold uncompressBodyIfRequired
  split
  · next handler encoding encodings hhandler hencoding =>
    split
    · next hbody =>
      split
      · exact ⟨msg, rfl⟩
      · next bytes hbuffer =>
        exact absurd rfl (hsafe handler _ _ bytes hhandler hencoding hbody.1 hbody.2 hbuffer).1
      · next bytes value hbuffer =>
        obtain ⟨-, hdeflate⟩ := hsafe handler _ _ bytes hhandler hencoding hbody.1 hbody.2 hbuffer
        split
        · next hvalue =>
          have hinflate := hdeflate (by rw [hvalue])
          cases hi : env.inflate bytes handler.expectedSize with
          | failed => exact ⟨msg, rfl⟩
          | endless => simp [hi] at hinflate
          | done out =>
            simp only [hi] at hinflate
            exact uncompressedMessage_ok handler out hinflate.1 hinflate.2
        · exact ⟨msg, rfl⟩
    · exact ⟨msg, rfl⟩
  · exact ⟨msg, rfl⟩

/-- A message that is uncompressed is safe. -/
theorem safe_of_uncompressBodyIfRequired {msg' : InMessage μ}
    (h : uncompressBodyIfRequired env msg = .ok msg') : msg.Safe env := by
  intro handler encoding encodings bytes hhandler hencoding hsize htype hbuffer
  unfold uncompressBodyIfRequired at h
  simp only [hhandler, hencoding, hsize, htype, hbuffer, and_self, if_true] at h
  cases encoding with
  | none => cases h
  | some value =>
    refine ⟨nofun, fun hvalue => ?_⟩
    cases hvalue
    dsimp only at h
    cases hinflate : env.inflate bytes handler.expectedSize with
    | failed => trivial
    | endless =>
      rw [hinflate] at h
      cases h
    | done out =>
      rw [hinflate] at h
      unfold uncompressedMessage at h
      cases hlength : msg.headers.contentLength with
      | none =>
        rw [hlength] at h
        cases h
      | some n =>
        refine ⟨nofun, fun contentType hcontent hmulti hnone => ?_⟩
        simp only [hlength, hcontent, hmulti, if_true, boundaryOf, hnone] at h
        cases h

/-- A multipart handler has a boundary. -/
theorem hasBoundary_of_defaultHandler {n : Nat} {handler : RecvHandler}
    (h : defaultHandler headers n = .ok handler) (hencoding : headers.contentEncoding = []) :
    headers.HasBoundary := by
  intro contentType hcontent hmulti hnone
  unfold defaultHandler at h
  simp only [hencoding, ne_eq, not_true_eq_false, if_false, hcontent, hmulti, if_true, boundaryOf,
    hnone] at h
  cases h

theorem messageReady_ok (h : PointOk received .ready ch) (hsafe : PointSafe env ch .ready) :
    ∃ ch', messageReady env ch = .ok ch' ∧ PointOk received .top ch' ∧
      parseWork (.top, ch') < parseWork (.ready, ch) := by
  unfold messageReady
  split
  · next hnone => exact absurd hnone h.point
  · next msg hmsg =>
    obtain ⟨msg', hready⟩ := uncompressBodyIfRequired_ok (hsafe msg hmsg)
    rw [hready]
    let ch' : InputChannel μ := { ch with incomingMessages := ch.incomingMessages ++ [msg'] }
    have hbuffer : ch'.BufferOk := h.stream.buffer
    obtain ⟨buff, hreset, hok, hwin⟩ := reset_spec hbuffer
    refine ⟨_, rfl, ?_⟩
    rw [hreset]
    refine ⟨⟨⟨hok, ?_, h.stream.fed⟩, rfl⟩, ?_⟩
    · change window buff 0 ch'.unread.length <:+ received
      rw [hwin]
      exact h.stream.unread
    · have hlen := congrArg List.length hwin
      change 6 * (window buff 0 ch'.unread.length).length + 2 < 6 * ch'.unread.length + 3
      omega

/-- Every step of the loop, where nothing goes wrong. -/
theorem parseStep_ok {endOfStream : Bool} {point : ParsePoint} (h : PointOk received point ch)
    (hsafe : PointSafe env ch point) :
    StepOk received (point, ch) (parseStep env endOfStream (point, ch)) := by
  cases point with
  | top => exact topStep_ok h hsafe
  | aquisition => exact aquisitionStep_ok h hsafe
  | body =>
    have hstate : ch.state = .bodyAquisition := h.point.2.1
    rw [parseStep, bodyStep, if_pos hstate]
    split
    · next hchunked => exact acquireChunckedBody_ok h hchunked
    · next hplain => exact acquireBodySimple_ok h (Bool.eq_false_iff.mpr hplain)
  | ready =>
    obtain ⟨ch', hready, hpoint, hwork⟩ := messageReady_ok h hsafe
    rw [parseStep, hready]
    exact .inl ⟨_, rfl, hpoint, hwork⟩

end Steps

/-! ## Runs -/

/-- What the channel goes through while it receives some events: those that are still to come, where
the parsing loop is (and whether it knows of the end of the stream), and the channel. -/
inductive Visited (env : InputEnv μ) (events : List InputEvent) :
    List InputEvent → Option (Bool × ParsePoint) → InputChannel μ → Prop where
  | start : Visited env events events none {}
  | event {event : InputEvent} {rest : List InputEvent} {ch : InputChannel μ} :
      Visited env events (event :: rest) none ch →
      Visited env events rest (some (event == .endOfStream, .top)) (ch.arrive event)
  | step {rest : List InputEvent} {eos : Bool} {point point' : ParsePoint}
      {ch ch' : InputChannel μ} : Visited env events rest (some (eos, point)) ch →
      parseStep env eos (point, ch) = .ok (.inl (point', ch')) →
      Visited env events rest (some (eos, point')) ch'
  | leave {rest : List InputEvent} {eos : Bool} {point : ParsePoint} {ch ch' : InputChannel μ} :
      Visited env events rest (some (eos, point)) ch →
      parseStep env eos (point, ch) = .ok (.inr ch') →
      Visited env events rest none ch'.notifyIncomingMessages

section Runs

variable {env : InputEnv μ} {events : List InputEvent}

/-- Every chunk fits in the room there is when it arrives. -/
def AllFit (env : InputEnv μ) (events : List InputEvent) : Prop :=
  ∀ event rest ch, Visited env events (event :: rest) none ch → event.Fits ch

variable {ch : InputChannel μ}

/-- What arrives is put behind what is unread. -/
theorem unread_arrive (h : ch.BufferOk) (event : InputEvent) :
    (ch.arrive event).unread = ch.unread ++ event.bytes := by
  cases event with
  | endOfStream => simp [arrive, InputEvent.bytes]
  | chunk bytes =>
    have hle := h.read_le
    have hat : ch.writePtr = ch.readPtr + (ch.writePtr - ch.readPtr) := by omega
    have hsub : ch.writePtr + bytes.length - ch.readPtr =
        ch.writePtr - ch.readPtr + bytes.length := by omega
    have hwindow := window_writeAt_end ch.buff bytes [nul] ch.readPtr (ch.writePtr - ch.readPtr)
    rw [← hat, ← hsub] at hwindow
    exact hwindow

/-- What arrives keeps the invariant. -/
theorem pointOk_arrive {received : List Char} {event : InputEvent} (h : PointOk received .top ch)
    (hfits : event.Fits ch) : PointOk (received ++ event.bytes) .top (ch.arrive event) := by
  have hunread := unread_arrive h.stream.buffer event
  cases event with
  | endOfStream => simpa [arrive, InputEvent.bytes] using h
  | chunk bytes =>
    obtain ⟨-, hroom⟩ := hfits
    refine ⟨⟨⟨?_, ?_, fun _ => ?_⟩, ?_, fun b hb => ?_⟩, h.point⟩
    · exact Nat.le_trans h.stream.buffer.read_le (Nat.le_add_right _ _)
    · have := h.stream.buffer.write_lt
      unfold buffLength at hroom
      change ch.writePtr + bytes.length < networkBufferSize
      omega
    · exact charAt_writeAt_end ch.buff bytes ch.writePtr nul
    · rw [hunread]
      obtain ⟨front, hfront⟩ := h.stream.unread
      exact ⟨front, by rw [← append_assoc, hfront]⟩
    · exact (h.stream.fed b hb).trans (prefix_append _ _).isInfix

variable {rest : List InputEvent}

theorem pointOk_of_visited (hfits : AllFit env events)
    (hsafe : ∀ rest eos point ch, Visited env events rest (some (eos, point)) ch → PointSafe env ch
      point) {place : Option (Bool × ParsePoint)} (h : Visited env events rest place ch) :
    ∃ past, events = past ++ rest ∧
      PointOk (past.flatMap InputEvent.bytes) ((place.map Prod.snd).getD .top) ch := by
  induction h with
  | start =>
    exact ⟨[], rfl, ⟨⟨Nat.le_refl _, Nat.zero_lt_succ _, fun hlt => absurd hlt (Nat.lt_irrefl 0)⟩,
      nil_suffix, nofun⟩, rfl⟩
  | @event event rest ch h ih =>
    obtain ⟨past, hpast, hpoint⟩ := ih
    refine ⟨past ++ [event], by rw [hpast, append_assoc, singleton_append], ?_⟩
    rw [flatMap_append, flatMap_singleton]
    exact pointOk_arrive hpoint (hfits _ _ _ h)
  | @step rest eos point point' ch ch' h hstep ih =>
    obtain ⟨past, hpast, hpoint⟩ := ih
    have hok : StepOk _ (point, ch) (parseStep env eos (point, ch)) :=
      parseStep_ok hpoint (hsafe _ _ _ _ h)
    rw [hstep] at hok
    obtain ⟨_, ⟨⟩, hpoint', -⟩ | ⟨_, ⟨⟩, -⟩ := hok
    exact ⟨past, hpast, hpoint'⟩
  | @leave rest eos point ch ch' h hstep ih =>
    obtain ⟨past, hpast, hpoint⟩ := ih
    have hok : StepOk _ (point, ch) (parseStep env eos (point, ch)) :=
      parseStep_ok hpoint (hsafe _ _ _ _ h)
    rw [hstep] at hok
    obtain ⟨_, ⟨⟩, -, -⟩ | ⟨_, ⟨⟩, hpoint'⟩ := hok
    exact ⟨past, hpast, ⟨hpoint'.stream.buffer, hpoint'.stream.unread, hpoint'.stream.fed⟩,
      hpoint'.point⟩

theorem parseStream_ok (hfits : AllFit env events)
    (hsafe : ∀ rest eos point ch, Visited env events rest (some (eos, point)) ch → PointSafe env ch
      point) {eos : Bool} (h : Visited env events rest (some (eos, .top)) ch) :
    ∃ ch', parseStream env eos ch = .ok ch' ∧
      Visited env events rest none ch'.notifyIncomingMessages := by
  have hfuel : parseWork (.top, ch) < 6 * ch.writePtr + 8 := by
    have hlen : ch.unread.length = ch.writePtr - ch.readPtr := length_unread
    have hrank : rank .top ch.state ≤ 6 := by cases ch.state <;> decide
    simp only [parseWork]
    omega
  refine loop_ok (fun s => Visited env events rest (some (eos, s.1)) s.2)
    (fun ch' : InputChannel μ => Visited env events rest none ch'.notifyIncomingMessages)
    parseWork ?_ h hfuel
  rintro ⟨point, ch⟩ hvisited
  obtain ⟨past, -, hpoint⟩ := pointOk_of_visited hfits hsafe hvisited
  have hok : StepOk _ (point, ch) (parseStep env eos (point, ch)) :=
    parseStep_ok hpoint (hsafe _ _ _ _ hvisited)
  rcases hok with ⟨⟨point', ch'⟩, hgo, -, hwork⟩ | ⟨ch', hleave, -⟩
  · exact .inl ⟨_, hgo, hvisited.step hgo, hwork⟩
  · exact .inr ⟨ch', hleave, hvisited.leave hleave⟩

/-- Receiving the rest of the events goes on from any point between two of them. -/
theorem receiveAll_ok (hfits : AllFit env events)
    (hsafe : ∀ rest eos point ch, Visited env events rest (some (eos, point)) ch → PointSafe env ch
      point) (h : Visited env events rest none ch) :
    ∃ ch', receiveAll env rest ch = .ok ch' ∧ Visited env events [] none ch' := by
  induction rest generalizing ch with
  | nil => exact ⟨ch, rfl, h⟩
  | cons event rest ih =>
    obtain ⟨ch', hparse, hvisited⟩ := parseStream_ok hfits hsafe h.event
    unfold receiveAll processReadData
    rw [hparse]
    exact ih hvisited

/-- On a stream of any bytes in any chunks, where nothing goes wrong at a point of the parsing loop,
every call returns, the pointers stay in the buffer, and the body handlers are given only what was
received. -/
theorem hostileStream_safe (hfits : AllFit env events)
    (hsafe : ∀ rest eos point ch, Visited env events rest (some (eos, point)) ch →
      PointSafe env ch point) : (∃ ch, receiveAll env events {} = .ok ch) ∧
    ∀ rest place ch, Visited env events rest place ch →
      ch.readPtr ≤ ch.writePtr ∧ ch.writePtr < networkBufferSize ∧ ∃ past, events = past ++ rest ∧
        ∀ bytes ∈ ch.fed, bytes <:+: past.flatMap InputEvent.bytes := by
  constructor
  · obtain ⟨ch, hreceive, -⟩ := receiveAll_ok hfits hsafe .start
    exact ⟨ch, hreceive⟩
  · intro rest place ch hvisited
    obtain ⟨past, hpast, hpoint⟩ := pointOk_of_visited hfits hsafe hvisited
    have hbuffer := hpoint.stream.buffer
    exact ⟨hbuffer.read_le, hbuffer.write_lt, past, hpast, hpoint.stream.fed⟩

end Runs

/-! ## Runs of a given stream -/

/-- Where a run is. -/
abbrev InputConfig (μ : Type) := List InputEvent × Option (Bool × ParsePoint) × InputChannel μ

/-- What comes next in a run. -/
def successor (env : InputEnv μ) : InputConfig μ → Option (InputConfig μ)
  | ([], none, _) => none
  | (event :: rest, none, ch) =>
    some (rest, some (event == .endOfStream, .top), ch.arrive event)
  | (rest, some (eos, point), ch) =>
    match parseStep env eos (point, ch) with
    | .error _ => none
    | .ok (.inl (point', ch')) => some (rest, some (eos, point'), ch')
    | .ok (.inr ch') => some (rest, none, ch'.notifyIncomingMessages)

/-- The first points of a run. -/
def trace (env : InputEnv μ) : Nat → InputConfig μ → List (InputConfig μ)
  | 0, _ => []
  | n + 1, config => config :: ((successor env config).map (trace env n)).getD []

/-- A run visits only the points of a list that has its start and what comes next. -/
theorem mem_of_visited {env : InputEnv μ} {events : List InputEvent} {points : List (InputConfig μ)}
    (hstart : (events, none, {}) ∈ points)
    (hnext : ∀ c ∈ points, ∀ c', successor env c = some c' → c' ∈ points)
    {rest : List InputEvent} {place : Option (Bool × ParsePoint)} {ch : InputChannel μ}
    (h : Visited env events rest place ch) : (rest, place, ch) ∈ points := by
  induction h with
  | start => exact hstart
  | event _ ih => exact hnext _ ih _ rfl
  | step _ hstep ih => exact hnext _ ih _ (by simp only [successor, hstep])
  | leave _ hstep ih => exact hnext _ ih _ (by simp only [successor, hstep])

/-- A parser that takes what it is given for a message with the given headers. -/
def takingEnv (headers : Headers Unit) : InputEnv Unit where
  parseRaw text := (some headers, text.length)
  headersListener _ := none
  inflate _ _ := .failed
  parseRaw_le _ := Nat.le_refl _

/-- A request without a body. -/
def shortRequest : List Char := "A b SIP/2.0\r\n\r\n".toList

/-- The points that are visited when it is received in one chunk and has no headers to speak of. -/
def shortTrace : List (InputConfig Unit) :=
  trace (takingEnv { rest := () }) 6 ([.chunk shortRequest], none, {})

theorem shortTrace_closed : ∀ c ∈ shortTrace,
    (successor (takingEnv { rest := () }) c).all fun c' => decide (c' ∈ shortTrace) := by
  decide +kernel

/-- A chunk fits, a scan is at the front of the buffer, and a message has no body. -/
def InputConfig.plain : InputConfig Unit → Bool
  | (event :: _, none, ch) => event.Fits ch
  | (_, some (_, .top), ch) => ch.readPtr == 0
  | (_, some (_, .ready), ch) => (ch.msg.bind InMessage.bodyHandler).isNone
  | _ => true

theorem shortTrace_plain : ∀ c ∈ shortTrace, InputConfig.plain c := by
  decide +kernel

theorem mem_shortTrace {rest : List InputEvent} {place : Option (Bool × ParsePoint)}
    {ch : InputChannel Unit}
    (h : Visited (takingEnv { rest := () }) [.chunk shortRequest] rest place ch) :
    (rest, place, ch) ∈ shortTrace := by
  apply mem_of_visited _ _ h
  · decide +kernel
  · intro c hc c' hnext
    have hclosed := shortTrace_closed c hc
    rw [hnext] at hclosed
    simpa using hclosed

/-- A request that is received in one chunk. -/
theorem hostileStream_safe_shortRequest :
    (∃ ch, receiveAll (takingEnv { rest := () }) [.chunk shortRequest] {} = .ok ch) ∧
    ∀ rest place ch, Visited (takingEnv { rest := () }) [.chunk shortRequest] rest place ch →
      ch.readPtr ≤ ch.writePtr ∧ ch.writePtr < networkBufferSize ∧
      ∃ past, [.chunk shortRequest] = past ++ rest ∧
        ∀ bytes ∈ ch.fed, bytes <:+: past.flatMap InputEvent.bytes := by
  apply hostileStream_safe
  · intro event rest ch h
    have hplain := shortTrace_plain _ (mem_shortTrace h)
    simpa [InputConfig.plain] using hplain
  · intro rest eos point ch h
    have hplain := shortTrace_plain _ (mem_shortTrace h)
    cases point with
    | top =>
      intro _
      have hfront : ch.readPtr = 0 := by cases rest <;> simpa [InputConfig.plain] using hplain
      exact searchSafe_of_front hfront
    | aquisition =>
      intro _ k headers size _ hparse _
      cases hparse
      exact ⟨nofun, fun _ _ _ => nofun⟩
    | body => trivial
    | ready =>
      intro msg hmsg handler encoding encodings bytes hhandler
      have hnone : msg.bodyHandler = none := by
        cases rest <;> simpa [InputConfig.plain, hmsg] using hplain
      simp [InMessage.endTransfer, hnone] at hhandler

/-- The headers of a multipart message whose Content-Type names no boundary. -/
def boundaryless : Headers Unit where
  rest := ()
  contentLength := some 1
  contentType := some ⟨multipart, "multipart/mixed".toList⟩

/-- Such a message makes the channel read through a null pointer. -/
theorem boundaryless_faults : (InputEvent.chunk shortRequest).Fits ({} : InputChannel Unit) ∧
    receiveAll (takingEnv boundaryless) [.chunk shortRequest] {} = .error .nullDereference := by
  decide +kernel

end GrooveIp.Sip
