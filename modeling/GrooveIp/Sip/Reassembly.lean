import GrooveIp.Sip.InputSafety
import Mathlib.Data.List.Forall2
import Mathlib.Data.List.TakeWhile

/-!
# Reassembly of SIP messages from a stream

Well-formed messages with line ends between them, cut into chunks in any way, are delivered with
their bodies and in order, as long as each scan for a start line accepts the part of a message that
is there. It does not when a keep-alive makes it begin before the start line has arrived.
-/

namespace GrooveIp.Sip

open Lib List InputChannel

variable {μ : Type}

/-! ## Messages on the wire -/

/-- A message as it is sent, with the headers the parser finds in it. -/
structure SipMessage (μ : Type) where
  text : List Char
  headers : Headers μ
  body : List Char

/-- A start line and headers that end with the first empty line and that the parser accepts whole,
with the Content-Length of the body; it fits in the buffer. -/
structure SipMessage.WellFormed (env : InputEnv μ) (m : SipMessage μ) : Prop where
  parsed : env.parseRaw m.text = (some m.headers, m.text.length)
  ends : strstr (crlf ++ crlf) m.text = some (m.text.length - 4)
  noNul : ∀ c ∈ m.text, c ≠ nul
  begins : ∃ c s, m.text = c :: s ∧ isBlank c = false
  notHttp : m.headers.isHttp = false
  contentLength : m.headers.contentLength = some (m.body.length : Int)
  fits : (m.text ++ m.body).length < networkBufferSize

/-- CRLF keep-alives. -/
def keepAlives (n : Nat) : List Char := (List.replicate n crlf).flatten

/-- The stream of some messages, each behind a number of keep-alives, and the keep-alives at the
end. -/
def streamOf : List (Nat × SipMessage μ) → Nat → List Char
  | [], last => keepAlives last
  | (n, m) :: rest, last => keepAlives n ++ (m.text ++ (m.body ++ streamOf rest last))

/-- What the channel makes of a message that has arrived: its body is with the handler it is given
to, and is uncompressed. -/
def SipMessage.completed (env : InputEnv μ) (m : SipMessage μ) : Except Fault (InMessage μ) :=
  if m.body = [] then uncompressBodyIfRequired env { headers := m.headers }
  else match bodyHandlerFor env m.headers m.body.length with
    | .error fault => .error fault
    | .ok handler => uncompressBodyIfRequired env
        (InMessage.endTransfer ⟨m.headers, some (handler.recvChunk m.body)⟩)

/-- The body of a message. -/
def InMessage.body (msg : InMessage μ) : List Char :=
  ((msg.bodyHandler.bind RecvHandler.buffer).getD [])

/-- A message is delivered as it was sent, or with its body uncompressed. -/
def Delivered (env : InputEnv μ) (m : SipMessage μ) (msg : InMessage μ) : Prop :=
  m.completed env = .ok msg ∧
    (m.headers.contentEncoding = [] → msg.headers = m.headers ∧ msg.body = m.body)

theorem transferedSize_of_bodyHandlerFor {env : InputEnv μ} {headers : Headers μ} {n : Nat}
    {handler : RecvHandler} (h : bodyHandlerFor env headers n = .ok handler) :
    handler.transferedSize = 0 := by
  unfold bodyHandlerFor at h
  split at h
  · cases h
    rfl
  · split at h
    · cases h
    · cases h
      rfl

/-- The end of a transfer keeps what was received. -/
@[simp] theorem buffer_endTransfer (handler : RecvHandler) :
    handler.endTransfer.buffer = handler.buffer := by
  unfold RecvHandler.endTransfer
  split <;> rfl

theorem delivered_of_completed {env : InputEnv μ} {m : SipMessage μ} {msg : InMessage μ}
    (h : m.completed env = .ok msg) : Delivered env m msg := by
  refine ⟨h, fun hencoding => ?_⟩
  have hplain : ∀ handler, uncompressBodyIfRequired env ⟨m.headers, handler⟩ =
      .ok ⟨m.headers, handler⟩ := by
    intro handler
    unfold uncompressBodyIfRequired
    simp [hencoding]
  unfold SipMessage.completed at h
  split at h
  · next hbody =>
    cases h
    exact ⟨rfl, hbody.symm⟩
  · split at h
    · cases h
    · next handler hhandler =>
      have hzero := transferedSize_of_bodyHandlerFor hhandler
      unfold InMessage.endTransfer at h
      rw [hplain] at h
      cases h
      exact ⟨rfl, by simp [InMessage.body, RecvHandler.recvChunk, hzero]⟩

theorem recvChunk_append (handler : RecvHandler) (bytes bytes' : List Char) :
    (handler.recvChunk bytes).recvChunk bytes' = handler.recvChunk (bytes ++ bytes') := by
  have htake : ((handler.buffer.getD []).take handler.transferedSize ++ bytes).take
      (handler.transferedSize + bytes.length) =
      (handler.buffer.getD []).take handler.transferedSize ++ bytes := by
    apply take_of_length_le
    rw [length_append, length_take]
    omega
  simp only [RecvHandler.recvChunk, Option.getD_some, htake, append_assoc,
    length_append, Nat.add_assoc]

/-! ## Line ends before a message -/

/-- A character of a keep-alive. -/
def isLineEnd (c : Char) : Bool := c == '\r' || c == '\n'

/-- Only line ends. -/
abbrev AllLineEnds (s : List Char) : Prop := ∀ c ∈ s, isLineEnd c

theorem allLineEnds_keepAlives (n : Nat) : AllLineEnds (keepAlives n) := by
  intro c hc
  obtain ⟨l, hl, hc⟩ := mem_flatten.mp hc
  rw [eq_of_mem_replicate hl] at hc
  have hcrlf : ∀ c ∈ crlf, isLineEnd c := all_eq_true.mp (by decide)
  exact hcrlf c hc

/-- A text that does not begin with a line end. -/
def NoLineEnd (s : List Char) : Prop := ∀ c t, s = c :: t → isLineEnd c = false

theorem takeWhile_lineEnds {part future ends text : List Char} (hends : AllLineEnds ends)
    (htext : NoLineEnd text) (hstream : part ++ future = ends ++ text)
    (hlt : (part.takeWhile isLineEnd).length < part.length) : part.takeWhile isLineEnd = ends := by
  have hfront : (part ++ future).takeWhile isLineEnd = part.takeWhile isLineEnd := by
    rw [takeWhile_append, if_neg (by omega)]
  have hback : (ends ++ text).takeWhile isLineEnd = ends := by
    rw [takeWhile_append_of_pos hends]
    cases text with
    | nil => simp
    | cons c t => simp [htext c t rfl]
  rw [← hfront, hstream, hback]

theorem allLineEnds_of_not_lt {s : List Char}
    (h : ¬ (s.takeWhile isLineEnd).length < s.length) : AllLineEnds s := by
  have htake : s.takeWhile isLineEnd = s :=
    ( takeWhile_prefix _).eq_of_length_le (by omega)
  intro c hc
  rw [← htake] at hc
  exact mem_takeWhile_imp hc

theorem exists_lineEnds_of_part {part future ends text : List Char} (hpart : AllLineEnds part)
    (hends : AllLineEnds ends) (htext : NoLineEnd text) (hstream : part ++ future = ends ++ text) :
    ∃ ends', AllLineEnds ends' ∧ future = ends' ++ text := by
  rcases append_eq_append_iff.mp hstream with ⟨a, hends', hfuture⟩ | ⟨c, hpart', htext'⟩
  · refine ⟨a, fun c hc => hends c ?_, hfuture⟩
    rw [hends']
    exact mem_append_right _ hc
  · cases c with
    | nil => exact ⟨[], nofun, by simpa using htext'.symm⟩
    | cons c t =>
      have hfalse := htext c (t ++ future) htext'
      have htrue := hpart c (by simp [hpart'])
      rw [hfalse] at htrue
      cases htrue

theorem getMessageStartPos_lineEnds {s : List Char} (h : AllLineEnds s) :
    getMessageStartPos s = none := by
  rw [getMessageStartPos, List.find?_eq_none]
  intro i hi
  have hlt : i < s.length := by
    have := mem_range.mp hi
    omega
  have hat : charAt s i = s[i] := by simp [charAt, hlt]
  have hend := h s[i] (getElem_mem hlt)
  have hblank : isBlank s[i] := by
    simp only [isLineEnd, Bool.or_eq_true] at hend
    simp only [isBlank, Bool.or_eq_true]
    exact .inl (.inl hend)
  simp [hat, hblank]

/-! ## Where the channel is in the stream -/

/-- What follows the keep-alives at the front of a stream. -/
def afterKeepAlives : List (Nat × SipMessage μ) → Nat → List Char
  | [], _ => []
  | (_, m) :: rest, last => m.text ++ (m.body ++ streamOf rest last)

/-- The handler of a body of which the first bytes were received. -/
def fedHandler (handler : RecvHandler) (bytes : List Char) : RecvHandler :=
  if bytes = [] then handler else handler.recvChunk bytes

/-- The body handler of a message that is complete. -/
def handlerOf (env : InputEnv μ) (m : SipMessage μ) : Option RecvHandler :=
  if m.body = [] then none
  else (bodyHandlerFor env m.headers m.body.length).toOption.map (·.recvChunk m.body)

/-- The part of the stream the channel is at, where `future` is still to arrive and the messages of
`rest` are not delivered. -/
inductive StreamPhase (env : InputEnv μ) (last : Nat) (future : List Char) (ch : InputChannel μ) :
    List (Nat × SipMessage μ) → ParsePoint → Prop where
  | waiting {rest : List (Nat × SipMessage μ)} {ends : List Char}
      (hstate : ch.state = .waitingMessageStart) (hfront : ch.readPtr = 0)
      (hends : AllLineEnds ends)
      (hstream : ch.unread ++ future = ends ++ afterKeepAlives rest last) :
      StreamPhase env last future ch rest .top
  | acquiring {n : Nat} {m : SipMessage μ} {rest : List (Nat × SipMessage μ)} {point : ParsePoint}
      (hpoint : point = .top ∨ point = .aquisition) (hstate : ch.state = .messageAquisition)
      (hstream : ch.unread ++ future = m.text ++ (m.body ++ streamOf rest last)) :
      StreamPhase env last future ch ((n, m) :: rest) point
  | body {n : Nat} {m : SipMessage μ} {rest : List (Nat × SipMessage μ)} {point : ParsePoint}
      {handler : RecvHandler} {done todo : List Char}
      (hpoint : point ≠ .ready) (hstate : ch.state = .bodyAquisition)
      (hplain : ch.chunckedMode = false) (hlength : ch.contentLength = m.body.length)
      (hhandler : bodyHandlerFor env m.headers m.body.length = .ok handler)
      (hmsg : ch.msg = some ⟨m.headers, some (fedHandler handler done)⟩)
      (hbody : m.body = done ++ todo) (hmore : todo ≠ [])
      (hstream : ch.unread ++ future = todo ++ streamOf rest last) :
      StreamPhase env last future ch ((n, m) :: rest) point
  | ready {n : Nat} {m : SipMessage μ} {rest : List (Nat × SipMessage μ)}
      (hmsg : ch.msg = some ⟨m.headers, handlerOf env m⟩)
      (hstream : ch.unread ++ future = streamOf rest last) :
      StreamPhase env last future ch ((n, m) :: rest) .ready

/-- The channel has made of what arrived what it can. -/
def Stuck (ch : InputChannel μ) : Prop :=
  match ch.state with
  | .waitingMessageStart => ∀ i, i + 1 < ch.unread.length → ¬ ch.searchDue i
  | .messageAquisition => strstr (crlf ++ crlf) (ch.unread.takeWhile (· ≠ nul)) = none
  | .bodyAquisition => ch.unread = []

/-- The scan for a start line that is due accepts what has arrived of a message behind line ends. -/
def ScanAccepts (ch : InputChannel μ) : Prop :=
  (ch.unread.takeWhile isLineEnd).length < ch.unread.length →
    (∃ i, i + 1 < ch.unread.length ∧ ch.searchDue i) →
    getMessageStartPos ch.unread = some (ch.unread.takeWhile isLineEnd).length

/-- A step stays in the stream, and where it returns, the channel can do no more. No message is
delivered. -/
def StaysInStream (env : InputEnv μ) (last : Nat) (future : List Char) (rest : List (Nat × SipMessage μ))
    (ch : InputChannel μ) (r : ParseStep μ) : Prop :=
  (∃ point' ch', r = .ok (.inl (point', ch')) ∧ StreamPhase env last future ch' rest point' ∧
    ch'.notified = ch.notified ∧ ch'.incomingMessages = ch.incomingMessages) ∨
  ∃ ch', r = .ok (.inr ch') ∧ StreamPhase env last future ch' rest .top ∧ Stuck ch' ∧
    ch'.notified = ch.notified ∧ ch'.incomingMessages = ch.incomingMessages

section Steps

variable {env : InputEnv μ} {last : Nat} {future received : List Char} {ch : InputChannel μ}
  {n : Nat} {m : SipMessage μ} {rest : List (Nat × SipMessage μ)}

theorem stuck_of_unread_nil (h : ch.unread = []) : Stuck ch := by
  unfold Stuck
  split
  · intro i hi
    rw [h] at hi
    cases hi
  · rw [h]
    rfl
  · exact h

theorem noLineEnd_afterKeepAlives (hwf : ∀ s ∈ rest, s.2.WellFormed env) :
    NoLineEnd (afterKeepAlives rest last) := by
  cases rest with
  | nil => exact nofun
  | cons s rest =>
    obtain ⟨c, t, htext, hblank⟩ := (hwf _ mem_cons_self).begins
    intro c' t' heq
    rw [afterKeepAlives, htext, cons_append] at heq
    cases heq
    simp only [isBlank, Bool.or_eq_false_iff] at hblank
    simp [isLineEnd, hblank]

theorem topStep_waiting (h : PointOk received .top ch) (hwf : ∀ s ∈ rest, s.2.WellFormed env)
    (hscan : ScanAccepts ch) {ends : List Char} (hstate : ch.state = .waitingMessageStart)
    (hfront : ch.readPtr = 0) (hends : AllLineEnds ends)
    (hstream : ch.unread ++ future = ends ++ afterKeepAlives rest last) :
    StaysInStream env last future rest ch (topStep ch) := by
  have hsame : StreamPhase env last future ch rest .top := .waiting hstate hfront hends hstream
  have hnoEnd : NoLineEnd (afterKeepAlives rest last) := noLineEnd_afterKeepAlives hwf
  unfold topStep
  rw [toInt32_distance h.stream.buffer]
  dsimp only
  split
  · rw [Int.toNat_natCast]
    rcases searchFrom_cases (searchSafe_of_front hfront)
      (Nat.le_refl _) with
      ⟨hsearch, hnone⟩ | ⟨i, hi, hdue, ⟨offset, hfound, hsearch⟩ | ⟨hfound, hsearch⟩⟩
    · -- nothing to scan yet
      rw [hsearch]
      refine .inr ⟨ch, rfl, hsame, ?_, rfl, rfl⟩
      simp only [Stuck, hstate]
      exact fun i hi => hnone i (by omega) hi
    · -- the message behind the line ends is found
      have hlt : (ch.unread.takeWhile isLineEnd).length < ch.unread.length := by
        by_contra hge
        rw [getMessageStartPos_lineEnds (allLineEnds_of_not_lt hge)] at hfound
        cases hfound
      have hoffset := hscan hlt ⟨i, hi, hdue⟩
      rw [hfound] at hoffset
      cases hoffset
      have hfrontEnds := takeWhile_lineEnds hends hnoEnd hstream hlt
      let ch' : InputChannel μ := { ch with
        readPtr := ch.readPtr + (ch.unread.takeWhile isLineEnd).length, state := .messageAquisition }
      have hunread : ch'.unread = ch.unread.drop (ch.unread.takeWhile isLineEnd).length :=
        unread_advance _
      have hrest : ch'.unread ++ future = afterKeepAlives rest last := by
        have hle : (ch.unread.takeWhile isLineEnd).length ≤ ch.unread.length := by omega
        rw [hunread, ← drop_append_of_le_length hle, hstream, hfrontEnds, drop_left]
      rw [hsearch]
      refine .inl ⟨.aquisition, ch', rfl, ?_, rfl, rfl⟩
      cases rest with
      | nil =>
        have hnil : ch'.unread = [] := (append_eq_nil_iff.mp hrest).1
        rw [hunread, drop_eq_nil_iff] at hnil
        omega
      | cons s rest => exact .acquiring (.inr rfl) rfl hrest
    · -- only line ends, which are thrown away
      have hall : AllLineEnds ch.unread := by
        by_cases hlt : (ch.unread.takeWhile isLineEnd).length < ch.unread.length
        · have hoffset := hscan hlt ⟨i, hi, hdue⟩
          rw [hfound] at hoffset
          cases hoffset
        · exact allLineEnds_of_not_lt hlt
      obtain ⟨ends', hends', hfuture⟩ := exists_lineEnds_of_part hall hends hnoEnd hstream
      rw [hsearch]
      refine .inr ⟨ch.emptied, rfl, .waiting rfl rfl hends' hfuture, ?_, rfl, rfl⟩
      exact stuck_of_unread_nil rfl
  · next hnone =>
    have hnil : ch.unread = [] := eq_nil_of_length_eq_zero (by omega)
    exact .inr ⟨ch, rfl, hsame, stuck_of_unread_nil hnil, rfl, rfl⟩

theorem topStep_receiving (h : PointOk received .top ch) (hstate : ch.state ≠ .waitingMessageStart)
    (htop : StreamPhase env last future ch rest .top) (haquisition : StreamPhase env last future ch rest .aquisition) :
    StaysInStream env last future rest ch (topStep ch) := by
  unfold topStep
  rw [toInt32_distance h.stream.buffer]
  dsimp only
  split
  · exact .inl ⟨.aquisition, ch, rfl, haquisition, rfl, rfl⟩
  · have hnil : ch.unread = [] := eq_nil_of_length_eq_zero (by omega)
    exact .inr ⟨ch, rfl, htop, stuck_of_unread_nil hnil, rfl, rfl⟩

theorem SipMessage.WellFormed.lengthOf (hwf : m.WellFormed env) :
    m.headers.lengthOf = m.body.length := by
  have hfits : m.text.length + m.body.length < 65535 := by
    rw [← length_append]
    exact hwf.fits
  rw [Headers.lengthOf, hwf.contentLength, Option.getD_some]
  omega

theorem checkBody_noBody (hwf : m.WellFormed env) (hbody : m.body = []) (ch : InputChannel μ) :
    checkBody env m.headers ch = .ok (false, { ch with contentLength := 0 }) := by
  have hlength : m.headers.lengthOf = 0 := by rw [hwf.lengthOf, hbody, length_nil]
  simp [checkBody, isChunked, Headers.expectsBody, hwf.notHttp, hlength]

variable {handler : RecvHandler}

theorem checkBody_body (hwf : m.WellFormed env) (hbody : m.body ≠ [])
    (hhandler : bodyHandlerFor env m.headers m.body.length = .ok handler) (ch : InputChannel μ) :
    checkBody env m.headers ch = .ok (true, { ch with
      contentLength := m.body.length, msg := some ⟨m.headers, some handler⟩ }) := by
  have hpos := length_pos_iff.mpr hbody
  simp [checkBody, isChunked, Headers.expectsBody, hwf.notHttp, hwf.lengthOf, hpos, hhandler]

variable {msg : InMessage μ}

theorem bodyHandlerFor_of_completed (hcompleted : m.completed env = .ok msg) (hbody : m.body ≠ []) :
    ∃ handler, bodyHandlerFor env m.headers m.body.length = .ok handler := by
  unfold SipMessage.completed at hcompleted
  rw [if_neg hbody] at hcompleted
  split at hcompleted
  · cases hcompleted
  · next handler hhandler => exact ⟨handler, hhandler⟩

theorem messageParsed_advances (hwf : m.WellFormed env)
    (hcompleted : m.completed env = .ok msg) (hplain : ch.chunckedMode = false)
    (hstream : ch.unread ++ future = m.text ++ (m.body ++ streamOf rest last))
    (hlen : m.text.length ≤ ch.unread.length) : StaysInStream env last future ((n, m) :: rest) ch
      (messageParsed env m.text.length (some m.headers) m.text.length ch) := by
  have hpos : 0 < m.text.length := by
    obtain ⟨c, t, htext, -⟩ := hwf.begins
    rw [htext]
    exact Nat.zero_lt_succ _
  have hrest : ch.unread.drop m.text.length ++ future = m.body ++ streamOf rest last := by
    rw [← drop_append_of_le_length hlen, hstream, drop_left]
  have hread : ({ ch with readPtr := ch.readPtr + m.text.length } : InputChannel μ).unread =
      ch.unread.drop m.text.length := unread_advance _
  unfold messageParsed
  rw [decide_eq_true hpos]
  dsimp only
  by_cases hbody : m.body = []
  · rw [checkBody_noBody hwf hbody]
    refine .inl ⟨.ready, _, rfl, .ready ?_ ?_, rfl, rfl⟩
    · simp [handlerOf, hbody]
    · rw [hbody, nil_append] at hrest
      rw [← hrest, ← hread]
      rfl
  · obtain ⟨handler, hhandler⟩ := bodyHandlerFor_of_completed hcompleted hbody
    rw [checkBody_body hwf hbody hhandler]
    refine .inl ⟨.body, _, rfl, ?_, rfl, rfl⟩
    have hnothing : some ⟨m.headers, some handler⟩ =
        some (InMessage.mk m.headers (some (fedHandler handler []))) := rfl
    have hsplit : m.body = [] ++ m.body := rfl
    refine .body nofun rfl hplain rfl hhandler hnothing hsplit hbody ?_
    rw [← hrest, ← hread]
    rfl

theorem acquired_text (hwf : m.WellFormed env)
    (hstream : ch.unread ++ future = m.text ++ (m.body ++ streamOf rest last)) {k : Nat}
    (hfound : strstr (crlf ++ crlf) (ch.unread.takeWhile (· ≠ nul)) = some k) :
    k + 4 = m.text.length ∧ (ch.unread.takeWhile (· ≠ nul)).take (k + 4) = m.text ∧
      m.text.length ≤ ch.unread.length := by
  have hnoNul : ∀ c ∈ m.text, decide (c ≠ nul) := by simpa using hwf.noNul
  have hends := strstr_le hwf.ends
  have hfour : (crlf ++ crlf).length = 4 := rfl
  by_cases hlen : m.text.length ≤ ch.unread.length
  · have hstart : m.text <+: ch.unread := by
      have hle : m.text <+: ch.unread ++ future := by
        rw [hstream]
        exact prefix_append _ _
      exact prefix_of_prefix_length_le hle (prefix_append _ _) hlen
    obtain ⟨x, hx⟩ := hstart
    have htake : ch.unread.takeWhile (· ≠ nul) = m.text ++ x.takeWhile (· ≠ nul) := by
      rw [← hx, takeWhile_append_of_pos hnoNul]
    rw [htake, strstr_append hwf.ends] at hfound
    cases hfound
    have hsize : m.text.length - 4 + 4 = m.text.length := by omega
    exact ⟨hsize, by rw [htake, hsize, take_left], hlen⟩
  · -- a part of the headers has no empty line
    have hstart : ch.unread <+: m.text := by
      have hle : ch.unread <+: m.text ++ (m.body ++ streamOf rest last) := by
        rw [← hstream]
        exact prefix_append _ _
      exact prefix_of_prefix_length_le hle (prefix_append _ _) (by omega)
    have htake : ch.unread.takeWhile (· ≠ nul) = ch.unread :=
      takeWhile_eq_self_iff.mpr fun c hc => hnoNul c (hstart.subset hc)
    rw [htake, strstr_prefix hwf.ends hstart (by omega)] at hfound
    cases hfound

theorem aquisitionStep_acquiring (h : PointOk received .aquisition ch)
    (hwf : m.WellFormed env) (hcompleted : m.completed env = .ok msg)
    (hstate : ch.state = .messageAquisition)
    (hstream : ch.unread ++ future = m.text ++ (m.body ++ streamOf rest last)) :
    StaysInStream env last future ((n, m) :: rest) ch (aquisitionStep env ch) := by
  obtain ⟨hnul, -, hstateOk⟩ : ch.Terminated ∧ ch.state ≠ .waitingMessageStart ∧ ch.StateOk := h.point
  have hplain : ch.chunckedMode = false := by simpa [StateOk, hstate] using hstateOk
  unfold aquisitionStep
  rw [if_pos hstate, cStringAt_readPtr h.stream.buffer hnul]
  dsimp only
  cases hfound : strstr (crlf ++ crlf) (ch.unread.takeWhile (· ≠ nul)) with
  | none =>
    refine .inr ⟨ch, rfl, .acquiring (.inl rfl) hstate hstream, ?_, rfl, rfl⟩
    simp only [Stuck, hstate]
    exact hfound
  | some k =>
    obtain ⟨hsize, htext, hlen⟩ := acquired_text hwf hstream hfound
    dsimp only
    rw [htext, hsize]
    change StaysInStream env last future ((n, m) :: rest) ch
      (messageParsed env m.text.length (env.parseRaw m.text).1 (env.parseRaw m.text).2 ch)
    rw [hwf.parsed]
    exact messageParsed_advances hwf hcompleted hplain hstream hlen

theorem recvChunk_fedHandler (handler : RecvHandler) (done bytes : List Char) :
    (fedHandler handler done).recvChunk bytes = handler.recvChunk (done ++ bytes) := by
  unfold fedHandler
  split
  · next hnil => rw [hnil, nil_append]
  · exact recvChunk_append handler done bytes

theorem transferedSize_fedHandler (hzero : handler.transferedSize = 0) (done : List Char) :
    (fedHandler handler done).transferedSize = done.length := by
  unfold fedHandler
  split
  · next hnil => rw [hnil, hzero, length_nil]
  · simp [RecvHandler.recvChunk, hzero]

theorem take_eq_of_append_eq {part future todo tail : List Char} {len : Nat}
    (hstream : part ++ future = todo ++ tail) (hpart : len ≤ part.length)
    (htodo : len ≤ todo.length) :
    part.take len = todo.take len ∧ part.drop len ++ future = todo.drop len ++ tail := by
  have htake := congrArg (List.take len) hstream
  have hdrop := congrArg (List.drop len) hstream
  rw [take_append_of_le_length hpart, take_append_of_le_length htodo] at htake
  rw [drop_append_of_le_length hpart, drop_append_of_le_length htodo] at hdrop
  exact ⟨htake, hdrop⟩

/-- A body: what has arrived of it is fed. -/
theorem bodyStep_body (h : PointOk received .body ch) (hwf : m.WellFormed env)
    {done todo : List Char} (hstate : ch.state = .bodyAquisition)
    (hplain : ch.chunckedMode = false) (hlength : ch.contentLength = m.body.length)
    (hhandler : bodyHandlerFor env m.headers m.body.length = .ok handler)
    (hmsg : ch.msg = some ⟨m.headers, some (fedHandler handler done)⟩)
    (hbody : m.body = done ++ todo) (hmore : todo ≠ [])
    (hstream : ch.unread ++ future = todo ++ streamOf rest last) :
    StaysInStream env last future ((n, m) :: rest) ch (bodyStep false ch) := by
  have hzero := transferedSize_of_bodyHandlerFor hhandler
  have hpos := length_pos_iff.mpr hmore
  have hsum : m.body.length = done.length + todo.length := by rw [hbody, length_append]
  have hfits : m.text.length + m.body.length < 65535 := by
    rw [← length_append]
    exact hwf.fits
  have hmissing : (((m.body.length : Int) - done.length) % 2 ^ 64).toNat = todo.length := by omega
  have hbind : ch.msg.bind InMessage.bodyHandler = some (fedHandler handler done) := by rw [hmsg]; rfl
  unfold bodyStep acquireBodySimple
  rw [if_pos hstate, hplain, hbind, sizeOf_distance h.stream.buffer]
  simp only [Bool.false_eq_true, if_false, false_or, transferedSize_fedHandler hzero, hlength,
    hmissing]
  by_cases hnothing : done.length = 0 ∧ ch.unread.length = 0
  · -- nothing of the body has arrived
    rw [if_pos hnothing]
    dsimp only
    rw [hbind, Option.map_some, Option.getD_some, transferedSize_fedHandler hzero, hlength,
      if_neg (by omega)]
    refine .inr ⟨ch, rfl, ?_, ?_, rfl, rfl⟩
    · exact .body nofun hstate hplain hlength hhandler hmsg hbody hmore hstream
    · exact stuck_of_unread_nil (eq_nil_of_length_eq_zero hnothing.2)
  · rw [if_neg hnothing]
    have hpart := Nat.min_le_right todo.length ch.unread.length
    obtain ⟨hbytes, hrest⟩ := take_eq_of_append_eq hstream hpart (by omega)
    obtain ⟨buff, hfeed, -, hwin⟩ := feedBody_spec h.stream.buffer hmsg rfl hpart
    rw [hfeed, hbytes, recvChunk_fedHandler]
    dsimp only
    rw [Option.bind_some]
    generalize hlen : min todo.length ch.unread.length = len at *
    have hdone : (done ++ todo.take len).length = done.length + len := by
      rw [length_append, length_take]
      omega
    have htransfered : (handler.recvChunk (done ++ todo.take len)).transferedSize =
        done.length + len := by
      rw [← hdone]
      simp [RecvHandler.recvChunk, hzero]
    rw [Option.map_some, Option.getD_some, htransfered, hlength]
    by_cases hcomplete : m.body.length ≤ done.length + len
    · -- the body is complete
      rw [if_pos hcomplete]
      have hall : len = todo.length := by omega
      refine .inl ⟨.ready, _, rfl, .ready ?_ ?_, rfl, rfl⟩
      · have hne : m.body ≠ [] := by
          intro hnil
          rw [hnil] at hsum
          simp at hsum
          omega
        simp only [handlerOf, if_neg hne, hhandler, hall, take_length, ← hbody]
        rfl
      · change window buff 0 (ch.unread.drop len).length ++ future = streamOf rest last
        rw [hwin, hrest, hall, drop_length, nil_append]
    · -- all that has arrived was fed
      rw [if_neg hcomplete]
      have hall : len = ch.unread.length := by omega
      have hne : done ++ todo.take len ≠ [] := by
        intro hnil
        rw [hnil] at hdone
        simp at hdone
        omega
      have hfed : some (InMessage.mk m.headers (some (handler.recvChunk (done ++ todo.take len)))) =
          some ⟨m.headers, some (fedHandler handler (done ++ todo.take len))⟩ := by
        rw [fedHandler, if_neg hne]
      have hsplit : m.body = (done ++ todo.take len) ++ todo.drop len := by
        rw [append_assoc, take_append_drop, hbody]
      have hmore' : todo.drop len ≠ [] := by
        rw [Ne, drop_eq_nil_iff]
        omega
      refine .inr ⟨_, rfl, ?_, ?_, rfl, rfl⟩
      · refine .body nofun hstate hplain rfl hhandler hfed hsplit hmore' ?_
        change window buff 0 (ch.unread.drop len).length ++ future = _
        rw [hwin, hrest]
      · apply stuck_of_unread_nil
        change window buff 0 (ch.unread.drop len).length = []
        rw [hwin, hall, drop_length]

theorem uncompress_of_completed (hcompleted : m.completed env = .ok msg) :
    uncompressBodyIfRequired env (InMessage.endTransfer ⟨m.headers, handlerOf env m⟩) = .ok msg := by
  unfold handlerOf
  by_cases hbody : m.body = []
  · unfold SipMessage.completed at hcompleted
    rw [if_pos hbody] at hcompleted ⊢
    exact hcompleted
  · obtain ⟨handler, hhandler⟩ := bodyHandlerFor_of_completed hcompleted hbody
    unfold SipMessage.completed at hcompleted
    rw [if_neg hbody, hhandler] at hcompleted ⊢
    exact hcompleted

theorem phase_of_streamOf (hstate : ch.state = .waitingMessageStart) (hfront : ch.readPtr = 0)
    (hstream : ch.unread ++ future = streamOf rest last) :
    StreamPhase env last future ch rest .top := by
  cases rest with
  | nil =>
    have hends : streamOf ([] : List (Nat × SipMessage μ)) last = keepAlives last ++ [] := by
      rw [append_nil]
      rfl
    exact .waiting hstate hfront (allLineEnds_keepAlives last) (hstream.trans hends)
  | cons s rest => exact .waiting hstate hfront (allLineEnds_keepAlives s.1) hstream

theorem messageReady_ready (h : PointOk received .ready ch)
    (hcompleted : m.completed env = .ok msg) (hmsg : ch.msg = some ⟨m.headers, handlerOf env m⟩)
    (hstream : ch.unread ++ future = streamOf rest last) :
    ∃ ch', messageReady env ch = .ok ch' ∧ StreamPhase env last future ch' rest .top ∧
      ch'.notified = ch.notified ∧ ch'.incomingMessages = ch.incomingMessages ++ [msg] := by
  have huncompressed := uncompress_of_completed hcompleted
  let ch' : InputChannel μ := { ch with incomingMessages := ch.incomingMessages ++ [msg] }
  have hbuffer : ch'.BufferOk := h.stream.buffer
  obtain ⟨buff, hreset, -, hwin⟩ := reset_spec hbuffer
  have hready : messageReady env ch = .ok ch'.reset := by
    unfold messageReady
    split
    · next hnone =>
      rw [hmsg] at hnone
      cases hnone
    · next msg' hmsg' =>
      rw [hmsg] at hmsg'
      cases hmsg'
      rw [huncompressed]
  refine ⟨_, hready, ?_, ?_, ?_⟩
  · rw [hreset]
    apply phase_of_streamOf rfl rfl
    change window buff 0 ch'.unread.length ++ future = streamOf rest last
    rw [hwin]
    exact hstream
  · rw [hreset]
  · rw [hreset]

theorem headersSafe_of_completed (hwf : m.WellFormed env)
    (hcompleted : m.completed env = .ok msg) : m.headers.Safe env where
  encoding hhttp := by
    rw [hwf.notHttp] at hhttp
    cases hhttp
  boundary hexpects hlistener hencoding := by
    have hbody : m.body ≠ [] := by
      intro hnil
      simp [Headers.expectsBody, hwf.lengthOf, hwf.notHttp, hnil] at hexpects
    obtain ⟨handler, hhandler⟩ := bodyHandlerFor_of_completed hcompleted hbody
    unfold bodyHandlerFor at hhandler
    rw [hlistener] at hhandler
    dsimp only at hhandler
    split at hhandler
    · cases hhandler
    · next default hdefault => exact hasBoundary_of_defaultHandler hdefault hencoding

theorem pointSafe_of_phase {point : ParsePoint} (h : StreamPhase env last future ch rest point)
    (hwf : ∀ s ∈ rest, s.2.WellFormed env)
    (hcompleted : ∀ s ∈ rest, ∃ msg, s.2.completed env = .ok msg) : PointSafe env ch point := by
  cases h with
  | waiting _ hfront _ _ => exact fun _ => searchSafe_of_front hfront
  | @acquiring n m rest point hpoint hstate hstream =>
    rcases hpoint with rfl | rfl
    · intro hwaiting
      rw [hstate] at hwaiting
      cases hwaiting
    · intro _ k headers size hfound hparse _
      have hm := hwf _ mem_cons_self
      obtain ⟨msg, hmsg⟩ := hcompleted _ mem_cons_self
      rw [(acquired_text hm hstream hfound).2.1, hm.parsed] at hparse
      cases hparse
      exact headersSafe_of_completed hm hmsg
  | @body n m rest point handler done todo hpoint hstate =>
    cases point with
    | top =>
      intro hwaiting
      rw [hstate] at hwaiting
      cases hwaiting
    | aquisition =>
      intro hacquiring
      rw [hstate] at hacquiring
      cases hacquiring
    | body => trivial
    | ready => exact absurd rfl hpoint
  | @ready n m rest hmsg hstream =>
    intro msg hready
    rw [hmsg] at hready
    cases hready
    obtain ⟨msg', hmsg'⟩ := hcompleted _ mem_cons_self
    exact safe_of_uncompressBodyIfRequired (uncompress_of_completed hmsg')

theorem parseStep_advances {point : ParsePoint} (h : PointOk received point ch)
    (hphase : StreamPhase env last future ch rest point) (hready : point ≠ .ready)
    (hwf : ∀ s ∈ rest, s.2.WellFormed env)
    (hcompleted : ∀ s ∈ rest, ∃ msg, s.2.completed env = .ok msg)
    (hscan : point = .top → ch.state = .waitingMessageStart → ScanAccepts ch) :
    StaysInStream env last future rest ch (parseStep env false (point, ch)) := by
  cases hphase with
  | waiting hstate hfront hends hstream =>
    exact topStep_waiting h hwf (hscan rfl hstate) hstate hfront hends hstream
  | @acquiring n m rest point hpoint hstate hstream =>
    have hm := hwf _ mem_cons_self
    obtain ⟨msg, hmsg⟩ := hcompleted _ mem_cons_self
    rcases hpoint with rfl | rfl
    · have hwaiting : ch.state ≠ .waitingMessageStart := by simp [hstate]
      exact topStep_receiving h hwaiting (.acquiring (.inl rfl) hstate hstream)
        (.acquiring (.inr rfl) hstate hstream)
    · exact aquisitionStep_acquiring h hm hmsg hstate hstream
  | @body n m rest point handler done todo hpoint hstate hplain hlength hhandler hmsg hbody hmore
      hstream =>
    cases point with
    | top =>
      have hwaiting : ch.state ≠ .waitingMessageStart := by simp [hstate]
      exact topStep_receiving h hwaiting
        (.body (by simp) hstate hplain hlength hhandler hmsg hbody hmore hstream)
        (.body (by simp) hstate hplain hlength hhandler hmsg hbody hmore hstream)
    | aquisition =>
      have hacquiring : ch.state ≠ .messageAquisition := by simp [hstate]
      refine .inl ⟨.body, ch, ?_, ?_, rfl, rfl⟩
      · rw [parseStep, aquisitionStep, if_neg hacquiring]
      · exact .body (by simp) hstate hplain hlength hhandler hmsg hbody hmore hstream
    | body =>
      have hm := hwf _ mem_cons_self
      exact bodyStep_body h hm hstate hplain hlength hhandler hmsg hbody hmore hstream
    | ready => exact absurd rfl hready
  | ready => exact absurd rfl hready

end Steps

/-! ## Runs -/

section Runs

variable {env : InputEnv μ} {messages : List (Nat × SipMessage μ)} {last : Nat}
  {chunks : List (List Char)}

/-- The messages behind a point of the stream are delivered, and the channel is there. -/
def Reassembled (env : InputEnv μ) (messages : List (Nat × SipMessage μ)) (last : Nat)
    (future : List Char) (point : ParsePoint) (ch : InputChannel μ) : Prop :=
  ∃ past rest, messages = past ++ rest ∧
    List.Forall₂ (fun s msg => Delivered env s.2 msg) past (ch.notified ++ ch.incomingMessages) ∧
    StreamPhase env last future ch rest point

/-- What the chunks of a stream give. -/
def chunkEvents (chunks : List (List Char)) : List InputEvent := chunks.map .chunk

/-- Where a run that is given chunks is: it does not know of an end of the stream, and between two
calls the channel has done what it can. -/
def Quiescent (place : Option (Bool × ParsePoint)) (ch : InputChannel μ) : Prop :=
  match place with
  | none => Stuck ch
  | some (eos, _) => eos = false

variable {ch : InputChannel μ} {future : List Char}

theorem phase_arrive {bytes : List Char}
    (h : StreamPhase env last (bytes ++ future) ch messages .top)
    (hunread : (ch.arrive (.chunk bytes)).unread = ch.unread ++ bytes) :
    StreamPhase env last future (ch.arrive (.chunk bytes)) messages .top := by
  have hstream : ∀ s, ch.unread ++ (bytes ++ future) = s →
      (ch.arrive (.chunk bytes)).unread ++ future = s := by
    intro s hs
    rw [hunread, append_assoc, hs]
  cases h with
  | waiting hstate hfront hends hs => exact .waiting hstate hfront hends (hstream _ hs)
  | acquiring hpoint hstate hs => exact .acquiring hpoint hstate (hstream _ hs)
  | body hpoint hstate hplain hlength hhandler hmsg hbody hmore hs =>
    exact .body hpoint hstate hplain hlength hhandler hmsg hbody hmore (hstream _ hs)

theorem parseStep_reassembled {received : List Char} {point : ParsePoint}
    (hwf : ∀ s ∈ messages, s.2.WellFormed env)
    (hcompleted : ∀ s ∈ messages, ∃ msg, s.2.completed env = .ok msg)
    (hpoint : PointOk received point ch) (hre : Reassembled env messages last future point ch)
    (hscan : point = .top → ch.state = .waitingMessageStart → ScanAccepts ch) :
    (∃ point' ch', parseStep env false (point, ch) = .ok (.inl (point', ch')) ∧
      PointOk received point' ch' ∧ Reassembled env messages last future point' ch') ∨
    ∃ ch', parseStep env false (point, ch) = .ok (.inr ch') ∧ PointOk received .top ch' ∧
      Reassembled env messages last future .top ch' ∧ Stuck ch' := by
  obtain ⟨past, todo, hmessages, hdelivered, hphase⟩ := hre
  have hwf' : ∀ s ∈ todo, s.2.WellFormed env := fun s hs => hwf s (by simp [hmessages, hs])
  have hcompleted' : ∀ s ∈ todo, ∃ msg, s.2.completed env = .ok msg := fun s hs =>
    hcompleted s (by simp [hmessages, hs])
  have hok : StepOk received (point, ch) (parseStep env false (point, ch)) :=
    parseStep_ok hpoint (pointSafe_of_phase hphase hwf' hcompleted')
  by_cases hready : point = .ready
  · subst hready
    cases hphase with
    | body hpoint => exact absurd rfl hpoint
    | acquiring hpoint => simp at hpoint
    | @ready n m rest hmsg hstream =>
      obtain ⟨msg, hmsg'⟩ := hcompleted' _ mem_cons_self
      obtain ⟨ch', hready, hphase', hnotified, hincoming⟩ :=
        messageReady_ready hpoint hmsg' hmsg hstream
      simp only [parseStep, hready] at hok ⊢
      obtain ⟨_, ⟨⟩, hpoint', -⟩ | ⟨_, ⟨⟩, -⟩ := hok
      refine .inl ⟨_, _, rfl, hpoint', past ++ [(n, m)], rest, by simp [hmessages], ?_, hphase'⟩
      rw [hnotified, hincoming, ← append_assoc]
      exact rel_append hdelivered (.cons (delivered_of_completed hmsg') .nil)
  · rcases parseStep_advances hpoint hphase hready hwf' hcompleted' hscan with
      ⟨point', ch', hstep, hphase', hnotified, hincoming⟩ |
      ⟨ch', hstep, hphase', hstuck, hnotified, hincoming⟩
    · rw [hstep] at hok ⊢
      obtain ⟨_, ⟨⟩, hpoint', -⟩ | ⟨_, ⟨⟩, -⟩ := hok
      refine .inl ⟨_, _, rfl, hpoint', past, todo, hmessages, ?_, hphase'⟩
      rw [hnotified, hincoming]
      exact hdelivered
    · rw [hstep] at hok ⊢
      obtain ⟨_, ⟨⟩, -, -⟩ | ⟨_, ⟨⟩, hpoint'⟩ := hok
      refine .inr ⟨_, rfl, hpoint', ⟨past, todo, hmessages, ?_, hphase'⟩, hstuck⟩
      rw [hnotified, hincoming]
      exact hdelivered

theorem reassembled_notify (h : Reassembled env messages last future .top ch) :
    Reassembled env messages last future .top ch.notifyIncomingMessages := by
  obtain ⟨past, rest, hmessages, hdelivered, hphase⟩ := h
  refine ⟨past, rest, hmessages, ?_, ?_⟩
  · change List.Forall₂ _ past (ch.notified ++ ch.incomingMessages ++ [])
    rw [append_nil]
    exact hdelivered
  · cases hphase with
    | waiting hstate hfront hends hs => exact .waiting hstate hfront hends hs
    | acquiring hpoint hstate hs => exact .acquiring hpoint hstate hs
    | body hpoint hstate hplain hlength hhandler hmsg hbody hmore hs =>
      exact .body hpoint hstate hplain hlength hhandler hmsg hbody hmore hs

theorem reassembled_of_visited (hwf : ∀ s ∈ messages, s.2.WellFormed env)
    (hcompleted : ∀ s ∈ messages, ∃ msg, s.2.completed env = .ok msg)
    (hstream : chunks.flatten = streamOf messages last) (hfits : AllFit env (chunkEvents chunks))
    (hscan : ∀ rest eos ch, Visited env (chunkEvents chunks) rest (some (eos, .top)) ch → ch.state
      = .waitingMessageStart → ScanAccepts ch) {rest : List InputEvent}
    {place : Option (Bool × ParsePoint)} (h : Visited env (chunkEvents chunks) rest place ch) :
    (∃ later, rest = chunkEvents later) ∧ Quiescent place ch ∧
      (∃ received, PointOk received ((place.map Prod.snd).getD .top) ch) ∧
      Reassembled env messages last (rest.flatMap InputEvent.bytes)
        ((place.map Prod.snd).getD .top) ch := by
  induction h with
  | start =>
    refine ⟨⟨chunks, rfl⟩, ?_, ⟨[], ?_⟩, [], messages, rfl, .nil, ?_⟩
    · have hnil : ({} : InputChannel μ).unread = [] := rfl
      exact stuck_of_unread_nil hnil
    · exact ⟨⟨⟨Nat.le_refl _, Nat.zero_lt_succ _, fun hlt => absurd hlt (Nat.lt_irrefl 0)⟩,
        nil_suffix, nofun⟩, rfl⟩
    · have hbytes : (chunkEvents chunks).flatMap InputEvent.bytes = streamOf messages last := by
        rw [← hstream, chunkEvents, flatMap_map, ← flatMap_id']
        rfl
      exact phase_of_streamOf rfl rfl hbytes
  | @event event rest ch h ih =>
    obtain ⟨⟨later, hlater⟩, -, ⟨received, hpoint⟩, past, todo, hmessages, hdelivered, hphase⟩ := ih
    cases later with
    | nil => cases hlater
    | cons bytes later =>
      cases hlater
      have hunread := unread_arrive hpoint.stream.buffer (.chunk bytes)
      refine ⟨⟨later, rfl⟩, rfl, ⟨_, pointOk_arrive hpoint (hfits _ _ _ h)⟩,
        past, todo, hmessages, hdelivered, ?_⟩
      exact phase_arrive hphase hunread
  | @step rest eos point point' ch ch' h hstep ih =>
    obtain ⟨hlater, hquiet, ⟨received, hpoint⟩, hre⟩ := ih
    have heos : eos = false := hquiet
    subst heos
    have hscan' : point = .top → ch.state = .waitingMessageStart → ScanAccepts ch :=
      fun htop hwaiting => hscan rest false ch (htop ▸ h) hwaiting
    obtain ⟨_, _, hgo, hpoint', hre'⟩ | ⟨_, hleave, -⟩ :=
      parseStep_reassembled hwf hcompleted hpoint hre hscan'
    · cases hstep.symm.trans hgo
      exact ⟨hlater, rfl, ⟨received, hpoint'⟩, hre'⟩
    · cases hstep.symm.trans hleave
  | @leave rest eos point ch ch' h hstep ih =>
    obtain ⟨hlater, hquiet, ⟨received, hpoint⟩, hre⟩ := ih
    have heos : eos = false := hquiet
    subst heos
    have hscan' : point = .top → ch.state = .waitingMessageStart → ScanAccepts ch :=
      fun htop hwaiting => hscan rest false ch (htop ▸ h) hwaiting
    obtain ⟨_, _, hgo, -⟩ | ⟨_, hleave, hpoint', hre', hstuck⟩ :=
      parseStep_reassembled hwf hcompleted hpoint hre hscan'
    · cases hstep.symm.trans hgo
    · cases hstep.symm.trans hleave
      exact ⟨hlater, hstuck, ⟨received, ⟨hpoint'.stream.buffer, hpoint'.stream.unread,
        hpoint'.stream.fed⟩, hpoint'.point⟩, reassembled_notify hre'⟩

theorem searchDue_of_crlf {k : Nat} (h : crlf <+: ch.unread.drop k) :
    k + 1 < ch.unread.length ∧ ch.searchDue k := by
  obtain ⟨t, ht⟩ := h
  have hlen := congrArg List.length ht
  rw [length_drop, length_append] at hlen
  have htwo : crlf.length = 2 := rfl
  have hat : ∀ i, i < 2 → some (charAt ch.buff (ch.readPtr + (k + i))) = crlf[i]? := by
    intro i hi
    have hget : (crlf ++ t)[i]? = (ch.unread.drop k)[i]? := by rw [ht]
    rw [List.getElem?_append_left (by omega), List.getElem?_drop, unread,
      getElem?_window, if_pos] at hget
    · exact hget.symm
    · rw [← length_unread]
      omega
  have hcr : charAt ch.buff (ch.readPtr + k) = '\r' := Option.some.inj (hat 0 (by omega))
  have hlf : charAt ch.buff (ch.readPtr + k + 1) = '\n' := Option.some.inj (hat 1 (by omega))
  exact ⟨by omega, by simp [searchDue, hcr, hlf]⟩

theorem nil_of_stuck (hwf : ∀ s ∈ messages, s.2.WellFormed env)
    (h : StreamPhase env last [] ch messages .top) (hstuck : Stuck ch) : messages = [] := by
  cases h with
  | @waiting _ ends hstate hfront hends hstream =>
    rw [append_nil] at hstream
    cases messages with
    | nil => rfl
    | cons s rest =>
      obtain ⟨n, m⟩ := s
      have hm := hwf _ mem_cons_self
      obtain ⟨hle, hocc, -⟩ := strstr_eq_some_iff.mp hm.ends
      have hcrlf : crlf <+: ch.unread.drop (ends.length + (m.text.length - 4)) := by
        rw [hstream, drop_append, afterKeepAlives]
        simp only [Nat.add_sub_cancel_left]
        rw [drop_eq_nil_of_le (by omega), nil_append, drop_append_of_le_length (by omega)]
        exact (prefix_append _ _).trans (hocc.trans (prefix_append _ _))
      obtain ⟨hlt, hdue⟩ := searchDue_of_crlf hcrlf
      simp only [Stuck, hstate] at hstuck
      exact absurd hdue (hstuck _ hlt)
  | @acquiring n m rest _ hpoint hstate hstream =>
    have hm := hwf _ mem_cons_self
    have hnoNul : ∀ c ∈ m.text, decide (c ≠ nul) := by simpa using hm.noNul
    rw [append_nil] at hstream
    simp only [Stuck, hstate] at hstuck
    rw [hstream, takeWhile_append_of_pos hnoNul, strstr_append hm.ends] at hstuck
    cases hstuck
  | @body n m rest _ handler done todo hpoint hstate hplain hlength hhandler hmsg hbody hmore hstream =>
    simp only [Stuck, hstate] at hstuck
    rw [hstuck] at hstream
    exact absurd (append_eq_nil_iff.mp hstream.symm).1 hmore

theorem incomingMessages_of_visited {events rest : List InputEvent}
    {place : Option (Bool × ParsePoint)} (h : Visited env events rest place ch)
    (hplace : place = none) : ch.incomingMessages = [] := by
  cases h with
  | start => rfl
  | event => cases hplace
  | step => cases hplace
  | leave => rfl

/-- A stream of well-formed messages with keep-alives, in any chunks, is received without a fault,
and the messages are delivered with their bodies, in order, when each scan for a start line that is
due accepts what has arrived of a message, and each message can be completed. -/
theorem reassembly (hwf : ∀ s ∈ messages, s.2.WellFormed env)
    (hcompleted : ∀ s ∈ messages, ∃ msg, s.2.completed env = .ok msg)
    (hstream : chunks.flatten = streamOf messages last) (hfits : AllFit env (chunkEvents chunks))
    (hscan : ∀ rest eos ch, Visited env (chunkEvents chunks) rest (some (eos, .top)) ch →
      ch.state = .waitingMessageStart → ScanAccepts ch) :
    ∃ ch, receiveAll env (chunkEvents chunks) {} = .ok ch ∧
      List.Forall₂ (Delivered env) (messages.map Prod.snd) ch.notified := by
  have hvisited : ∀ {rest place ch}, Visited env (chunkEvents chunks) rest place ch →
      (∃ later, rest = chunkEvents later) ∧ Quiescent place ch ∧
      (∃ received, PointOk received ((place.map Prod.snd).getD .top) ch) ∧
      Reassembled env messages last (rest.flatMap InputEvent.bytes)
        ((place.map Prod.snd).getD .top) ch :=
    reassembled_of_visited hwf hcompleted hstream hfits hscan
  have hsafe : ∀ rest eos point ch, Visited env (chunkEvents chunks) rest (some (eos, point)) ch →
      PointSafe env ch point := by
    intro rest eos point ch h
    obtain ⟨-, -, -, past, todo, hmessages, -, hphase⟩ := hvisited h
    apply pointSafe_of_phase hphase
    · exact fun s hs => hwf s (by simp [hmessages, hs])
    · exact fun s hs => hcompleted s (by simp [hmessages, hs])
  obtain ⟨ch, hreceive, hend⟩ := receiveAll_ok hfits hsafe .start
  obtain ⟨-, hstuck, -, past, rest, hmessages, hdelivered, hphase⟩ := hvisited hend
  have hrest : ∀ s ∈ rest, s.2.WellFormed env := fun s hs => hwf s (by simp [hmessages, hs])
  have hnil := nil_of_stuck hrest hphase hstuck
  rw [incomingMessages_of_visited hend rfl, append_nil] at hdelivered
  refine ⟨ch, hreceive, ?_⟩
  rw [hmessages, hnil, append_nil, forall₂_map_left_iff]
  exact hdelivered

end Runs

/-! ## Streams of one message -/

/-- The headers of a message with a body of a given size. -/
def sizedHeaders (n : Nat) : Headers Unit := { rest := (), contentLength := some n }

/-- A request with a body. -/
def shortMessage (body : List Char) : SipMessage Unit where
  text := shortRequest
  headers := sizedHeaders body.length
  body := body

theorem wellFormed_shortMessage {body : List Char} (hfits : body.length < 65000) :
    (shortMessage body).WellFormed (takingEnv (sizedHeaders body.length)) where
  parsed := rfl
  ends := by
    have hends : strstr (crlf ++ crlf) shortRequest = some (shortRequest.length - 4) := by
      decide +kernel
    exact hends
  noNul := by
    have hall : shortRequest.all (· != nul) = true := by decide +kernel
    intro c hc
    simpa using all_eq_true.mp hall c hc
  begins := ⟨'A', shortRequest.tail, rfl, by decide⟩
  notHttp := rfl
  contentLength := rfl
  fits := by
    have hlen : shortRequest.length = 15 := by decide
    rw [length_append]
    change shortRequest.length + body.length < 65535
    omega

/-- The points that are visited when the body is cut. -/
def cutTrace : List (InputConfig Unit) :=
  trace (takingEnv (sizedHeaders 2)) 14
    (chunkEvents [shortRequest ++ ['x'], ['y', '\r'], ['\n']], none, {})

theorem cutTrace_closed : ∀ c ∈ cutTrace,
    (successor (takingEnv (sizedHeaders 2)) c).all fun c' => decide (c' ∈ cutTrace) := by
  decide +kernel

/-- A chunk fits, and a scan accepts what is behind the line ends. -/
def InputConfig.accepting : InputConfig Unit → Bool
  | (event :: _, none, ch) => event.Fits ch
  | (_, some (_, .top), ch) =>
    ch.unread.length ≤ (ch.unread.takeWhile isLineEnd).length ||
      getMessageStartPos ch.unread == some (ch.unread.takeWhile isLineEnd).length ||
      ch.state != .waitingMessageStart
  | _ => true

theorem cutTrace_accepting : ∀ c ∈ cutTrace, InputConfig.accepting c := by
  decide +kernel

theorem mem_cutTrace {rest : List InputEvent} {place : Option (Bool × ParsePoint)}
    {ch : InputChannel Unit} (h : Visited (takingEnv (sizedHeaders 2))
      (chunkEvents [shortRequest ++ ['x'], ['y', '\r'], ['\n']]) rest place ch) :
    (rest, place, ch) ∈ cutTrace := by
  apply mem_of_visited _ _ h
  · decide +kernel
  · intro c hc c' hnext
    have hclosed := cutTrace_closed c hc
    rw [hnext] at hclosed
    simpa using hclosed

/-- A message whose body arrives in two chunks, with a keep-alive behind it that is cut too. -/
theorem reassembly_cut : ∃ ch, receiveAll (takingEnv (sizedHeaders 2))
      (chunkEvents [shortRequest ++ ['x'], ['y', '\r'], ['\n']]) {} = .ok ch ∧
    List.Forall₂ (Delivered (takingEnv (sizedHeaders 2)))
      ([(0, shortMessage ['x', 'y'])].map Prod.snd) ch.notified := by
  have hwf : ∀ s ∈ [(0, shortMessage ['x', 'y'])], s.2.WellFormed (takingEnv (sizedHeaders 2)) := by
    intro s hs
    rw [mem_singleton.mp hs]
    have hlen : ['x', 'y'].length < 65000 := by decide
    exact wellFormed_shortMessage hlen
  have hcompleted : ∀ s ∈ [(0, shortMessage ['x', 'y'])],
      ∃ msg, s.2.completed (takingEnv (sizedHeaders 2)) = .ok msg := by
    intro s hs
    rw [mem_singleton.mp hs]
    exact ⟨_, rfl⟩
  have hstream : [shortRequest ++ ['x'], ['y', '\r'], ['\n']].flatten =
      streamOf [(0, shortMessage ['x', 'y'])] 1 := by decide +kernel
  apply reassembly hwf hcompleted hstream
  · intro event rest ch h
    have haccepting := cutTrace_accepting _ (mem_cutTrace h)
    simpa [InputConfig.accepting] using haccepting
  · intro rest eos ch h hstate hlt _
    have haccepting := cutTrace_accepting _ (mem_cutTrace h)
    have hcases : ch.unread.length ≤ (ch.unread.takeWhile isLineEnd).length ∨
        getMessageStartPos ch.unread = some (ch.unread.takeWhile isLineEnd).length := by
      cases rest <;> simpa [InputConfig.accepting, hstate] using haccepting
    exact hcases.resolve_left (by omega)

/-- A keep-alive and the begin of a start line in one chunk, and the rest of the message in the next:
nothing is delivered. -/
theorem keepAlive_loses_message :
    (∀ s ∈ [(1, shortMessage [])], s.2.WellFormed (takingEnv (sizedHeaders 0))) ∧
    [crlf ++ shortRequest.take 5, shortRequest.drop 5].flatten = streamOf [(1, shortMessage [])] 0 ∧
    (receiveAll (takingEnv (sizedHeaders 0))
      (chunkEvents [crlf ++ shortRequest.take 5, shortRequest.drop 5]) {}).toOption.map
      notified = some [] := by
  refine ⟨fun s hs => ?_, by decide +kernel, by decide +kernel⟩
  rw [mem_singleton.mp hs]
  have hlen : ([] : List Char).length < 65000 := by decide
  exact wellFormed_shortMessage hlen

end GrooveIp.Sip
