import GrooveIp.Sip.OutputStream

/-!
# What is queued is sent

As long as no send would block while a message is sent in one piece, or while another message waits,
a channel sends exactly the messages that are queued, in their order.
-/

namespace GrooveIp.Sip

open Lib List OutputStream

/-- The bytes of a message. -/
def OutMessage.wire (message : OutMessage) : List UInt8 :=
  message.headers ++ (message.body.map BodyHandler.bytes).getD []

/-- The bytes of messages in their order. -/
def wire (messages : List OutMessage) : List UInt8 := messages.flatMap OutMessage.wire

/-- The headers fit the send buffer, and a body is not empty. -/
def OutMessage.Sendable (message : OutMessage) : Prop :=
  message.headers.length < sendRoom ∧ ∀ handler, message.body = some handler → handler.bytes ≠ []

/-- The condition: a send would block only while a body is sent by chunks and no message waits. -/
def Attempt.Harmless (attempt : Attempt) : Prop :=
  attempt.blocked = true → attempt.outState = .sendingBody ∧ attempt.waiting = 0

variable {stream stream' : OutputStream} {buffer total : List UInt8} {handler : BodyHandler}
  {message : OutMessage}

/-! ## Sending bytes -/

theorem sendAll_cases (stream : OutputStream) (hbuffer : buffer ≠ []) (answers : List SendAnswer) :
    (∃ answers' more, sendAll stream buffer answers = ({ stream with
          ewouldblock := none
          answers := answers'
          accepted := stream.accepted ++ buffer
          attempts := stream.attempts ++ more }, true)) ∨
    ∃ sent rest answers' more, buffer = sent ++ rest ∧ rest ≠ [] ∧ sendAll stream buffer answers =
        ({ stream with
            ewouldblock := some rest
            answers := answers'
            accepted := stream.accepted ++ sent
            attempts := stream.attempts ++ (more ++
              [⟨stream.outState, stream.outgoing.length, true⟩]) }, false) := by
  induction answers generalizing stream buffer with
  | nil =>
    exact .inr ⟨[], buffer, [], [], rfl, hbuffer, by
      simp [sendAll, handleEwouldblock, attempt]⟩
  | cons answer answers ih =>
    cases answer with
    | wouldBlock =>
      exact .inr ⟨[], buffer, answers, [], rfl, hbuffer, by
        simp [sendAll, handleEwouldblock, attempt]⟩
    | accepted more =>
      rw [sendAll]
      by_cases hall : min (more + 1) buffer.length = buffer.length
      · rw [if_pos hall]
        refine .inl ⟨answers, [⟨stream.outState, stream.outgoing.length, false⟩], ?_⟩
        rw [hall, take_length]
        rfl
      · rw [if_neg hall]
        have hrest : buffer.drop (min (more + 1) buffer.length) ≠ [] := by
          intro hnil
          have := drop_eq_nil_iff.mp hnil
          omega
        have hsplit := take_append_drop (min (more + 1) buffer.length) buffer
        rcases ih (stream.accept (buffer.take (min (more + 1) buffer.length))) hrest with
          ⟨answers', attempts, hsend⟩ | ⟨sent, rest, answers', attempts, heq, hne, hsend⟩
        · refine .inl ⟨answers', [⟨stream.outState, stream.outgoing.length, false⟩] ++ attempts, ?_⟩
          rw [hsend]
          simp [accept, attempt, hsplit]
        · refine .inr ⟨buffer.take (min (more + 1) buffer.length) ++ sent, rest, answers',
            [⟨stream.outState, stream.outgoing.length, false⟩] ++ attempts, ?_, hne, ?_⟩
          · rw [append_assoc, ← heq, hsplit]
          · rw [hsend]
            simp [accept, attempt]

/-! ## Bodies -/

theorem BodyHandler.sendChunk_cases {transfered size : Nat} (hsize : 0 < size)
    (hle : transfered ≤ handler.bytes.length) : ∃ chunk, handler.sendChunk transfered size =
        (chunk, transfered + chunk.length != handler.bytes.length) ∧
      handler.bytes.drop transfered = chunk ++ handler.bytes.drop (transfered + chunk.length) ∧
      transfered + chunk.length ≤ handler.bytes.length ∧ chunk.length ≤ size ∧
      (transfered < handler.bytes.length → chunk ≠ []) := by
  unfold BodyHandler.sendChunk
  simp only
  split
  · next hend => exact ⟨[], by simp [hend.2], by simp, by simp [hle], by simp, by omega⟩
  · have hchunk := handler.chunk_le transfered (min size (handler.bytes.length - transfered))
    have hmin : min (handler.chunk transfered (min size (handler.bytes.length - transfered)))
        (handler.bytes.length - transfered) =
          handler.chunk transfered (min size (handler.bytes.length - transfered)) :=
      Nat.min_eq_left (by omega)
    refine ⟨_, rfl, ?_, ?_, ?_, ?_⟩
    · simp only [length_take, length_drop]
      rw [hmin, ← drop_drop, take_append_drop]
    · simp only [length_take, length_drop]
      omega
    · simp only [length_take, length_drop]
      omega
    · intro hmore hnil
      have hpos := handler.chunk_pos transfered (min size (handler.bytes.length - transfered))
        (by omega) hmore
      have hzero := congrArg List.length hnil
      simp only [length_take, length_drop, length_nil] at hzero
      omega

theorem gatherBody_eq {fuel transfered room : Nat} (hle : transfered ≤ handler.bytes.length)
    (hroom : handler.bytes.length - transfered ≤ room) (hpos : 0 < room)
    (hfuel : handler.bytes.length - transfered < fuel) :
    gatherBody handler fuel transfered room = .ok (handler.bytes.drop transfered) := by
  induction fuel generalizing transfered room with
  | zero => omega
  | succ fuel ih =>
    obtain ⟨chunk, hchunk, hsplit, hend, hsize, hne⟩ := BodyHandler.sendChunk_cases hpos hle
    rw [gatherBody, hchunk, hsplit]
    by_cases hmore : transfered + chunk.length = handler.bytes.length
    · simp [hmore]
    · have hpositive : 0 < chunk.length := length_pos_iff.mpr (hne (by omega))
      have hrest : gatherBody handler fuel (transfered + chunk.length) (room - chunk.length) =
          .ok (handler.bytes.drop (transfered + chunk.length)) :=
        ih (by omega) (by omega) (by omega) (by omega)
      simp [hmore, hrest, bind, Except.bind, pure, Except.pure]

/-! ## The invariant -/

/-- All bytes are sent, or the rest of a buffer and of a body are left. -/
inductive Sends (total : List UInt8) (stream : OutputStream) : Prop
  | idle (state : stream.outState = .idle) (nothing : stream.ewouldblock = none)
      (sent : stream.accepted = total)
  | blocked (message : OutMessage) (handler : BodyHandler) (rest : List UInt8)
      (state : stream.outState = .sendingBody) (current : stream.current = some message)
      (body : message.body = some handler) (saved : stream.ewouldblock = some rest) (left : rest ≠ [])
      (transfered : stream.transfered ≤ handler.bytes.length)
      (sent : stream.accepted ++ rest ++ handler.bytes.drop stream.transfered = total)

/-- What sending a message leads to: everything is sent, or a socket that would block left something
over. -/
structure Advances (total : List UInt8) (stream stream' : OutputStream) : Prop where
  outgoing : stream'.outgoing = stream.outgoing
  sends : Sends total stream' ∨
    stream'.outState ≠ .idle ∧ ∃ attempt ∈ stream'.attempts, ¬ attempt.Harmless
  waiting : stream'.outState ≠ .idle → ∃ attempt ∈ stream'.attempts, attempt.blocked = true ∧
    attempt.waiting = stream.outgoing.length

theorem Advances.of_outgoing {stream₁ : OutputStream} (h : Advances total stream₁ stream')
    (houtgoing : stream₁.outgoing = stream.outgoing) : Advances total stream stream' where
  outgoing := by rw [h.outgoing, houtgoing]
  sends := h.sends
  waiting := by
    rw [← houtgoing]
    exact h.waiting

theorem Advances.done (hsent : stream.accepted = total) : Advances total stream stream.done :=
  ⟨rfl, .inl (.idle rfl rfl hsent), fun hbusy => absurd rfl hbusy⟩

theorem sendBody_advances {fuel : Nat} (hbody : message.body = some handler)
    (state : stream.outState = .sendingBody) (current : stream.current = some message)
    (hle : stream.transfered ≤ handler.bytes.length)
    (hfuel : handler.bytes.length - stream.transfered < fuel)
    (hsent : stream.accepted ++ handler.bytes.drop stream.transfered = total) :
    ∃ stream', sendBody handler fuel stream = .ok stream' ∧ Advances total stream stream' := by
  induction fuel generalizing stream with
  | zero => omega
  | succ fuel ih =>
    obtain ⟨chunk, hchunk, hsplit, hend, -, hne⟩ :=
      BodyHandler.sendChunk_cases (by decide : 0 < sendRoom) hle
    rw [sendBody, hchunk]
    rw [hsplit] at hsent
    simp only
    by_cases hnil : chunk = []
    · have hover : stream.transfered = handler.bytes.length := by
        by_cases hlt : stream.transfered < handler.bytes.length
        · exact absurd hnil (hne hlt)
        · omega
      refine ⟨({ stream with transfered := stream.transfered + chunk.length } : OutputStream).done,
        by simp [hnil, hover], ?_⟩
      exact (Advances.done (by simpa [hnil, hover] using hsent)).of_outgoing rfl
    · rw [if_neg hnil]
      rcases sendAll_cases { stream with transfered := stream.transfered + chunk.length } hnil
          stream.answers with
        ⟨answers', attempts, hsend⟩ | ⟨sent, rest, answers', attempts, heq, hrest, hsend⟩
      · rw [hsend]
        by_cases hover : stream.transfered + chunk.length = handler.bytes.length
        · refine ⟨_, by simp [hover]; rfl, ?_⟩
          exact (Advances.done (by simpa [hover] using hsent)).of_outgoing rfl
        · have hpositive : 0 < chunk.length := length_pos_iff.mpr hnil
          let stream₁ : OutputStream := { stream with
            transfered := stream.transfered + chunk.length
            ewouldblock := none
            answers := answers'
            accepted := stream.accepted ++ chunk
            attempts := stream.attempts ++ attempts }
          have state₁ : stream₁.outState = .sendingBody := state
          have left : handler.bytes.length - stream₁.transfered < fuel := by
            simp only [stream₁]
            omega
          have sent₁ : stream₁.accepted ++ handler.bytes.drop stream₁.transfered = total := by
            simpa [stream₁] using hsent
          obtain ⟨stream', hok, hadvances⟩ := ih state₁ current hend left sent₁
          exact ⟨stream', by simpa [hover] using hok, hadvances.of_outgoing rfl⟩
      · rw [hsend]
        refine ⟨_, rfl, rfl, .inl (.blocked message handler rest state current hbody rfl hrest hend ?_), ?_⟩
        · rw [← hsent, heq]
          simp
        · intro _
          exact ⟨⟨stream.outState, stream.outgoing.length, true⟩, by simp, rfl, rfl⟩

/-! ## Messages -/

theorem sendRest_advances (hbody : message.body = some handler) (state : stream.outState = .sendingBody)
    (current : stream.current = some message) (hle : stream.transfered ≤ handler.bytes.length)
    (hsent : stream.accepted ++ handler.bytes.drop stream.transfered = total) :
    ∃ stream', sendRest stream message = .ok stream' ∧ Advances total stream stream' := by
  simp only [sendRest, state, if_true, hbody]
  exact sendBody_advances hbody state current hle (by omega) hsent

theorem fillBuffer_cases (hsendable : message.Sendable) (stream : OutputStream) :
    (∃ transfered, fillBuffer stream message message.headers =
      .ok ({ stream with transfered := transfered }, message.wire)) ∨
    ∃ handler, message.body = some handler ∧ fillBuffer stream message message.headers =
      .ok ({ stream with transfered := 0, outState := .sendingBody }, message.headers) := by
  unfold fillBuffer
  cases hbody : message.body with
  | none => exact .inl ⟨stream.transfered, by simp [OutMessage.wire, hbody]⟩
  | some handler =>
    have hpositive : 0 < handler.bytes.length :=
      length_pos_iff.mpr (hsendable.2 handler hbody)
    by_cases hfits : handler.bytes.length ≤ sendRoom - message.headers.length
    · have hgather : gatherBody handler (handler.bytes.length + 1) 0
          (sendRoom - message.headers.length) = .ok handler.bytes :=
        gatherBody_eq (Nat.zero_le _) (by omega) (by omega) (by omega)
      refine .inl ⟨handler.bytes.length, ?_⟩
      simp [hpositive, hfits, hgather, OutMessage.wire, hbody, bind, Except.bind, pure, Except.pure]
    · have hne : handler.bytes.length ≠ 0 := by omega
      exact .inr ⟨handler, rfl, by simp [hfits, hne]⟩

theorem sendMessage_advances (hsendable : message.Sendable) (nothing : stream.ewouldblock = none)
    (hsent : stream.accepted = total) : ∃ stream', sendMessage stream message = .ok stream' ∧
      Advances (total ++ message.wire) stream stream' := by
  have hmarshal : message.marshal = some message.headers := if_pos hsendable.1
  simp only [sendMessage, resumeMessage, nothing, sendCurrent, if_true, hmarshal]
  rcases fillBuffer_cases hsendable
      { stream with current := some message, outState := .sendingHeaders } with
    ⟨transfered, hfill⟩ | ⟨handler, hbody, hfill⟩
  · simp only [nothing] at hfill
    rw [hfill]
    have hwire : message.wire ≠ [] := by simp [OutMessage.wire, message.headers_ne]
    rcases sendAll_cases { stream with
          current := some message
          outState := .sendingHeaders
          ewouldblock := none
          transfered := transfered } hwire stream.answers with
      ⟨answers', attempts, hsend⟩ | ⟨sent, rest, answers', attempts, heq, hrest, hsend⟩
    · simp only [bind, Except.bind, hsend, sendRest, if_true, reduceCtorEq, if_false]
      refine ⟨_, rfl, (Advances.done ?_).of_outgoing rfl⟩
      rw [hsent]
    · -- the rest of the message is saved, and the headers are still to be sent
      simp only [bind, Except.bind, hsend, Bool.false_eq_true, if_false]
      refine ⟨_, rfl, rfl, .inr ⟨by simp, ⟨.sendingHeaders, stream.outgoing.length, true⟩, by simp, ?_⟩,
        fun _ => ⟨⟨.sendingHeaders, stream.outgoing.length, true⟩, by simp, rfl, rfl⟩⟩
      intro hharmless
      exact absurd (hharmless rfl).1 (by simp)
  · simp only [nothing] at hfill
    rw [hfill]
    rcases sendAll_cases { stream with
          current := some message
          outState := .sendingBody
          ewouldblock := none
          transfered := 0 } message.headers_ne stream.answers with
      ⟨answers', attempts, hsend⟩ | ⟨sent, rest, answers', attempts, heq, hrest, hsend⟩
    · simp only [bind, Except.bind, hsend, if_true]
      let stream₁ : OutputStream := { stream with
        current := some message
        outState := .sendingBody
        ewouldblock := none
        transfered := 0
        answers := answers'
        accepted := stream.accepted ++ message.headers
        attempts := stream.attempts ++ attempts }
      have state₁ : stream₁.outState = .sendingBody := rfl
      have sent₁ : stream₁.accepted ++ handler.bytes.drop stream₁.transfered =
          total ++ message.wire := by
        simp [stream₁, hsent, OutMessage.wire, hbody]
      obtain ⟨stream', hok, hadvances⟩ := sendRest_advances hbody state₁ rfl (Nat.zero_le _) sent₁
      exact ⟨stream', hok, hadvances.of_outgoing rfl⟩
    · simp only [bind, Except.bind, hsend, Bool.false_eq_true, if_false]
      refine ⟨_, rfl, rfl, .inl ?_,
        fun _ => ⟨⟨.sendingBody, stream.outgoing.length, true⟩, by simp, rfl, rfl⟩⟩
      refine .blocked message handler rest rfl rfl hbody rfl hrest (Nat.zero_le _) ?_
      simp [hsent, OutMessage.wire, hbody, heq]

theorem resumeMessage_advances (h : Sends total stream) (hbusy : stream.outState ≠ .idle) :
    ∃ stream', resumeMessage stream = .ok stream' ∧ Advances total stream stream' := by
  cases h with
  | idle state => exact absurd state hbusy
  | blocked message handler rest state current body saved left transfered sent =>
    simp only [resumeMessage, current, saved]
    rcases sendAll_cases stream left stream.answers with
      ⟨answers', attempts, hsend⟩ | ⟨some', rest', answers', attempts, heq, hrest, hsend⟩
    · let stream₁ : OutputStream := { stream with
        ewouldblock := none
        answers := answers'
        accepted := stream.accepted ++ rest
        attempts := stream.attempts ++ attempts }
      have state₁ : stream₁.outState = .sendingBody := state
      have current₁ : stream₁.current = some message := current
      obtain ⟨stream', hok, hadvances⟩ := sendRest_advances body state₁ current₁ transfered sent
      refine ⟨stream', ?_, hadvances.of_outgoing rfl⟩
      simpa [stream₁, hsend, sendCurrent, state, current] using hok
    · rw [hsend]
      refine ⟨_, rfl, rfl, .inl ?_,
        fun _ => ⟨⟨stream.outState, stream.outgoing.length, true⟩, by simp, rfl, rfl⟩⟩
      refine .blocked message handler rest' state current body rfl hrest transfered ?_
      rw [← sent, heq]
      simp

/-! ## The queue -/

theorem drainQueue_busy (hbusy : stream.outState ≠ .idle) (queue : List OutMessage) :
    drainQueue queue stream = .ok { stream with outgoing := queue.tail } := by
  cases queue with
  | nil => rfl
  | cons message queue => simp [drainQueue, hbusy]

theorem drainQueue_sends {queue : List OutMessage} (hsendable : ∀ message ∈ queue, message.Sendable)
    (h : Sends total stream)
    (waiting : stream.outState ≠ .idle → ∃ attempt ∈ stream.attempts, attempt.blocked = true ∧
      attempt.waiting = queue.length) : ∃ stream', drainQueue queue stream = .ok stream' ∧
      (Sends (total ++ wire queue) stream' ∧ stream'.outgoing = [] ∨
        ∃ attempt ∈ stream'.attempts, ¬ attempt.Harmless) := by
  induction queue generalizing stream total with
  | nil =>
    refine ⟨_, rfl, .inl ⟨?_, rfl⟩⟩
    rw [wire, flatMap_nil, append_nil]
    cases h with
    | idle state nothing sent => exact .idle state nothing sent
    | blocked message handler rest state current body saved left transfered sent =>
      exact .blocked message handler rest state current body saved left transfered sent
  | cons message queue ih =>
    rw [drainQueue]
    split
    · next hidle =>
      obtain ⟨nothing, hsent⟩ : stream.ewouldblock = none ∧ stream.accepted = total := by
        cases h with
        | idle state nothing sent => exact ⟨nothing, sent⟩
        | blocked message handler rest state => simp [hidle] at state
      have nothing' : ({ stream with outgoing := queue } : OutputStream).ewouldblock = none := nothing
      obtain ⟨stream₁, hok, hadvances⟩ :=
        sendMessage_advances (hsendable message (by simp)) nothing' hsent
      simp only [hok, bind, Except.bind]
      rcases hadvances.sends with hsends | ⟨hbusy, hharmful⟩
      · have hrest := ih (fun message' hmem => hsendable message' (by simp [hmem])) hsends
          hadvances.waiting
        simpa [wire] using hrest
      · exact ⟨_, drainQueue_busy hbusy queue, .inr hharmful⟩
    · next hbusy =>
      obtain ⟨attempt, hmem, hblocked, hwaiting⟩ := waiting hbusy
      refine ⟨_, rfl, .inr ⟨attempt, hmem, fun hharmless => ?_⟩⟩
      have hzero := (hharmless hblocked).2
      simp [hwaiting] at hzero

theorem channelProcessQueue_sends (hsendable : ∀ message ∈ stream.outgoing, message.Sendable)
    (h : Sends total stream) : ∃ stream', channelProcessQueue stream = .ok stream' ∧
      (Sends (total ++ wire stream.outgoing) stream' ∧ stream'.outgoing = [] ∨
        ∃ attempt ∈ stream'.attempts, ¬ attempt.Harmless) := by
  unfold channelProcessQueue
  by_cases hidle : stream.outState = .idle
  · have hdrain := drainQueue_sends hsendable h fun hbusy => absurd hidle hbusy
    simpa [hidle, bind, Except.bind] using hdrain
  · obtain ⟨stream₁, hok, hadvances⟩ := resumeMessage_advances h hidle
    simp only [ne_eq, hidle, not_false_eq_true, if_true, hok, bind, Except.bind]
    rw [hadvances.outgoing]
    rcases hadvances.sends with hsends | ⟨hbusy, hharmful⟩
    · exact drainQueue_sends hsendable hsends hadvances.waiting
    · exact ⟨_, drainQueue_busy hbusy stream.outgoing, .inr hharmful⟩

/-! ## Runs -/

/-- The messages an event queues. -/
def StreamEvent.messages : StreamEvent → List OutMessage
  | .queue message _ => [message]
  | .write _ => []

/-- The streams that are reached by events that meet the condition, with the messages that have been
queued. -/
inductive StreamReached : List OutMessage → OutputStream → Prop
  | ready : StreamReached [] {}
  | event {messages : List OutMessage} {stream stream' : OutputStream} {event : StreamEvent}
      (reached : StreamReached messages stream) (sendable : ∀ message ∈ event.messages, message.Sendable)
      (hok : streamEvent stream event = .ok stream')
      (harmless : ∀ attempt ∈ stream'.attempts, attempt.Harmless) :
      StreamReached (messages ++ event.messages) stream'

theorem streamEvent_sends {event : StreamEvent} (h : Sends total stream)
    (houtgoing : stream.outgoing = []) (sendable : ∀ message ∈ event.messages, message.Sendable) :
    ∃ stream', streamEvent stream event = .ok stream' ∧
      (Sends (total ++ wire event.messages) stream' ∧ stream'.outgoing = [] ∨
        ∃ attempt ∈ stream'.attempts, ¬ attempt.Harmless) := by
  have refreshed (queue : List OutMessage) (answers : List SendAnswer) :
      Sends total { stream with answers := answers, outgoing := queue } := by
    cases h with
    | idle state nothing sent => exact .idle state nothing sent
    | blocked message handler rest state current body saved left transfered sent =>
      exact .blocked message handler rest state current body saved left transfered sent
  cases event with
  | queue message answers =>
    simp only [streamEvent, queueMessage, houtgoing, nil_append]
    exact channelProcessQueue_sends sendable (refreshed [message] answers)
  | write answers =>
    simp only [streamEvent, houtgoing]
    exact channelProcessQueue_sends (by simp) (refreshed [] answers)

theorem StreamReached.sends {messages : List OutMessage} (reached : StreamReached messages stream) :
    Sends (wire messages) stream ∧ stream.outgoing = [] := by
  induction reached with
  | ready => exact ⟨.idle rfl rfl rfl, rfl⟩
  | @event messages stream stream' event reached sendable hok harmless ih =>
    obtain ⟨stream'', hok', hcases⟩ := streamEvent_sends ih.1 ih.2 sendable
    rw [hok] at hok'
    cases hok'
    rcases hcases with hsends | ⟨attempt, hmem, hnot⟩
    · simpa [wire] using hsends
    · exact absurd (harmless attempt hmem) hnot

/-- In every run on a ready stream channel in which each message has headers that fit the send buffer
and no empty body, and no send would block while a message is sent in one piece or another message
waits, the socket has accepted a prefix of the messages that were queued, it has accepted all of them
exactly when the stream is idle, and no event aborts or fails to return. -/
theorem channel_sendsQueued {messages : List OutMessage} (reached : StreamReached messages stream) :
    stream.accepted <+: wire messages ∧
      (stream.outState = .idle ↔ stream.accepted = wire messages) ∧
      ∀ event : StreamEvent, (∀ message ∈ event.messages, message.Sendable) →
        ∃ stream', streamEvent stream event = .ok stream' := by
  obtain ⟨h, houtgoing⟩ := reached.sends
  refine ⟨?_, ?_, fun event sendable => ?_⟩
  · cases h with
    | idle state nothing sent =>
      exact sent ▸ prefix_rfl
    | blocked message handler rest state current body saved left transfered sent =>
      rw [← sent, append_assoc]
      exact prefix_append _ _
  · cases h with
    | idle state nothing sent => simp [state, sent]
    | blocked message handler rest state current body saved left transfered sent =>
      have hmore : stream.accepted ≠ wire messages := by
        intro heq
        have hlength := congrArg List.length sent
        have hpositive := length_pos_iff.mpr left
        simp only [length_append, heq] at hlength
        omega
      simp [state, hmore]
  · obtain ⟨stream', hok, -⟩ := streamEvent_sends h houtgoing sendable
    exact ⟨stream', hok⟩

theorem streamEvent_blocked (hheaders : message.headers.length < sendRoom)
    (hbody : message.body = some handler)
    (hlarge : sendRoom - message.headers.length < handler.bytes.length) :
    streamEvent {} (.queue message []) = .ok
      { current := some message
        outState := .sendingBody
        ewouldblock := some message.headers
        attempts := [⟨.sendingBody, 0, true⟩] } := by
  have hmarshal : message.marshal = some message.headers := if_pos hheaders
  have hfits : ¬ handler.bytes.length ≤ sendRoom - message.headers.length := by omega
  have hne : handler.bytes.length ≠ 0 := by omega
  simp [streamEvent, queueMessage, channelProcessQueue, drainQueue, sendMessage, resumeMessage,
    sendCurrent, hmarshal, fillBuffer, hbody, hfits, hne, sendAll, handleEwouldblock,
    attempt, bind, Except.bind, pure, Except.pure]

/-- A message whose body takes more than the send buffer. -/
def long : OutMessage := ⟨[1], some (.memory (List.replicate 16384 2)), by simp⟩

/-- A socket that would block before the body of a message. -/
theorem channel_sendsQueued_long :
    ∃ stream, StreamReached [long] stream ∧ stream.outState = .sendingBody ∧
      stream.accepted <+: wire [long] := by
  have hlength : (BodyHandler.memory (List.replicate 16384 2)).bytes.length = 16384 :=
    length_replicate
  have sendable : long.Sendable := by
    refine ⟨by decide, fun handler hbody => ?_⟩
    cases hbody
    apply ne_nil_of_length_pos
    omega
  have queued := @streamEvent_blocked _ long sendable.1 rfl (by rw [hlength]; decide)
  have reached := StreamReached.event .ready (by simpa [StreamEvent.messages] using sendable) queued
    (by simp [Attempt.Harmless])
  exact ⟨_, reached, rfl, (channel_sendsQueued reached).1⟩

/-- A message without a body. -/
def short (byte : UInt8) : OutMessage := ⟨[byte], none, by simp⟩

/-- A message that would block is sent twice, and a message that is queued meanwhile is never sent. -/
theorem channel_repeatsAndLoses : ∃ stream₁ stream₂ stream₃,
      streamEvent {} (.queue (short 1) []) = .ok stream₁ ∧
      streamEvent stream₁ (.queue (short 3) []) = .ok stream₂ ∧
      streamEvent stream₂ (.write [.accepted 0, .accepted 0, .accepted 0]) = .ok stream₃ ∧
      stream₃.outState = .idle ∧ stream₃.outgoing = [] ∧ stream₃.accepted = [1, 1] :=
  ⟨_, _, _, rfl, rfl, rfl, rfl, rfl, rfl⟩

end GrooveIp.Sip
