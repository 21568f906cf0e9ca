import GrooveIp.Lib.Memory

/-!
# The output stream of a SIP channel

How a ready stream channel sends what is queued on it (`channel.c`): messages are sent one after the
other, the headers first, with the body when it fits in the send buffer and by chunks otherwise. What
a send that would block leaves over is saved and sent first at the next opportunity. The answers of
the socket are given in advance; when there are none left, it would block.
-/

namespace GrooveIp.Sip

open Lib

/-- `sizeof(buffer)-1` with `belle_sip_send_network_buffer_size` (`channel.h:30`). -/
def sendRoom : Nat := 16384 - 1

/-- A body of a known size with what its handler gives at an offset when it is asked for some bytes,
more than none while there are any. -/
structure BodyHandler where
  bytes : List UInt8
  chunk : Nat → Nat → Nat
  chunk_pos : ∀ offset size, 0 < size → offset < bytes.length → 0 < chunk offset size
  chunk_le : ∀ offset size, chunk offset size ≤ size

/-- `belle_sip_memory_body_handler_t`: as many bytes as are asked for
(`belle_sip_memory_body_handler_send_chunk`, `bodyhandler.c:222`). -/
def BodyHandler.memory (bytes : List UInt8) : BodyHandler where
  bytes := bytes
  chunk _ size := size
  chunk_pos _ _ hsize _ := hsize
  chunk_le _ _ := Nat.le_refl _

/-- A message as it is sent: the marshalled start line and headers, and the handler of its body. -/
structure OutMessage where
  headers : List UInt8
  body : Option BodyHandler
  headers_ne : headers ≠ []

/-- `output_stream_state_t` (`channel.h:68`). -/
inductive OutputStreamState where
  | idle
  | sendingHeaders
  | sendingBody
  deriving DecidableEq, Repr

/-- What the socket does with the bytes it is offered: it accepts one and some more of them, or it
would block. -/
inductive SendAnswer where
  | accepted (more : Nat)
  | wouldBlock
  deriving DecidableEq, Repr

/-- An answer of the socket: the state of the stream, the number of messages that wait and whether it
would block. -/
structure Attempt where
  outState : OutputStreamState
  waiting : Nat
  blocked : Bool
  deriving DecidableEq, Repr

/-- The output stream of `belle_sip_channel_t` (`channel.h:107–112`), with the part of
`ewouldblock_buffer` from `ewouldblock_offset` on and the `transfered_size` of the current body;
the answers the socket still has, and what it has accepted and answered. -/
structure OutputStream where
  outgoing : List OutMessage := []
  current : Option OutMessage := none
  outState : OutputStreamState := .idle
  ewouldblock : Option (List UInt8) := none
  transfered : Nat := 0
  answers : List SendAnswer := []
  accepted : List UInt8 := []
  attempts : List Attempt := []

/-! ## Sending bytes -/

/-- The socket answers. -/
def OutputStream.attempt (stream : OutputStream) (blocked : Bool) : OutputStream :=
  { stream with attempts := stream.attempts ++ [⟨stream.outState, stream.outgoing.length, blocked⟩] }

/-- `handle_ewouldblock` (`channel.c:1067`). -/
def OutputStream.handleEwouldblock (stream : OutputStream) (rest : List UInt8) : OutputStream :=
  { stream.attempt true with ewouldblock := some rest }

/-- Some bytes are accepted by the socket. -/
def OutputStream.accept (stream : OutputStream) (bytes : List UInt8) : OutputStream :=
  { stream.attempt false with accepted := stream.accepted ++ bytes }

/-- The loops around `send_buffer` (`channel.c:1302`, `channel.c:1323`, and `channel.c:1256` for what
was saved): whether everything is sent; if not, the rest is saved. -/
def sendAll (stream : OutputStream) (buffer : List UInt8) : List SendAnswer → OutputStream × Bool
  | [] => ({ stream.handleEwouldblock buffer with answers := [] }, false)
  | .wouldBlock :: answers => ({ stream.handleEwouldblock buffer with answers := answers }, false)
  | .accepted more :: answers =>
    let count := min (more + 1) buffer.length
    let stream := stream.accept (buffer.take count)
    if count = buffer.length then ({ stream with ewouldblock := none, answers := answers }, true)
    else sendAll stream (buffer.drop count) answers

/-! ## Bodies -/

/-- `belle_sip_body_handler_send_chunk` (`bodyhandler.c:154`) for a body of a known size, with whether
it answers `BELLE_SIP_CONTINUE`. -/
def BodyHandler.sendChunk (handler : BodyHandler) (transfered size : Nat) : List UInt8 × Bool :=
  let toSend := min size (handler.bytes.length - transfered)
  if toSend = 0 ∧ transfered = handler.bytes.length then ([], false)
  else
    let chunk := (handler.bytes.drop transfered).take (handler.chunk transfered toSend)
    (chunk, transfered + chunk.length != handler.bytes.length)

/-- A body that is sent together with the headers (`channel.c:1287`). -/
def gatherBody (handler : BodyHandler) : Nat → Nat → Nat → Except Fault (List UInt8)
  | 0, _, _ => .error .diverged
  | fuel + 1, transfered, room =>
    let (chunk, more) := handler.sendChunk transfered room
    if more then do
      return chunk ++ (← gatherBody handler fuel (transfered + chunk.length) (room - chunk.length))
    else .ok chunk

/-- The end of `_send_message` (`channel.c:1342`). -/
def OutputStream.done (stream : OutputStream) : OutputStream :=
  { stream with ewouldblock := none, outState := .idle, current := none }

/-- A body that is sent by chunks (`channel.c:1319`). -/
def sendBody (handler : BodyHandler) : Nat → OutputStream → Except Fault OutputStream
  | 0, _ => .error .diverged
  | fuel + 1, stream =>
    let (chunk, more) := handler.sendChunk stream.transfered sendRoom
    let stream := { stream with transfered := stream.transfered + chunk.length }
    let (stream, sent) := if chunk = [] then (stream, true) else sendAll stream chunk stream.answers
    if !sent then .ok stream
    else if more then sendBody handler fuel stream
    else .ok stream.done

/-! ## Messages -/

/-- `belle_sip_object_marshal` for the start line and headers, into the send buffer. -/
def OutMessage.marshal (message : OutMessage) : Option (List UInt8) :=
  if message.headers.length < sendRoom then some message.headers else none

/-- The part of `_send_message` for the state `OUTPUT_STREAM_SENDING_HEADERS` that fills the buffer
(`channel.c:1272–1300`). -/
def fillBuffer (stream : OutputStream) (message : OutMessage) (headers : List UInt8) :
    Except Fault (OutputStream × List UInt8) :=
  match message.body with
  | none => .ok (stream, headers)
  | some handler =>
    if 0 < handler.bytes.length ∧ handler.bytes.length ≤ sendRoom - headers.length then do
      let body ← gatherBody handler (handler.bytes.length + 1) 0 (sendRoom - headers.length)
      return ({ stream with transfered := handler.bytes.length }, headers ++ body)
    else if handler.bytes.length = 0 then .error .abort
    else .ok ({ stream with transfered := 0, outState := .sendingBody }, headers)

/-- The part of `_send_message` for the state `OUTPUT_STREAM_SENDING_BODY` (`channel.c:1318`), or its
end. -/
def sendRest (stream : OutputStream) (message : OutMessage) : Except Fault OutputStream :=
  if stream.outState = .sendingBody then
    match message.body with
    | some handler => sendBody handler (handler.bytes.length + 1) stream
    | none => .error .nullDereference
  else .ok stream.done

/-- `_send_message` after what was saved (`channel.c:1272`). -/
def sendCurrent (stream : OutputStream) (message : OutMessage) : Except Fault OutputStream :=
  if stream.outState = .sendingHeaders then
    match message.marshal with
    | none => .ok stream.done
    | some headers => do
      let (stream, buffer) ← fillBuffer stream message headers
      let (stream, sent) := sendAll stream buffer stream.answers
      if sent then sendRest stream message else return stream
  else sendRest stream message

/-- `_send_message` (`channel.c:1245`). -/
def resumeMessage (stream : OutputStream) : Except Fault OutputStream :=
  match stream.current with
  | none => .error .nullDereference
  | some message =>
    match stream.ewouldblock with
    | none => sendCurrent stream message
    | some rest =>
      let (stream, sent) := sendAll stream rest stream.answers
      if sent then sendCurrent stream message else .ok stream

/-- `send_message` (`channel.c:1352`). -/
def sendMessage (stream : OutputStream) (message : OutMessage) : Except Fault OutputStream :=
  resumeMessage { stream with current := some message, outState := .sendingHeaders }

/-- The loop of `channel_process_queue` (`channel.c:1401`) over the messages that wait: one is popped
before the state is looked at. -/
def drainQueue : List OutMessage → OutputStream → Except Fault OutputStream
  | [], stream => .ok { stream with outgoing := [] }
  | message :: outgoing, stream =>
    if stream.outState = .idle then do
      drainQueue outgoing (← sendMessage { stream with outgoing := outgoing } message)
    else .ok { stream with outgoing := outgoing }

/-- `channel_process_queue` (`channel.c:1393`); also `belle_sip_channel_process_data` with the write
event. -/
def channelProcessQueue (stream : OutputStream) : Except Fault OutputStream := do
  let stream ← if stream.outState ≠ .idle then resumeMessage stream else .ok stream
  drainQueue stream.outgoing stream

/-- `queue_message` (`channel.c:1540`) on a ready channel. -/
def queueMessage (stream : OutputStream) (message : OutMessage) : Except Fault OutputStream :=
  channelProcessQueue { stream with outgoing := stream.outgoing ++ [message] }

/-- A message or a chance to write, with what the socket will answer. -/
inductive StreamEvent where
  | queue (message : OutMessage) (answers : List SendAnswer)
  | write (answers : List SendAnswer)

/-- What an event does. -/
def streamEvent (stream : OutputStream) : StreamEvent → Except Fault OutputStream
  | .queue message answers => queueMessage { stream with answers := answers } message
  | .write answers => channelProcessQueue { stream with answers := answers }

end GrooveIp.Sip
