import GrooveIp.Lib.CString
import GrooveIp.Lib.Loops

/-!
# The input stream of a SIP channel

How a stream channel cuts what it receives into messages (`channel.c`): a scan for a start line, the
headers up to the empty line, and a body that is acquired by its length or by chunks. The parser of
the headers, the listener that may bring a body handler of its own and zlib are parameters. What
`fix_incoming_via` and `belle_sip_channel_learn_public_ip_port` do to a message is left out, and so
is the splitting of a multipart body into its parts.
-/

namespace GrooveIp.Sip

open Lib

/-- The type of the content types with parts. -/
def multipart : List Char := "multipart".toList

/-- The parameter that names the boundary. -/
def boundaryParam : List Char := ";boundary=".toList

/-- The transfer coding that the channel knows. -/
def chunkedCoding : List Char := "chunked".toList

/-- The content coding that the body handlers know. -/
def deflateCoding : List Char := "deflate".toList

/-! ## Messages and body handlers -/

/-- `belle_sip_header_content_type_t`, with its unparsed value. -/
structure ContentType where
  type : List Char
  unparsed : List Char
  deriving DecidableEq, Repr

/-- What the channel reads in the headers of a message; everything else is of type `μ`. An extension
header has no value when there is nothing behind its colon. -/
structure Headers (μ : Type) where
  rest : μ
  isHttp : Bool := false
  contentLength : Option Int := none
  contentType : Option ContentType := none
  transferEncoding : Option (Option (List Char)) := none
  contentEncoding : List (Option (List Char)) := []
  deriving DecidableEq, Repr

/-- The types of body handlers that the channel tells apart. -/
inductive HandlerType where
  | memory
  | multipart (boundary : Option (List Char))
  | other
  deriving DecidableEq, Repr

/-- `belle_sip_body_handler_t` (`bodyhandler.c:30`) while it receives, with the bytes it was given. -/
structure RecvHandler where
  type : HandlerType
  expectedSize : Nat := 0
  transferedSize : Nat := 0
  buffer : Option (List Char) := none
  deriving DecidableEq, Repr

/-- A message while it is received. -/
structure InMessage (μ : Type) where
  headers : Headers μ
  bodyHandler : Option RecvHandler := none
  deriving DecidableEq, Repr

/-- What comes of the loop around `inflate` in `belle_sip_memory_body_handler_unapply_encoding`
(`bodyhandler.c:345`). A stream that is cut off where the output buffer is just full makes it ask
for more room forever. -/
inductive Inflated where
  | failed
  | done (bytes : List Char)
  | endless
  deriving DecidableEq, Repr

/-- What the channel relies on: `belle_sip_message_parse_raw`, which consumes at most the bytes it is
given, the listener of incoming headers, and zlib on a buffer of a given size. -/
structure InputEnv (μ : Type) where
  parseRaw : List Char → Option (Headers μ) × Nat
  headersListener : Headers μ → Option RecvHandler
  inflate : List Char → Nat → Inflated
  parseRaw_le : ∀ text, (parseRaw text).2 ≤ text.length

variable {μ : Type}

/-- `belle_sip_body_handler_begin_recv_transfer` (`bodyhandler.c:132`). -/
def RecvHandler.beginRecvTransfer (handler : RecvHandler) : RecvHandler :=
  { handler with transferedSize := 0 }

/-- `belle_sip_body_handler_recv_chunk` (`bodyhandler.c:148`) with the memory and the multipart
handler's way of storing it (`bodyhandler.c:215`, `bodyhandler.c:731`). -/
def RecvHandler.recvChunk (handler : RecvHandler) (bytes : List Char) : RecvHandler :=
  { handler with
    buffer := some ((handler.buffer.getD []).take handler.transferedSize ++ bytes)
    transferedSize := handler.transferedSize + bytes.length }

/-- `belle_sip_body_handler_end_transfer` (`bodyhandler.c:183`). -/
def RecvHandler.endTransfer (handler : RecvHandler) : RecvHandler :=
  if handler.expectedSize = 0 then { handler with expectedSize := handler.transferedSize }
  else handler

/-- The search for the boundary in a Content-Type (`channel.c:338` and `channel.c:412`): the first
character behind it is read also where there is none. -/
def boundaryOf (unparsed : List Char) : Except Fault (Option (List Char)) :=
  match strstr boundaryParam unparsed with
  | none => .error .nullDereference
  | some k =>
    let boundary := unparsed.drop (k + 10)
    .ok (if boundary = [] then none else some boundary)

/-! ## The channel -/

/-- `belle_sip_network_buffer_size` (`channel.h:29`). -/
def networkBufferSize : Nat := 65535

/-- `input_stream_state_t` (`channel.h:62`). -/
inductive InputStreamState where
  | waitingMessageStart
  | messageAquisition
  | bodyAquisition
  deriving DecidableEq, Repr

/-- `belle_sip_channel_input_stream_t` (`channel.h:74`) with the messages it found and those that
the listeners were told of, and for the record what body handlers were given. -/
structure InputChannel (μ : Type) where
  state : InputStreamState := .waitingMessageStart
  buff : List Char := []
  readPtr : Nat := 0
  writePtr : Nat := 0
  msg : Option (InMessage μ) := none
  contentLength : Nat := 0
  chunckedMode : Bool := false
  chunkSize : Int := 0
  chunkReadSize : Int := 0
  incomingMessages : List (InMessage μ) := []
  notified : List (InMessage μ) := []
  fed : List (List Char) := []
  deriving DecidableEq, Repr

namespace InputChannel

variable (ch : InputChannel μ)

/-- `write_ptr-read_ptr`. -/
def distance : Int := ch.writePtr - ch.readPtr

/-- `belle_sip_channel_input_stream_rewind` (`channel.c:82`). -/
def rewind : InputChannel μ :=
  let remaining := toInt32 ch.distance
  if 0 < remaining then
    { ch with
      buff := writeAt ch.buff 0 (window ch.buff ch.readPtr remaining.toNat ++ [nul])
      readPtr := 0
      writePtr := remaining.toNat }
  else { ch with readPtr := 0, writePtr := 0 }

/-- `belle_sip_channel_input_stream_reset` (`channel.c:97`). -/
def reset : InputChannel μ :=
  { ch.rewind with
    state := .waitingMessageStart, msg := none, chunckedMode := false
    contentLength := 2 ^ 64 - 1 }

/-- `belle_sip_channel_input_stream_get_buff_length` (`channel.c:106`). -/
def buffLength : Nat := networkBufferSize - ch.writePtr

end InputChannel

/-! ## The start of a message -/

/-- The characters of `is_token` (`channel.c:206`). -/
def isTokenChar (c : Char) : Bool :=
  "-.!%*_+`'~".toList.contains c || ('0' ≤ c && c ≤ '9') || ('A' ≤ c && c ≤ 'Z') ||
    ('a' ≤ c && c ≤ 'z')

/-- `"SIP/2.0 %d "`. -/
def sipStatusFormat : List Directive :=
  literals "SIP/2.0" ++ [.space, .number .signed, .space]

/-- `"HTTP/1.%*i %d "`. -/
def httpStatusFormat : List Directive :=
  literals "HTTP/1." ++ [.number .anyBase, .space, .number .signed, .space]

/-- `"%16s %*s %9s\r\n"`; the word in the middle is not stored. -/
def requestFormat : List Directive :=
  [.word (some 16) 17, .space, .word none 0, .space, .word (some 9) 10, .space]

/-- Is there a start line at the front of the text (`channel.c:254–260`)? -/
def isMessageStart (text : List Char) : Bool :=
  (conversions sipStatusFormat text).length == 1 ||
    (conversions httpStatusFormat text).length == 2 ||
    match conversions requestFormat text with
    | [.text method, _, .text version] =>
      method.all isTokenChar && (version == "SIP/2.0".toList || "HTTP/1.".toList.isPrefixOf version)
    | _ => false

/-- The characters that the scan skips (`channel.c:242`). -/
def isBlank (c : Char) : Bool := c == '\r' || c == '\n' || c == ' ' || c == '\t'

/-- The text at `i` of a buffer whose last character is replaced by the terminator. -/
def patchedFrom (buff : List Char) (i : Nat) : List Char :=
  (buff.dropLast.drop i).takeWhile (· ≠ nul)

/-- `get_message_start_pos` (`channel.c:231`). -/
def getMessageStartPos (buff : List Char) : Option Nat :=
  (List.range (buff.length - 12)).find? fun i =>
    !isBlank (charAt buff i) && isMessageStart (patchedFrom buff i)

namespace InputChannel

/-- May the scan for a start line begin at `i` (`channel.c:551`)? -/
def searchDue (ch : InputChannel μ) (i : Nat) : Bool :=
  (charAt ch.buff (ch.readPtr + i) == '\r' && charAt ch.buff (ch.readPtr + i + 1) == '\n') ||
    ch.buffLength ≤ 1

/-- The loop at `channel.c:550` over `num` characters with `left` rounds to go: whether a start was
found. After a scan that found nothing the loop goes on over the emptied buffer. -/
def searchFrom (num : Nat) : Nat → InputChannel μ → Bool × InputChannel μ
  | 0, ch => (false, ch)
  | left + 1, ch =>
    if ch.searchDue (num - 1 - (left + 1)) then
      match getMessageStartPos (window ch.buff ch.readPtr num) with
      | some offset =>
        (true, { ch with readPtr := ch.readPtr + offset, state := .messageAquisition })
      | none => searchFrom num left { ch with readPtr := ch.writePtr }.reset
    else searchFrom num left ch

/-! ## Bodies -/

/-- `feed_body` (`channel.c:363`). -/
def feedBody (ch : InputChannel μ) (len : Nat) : Except Fault (InputChannel μ) :=
  match ch.msg with
  | none => .error .nullDereference
  | some msg =>
    match msg.bodyHandler with
    | none => .error .nullDereference
    | some handler =>
      if ch.readPtr + len ≤ networkBufferSize then
        let bytes := window ch.buff ch.readPtr len
        .ok { ch with
          msg := some { msg with bodyHandler := some (handler.recvChunk bytes) }
          readPtr := ch.readPtr + len
          fed := ch.fed ++ [bytes] }.rewind
      else .error .outOfBounds

end InputChannel

/-- The default body handler of a message (`channel.c:404–419`), before its transfer begins. -/
def defaultHandler (headers : Headers μ) (contentLength : Nat) : Except Fault RecvHandler :=
  if headers.contentEncoding ≠ [] then
    .ok { type := .memory, expectedSize := contentLength }
  else match headers.contentType with
    | some contentType =>
      if contentType.type = multipart then
        match boundaryOf contentType.unparsed with
        | .error fault => .error fault
        | .ok boundary => .ok { type := .multipart boundary, expectedSize := contentLength }
      else .ok { type := .memory, expectedSize := contentLength }
    | none => .ok { type := .memory, expectedSize := contentLength }

/-- The chunked transfer of an HTTP message (`channel.c:381–397`): whether its Transfer-Encoding says
`chunked`. -/
def isChunked (headers : Headers μ) : Except Fault Bool :=
  if headers.isHttp ∧ headers.contentType.isSome then
    match headers.transferEncoding with
    | none => .ok false
    | some none => .error .nullDereference
    | some (some value) => .ok (strstr chunkedCoding value).isSome
  else .ok false

/-- The Content-Length as a `size_t`, zero without one (`channel.c:377`). -/
def Headers.lengthOf (headers : Headers μ) : Nat := ((headers.contentLength.getD 0) % 2 ^ 64).toNat

/-- Is a body expected (`channel.c:379` and `channel.c:395`)? -/
def Headers.expectsBody (headers : Headers μ) : Bool :=
  0 < headers.lengthOf || headers.isHttp && headers.contentType.isSome

variable (env : InputEnv μ) (endOfStream : Bool) (ch : InputChannel μ)

/-- The body handler of a message that expects a body (`channel.c:399–424`). -/
def bodyHandlerFor (headers : Headers μ) (contentLength : Nat) : Except Fault RecvHandler :=
  match env.headersListener headers with
  | some handler => .ok handler.beginRecvTransfer
  | none =>
    match defaultHandler headers contentLength with
    | .error fault => .error fault
    | .ok handler => .ok handler.beginRecvTransfer

/-- `check_body` (`channel.c:372`). -/
def checkBody (headers : Headers μ) (ch : InputChannel μ) : Except Fault (Bool × InputChannel μ) :=
  match isChunked headers with
  | .error fault => .error fault
  | .ok chunked =>
    let ch := if chunked then
        { ch with contentLength := 0, chunckedMode := true, chunkSize := -1, chunkReadSize := 0 }
      else { ch with contentLength := headers.lengthOf }
    if headers.expectsBody then
      match bodyHandlerFor env headers ch.contentLength with
      | .error fault => .error fault
      | .ok handler => .ok (true, { ch with msg := some ⟨headers, some handler⟩ })
    else .ok (false, ch)

/-! ## Completed messages -/

/-- What replaces the body of a message that was uncompressed to some bytes (`channel.c:332–344`). -/
def uncompressedMessage (headers : Headers μ) (handler : RecvHandler) (bytes : List Char) :
    Except Fault (InMessage μ) :=
  match headers.contentLength with
  | none => .error .nullDereference
  | some _ =>
    let headers' := { headers with
      contentLength := some (toInt32 bytes.length), contentEncoding := headers.contentEncoding.tail }
    match headers.contentType with
    | some contentType =>
      if contentType.type = multipart then
        match boundaryOf contentType.unparsed with
        | .error fault => .error fault
        | .ok boundary =>
          .ok ⟨headers', some ⟨.multipart boundary, bytes.length, bytes.length, some bytes⟩⟩
      else .ok ⟨headers', some { handler with buffer := some bytes, expectedSize := bytes.length }⟩
    | none =>
      .ok ⟨headers', some { handler with buffer := some bytes, expectedSize := bytes.length }⟩

/-- `uncompress_body_if_required` (`channel.c:317`) with
`belle_sip_memory_body_handler_unapply_encoding` (`bodyhandler.c:322`). -/
def uncompressBodyIfRequired (msg : InMessage μ) : Except Fault (InMessage μ) :=
  match msg.bodyHandler, msg.headers.contentEncoding with
  | some handler, encoding :: _ =>
    if 0 < handler.expectedSize ∧ handler.type = .memory then
      match handler.buffer, encoding with
      | none, _ => .ok msg
      | some _, none => .error .nullDereference
      | some bytes, some encoding =>
        if encoding = deflateCoding then
          match env.inflate bytes handler.expectedSize with
          | .failed => .ok msg
          | .endless => .error .diverged
          | .done bytes => uncompressedMessage msg.headers handler bytes
        else .ok msg
    else .ok msg
  | _, _ => .ok msg

/-- A message when its transfer has ended. -/
def InMessage.endTransfer (msg : InMessage μ) : InMessage μ :=
  { msg with bodyHandler := msg.bodyHandler.map RecvHandler.endTransfer }

/-- `belle_sip_channel_message_ready` (`channel.c:352`). -/
def messageReady : Except Fault (InputChannel μ) :=
  match ch.msg with
  | none => .error .nullDereference
  | some msg =>
    match uncompressBodyIfRequired env msg.endTransfer with
    | .error fault => .error fault
    | .ok msg => .ok { ch with incomingMessages := ch.incomingMessages ++ [msg] }.reset

/-! ## Parsing the stream -/

/-- Where `belle_sip_channel_parse_stream` is: at the head of its loop, at one of the two tests of the
state behind it, or with a message that is complete. -/
inductive ParsePoint where
  | top
  | aquisition
  | body
  | ready
  deriving DecidableEq, Repr

/-- Where a step of the loop ends: it goes on at a point, or returns. -/
abbrev ParseStep (μ : Type) := Except Fault ((ParsePoint × InputChannel μ) ⊕ InputChannel μ)

/-- The head of the loop with the search for a start line (`channel.c:545–575`). -/
def topStep : ParseStep μ :=
  let num := toInt32 ch.distance
  if 0 < num then
    if ch.state = .waitingMessageStart then
      match ch.searchFrom num.toNat (num.toNat - 1) with
      | (true, ch) => .ok (.inl (.aquisition, ch))
      | (false, ch) => .ok (.inr ch)
    else .ok (.inl (.aquisition, ch))
  else .ok (.inr ch)

/-- `"\r\n"`. -/
def crlf : List Char := ['\r', '\n']

/-- What follows the parsing of the headers that end at `endOfMessage` (`channel.c:592–614`). -/
def messageParsed (endOfMessage : Nat) (parsed : Option (Headers μ))
    (readSize : Nat) (ch : InputChannel μ) : ParseStep μ :=
  let ch' := { ch with
    readPtr := ch.readPtr + readSize, msg := parsed.map fun headers => { headers } }
  match parsed, decide (0 < readSize) with
  | some headers, true =>
    match checkBody env headers ch' with
    | .error fault => .error fault
    | .ok (true, ch') => .ok (.inl (.body, { ch' with state := .bodyAquisition }))
    | .ok (false, ch') => .ok (.inl (.ready, ch'))
  | _, _ => .ok (.inl (.top,
      { ch' with readPtr := ch.readPtr + endOfMessage, state := .waitingMessageStart }))

/-- The headers up to the empty line (`channel.c:577–616`). -/
def aquisitionStep : ParseStep μ :=
  if ch.state = .messageAquisition then
    match cStringAt networkBufferSize ch.buff ch.readPtr with
    | .error fault => .error fault
    | .ok text =>
      match strstr (crlf ++ crlf) text with
      | none => .ok (.inr ch)
      | some k =>
        let (parsed, readSize) := env.parseRaw (text.take (k + 4))
        messageParsed env (k + 4) parsed readSize ch
  else .ok (.inl (.body, ch))

/-- `acquire_body_simple` (`channel.c:429`). -/
def acquireBodySimple : ParseStep μ :=
  match ch.msg.bind InMessage.bodyHandler with
  | none => .error .nullDereference
  | some handler =>
    let toRead := (ch.distance % 2 ^ 64).toNat
    let cursize := handler.transferedSize
    let fed : Except Fault (InputChannel μ) := if cursize = 0 ∧ toRead = 0 then .ok ch
      else ch.feedBody (min (((ch.contentLength : Int) - cursize) % 2 ^ 64).toNat toRead)
    match fed with
    | .error fault => .error fault
    | .ok ch =>
      let transfered := ((ch.msg.bind InMessage.bodyHandler).map RecvHandler.transferedSize).getD 0
      if endOfStream ∨ ch.contentLength ≤ transfered then .ok (.inl (.ready, ch))
      else .ok (.inr ch)

/-- How many characters the loop over leading `"\r\n"`s skips (`channel.c:466`). -/
def skipCrlf : List Char → Nat
  | '\r' :: '\n' :: s => skipCrlf s + 2
  | _ => 0

/-- The data of a chunk (`channel.c:496–510`). -/
def acquireChunk : ParseStep μ :=
  let readsize := min (toInt32 ch.distance) (ch.chunkSize - ch.chunkReadSize)
  let fed : Except Fault (InputChannel μ) := if 0 < readsize then
      match ch.feedBody readsize.toNat with
      | .error fault => .error fault
      | .ok ch => .ok { ch with chunkReadSize := ch.chunkReadSize + readsize }
    else .ok ch
  match fed with
  | .error fault => .error fault
  | .ok ch =>
    if ch.chunkSize = ch.chunkReadSize then
      let ch := { ch with
        contentLength := ((ch.contentLength + ch.chunkSize) % 2 ^ 64).toNat, chunkSize := -1 }
      if 0 < ch.distance then .ok (.inl (.body, ch)) else .ok (.inr ch)
    else .ok (.inr ch)

/-- A round of the loop of `acquire_chuncked_body` (`channel.c:462`). -/
def acquireChunckedBody : ParseStep μ :=
  if ch.chunkSize = -1 then
    match cStringAt networkBufferSize ch.buff ch.readPtr with
    | .error fault => .error fault
    | .ok text =>
      let ch := { ch with readPtr := ch.readPtr + skipCrlf text }
      let text := text.drop (skipCrlf text)
      match strstr crlf text with
      | none => .ok (.inr ch)
      | some k =>
        let chunksize := strtol16 text
        if 0 ≤ chunksize ∧ chunksize ≠ longMax then
          if chunksize = 0 then
            let readPtr := ch.readPtr + (k + 4)
            .ok (.inl (.ready, { ch with readPtr := min readPtr ch.writePtr }))
          else acquireChunk { ch with
            chunkSize := toInt32 chunksize, chunkReadSize := 0, readPtr := ch.readPtr + (k + 2) }
        else .ok (.inl (.top, ch.reset))
  else acquireChunk ch

/-- `acquire_body` (`channel.c:514`) where a body is awaited. -/
def bodyStep : ParseStep μ :=
  if ch.state = .bodyAquisition then
    if ch.chunckedMode then acquireChunckedBody ch else acquireBodySimple endOfStream ch
  else .ok (.inl (.top, ch))

/-- A step of `belle_sip_channel_parse_stream` (`channel.c:540`). -/
def parseStep : ParsePoint × InputChannel μ → ParseStep μ
  | (.top, ch) => topStep ch
  | (.aquisition, ch) => aquisitionStep env ch
  | (.body, ch) => bodyStep endOfStream ch
  | (.ready, ch) =>
    match messageReady env ch with
    | .error fault => .error fault
    | .ok ch => .ok (.inl (.top, ch))

/-- `belle_sip_channel_parse_stream` (`channel.c:540`). -/
def parseStream : Except Fault (InputChannel μ) :=
  loop .diverged (parseStep env endOfStream) (6 * ch.writePtr + 8) (.top, ch)

/-! ## Receiving -/

/-- What the socket gives: some bytes, or the end of the stream. -/
inductive InputEvent where
  | chunk (bytes : List Char)
  | endOfStream
  deriving DecidableEq, Repr

/-- The bytes of an event. -/
def InputEvent.bytes : InputEvent → List Char
  | .chunk bytes => bytes
  | .endOfStream => []

/-- A chunk is not empty and fits in the room that `recv` was given (`channel.c:653`). -/
def InputEvent.Fits : InputEvent → Prop
  | .chunk bytes => bytes ≠ [] ∧ bytes.length ≤ ch.buffLength - 1
  | .endOfStream => True

instance (ch : InputChannel μ) (event : InputEvent) : Decidable (event.Fits ch) := by
  cases event <;> unfold InputEvent.Fits <;> infer_instance

/-- What arrives is put behind what is unread (`channel.c:659–662`). -/
def InputChannel.arrive : InputEvent → InputChannel μ
  | .chunk bytes => { ch with
      buff := writeAt ch.buff ch.writePtr (bytes ++ [nul])
      writePtr := ch.writePtr + bytes.length }
  | .endOfStream => ch

/-- `notify_incoming_messages` (`channel.c:520`). -/
def InputChannel.notifyIncomingMessages : InputChannel μ :=
  { ch with notified := ch.notified ++ ch.incomingMessages, incomingMessages := [] }

/-- `belle_sip_channel_process_read_data` (`channel.c:643`). -/
def processReadData (event : InputEvent) (ch : InputChannel μ) : Except Fault (InputChannel μ) :=
  match parseStream env (event == .endOfStream) (ch.arrive event) with
  | .error fault => .error fault
  | .ok ch => .ok ch.notifyIncomingMessages

/-- The events of a stream, one after the other. -/
def receiveAll (env : InputEnv μ) : List InputEvent → InputChannel μ → Except Fault (InputChannel μ)
  | [], ch => .ok ch
  | event :: events, ch =>
    match processReadData env event ch with
    | .error fault => .error fault
    | .ok ch => receiveAll env events ch

end GrooveIp.Sip
