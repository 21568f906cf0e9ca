import GrooveIp.Lib.CString
import GrooveIp.Lib.Loops

/-!
# Multipart bodies

The multipart body handler of `bodyhandler.c` over parts in memory: the parts and the size that is
expected as they are added, the sending by chunks, and the reading of a buffer. A character is a byte.
Headers are marshalled and parsed by functions that are parameters.
-/

namespace GrooveIp.Sip.Multipart

open Lib

/-- `"\r\n"`. -/
def crlf : List Char := ['\r', '\n']

/-- `"--"` and the boundary. -/
def dashBoundary (boundary : List Char) : List Char := '-' :: '-' :: boundary

/-- The end of a multipart body. -/
def closing (boundary : List Char) : List Char :=
  crlf ++ dashBoundary boundary ++ ['-', '-', '\r', '\n']

variable {Header : Type}

/-- A memory body handler that is a part: its `expected_size` is the length of its buffer. -/
structure Part (Header : Type) where
  buffer : List Char
  headers : List Header := []
  headerStringBuffer : Option (List Char) := none
  transferedSize : Nat := 0

/-- `struct belle_sip_multipart_body_handler`, with the part of the list of parts from
`transfer_current_part` on. -/
structure MultipartBody (Header : Type) where
  boundary : List Char
  parts : List (Part Header) := []
  expectedSize : Nat
  transferedSize : Nat := 0
  transferCurrentPart : List (Part Header) := []

/-- `belle_sip_multipart_body_handler_new` without a part (`bodyhandler.c:849`). -/
def MultipartBody.new (boundary : List Char) : MultipartBody Header where
  boundary := boundary
  expectedSize := boundary.length + 8

/-- The headers of a part as they are sent, with an empty line behind: the buffer grows until it has
room for each. -/
def headerString (marshal : Header → List Char) (headers : List Header) : List Char :=
  headers.flatMap (marshal · ++ crlf) ++ crlf

/-- `belle_sip_multipart_body_handler_add_part` (`bodyhandler.c:872`). -/
def MultipartBody.addPart (marshal : Header → List Char) (body : MultipartBody Header)
    (part : Part Header) : MultipartBody Header :=
  let delimiter := if body.parts.isEmpty then 0 else 2
  let expectedSize :=
    body.expectedSize + delimiter + (part.buffer.length + body.boundary.length + 4)
  if part.headers.isEmpty then { body with parts := body.parts ++ [part], expectedSize }
  else
    let header := headerString marshal part.headers
    { body with
      parts := body.parts ++ [{ part with headerStringBuffer := some header }]
      expectedSize := expectedSize + header.length }

/-! ## Sending -/

/-- `BELLE_SIP_CONTINUE`, `BELLE_SIP_STOP` and `BELLE_SIP_BUFFER_OVERFLOW`. -/
inductive Ret where
  | cont
  | stop
  | bufferOverflow
  deriving DecidableEq, Repr

/-- What a call that sends a chunk leaves: its result, the bytes it wrote, and `*size`. -/
structure Chunk where
  ret : Ret
  bytes : List Char
  size : Nat

/-- The difference of two values of type `size_t`. -/
def subSize (a b : Nat) : Nat := (a + 2 ^ 64 - b) % 2 ^ 64

/-- `belle_sip_body_handler_send_chunk` (`bodyhandler.c:154`) around the `chunk_send` of a handler, with
the `transfered_size` it leaves. -/
def sendChunk {σ : Type} (expectedSize transferedSize : Nat)
    (chunkSend : Nat → Except Fault (Chunk × σ)) (handler : σ) (size : Nat) :
    Except Fault (Chunk × Nat × σ) :=
  let toSend := if expectedSize ≠ 0 then min size (expectedSize - transferedSize) else size
  if toSend = 0 ∧ transferedSize = expectedSize then
    .ok ({ ret := .stop, bytes := [], size := 0 }, transferedSize, handler)
  else do
    let (chunk, handler) ← chunkSend toSend
    let transferedSize := transferedSize + chunk.size
    let ret := if expectedSize ≠ 0 ∧ transferedSize = expectedSize then .stop else chunk.ret
    return ({ chunk with ret }, transferedSize, handler)

/-- `belle_sip_memory_body_handler_send_chunk` (`bodyhandler.c:222`), for a buffer that is not NULL. -/
def Part.chunkSend (part : Part Header) (size : Nat) : Chunk :=
  let toSend := min size (part.buffer.length - part.transferedSize)
  { ret := if part.buffer.length - part.transferedSize = toSend then .stop else .cont
    bytes := (part.buffer.drop part.transferedSize).take toSend
    size := toSend }

/-- `belle_sip_body_handler_send_chunk` of a part. -/
def Part.sendChunk (part : Part Header) (size : Nat) : Except Fault (Chunk × Part Header) := do
  let (chunk, transferedSize, _) ← Multipart.sendChunk part.buffer.length part.transferedSize
    (fun toSend => .ok (part.chunkSend toSend, ())) () size
  return (chunk, { part with transferedSize })

/-- The separator in front of the current part. -/
def MultipartBody.separator (body : MultipartBody Header) : List Char :=
  (if body.transferCurrentPart.length ≠ body.parts.length then crlf else []) ++
    dashBoundary body.boundary ++ crlf

/-- What goes in front of the current part: the separator and its headers, when nothing of it is
transfered yet. -/
def MultipartBody.front (body : MultipartBody Header) (part : Part Header) : List Char :=
  if part.transferedSize = 0 then body.separator ++ part.headerStringBuffer.getD [] else []

/-- `belle_sip_multipart_body_handler_send_chunk` (`bodyhandler.c:740`) into a buffer of `size` bytes. -/
def MultipartBody.chunkSend (body : MultipartBody Header) (size : Nat) :
    Except Fault (Chunk × MultipartBody Header) :=
  match body.transferCurrentPart with
  | [] => .error .nullDereference
  | part :: next =>
    -- room for the end of the message is taken off first, whatever the size is
    let room := subSize size (body.boundary.length + 8)
    let front := body.front part
    if part.transferedSize = 0 ∧ room < front.length + 1 then
      .ok ({ ret := .bufferOverflow, bytes := [], size := room }, body)
    else do
      let (chunk, part) ← part.sendChunk (room - front.length)
      let bytes := front ++ chunk.bytes
      let sent := chunk.size + front.length
      if size < bytes.length then .error .outOfBounds
      else if chunk.ret = .cont then
        .ok ({ ret := .cont, bytes, size := sent },
          { body with transferCurrentPart := part :: next })
      else if next ≠ [] then
        .ok ({ ret := .cont, bytes, size := sent }, { body with transferCurrentPart := next })
      else if size < sent + (closing body.boundary).length then .error .outOfBounds
      else
        .ok ({ ret := .stop, bytes := bytes ++ closing body.boundary
               size := sent + (body.boundary.length + 8) },
          { body with transferCurrentPart := part :: next })

/-- `belle_sip_body_handler_send_chunk` of a multipart body. -/
def MultipartBody.sendChunk (body : MultipartBody Header) (size : Nat) :
    Except Fault (Chunk × MultipartBody Header) := do
  let (chunk, transferedSize, body) ← Multipart.sendChunk body.expectedSize body.transferedSize
    body.chunkSend body size
  return (chunk, { body with transferedSize })

/-- `belle_sip_body_handler_begin_send_transfer` of a multipart body (`bodyhandler.c:711`). -/
def MultipartBody.beginSendTransfer (body : MultipartBody Header) : MultipartBody Header :=
  let parts := body.parts.map ({ · with transferedSize := 0 })
  { body with parts, transferedSize := 0, transferCurrentPart := parts }

/-- A multipart body that is being sent: the calls made and what they wrote. -/
structure Sending (Header : Type) where
  body : MultipartBody Header
  calls : Nat := 0
  output : List Char := []

/-- One call of `belle_sip_body_handler_send_chunk`, which goes on with `BELLE_SIP_CONTINUE` and leaves
with what was sent, or with nothing when a buffer was too small. -/
def Sending.step (sizes : Nat → UInt64) (sending : Sending Header) :
    Except Fault (Sending Header ⊕ Option (List Char)) := do
  let (chunk, body) ← sending.body.sendChunk (sizes sending.calls).toNat
  let output := sending.output ++ chunk.bytes
  match chunk.ret with
  | .cont => return .inl { body, calls := sending.calls + 1, output }
  | .stop => return .inr (some output)
  | .bufferOverflow => return .inr none

/-- A multipart body is sent in chunks of the given sizes. -/
def MultipartBody.transmit (body : MultipartBody Header) (sizes : Nat → UInt64) :
    Except Fault (Option (List Char)) :=
  loop .diverged (Sending.step sizes) (body.expectedSize + 1) { body := body.beginSendTransfer }

/-! ## Reading -/

/-- The C string at a cursor. -/
def cstr (buffer : List Char) (cursor : Nat) : List Char :=
  (buffer.drop cursor).takeWhile (· ≠ nul)

/-- The loop over the headers of a part (`bodyhandler.c:952`): each line is cut off by a NUL and
parsed. -/
def readHeaders (parse : List Char → Option Header) (endHeaders : Nat) :
    (fuel : Nat) → (buffer : List Char) → (cursor : Nat) → (headers : List Header) →
      Except Fault (List Char × List Header)
  | 0, _, _, _ => .error .diverged
  | fuel + 1, buffer, cursor, headers =>
    match strstr crlf (cstr buffer cursor) with
    | none => .error .nullDereference
    | some k =>
      let endHeader := cursor + k
      let buffer := buffer.set endHeader nul
      let headers := headers ++ (parse (cstr buffer cursor)).toList
      if endHeader = endHeaders then .ok (buffer, headers)
      else readHeaders parse endHeaders fuel buffer (endHeader + 2) headers

/-- One part (`bodyhandler.c:944–961`): everything up to its end when it has no empty line, and what
is behind the first one otherwise. -/
def readPart (parse : List Char → Option Header) (buffer : List Char) (cursor endPart : Nat) :
    Except Fault (List Char × Part Header) :=
  let buffer := buffer.set endPart nul
  match strstr (crlf ++ crlf) (cstr buffer cursor) with
  | none => .ok (buffer, { buffer := cstr buffer cursor })
  | some k => do
    let content := cstr buffer (cursor + k + 4)
    let (buffer, headers) ← readHeaders parse (cursor + k) buffer.length buffer cursor []
    return (buffer, { buffer := content, headers })

/-- A buffer that is being read. -/
structure Reading (Header : Type) where
  buffer : List Char
  cursor : Nat
  body : MultipartBody Header

/-- One round of the loop of `belle_sip_multipart_body_handler_progress_cb` (`bodyhandler.c:926`). -/
def Reading.step (marshal : Header → List Char) (parse : List Char → Option Header)
    (reading : Reading Header) : Except Fault (Reading Header ⊕ MultipartBody Header) :=
  let dash := dashBoundary reading.body.boundary
  if ¬crlf <+: cstr reading.buffer reading.cursor then .ok (.inr reading.body)
  else
    let cursor := reading.cursor + 2
    match strstr dash (cstr reading.buffer cursor) with
    | none => .ok (.inr reading.body)
    | some k => do
      -- the two characters in front may lie in front of the cursor
      let wellFormed := charAt reading.buffer (cursor + k - 1) = '\n' ∧
        charAt reading.buffer (cursor + k - 2) = '\r'
      let endPart := if wellFormed then cursor + k - 2 else cursor + k
      let (buffer, part) ← readPart parse reading.buffer cursor endPart
      let body := reading.body.addPart marshal part
      let cursor := endPart + dash.length + (if wellFormed then 2 else 0)
      if cstr buffer cursor = ['-', '-', '\r', '\n'] then return .inr body
      else return .inl { buffer, cursor, body }

/-- `belle_sip_multipart_body_handler_new_from_buffer` (`bodyhandler.c:859`): the buffer is received at
once, and `belle_sip_multipart_body_handler_progress_cb` reads it. -/
def newFromBuffer (marshal : Header → List Char) (parse : List Char → Option Header)
    (bytes boundary : List Char) : Except Fault (MultipartBody Header) :=
  let body : MultipartBody Header :=
    { boundary, expectedSize := bytes.length, transferedSize := bytes.length }
  let buffer := bytes ++ [nul]
  let dash := dashBoundary boundary
  if ¬dash <+: cstr buffer 0 then .ok body
  else loop .diverged (Reading.step marshal parse) (bytes.length + 1)
    { buffer, cursor := dash.length, body }

end GrooveIp.Sip.Multipart
