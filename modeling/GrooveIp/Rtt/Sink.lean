import GrooveIp.Rtt.Source

/-!
# The real-time text sink

`rfc4103_sink.c`: a packet is taken apart into the text that is new, which is read into a buffer and then
notified character by character. The buffer is the list of its first `inbufsize` bytes.
-/

namespace GrooveIp.Rtt

open GrooveIp.Lib

/-- `TS_INBUF_SIZE` (`msrtt4103.h:31`), a product with `TS_REDGEN + 1` without parentheses. -/
def inBufSize : Nat := outBufSize * redGen + 1

/-- `RealTimeTextSinkData` (`rfc4103_sink.c:26`); `unread` is what is between `inbufpos` and the end. -/
structure RealTimeTextSinkData where
  notFirst : Bool
  prevseqno : Int
  inbuf : List UInt8
  unread : List UInt8
  ptT140 : Int
  ptRed : Int

/-- A sink with its payload numbers set (`rfc4103_sink.c:277`). -/
def RealTimeTextSinkData.new (ptT140 ptRed : Int) : RealTimeTextSinkData where
  notFirst := false
  prevseqno := 0
  inbuf := []
  unread := []
  ptT140 := ptT140
  ptRed := ptRed

/-- `utf8_test` (`rfc4103_sink.c:39`). -/
def utf8Test (c : UInt8) : Int :=
  if c &&& 0x80 = 0 then 1
  else if c &&& 0x40 = 0 then 0
  else if c &&& 0x20 = 0 then 2
  else if c &&& 0x10 = 0 then 3
  else if c &&& 0x08 = 0 then 4
  else -1

/-- The loop of `is_utf8_buf_ok` (`rfc4103_sink.c:48`); `t` bytes of a character are to come. -/
def isUtf8From (t : Int) : List UInt8 → Bool
  | [] => t = 0
  | b :: bytes =>
    if t = 0 then
      if utf8Test b ≤ 0 then false else isUtf8From (utf8Test b - 1) bytes
    else if utf8Test b ≠ 0 then false
    else isUtf8From (t - 1) bytes

variable (bytes : List UInt8)

/-- `is_utf8_buf_ok` (`rfc4103_sink.c:48`). -/
def isUtf8BufOk : Bool := isUtf8From 0 bytes

/-- `red_needed` (`rfc4103_sink.c:68`). -/
def redNeeded (cur prev : Int) : Int :=
  let t := cur - prev
  if t > 0 then t - 1 else if t < -100 then t + 0xFFFF else -1

/-- A hexadecimal digit. -/
def hexDigit (n : Nat) : UInt8 := UInt8.ofNat (if n < 10 then 0x30 + n else 0x37 + n)

/-- What `" ['%c']0x%X"` prints of a byte (`rfc4103_sink.c:86`). -/
def dumpByte (c : UInt8) : List UInt8 :=
  [0x20, 0x5B, 0x27, if c > 20 then c else 0x58, 0x27, 0x5D, 0x30, 0x78] ++
    if c.toNat < 16 then [hexDigit c.toNat] else [hexDigit (c.toNat / 16), hexDigit (c.toNat % 16)]

/-- `snprintf` of a text into `buf` at a position: the size left is `1000 - pos`, a negative number being a
large `size_t`. -/
def snprintfAt (pos : Nat) (text : List UInt8) : Except Fault Nat :=
  if pos ≤ 1000 then .ok (pos + text.length) else .error .outOfBounds

/-- `text_stream_hexdump` (`rfc4103_sink.c:78`). -/
def textStreamHexdump (data : List UInt8) : Except Fault Unit := do
  let pos ← data.foldlM (fun pos c => snprintfAt pos (dumpByte c)) 0
  if pos < 1000 then .ok () else .error .outOfBounds

/-- `insert_lost_char` (`rfc4103_sink.c:95`). -/
def lostChar : List UInt8 := [0xEF, 0xBF, 0xBD]

variable (stream : RealTimeTextSinkData)

/-- Where the text of `read_t140_data` ends up in `inbuf` (`rfc4103_sink.c:121`). -/
def RealTimeTextSinkData.append (data : List UInt8) : Except Fault RealTimeTextSinkData :=
  if stream.inbuf.length + data.length ≤ inBufSize then
    .ok { stream with inbuf := stream.inbuf ++ data }
  else .error .outOfBounds

/-- `read_t140_data` (`rfc4103_sink.c:101`) of the payload from an offset on: whether it succeeds. -/
def RealTimeTextSinkData.readT140Data (payload : List UInt8) (readstart : Nat) (readsize : Int) :
    Except Fault (RealTimeTextSinkData × Bool) :=
  let bufSize : Int := inBufSize - stream.inbuf.length
  if readsize < 0 then .ok (stream, false)
  else
    let readsize := if readsize > bufSize then bufSize else readsize
    if readsize > 0 then do
      let data ← readBytes payload readstart readsize.toNat
      if isUtf8BufOk data then do
        let stream ← stream.append data
        .ok (stream, true)
      else do
        textStreamHexdump data
        .ok ({ stream with inbuf := [] }, false)
    else .ok (stream, true)

/-- The text is read, and on success the packet counts as received (`rfc4103_sink.c:143`, `:196`). -/
def RealTimeTextSinkData.readFrom (payload : List UInt8) (readstart : Nat) (seqno : Int) :
    Except Fault RealTimeTextSinkData := do
  let (stream, success) ← stream.readT140Data payload readstart (payload.length - readstart)
  .ok (if success then { stream with prevseqno := seqno } else stream)

/-- How many packets are lost before one; the first packet is not compared (`rfc4103_sink.c:133`, `:174`). -/
def RealTimeTextSinkData.needed (seqno : Int) : Int :=
  if stream.notFirst then redNeeded seqno stream.prevseqno else 0

/-- A byte of the payload. -/
def byteAt (payload : List UInt8) (pos : Nat) : Except Fault UInt8 :=
  match payload[pos]? with
  | some b => .ok b
  | none => .error .outOfBounds

/-- The walk over the sub-headers (`rfc4103_sink.c:160`): how many there are, unless one has another payload
number. The fuel is for the bytes of the payload. -/
def RealTimeTextSinkData.countHeaders (payload : List UInt8) : Nat → Nat → Except Fault (Option Nat)
  | 0, _ => .error .diverged
  | fuel + 1, redgen =>
    match payload[4 * redgen]? with
    | none => .ok (some redgen)
    | some b =>
      if b &&& 0x80 ≠ 0 then
        if (b &&& 0x7F).toNat ≠ stream.ptT140 then .ok none
        else countHeaders payload fuel (redgen + 1)
      else .ok (some redgen)

/-- The length in a sub-header (`rfc4103_sink.c:194`). -/
def blockLength (payload : List UInt8) (i : Nat) : Except Fault Nat := do
  let high ← byteAt payload (4 * i + 2)
  let low ← byteAt payload (4 * i + 3)
  .ok (((high.toNat <<< 8) ||| low.toNat) &&& 0x3FF)

/-- The loop over the redundant blocks that are not needed (`rfc4103_sink.c:193`). -/
def skipBlocks (payload : List UInt8) (readstart count : Nat) : Except Fault Nat :=
  (List.range count).foldlM (fun readstart i => do
    let length ← blockLength payload i
    .ok (readstart + length)) readstart

/-- Where the text that is new starts in a redundant packet, and whether text before it is lost
(`rfc4103_sink.c:159`); nothing for a packet that is ignored. -/
def RealTimeTextSinkData.locateRed (seqno : Int) (payload : List UInt8) :
    Except Fault (Option (Nat × Bool)) := do
  match ← stream.countHeaders payload (payload.length + 1) 0 with
  | none => .ok none
  | some redgen =>
    let b ← byteAt payload (4 * redgen)
    if b.toNat ≠ stream.ptT140 then .ok none
    else if stream.needed seqno < 0 then .ok none
    else do
      let redneeded := (stream.needed seqno).toNat
      let readstart ← skipBlocks payload (redgen * 4 + 1) (redgen - redneeded)
      .ok (some (readstart, decide (redneeded > redgen)))

/-- Where the text of a plain packet starts, and whether text before it is lost (`rfc4103_sink.c:133`). -/
def RealTimeTextSinkData.locateT140 (seqno : Int) : Option (Nat × Bool) :=
  if stream.needed seqno < 0 then none else some (0, decide (stream.needed seqno > 0))

/-- The text that is new is read behind the mark of what is lost (`rfc4103_sink.c:139`, `:187`). -/
def RealTimeTextSinkData.readNew (seqno : Int) (payload : List UInt8) (readstart : Nat) (lost : Bool) :
    Except Fault RealTimeTextSinkData :=
  let stream := if lost then { stream with inbuf := lostChar } else stream
  stream.readFrom payload readstart seqno

/-- `process_red_packet` (`rfc4103_sink.c:149`). -/
def RealTimeTextSinkData.processRedPacket (seqno : Int) (payload : List UInt8) :
    Except Fault RealTimeTextSinkData := do
  match ← stream.locateRed seqno payload with
  | none => .ok stream
  | some (readstart, lost) => stream.readNew seqno payload readstart lost

/-- `process_t140_packet` (`rfc4103_sink.c:127`). -/
def RealTimeTextSinkData.processT140Packet (seqno : Int) (payload : List UInt8) :
    Except Fault RealTimeTextSinkData :=
  match stream.locateT140 seqno with
  | none => .ok stream
  | some (readstart, lost) => stream.readNew seqno payload readstart lost

/-- A text packet as it comes from the network. -/
structure Received where
  seqno : UInt16
  payload : List UInt8

/-- `read_text_packet` (`rfc4103_sink.c:203`). -/
def RealTimeTextSinkData.readTextPacket (packet : Received) : Except Fault RealTimeTextSinkData := do
  let stream := { stream with inbuf := [] }
  let stream ← if stream.ptRed > 0 then stream.processRedPacket packet.seqno.toNat packet.payload
    else stream.processT140Packet packet.seqno.toNat packet.payload
  .ok { stream with notFirst := true, unread := stream.inbuf }

/-- `text_stream_getchar` (`rfc4103_sink.c:232`): the next byte and what is behind it, past null bytes and
byte order marks. -/
def getchar : List UInt8 → Option (UInt8 × List UInt8)
  | [] => none
  | 0xEF :: 0xBB :: 0xBF :: bytes => getchar bytes
  | b :: bytes => if b ≠ 0 then some (b, bytes) else getchar bytes

/-- A byte of a character; at the end it is null and the position stays. -/
def getByte : Nat × List UInt8 :=
  match getchar bytes with
  | some (b, rest) => (b.toNat, rest)
  | none => (0, bytes)

/-- `text_stream_getchar32` (`rfc4103_sink.c:251`). -/
def getchar32 : Nat × List UInt8 :=
  let (c, bytes) := getByte bytes
  match utf8Test (UInt8.ofNat c) with
  | 1 => (c, bytes)
  | 2 =>
    let (c1, bytes) := getByte bytes
    ((c % 32) * 2 ^ 6 + c1 % 64, bytes)
  | 3 =>
    let (c1, bytes) := getByte bytes
    let (c2, bytes) := getByte bytes
    ((c % 16) * 2 ^ 12 + c1 % 64 * 2 ^ 6 + c2 % 64, bytes)
  | 4 =>
    let (c1, bytes) := getByte bytes
    let (c2, bytes) := getByte bytes
    let (c3, bytes) := getByte bytes
    ((c % 8) * 2 ^ 19 + c1 % 64 * 2 ^ 12 + c2 % 64 * 2 ^ 6 + c3 % 64, bytes)
  | _ => (0, bytes)

/-- The notifications of a buffer (`rfc4103_sink.c:296`). -/
def notify : Nat → List UInt8 → Except Fault (List Nat)
  | 0, _ => .error .diverged
  | fuel + 1, bytes =>
    let (character, rest) := getchar32 bytes
    if character ≠ 0 then do
      let later ← notify fuel rest
      .ok (character :: later)
    else .ok []

/-- `ms_rtt_4103_sink_process` (`rfc4103_sink.c:288`) of a packet: the characters that are notified. Each one
takes a byte at least. -/
def RealTimeTextSinkData.process (packet : Received) :
    Except Fault (RealTimeTextSinkData × List Nat) := do
  let stream ← stream.readTextPacket packet
  let characters ← if stream.inbuf ≠ [] then notify (stream.unread.length + 1) stream.unread else .ok []
  .ok ({ stream with inbuf := [], unread := [] }, characters)

end GrooveIp.Rtt
