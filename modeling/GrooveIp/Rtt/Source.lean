import GrooveIp.Lib.Memory

/-!
# The real-time text source

`rfc4103_source.c`: characters are put into a buffer, and a tick sends the buffer with the two that were
sent before it. A buffer is the list of the bytes that it holds.
-/

namespace GrooveIp.Rtt

open GrooveIp.Lib
open UInt8 (ofNat)

/-- `TS_OUTBUF_SIZE` (`msrtt4103.h:28`). -/
def outBufSize : Nat := 1024

/-- `TS_REDGEN` (`msrtt4103.h:29`). -/
def redGen : Nat := 2

/-- The size of `payload` (`rfc4103_source.c:65`). The macro `TS_NUMBER_OF_OUTBUF` is `TS_REDGEN + 1` without
parentheses, so that the product takes its first term only. -/
def payloadSize : Nat := outBufSize * redGen + 1 + 4 * redGen + 1

/-- `RealTimeTextSourceData` (`rfc4103_source.c:26`). -/
structure RealTimeTextSourceData where
  buf : Fin 3 → List UInt8
  pribuf : Fin 3
  timestamp : Fin 3 → UInt32
  ptT140 : Int
  ptRed : Int

/-- A source with its payload numbers set (`rfc4103_source.c:181`). -/
def RealTimeTextSourceData.new (ptT140 ptRed : Int) : RealTimeTextSourceData where
  buf := fun _ => []
  pribuf := 0
  timestamp := fun _ => 0
  ptT140 := ptT140
  ptRed := ptRed

/-- A packet of text. -/
structure TextPacket where
  payload : List UInt8
  marker : Bool
  timestamp : UInt32
  deriving DecidableEq

variable (stream : RealTimeTextSourceData)

/-- `get_prev_time` (`rfc4103_source.c:35`). -/
def RealTimeTextSourceData.getPrevTime : UInt32 :=
  stream.timestamp (if stream.pribuf ≠ 0 then stream.pribuf - 1 else 2)

/-- `get_last_buf` (`rfc4103_source.c:39`): the oldest buffer. -/
def RealTimeTextSourceData.getLastBuf : Fin 3 := if stream.pribuf = 2 then 0 else stream.pribuf + 1

/-- `use_next_buf` (`rfc4103_source.c:43`). -/
def RealTimeTextSourceData.useNextBuf : RealTimeTextSourceData :=
  let pribuf := stream.getLastBuf
  { stream with
    pribuf := pribuf
    buf := fun i => if i = pribuf then [] else stream.buf i
    timestamp := fun i => if i = pribuf then 0 else stream.timestamp i }

/-- `get_next_buf` (`rfc4103_source.c:49`). -/
def RealTimeTextSourceData.getNextBuf (cur : Fin 3) : Option (Fin 3) :=
  if cur = stream.pribuf then none else some (if cur = 2 then 0 else cur + 1)

/-- The buffers that the loops of the packet generator come by before the primary one. -/
def RealTimeTextSourceData.walk : Nat → Option (Fin 3) → List (Fin 3)
  | 0, _ => []
  | _, none => []
  | fuel + 1, some cur =>
    if cur = stream.pribuf then [] else cur :: RealTimeTextSourceData.walk fuel (stream.getNextBuf cur)

/-- The redundant buffers, from the oldest on. -/
def RealTimeTextSourceData.redundant : List (Fin 3) := stream.walk 3 (some stream.getLastBuf)

/-- `get_red_subheader` (`rfc4103_source.c:56`). -/
def getRedSubheader (pt : Int) (offset : UInt32) (length : Nat) : Nat :=
  2 ^ 31 ||| ((pt % 128).toNat <<< 24) ||| ((offset.toNat &&& 0x3FFF) <<< 10) ||| (length &&& 0x3FF)

/-- A sub-header in network byte order. -/
def htonl (sub : Nat) : List UInt8 :=
  [ofNat (sub / 2 ^ 24), ofNat (sub / 2 ^ 16), ofNat (sub / 2 ^ 8), ofNat sub]

/-- A `memcpy` to the end of what is in `payload`. -/
def copyTo (payload bytes : List UInt8) : Except Fault (List UInt8) :=
  if payload.length + bytes.length ≤ payloadSize then .ok (payload ++ bytes)
  else .error .outOfBounds

/-- The sub-header of a redundant buffer. -/
def RealTimeTextSourceData.subheader (cur : Fin 3) : List UInt8 :=
  htonl (getRedSubheader (stream.ptT140 % 128) (stream.timestamp stream.pribuf - stream.timestamp cur)
    (stream.buf cur).length)

/-- The pieces of a packet that are copied one after the other. -/
def RealTimeTextSourceData.pieces : List (List UInt8) :=
  (if stream.ptRed > 0 then
    stream.redundant.map stream.subheader ++ [[ofNat (stream.ptT140 % 128).toNat]] ++
      stream.redundant.map stream.buf
  else []) ++ [stream.buf stream.pribuf]

/-- `realtime_text_stream_generate_red_packet` (`rfc4103_source.c:60`): the payload and the marker. -/
def RealTimeTextSourceData.generateRedPacket : Except Fault (List UInt8 × Bool) := do
  let payload ← stream.pieces.foldlM copyTo []
  .ok (payload, !(decide (stream.ptRed > 0) && stream.redundant.any fun cur => stream.buf cur ≠ []))

/-- The bytes that a character is put as (`rfc4103_source.c:114`). -/
def encodeChar (ic : Nat) : List UInt8 :=
  if ic < 0x80 then [ofNat ic]
  else if ic < 0x800 then
    [ofNat (0xC0 + ic / 2 ^ 6 % 32), ofNat (0x80 + ic % 64)]
  else if ic < 0x100000 then
    [ofNat (0xE0 + ic / 2 ^ 12 % 16), ofNat (0x80 + ic / 2 ^ 6 % 64),
      ofNat (0x80 + ic % 64)]
  else if ic < 0x110000 then
    [ofNat (0xF0 + ic / 2 ^ 18 % 8), ofNat (0x80 + ic / 2 ^ 12 % 64),
      ofNat (0x80 + ic / 2 ^ 6 % 64), ofNat (0x80 + ic % 64)]
  else []

/-- `ms_rtt_4103_source_putchar32` (`rfc4103_source.c:111`): a character that does not fit is dropped. -/
def RealTimeTextSourceData.putchar32 (ic : Nat) : RealTimeTextSourceData :=
  let bytes := encodeChar ic
  if (stream.buf stream.pribuf).length + bytes.length ≤ outBufSize then
    { stream with
      buf := fun i => if i = stream.pribuf then stream.buf i ++ bytes else stream.buf i }
  else stream

/-- `is_data_to_send` (`rfc4103_source.c:143`). -/
def RealTimeTextSourceData.isDataToSend : Bool :=
  if stream.ptRed > 0 then decide (∃ i, stream.buf i ≠ [])
  else decide (stream.buf stream.pribuf ≠ [])

/-- Whether the time since the last packet is over an interval (`rfc4103_source.c:164`, `:171`). -/
def RealTimeTextSourceData.over (timestamp interval : UInt32) : Bool :=
  timestamp < stream.getPrevTime || timestamp - stream.getPrevTime > interval

/-- `send_data` (`rfc4103_source.c:158`), which calls itself once after it put a character. -/
def RealTimeTextSourceData.sendData (timestamp : UInt32) :
    Nat → RealTimeTextSourceData → Except Fault (RealTimeTextSourceData × Option TextPacket)
  | 0, _ => .error .diverged
  | fuel + 1, stream =>
    if stream.isDataToSend then
      if stream.over timestamp 299 then do
        let stream := { stream with
          timestamp := fun i => if i = stream.pribuf then timestamp else stream.timestamp i }
        let (payload, marker) ← stream.generateRedPacket
        .ok (stream.useNextBuf, some { payload, marker, timestamp })
      else .ok (stream, none)
    else if stream.over timestamp 25000 then sendData timestamp fuel (stream.putchar32 0xFEFF)
    else .ok (stream, none)

/-- What happens to a source: a character is put, or the ticker runs. -/
inductive SourceEvent where
  | put (character : Nat)
  | tick (time : UInt32)

/-- `ms_rtt_4103_source_put_char32` and `ms_rtt_4103_source_process` (`rfc4103_source.c:192`). -/
def RealTimeTextSourceData.step : SourceEvent →
    Except Fault (RealTimeTextSourceData × Option TextPacket)
  | .put character => .ok (stream.putchar32 character, none)
  | .tick time => RealTimeTextSourceData.sendData time 2 stream

end GrooveIp.Rtt
