import GrooveIp.Lib.ByteStore
import GrooveIp.Lib.Memory

/-!
# The event queue

`eventqueue.c`: the filters of a media graph write their events into one buffer, and the application reads
and dispatches them. Pointers into the buffer are offsets, the buffer starts at a multiple of eight, and
pointers have eight bytes.
-/

namespace GrooveIp.Media

open GrooveIp.Lib

/-- `MS_EVENT_BUF_SIZE`. -/
def eventBufSize : Nat := 8192

/-- `sizeof(MSEventHeader)`: the filter, the id and four bytes that are not used. -/
def headerSize : Nat := 16

/-- `round_size` (`eventqueue.c:62`). -/
def roundSize (sz : Nat) : Nat := (sz + (8 - 1)) / 8 * 8

/-- An event that a filter notifies: the low byte of its id is the size of its argument. -/
structure Event where
  filter : UInt64
  evId : UInt32
  arg : List UInt8
  filter_ne : filter ≠ 0
  arg_length : arg.length = (evId &&& 0xff).toNat

/-- The bytes that an event takes in the queue. -/
def Event.size (event : Event) : Nat := roundSize event.arg.length + headerSize

/-- `MSEventQueue` (`eventqueue.c:44`). -/
structure MSEventQueue where
  rptr : Nat
  wptr : Nat
  endptr : Nat
  lim : Nat
  freeroom : Nat
  size : Nat
  currentNotifier : UInt64
  buffer : Nat → UInt8

/-- `ms_event_queue_new` (`eventqueue.c:178`). -/
def MSEventQueue.new : MSEventQueue where
  rptr := 0
  wptr := 0
  endptr := eventBufSize
  lim := eventBufSize
  freeroom := eventBufSize
  size := eventBufSize
  currentNotifier := 0
  buffer := fun _ => 0

variable (q : MSEventQueue)

/-- A write of the queue into its buffer. -/
def MSEventQueue.put (off : Nat) (bytes : List UInt8) : Except Fault MSEventQueue :=
  if off + bytes.length ≤ eventBufSize then .ok { q with buffer := store q.buffer off bytes }
  else .error .outOfBounds

/-- A read of the queue from its buffer. -/
def MSEventQueue.get (off n : Nat) : Except Fault (List UInt8) :=
  if off + n ≤ eventBufSize then .ok (load q.buffer off n) else .error .outOfBounds

/-- The check on the alignment of a pointer into the buffer. -/
def aligned (ptr : Nat) : Except Fault Unit := if ptr % 4 ≠ 0 then .error .abort else .ok ()

/-- Where an event goes (`eventqueue.c:81`). -/
def MSEventQueue.wrap (size : Nat) : MSEventQueue :=
  if q.wptr + size > q.lim then { q with endptr := q.wptr, wptr := 0 } else q

/-- The header and the argument of an event are written (`eventqueue.c:88`). -/
def MSEventQueue.fill (event : Event) : Except Fault MSEventQueue := do
  aligned q.wptr
  let q ← q.put q.wptr (leBytes 8 event.filter.toNat)
  let q ← q.put (q.wptr + 8) (leBytes 4 event.evId.toNat)
  let argsize := (event.evId &&& 0xff).toNat
  if argsize > 0 then q.put (q.wptr + headerSize) (event.arg.take argsize) else .ok q

/-- The write position moves on (`eventqueue.c:93`). -/
def MSEventQueue.advance (size : Nat) : MSEventQueue :=
  let nextpos := q.wptr + size
  { q with
    wptr := nextpos
    endptr := if nextpos > q.endptr then nextpos else q.endptr
    freeroom := q.freeroom - size }

/-- `write_event` (`eventqueue.c:66`): whether the event is accepted. -/
def MSEventQueue.writeEvent (event : Event) : Except Fault (MSEventQueue × Bool) :=
  let size := roundSize (event.evId &&& 0xff).toNat + headerSize
  if q.freeroom < size then .ok (q, false)
  else do
    let q ← (q.wrap size).fill event
    .ok (q.advance size, true)

/-- A read position at the end mark goes back to the start (`eventqueue.c:128`, `:168`). -/
def backToStart (endptr rptr : Nat) : Nat := if rptr ≥ endptr then 0 else rptr

/-- What `parse_event` finds: the filter, the id, where the argument is and its size. -/
structure Parsed where
  filter : UInt64
  evId : UInt32
  data : Nat
  argsize : Nat

/-- The size of the event that was found. -/
def Parsed.evsize (parsed : Parsed) : Nat := roundSize parsed.argsize + headerSize

/-- `parse_event` (`eventqueue.c:104`). -/
def MSEventQueue.parseEvent (rptr : Nat) : Except Fault Parsed := do
  aligned rptr
  let filter ← q.get rptr 8
  let id ← q.get (rptr + 8) 4
  let evId := UInt32.ofNat (leNat id)
  .ok { filter := UInt64.ofNat (leNat filter), evId, data := rptr + headerSize,
        argsize := (evId &&& 0xff).toNat }

/-- What the callers of the queue see of a call. A callback without argument gets no bytes. -/
inductive Seen where
  | accepted
  | refused
  | dispatched (filter : UInt64) (evId : UInt32) (arg : List UInt8)
  | skipped
  | nothing
  | cleaned
  deriving DecidableEq

/-- `read_event` (`eventqueue.c:118`): what is seen, and where an event is parsed. -/
def MSEventQueue.readEvent : Except Fault (MSEventQueue × Seen × List Nat) :=
  if q.size - q.freeroom > 0 then do
    let q := { q with rptr := backToStart q.endptr q.rptr }
    let parsed ← q.parseEvent q.rptr
    let seen ← if parsed.filter ≠ 0 then do
        let arg ← q.get parsed.data parsed.argsize
        .ok (Seen.dispatched parsed.filter parsed.evId arg)
      else .ok .skipped
    .ok ({ q with
      rptr := q.rptr + parsed.evsize
      freeroom := q.freeroom + parsed.evsize
      currentNotifier := if parsed.filter ≠ 0 then 0 else q.currentNotifier }, seen, [q.rptr])
  else .ok (q, .nothing, [])

variable (destroyed : UInt64)

/-- An event of the filter that is destroyed loses it (`eventqueue.c:162`). -/
def MSEventQueue.forget (rptr : Nat) (parsed : Parsed) : Except Fault MSEventQueue :=
  if parsed.filter = destroyed then q.put rptr (leBytes 8 0) else .ok q

/-- The events of a filter lose it (`eventqueue.c:154`); an event has at least `headerSize` bytes, so that
the fuel of a queue is its size. -/
def MSEventQueue.cleanLoop (destroyed : UInt64) :
    Nat → MSEventQueue → Nat → Nat → Except Fault (MSEventQueue × List Nat)
  | 0, _, _, _ => .error .diverged
  | fuel + 1, q, rptr, freeroom =>
    if q.size > freeroom then do
      let parsed ← q.parseEvent rptr
      let q ← q.forget destroyed rptr parsed
      let next := rptr + parsed.evsize
      let (q, rest) ← cleanLoop destroyed fuel q (backToStart q.endptr next)
        (freeroom + parsed.evsize)
      .ok (q, rptr :: rest)
    else .ok (q, [])

/-- `ms_event_queue_clean` (`eventqueue.c:150`): where events are parsed. -/
def MSEventQueue.clean : Except Fault (MSEventQueue × List Nat) := do
  let (q, parsed) ← cleanLoop destroyed (q.size + 1) q q.rptr q.freeroom
  .ok ({ q with
    currentNotifier := if q.currentNotifier = destroyed then 0 else q.currentNotifier }, parsed)

/-- The calls that the queue gets. -/
inductive Call where
  | write (event : Event)
  | read
  | clean (destroyed : UInt64)

/-- One call: what its caller sees, and where it parses an event. -/
def MSEventQueue.step (q : MSEventQueue) : Call → Except Fault (MSEventQueue × Seen × List Nat)
  | .write event => do
    let (q, accepted) ← q.writeEvent event
    .ok (q, if accepted then .accepted else .refused, [])
  | .read => q.readEvent
  | .clean destroyed => do
    let (q, parsed) ← q.clean destroyed
    .ok (q, .cleaned, parsed)

/-- Calls come one after the other. -/
def MSEventQueue.run (q : MSEventQueue) : List Call → Except Fault (MSEventQueue × List Seen)
  | [] => .ok (q, [])
  | call :: calls => do
    let (q, seen, _) ← q.step call
    let (q, later) ← q.run calls
    .ok (q, seen :: later)

/-! ## What a queue is for -/

/-- An event that was accepted and not read: whether its filter was destroyed since. -/
structure Pending where
  event : Event
  cleaned : Bool

/-- The bytes that pending events take. -/
def room (pending : List Pending) : Nat := (pending.map fun p => p.event.size).sum

/-- A first-in first-out queue of `eventBufSize` bytes takes a call. -/
def fifoStep (pending : List Pending) : Call → List Pending × Seen
  | .write event =>
    if event.size ≤ eventBufSize - room pending then (pending ++ [⟨event, false⟩], .accepted)
    else (pending, .refused)
  | .read =>
    match pending with
    | [] => ([], .nothing)
    | first :: rest =>
      (rest, if first.cleaned then .skipped
        else .dispatched first.event.filter first.event.evId first.event.arg)
  | .clean destroyed =>
    (pending.map fun p => { p with cleaned := p.cleaned || p.event.filter = destroyed }, .cleaned)

/-- A first-in first-out queue takes calls. -/
def fifoRun (pending : List Pending) : List Call → List Pending × List Seen
  | [] => (pending, [])
  | call :: calls =>
    let (pending, seen) := fifoStep pending call
    let (pending, later) := fifoRun pending calls
    (pending, seen :: later)

end GrooveIp.Media
