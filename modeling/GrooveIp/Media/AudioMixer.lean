import Mathlib.Algebra.BigOperators.Fin
import Mathlib.Data.List.FinRange

/-!
# The audio mixer

`audiomixer.c` sums the inputs of a conference sample by sample. Where only one input has had
packets lately it takes a bypass and hands these packets on as they are. A packet is a list of
bytes, a bufferizer the bytes it holds, and the gains are one.
-/

namespace GrooveIp.Media

/-- `MIXER_MAX_CHANNELS`: the pins on either side of the filter. -/
abbrev Pin := Fin 20

/-- A data block in a queue. -/
abbrev Packet := List UInt8

/-- `BYPASS_MODE_TIMEOUT`, in milliseconds. -/
def bypassModeTimeout : BitVec 64 := 1000

/-- `struct Channel`. A time of all ones stands for none. -/
structure Channel where
  bufferizer : List UInt8 := []
  input : List Int := []
  minFullness : Int := 0
  lastFlowControl : BitVec 64 := -1
  lastActivity : BitVec 64 := -1
  active : Bool := true
  outputEnabled : Bool := true
  deriving DecidableEq, Repr

/-- `struct MixerState`, with the pins that are linked. -/
structure MixerState where
  channels : Pin → Channel
  inputs : Pin → Bool
  outputs : Pin → Bool
  bytesPerTick : Nat
  confMode : Bool := false
  skipThreshold : Nat
  bypassMode : Bool := false
  singleOutput : Bool

/-! ### Samples -/

/-- The 16-bit samples in a run of bytes. -/
def samplesOf : List UInt8 → List Int
  | lo :: hi :: rest =>
    (BitVec.ofNat 16 (lo.toNat + 256 * hi.toNat)).toInt :: samplesOf rest
  | _ => []

/-- The bytes of samples. -/
def bytesOf (samples : List Int) : List UInt8 :=
  samples.flatMap fun z =>
    let w := BitVec.ofInt 16 z
    [UInt8.ofNat w.toNat, UInt8.ofNat (w.toNat / 256)]

/-- `saturate` (lines 43–47). -/
def saturate (s : Int) : Int := if s > 32767 then 32767 else if s < -32767 then -32767 else s

/-- `accumulate` (lines 36–41). -/
def accumulate (sum contrib : List Int) : List Int := List.zipWith (· + ·) sum contrib

/-! ### Channels -/

/-- `ms_bufferizer_read` (msqueue.c, lines 84–118): the bytes read and those left, if as many as
are asked for are held, and any are asked for. -/
def bufferizerRead (held : List UInt8) (len : Nat) : Option (List UInt8 × List UInt8) :=
  if len ≤ held.length ∧ 0 < len then some (held.take len, held.drop len) else none

variable (chan : Channel) (s : MixerState)

/-- The reading of `channel_process_in`: all of the queue goes to the bufferizer, and the samples
of a tick come from there, or silence. -/
def Channel.fetch (q : List Packet) (nsamples : Nat) : Channel × List UInt8 :=
  let held := chan.bufferizer ++ q.flatten
  match bufferizerRead held (nsamples * 2) with
  | some (read, left) => ({ chan with bufferizer := left, input := samplesOf read }, read)
  | none => ({ chan with bufferizer := held, input := List.replicate nsamples 0 }, [])

/-- `channel_process_in` (lines 83–95): the channel and the sum. -/
def Channel.processIn (q : List Packet) (sum : List Int) (nsamples : Nat) : Channel × List Int :=
  let got := chan.fetch q nsamples
  (got.1, if got.2 ≠ [] ∧ chan.active = true then accumulate sum got.1.input else sum)

/-- `ms_bufferizer_skip_bytes`: the bytes skipped and those left. -/
def skipBytes (held : List UInt8) (bytes : Nat) : List UInt8 × List UInt8 :=
  (bufferizerRead held bytes).getD ([], held)

/-- `channel_flow_control` (lines 97–116): the channel and the bytes it skipped. -/
def Channel.flowControl (threshold : Nat) (time : BitVec 64) : Channel × List UInt8 :=
  if chan.lastFlowControl = -1 then
    ({ chan with lastFlowControl := time, minFullness := -1 }, [])
  else
    let size : Int := chan.bufferizer.length
    let least := if chan.minFullness = -1 ∨ size < chan.minFullness then size else chan.minFullness
    if 5000 ≤ (time - chan.lastFlowControl).toNat then
      let skip := if (threshold : Int) ≤ least then (least - threshold / 2).toNat else 0
      let skipped := skipBytes chan.bufferizer skip
      ({ chan with bufferizer := skipped.2, lastFlowControl := time, minFullness := -1 }, skipped.1)
    else ({ chan with minFullness := least }, [])

/-- `channel_process_out` (lines 118–136). -/
def Channel.processOut (sum : List Int) : Packet :=
  if chan.active then bytesOf (List.zipWith (fun s own => saturate (s - own)) sum chan.input)
  else bytesOf (sum.map saturate)

/-! ### The filter -/

/-- An output that is linked and enabled. -/
def MixerState.enabled (i : Pin) : Bool := s.outputs i && (s.channels i).outputEnabled

/-- `has_single_output` (lines 177–185). -/
def MixerState.hasSingleOutput : Bool :=
  ((List.finRange 20).filter s.enabled).length == 1

/-- `mixer_preprocess` (lines 187–201), for a mixer that was set up but has not run. The own
contribution of a channel starts as silence. -/
def MixerState.preprocess (inputs outputs active outputEnabled : Pin → Bool) (confMode : Bool)
    (bytesPerTick : Nat) : MixerState :=
  let s : MixerState := {
    channels := fun i => {
      input := List.replicate (bytesPerTick / 2) 0
      active := active i
      outputEnabled := outputEnabled i }
    inputs, outputs, bytesPerTick, confMode
    skipThreshold := bytesPerTick * 2
    singleOutput := false }
  { s with singleOutput := s.hasSingleOutput }

/-- `make_output` (lines 211–219). -/
def makeOutput (sum : List Int) : Packet := bytesOf (sum.map saturate)

/-- One turn of the loop of `mixer_check_bypass` (lines 253–272): the channel, and whether its
input counts as contributing. -/
def Channel.checkActivity (q : List Packet) (time : BitVec 64) : Channel × Bool :=
  if q ≠ [] then ({ chan with lastActivity := time }, true)
  else if chan.lastActivity = -1 then ({ chan with lastActivity := time }, false)
  else (chan, time - chan.lastActivity < bypassModeTimeout)

/-- The inputs that count as contributing at a tick. -/
def MixerState.contributing (queues : Pin → List Packet) (time : BitVec 64) : List Pin :=
  (List.finRange 20).filter fun i =>
    s.inputs i && ((s.channels i).checkActivity (queues i) time).2

/-- An output to which the packets of an input go in bypass mode. -/
def MixerState.eligible (activeInput i : Pin) : Bool :=
  s.enabled i && (activeInput != i || !s.confMode)

/-- `mixer_dispatch_output` (lines 221–245): with a single output the packets are moved to the
first eligible one, else every eligible one is given a copy. -/
def MixerState.dispatchOutput (inq : List Packet) (activeInput : Pin) :
    Pin → List Packet := fun i =>
  if s.singleOutput then
    if (List.finRange 20).find? (s.eligible activeInput) = some i then inq else []
  else if s.eligible activeInput i then inq else []

/-- What a tick hands on, skips and puts out, pin by pin. -/
structure TickReport where
  took : Pin → List UInt8
  skipped : Pin → List UInt8
  outputs : Pin → List Packet
  summed : Bool

/-- A tick that hands on nothing. -/
def TickReport.idle : TickReport := ⟨fun _ => [], fun _ => [], fun _ => [], false⟩

/-- The summing part of `mixer_process` (lines 302–345). Each turn of the first loop only touches
its own channel and the sum. -/
def MixerState.sumInputs (queues : Pin → List Packet) (time : BitVec 64) :
    MixerState × TickReport :=
  let nwords := s.bytesPerTick / 2
  let read i := (s.channels i).fetch (queues i) nwords
  let controlled i := (read i).1.flowControl s.skipThreshold time
  let sum := (List.finRange 20).foldl (fun sum i =>
    if s.inputs i then ((s.channels i).processIn (queues i) sum nwords).2 else sum)
      (List.replicate nwords 0)
  let channels : Pin → Channel := fun i =>
    if s.inputs i then (controlled i).1 else s.channels i
  ({ s with channels }, {
    took := fun i => if s.inputs i then (read i).2 else []
    skipped := fun i => if s.inputs i then (controlled i).2 else []
    outputs := fun i =>
      if s.enabled i then
        if s.confMode then [(channels i).processOut sum] else [makeOutput sum]
      else []
    summed := true })

/-- The channels behind the loop of `mixer_check_bypass`. -/
def MixerState.checkInputs (queues : Pin → List Packet) (time : BitVec 64) : MixerState :=
  let channels : Pin → Channel := fun i =>
    if s.inputs i then ((s.channels i).checkActivity (queues i) time).1 else s.channels i
  { s with channels }

/-- A tick in bypass mode: the packets of the one contributing input are dispatched. -/
def MixerState.bypass (queues : Pin → List Packet) (activeInput : Pin) : MixerState × TickReport :=
  ({ s with bypassMode := true }, {
    took := fun i => if i = activeInput then (queues activeInput).flatten else []
    skipped := fun _ => []
    outputs := s.dispatchOutput (queues activeInput) activeInput
    summed := false })

/-- `mixer_process` (lines 289–346) with `mixer_check_bypass` (lines 247–287): with a single
contributing input the bypass, without one nothing. -/
def MixerState.process (queues : Pin → List Packet) (time : BitVec 64) : MixerState × TickReport :=
  match s.contributing queues time with
  | [] => (s.checkInputs queues time, .idle)
  | [i] => (s.checkInputs queues time).bypass queues i
  | _ => { s.checkInputs queues time with bypassMode := false }.sumInputs queues time

/-- What happens to a mixer: a tick, with the time and what the queues of its inputs hold, or one
of its methods. -/
inductive MixerEvent where
  | tick (time : BitVec 64) (queues : Pin → List Packet)
  | setActive (pin : Pin) (active : Bool)
  | enableOutput (pin : Pin) (enabled : Bool)
  | setConferenceMode (confMode : Bool)

/-- One channel is changed. -/
def MixerState.updateChannel (pin : Pin) (f : Channel → Channel) : MixerState :=
  { s with channels := Function.update s.channels pin (f (s.channels pin)) }

/-- `mixer_set_active`. -/
def MixerState.setActive (pin : Pin) (active : Bool) : MixerState :=
  s.updateChannel pin fun c => { c with active }

/-- `mixer_enable_output`. -/
def MixerState.enableOutput (pin : Pin) (enabled : Bool) : MixerState :=
  let s' := s.updateChannel pin fun c => { c with outputEnabled := enabled }
  { s' with singleOutput := s'.hasSingleOutput }

/-- `mixer_set_conference_mode`. -/
def MixerState.setConferenceMode (confMode : Bool) : MixerState :=
  { s with confMode }

end GrooveIp.Media
