import GrooveIp.Lib.Memory
import Mathlib.Data.List.Basic

/-!
# Flow control of audio

`flowcontrol.c` takes a number of samples out of the frames of a stretch of audio, in proportion to
how far the stretch has come: one by one where the signal is flat, or a whole frame. A frame is a
message of one block, a list of its samples.
-/

namespace GrooveIp.Media

open Lib List

/-- `MSAudioFlowController`. -/
structure MSAudioFlowController where
  targetSamples : Nat := 0
  totalSamples : Nat := 0
  currentPos : Nat := 0
  currentDropped : Nat := 0
  deriving DecidableEq, Repr

/-- The difference of two `uint32_t`. -/
def diff32 (a b : Nat) : Nat := (2 ^ 32 + a - b) % 2 ^ 32

/-- A sample of the frame. -/
def sampleAt (samples : List Int16) (i : Nat) : Except Fault Int :=
  match samples[i]? with
  | some sample => .ok sample.toInt
  | none => .error .outOfBounds

/-- `memmove` of `count` samples within the frame. -/
def moveSamples (samples : List Int16) (dst src count : Nat) : Except Fault (List Int16) :=
  if src + count ≤ samples.length ∧ dst + count ≤ samples.length then
    .ok (samples.take dst ++ (samples.drop src).take count ++ samples.drop (dst + count))
  else .error .outOfBounds

/-- A round of the search for the flattest place (`flowcontrol.c:53–58`); `best` is `pos` and
`min_diff`. -/
def searchRound (samples : List Int16) (best : Nat × Nat) (i : Nat) : Except Fault (Nat × Nat) := do
  let first ← sampleAt samples i
  let second ← sampleAt samples (i + 1)
  let third ← sampleAt samples (i + 2)
  let tmp := (first - second).natAbs + (second - third).natAbs
  return if tmp ≤ best.2 then (i, tmp) else best

/-- A pass of `discard_well_choosed_samples`. -/
def discardSample (samples : List Int16) (nsamples : Nat) : Except Fault (List Int16) := do
  let (pos, _) ← (List.range (diff32 nsamples 2)).foldlM (searchRound samples) (0, 32768)
  let count := diff32 (diff32 nsamples pos) 2 * 2 % 2 ^ 32 / 2
  let moved ← moveSamples samples (pos + 1) (pos + 2) count
  return moved.dropLast

/-- The passes, of which `left` follow the first. -/
def discardSamples (samples : List Int16) (nsamples : Nat) : Nat → Except Fault (List Int16)
  | 0 => discardSample samples nsamples
  | left + 1 => do
    let kept ← discardSample samples nsamples
    discardSamples kept (diff32 nsamples 1) left

/-- `discard_well_choosed_samples` (`flowcontrol.c:43`). -/
def discardWellChoosedSamples (samples : List Int16) (nsamples todrop : Nat) :
    Except Fault (List Int16) :=
  discardSamples samples nsamples (diff32 todrop 1)

namespace MSAudioFlowController

variable (ctl : MSAudioFlowController)

/-- `ms_audio_flow_controller_running` (`flowcontrol.c:79`). -/
def running : Bool := 0 < ctl.totalSamples && 0 < ctl.targetSamples

/-- `ms_audio_flow_controller_process` (`flowcontrol.c:83`): the frame, or NULL, and the controller
after it. -/
def process (m : List Int16) : Except Fault (Option (List Int16) × MSAudioFlowController) := do
  if ctl.running then
    let nsamples := m.length % 2 ^ 32
    let currentPos := (ctl.currentPos + nsamples) % 2 ^ 32
    let thDropped := ctl.targetSamples * currentPos % 2 ^ 64 / ctl.totalSamples % 2 ^ 32
    let todrop := if thDropped > ctl.currentDropped then thDropped - ctl.currentDropped else 0
    let (out, dropped) ← if 0 < todrop then
        if todrop * 8 % 2 ^ 32 < nsamples then do
          let kept ← discardWellChoosedSamples m nsamples todrop
          pure (some kept, todrop)
        else pure (none, nsamples)
      else pure (some m, 0)
    return (out, { ctl with
      currentPos := currentPos
      currentDropped := (ctl.currentDropped + dropped) % 2 ^ 32
      targetSamples := if ctl.totalSamples ≤ currentPos then 0 else ctl.targetSamples })
  else return (some m, ctl)

end MSAudioFlowController

/-! ### Taking samples out -/

variable {samples : List Int16}

namespace MSAudioFlowController

variable {ctl : MSAudioFlowController} {target total largest : Nat}

end MSAudioFlowController

end GrooveIp.Media
