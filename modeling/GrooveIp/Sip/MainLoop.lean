import GrooveIp.Lib.Memory
import GrooveIp.Lib.OrderedMap
import Mathlib.Data.Finset.Card
import Mathlib.Data.Finset.Dedup
import Mathlib.Logic.Function.Basic

/-!
# The SIP main loop

The bookkeeping of `belle_sip_loop.c`: sources with a file descriptor in a list, sources with a timeout
in a multimap, and an iteration that polls, finds the sources to be notified and calls them one after
the other. A call of the interface is a step, outside the loop or inside a callback; so are an
iteration up to its poll, the turn of a source and the return of its callback. Times and poll results
are given with the steps. Next to the state of the loop are books of what happened.
-/

namespace GrooveIp.Sip.Loop

open Lib

/-- `struct belle_sip_source` (`belle_sip_internal.h:254`): whether it has a file descriptor, its
`revents` from the poll and whether `BELLE_SIP_EVENT_TIMEOUT` is in them. -/
structure Source where
  fd : Bool
  timeout : Int
  oneshot : Bool := false
  expireMs : Nat := 0
  events : Nat := 0
  timedOut : Bool := false
  cancelled : Bool := false
  expired : Bool := false
  it : Option Nat := none
  deriving DecidableEq, Repr

/-- What happened: the sources that were added and not cancelled or removed since, the callbacks
started with whether their source was one of them, and the periods of timers that were armed, that were
reported with `BELLE_SIP_EVENT_TIMEOUT`, and that were withdrawn by a call. -/
structure Books where
  live : Nat → Bool := fun _ => false
  started : List (Nat × Bool) := []
  armed : List Nat := []
  reported : List Nat := []
  withdrawn : List Nat := []

/-- `struct belle_sip_main_loop`, its sources, and where an iteration is: its time, the stamps there were
when it looked at the timers, the sources to be notified and the one whose callback runs. -/
structure MainLoop where
  source : Nat → Source
  fdSources : List Nat := []
  timerSources : List (Entry Nat) := []
  nsources : Int := 0
  nextStamp : Nat := 0
  cur : Nat := 0
  seen : Nat := 0
  toBeNotified : List Nat := []
  running : Option Nat := none
  books : Books := {}

/-- What a callback returns. -/
inductive Ret where
  | stop
  | cont
  | continueWithoutCatchup
  deriving DecidableEq, Repr

variable (ml : MainLoop) (s : Nat)

/-! ## Links -/

/-- A source changes. -/
def MainLoop.update (f : Source → Source) : MainLoop :=
  { ml with source := Function.update ml.source s (f (ml.source s)) }

/-- The sources linked in either container. -/
def MainLoop.linked : Finset Nat :=
  ml.fdSources.toFinset ∪ (ml.timerSources.map Entry.value).toFinset

/-- `bctbx_map_insert_and_delete_with_returned_it` into `timer_sources`. -/
def MainLoop.insertTimer (key : Nat) : MainLoop :=
  { ml.update s ({ · with it := some ml.nextStamp }) with
    timerSources := insertEntry ⟨key, ml.nextStamp, s⟩ ml.timerSources
    nextStamp := ml.nextStamp + 1 }

/-- `bctbx_map_erase` and `bctbx_iterator_delete` of the iterator of a source. -/
def MainLoop.eraseTimer : MainLoop :=
  { ml.update s ({ · with it := none }) with
    timerSources :=
      match (ml.source s).it with
      | none => ml.timerSources
      | some stamp => eraseEntry stamp ml.timerSources }

/-- A period begins. -/
def MainLoop.arm (key : Nat) : MainLoop :=
  { ml.insertTimer s key with
    books := { ml.books with armed := ml.books.armed ++ [ml.nextStamp] } }

/-- The period of a source is withdrawn. -/
def MainLoop.withdraw : MainLoop :=
  { ml with
    books := { ml.books with withdrawn := ml.books.withdrawn ++ (ml.source s).it.toList } }

/-- A source is added, or cancelled or removed. -/
def MainLoop.setLive (live : Bool) : MainLoop :=
  { ml with books := { ml.books with live := Function.update ml.books.live s live } }

/-! ## Calls -/

/-- `belle_sip_main_loop_remove_source` (`belle_sip_loop.c:262`). -/
def MainLoop.removeSource : MainLoop :=
  let ml := ml.setLive s false
  if s ∈ ml.fdSources ∨ (ml.source s).it.isSome then
    let ml := (ml.withdraw s).eraseTimer s
    let ml := ml.update s ({ · with cancelled := true })
    { ml with fdSources := ml.fdSources.erase s, nsources := ml.nsources - 1 }
  else ml

/-- `belle_sip_main_loop_add_source` (`belle_sip_loop.c:313`): a source that is alone in the list is not
seen to be linked, and the list gets a cycle. -/
def MainLoop.addSource (now : Nat) : Except Fault MainLoop :=
  if s ∈ ml.fdSources ∧ ml.fdSources.length ≠ 1 then .error .abort
  else if s ∈ ml.fdSources ∧ (ml.source s).fd then .error .diverged
  else
    let ml :=
      if 0 ≤ (ml.source s).timeout then
        let expireMs := now + (ml.source s).timeout.toNat
        (ml.update s ({ · with expireMs })).arm s expireMs
      else ml
    let ml := (ml.update s ({ · with cancelled := false })).setLive s true
    .ok { ml with
      fdSources := if (ml.source s).fd then s :: ml.fdSources else ml.fdSources
      nsources := ml.nsources + 1 }

/-- `belle_sip_source_set_timeout` (`belle_sip_loop.c:390`). -/
def MainLoop.setTimeout (value : UInt32) (now : Nat) : MainLoop :=
  let ml :=
    if (ml.source s).expired then ml
    else
      let expireMs := now + value.toNat
      let ml := ml.update s ({ · with expireMs })
      if (ml.source s).it.isSome then ((ml.withdraw s).eraseTimer s).arm s expireMs else ml
  ml.update s ({ · with timeout := toInt32 value.toNat })

/-- `belle_sip_source_cancel` (`belle_sip_loop.c:414`): the timer is put in front. -/
def MainLoop.cancel : MainLoop :=
  let ml := (ml.setLive s false).update s ({ · with cancelled := true })
  if (ml.source s).it.isSome then ((ml.withdraw s).eraseTimer s).insertTimer s 0 else ml

/-! ## Iterations -/

/-- Step 2 of `belle_sip_main_loop_iterate` for one source (`belle_sip_loop.c:503`). A read that is asked
for by `notify_required` counts as an event of the poll. -/
def MainLoop.examine (revents : Nat → Nat) : MainLoop :=
  if (ml.source s).cancelled then { ml with toBeNotified := ml.toBeNotified ++ [s] }
  else if (ml.source s).fd then
    let ml := ml.update s ({ · with events := revents s, timedOut := false })
    if revents s ≠ 0 then { ml with toBeNotified := ml.toBeNotified ++ [s] } else ml
  else ml

/-- Step 3 for one timer (`belle_sip_loop.c:531`). -/
def MainLoop.expire (entry : Entry Nat) : MainLoop :=
  let s := entry.value
  let ml :=
    if (ml.source s).events = 0 ∧ (ml.source s).timedOut = false then
      { ml.update s ({ · with expired := true }) with toBeNotified := ml.toBeNotified ++ [s] }
    else ml
  ml.update s ({ · with timedOut := true })

/-- `belle_sip_main_loop_iterate` (`belle_sip_loop.c:456`) up to the notifications, when it does not
run: the poll table has a place for each of `nsources`, and the poll fails or has results. -/
def MainLoop.iterate (poll : Option (Nat → Nat)) (cur : Nat) : Except Fault MainLoop :=
  if ml.running.isSome ∨ ml.toBeNotified ≠ [] then .ok ml
  else if ml.nsources < (ml.fdSources.filter fun s =>
      (ml.source s).cancelled = false ∧ (ml.source s).fd).length then .error .outOfBounds
  else
    match poll with
    | none => .ok ml
    | some revents =>
      let ml := ml.fdSources.foldl (fun ml s => ml.examine s revents) ml
      let ml := (ml.timerSources.takeWhile (·.key ≤ cur)).foldl MainLoop.expire ml
      .ok { ml with cur, seen := ml.nextStamp }

/-- The turn of the next source to be notified (`belle_sip_loop.c:552`): its callback starts, unless it
is cancelled. -/
def MainLoop.turn : MainLoop :=
  match ml.running, ml.toBeNotified with
  | none, s :: next =>
    if (ml.source s).cancelled then
      { (ml.removeSource s).update s ({ · with events := 0, timedOut := false }) with
        toBeNotified := next }
    else
      let report := if (ml.source s).timedOut then (ml.source s).it.toList else []
      { ml with
        toBeNotified := next
        running := some s
        books := { ml.books with
          started := ml.books.started ++ [(s, ml.books.live s)]
          reported := ml.books.reported ++ report } }
  | _, _ => ml

/-- What follows when a callback returns to be called again (`belle_sip_loop.c:572`). -/
def MainLoop.rearm (ret : Ret) : MainLoop :=
  let ml := if (ml.source s).expired ∧ (ml.source s).it.isSome then ml.eraseTimer s else ml
  if (ml.source s).it = none ∧ 0 ≤ (ml.source s).timeout then
    let start := if ret = .continueWithoutCatchup then ml.cur else (ml.source s).expireMs
    let expireMs := start + (ml.source s).timeout.toNat
    (ml.update s ({ · with expireMs, expired := false })).arm s expireMs
  else ml

/-- The callback that runs returns (`belle_sip_loop.c:568`). -/
def MainLoop.finish (ret : Ret) : MainLoop :=
  match ml.running with
  | none => ml
  | some s =>
    let ml :=
      if ret = .stop ∨ (ml.source s).oneshot then ml.removeSource s else ml.rearm s ret
    { ml.update s ({ · with events := 0, timedOut := false }) with running := none }

/-! ## Runs -/

/-- A step of a run. -/
inductive Step where
  | add (s now : Nat)
  | remove (s : Nat)
  | cancel (s : Nat)
  | setTimeout (s : Nat) (value : UInt32) (now : Nat)
  | iterate (poll : Option (Nat → Nat)) (cur : Nat)
  | turn
  | finish (ret : Ret)

/-- A step of the loop. -/
def MainLoop.step : Step → Except Fault MainLoop
  | .add s now => ml.addSource s now
  | .remove s => .ok (ml.removeSource s)
  | .cancel s => .ok (ml.cancel s)
  | .setTimeout s value now => .ok (ml.setTimeout s value now)
  | .iterate poll cur => ml.iterate poll cur
  | .turn => .ok ml.turn
  | .finish ret => .ok (ml.finish ret)

/-- A loop before its first step: its sources are initialised, and none is linked. -/
structure MainLoop.Initial : Prop where
  sources : ∀ s, ∃ fd timeout oneshot, ml.source s = { fd, timeout, oneshot }
  empty : ml = { source := ml.source }

/-- A run of steps. -/
def MainLoop.run : MainLoop → List Step → Except Fault MainLoop
  | ml, [] => .ok ml
  | ml, step :: steps =>
    match ml.step step with
    | .error fault => .error fault
    | .ok ml => ml.run steps

end GrooveIp.Sip.Loop
