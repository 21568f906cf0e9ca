import GrooveIp.Lib.Refinement
import Mathlib.Logic.Function.Basic
import Mathlib.Algebra.Order.Ring.Int

/-!
# Who is composing

The remote side of `is-composing.cpp`: a timer for each sender that composes, in a map under the
sender's address, with the address once more in data of the timer that its callback refers to.
-/

namespace GrooveIp.Chat

open Lib Function

/-- What C++ leaves undefined here. -/
inductive ComposingFault where
  | useAfterDelete
  deriving DecidableEq, Repr

/-- The elements of a document that are read. -/
structure ComposingNode where
  state : String
  refresh : Option UInt64
  deriving DecidableEq, Repr

/-- A timer: the number of its `IsRemoteComposingData`, its timeout and whether the main loop has it
among its timers. -/
structure RemoteTimer where
  data : Nat
  timeout : UInt32
  running : Bool
  deriving DecidableEq, Repr

/-- The remote side of `IsComposing`: its map, all `IsRemoteComposingData` there was but those
deleted, and what the listener was last told. -/
structure IsComposing (Uri : Type) where
  remoteRefreshTimers : Uri → Option RemoteTimer := fun _ => none
  data : List (Option Uri) := []
  composing : Uri → Bool := fun _ => false

open IsComposing

/-- What `IsComposing` is called for: a document, or the expiry of the timer of a sender. -/
inductive ComposingEvent (Uri : Type) where
  | document (remoteAddr : Uri) (node : ComposingNode)
  | expiry (uri : Uri)

/-- `getRemoteRefreshTimerDuration` (`is-composing.cpp:149`). -/
def getRemoteRefreshTimerDuration (configured : Int32) : UInt32 :=
  if configured < 0 then 0 else configured.toUInt32

/-- The timeout of a timer, `duration * 1000` of `startRemoteRefreshTimer`. -/
def remoteTimeout (configured : Int32) (refresh : UInt64) : UInt32 :=
  (if refresh ≠ 0 then refresh.toUInt32 else getRemoteRefreshTimerDuration configured) * 1000

variable {Uri : Type} [DecidableEq Uri]

namespace IsComposing

section Operations
variable (handler : IsComposing Uri)

/-- `onIsRemoteComposingStateChanged`. -/
def tell (uri : Uri) (isComposing : Bool) : IsComposing Uri :=
  { handler with composing := update handler.composing uri isComposing }

/-- The address in the data of a timer. -/
def uriAt (data : Nat) : Except ComposingFault Uri :=
  match handler.data[data]? with
  | some (some uri) => .ok uri
  | _ => .error .useAfterDelete

/-- `stopRemoteRefreshTimer` (`is-composing.cpp:131`, `:194`), which deletes the data of the timer. -/
def stopRemoteRefreshTimer (uri : Uri) : IsComposing Uri :=
  match handler.remoteRefreshTimers uri with
  | none => handler
  | some timer => { handler with
      remoteRefreshTimers := update handler.remoteRefreshTimers uri none
      data := handler.data.set timer.data none }

/-- `startRemoteRefreshTimer` (`is-composing.cpp:172`). A source with a negative timeout is not
among the timers of the main loop. -/
def startRemoteRefreshTimer (configured : Int32) (uri : Uri) (refresh : UInt64) : IsComposing Uri :=
  let timeout := remoteTimeout configured refresh
  match handler.remoteRefreshTimers uri with
  | none =>
    let timer := { data := handler.data.length, timeout, running := decide (timeout.toNat < 2 ^ 31) }
    { handler with
      remoteRefreshTimers := update handler.remoteRefreshTimers uri (some timer)
      data := handler.data ++ [some uri] }
  | some timer => { handler with
      remoteRefreshTimers :=
        update handler.remoteRefreshTimers uri (some { timer with timeout }) }

/-- `parse` (`is-composing.cpp:67`). -/
def parse (configured : Int32) (remoteAddr : Uri) (node : ComposingNode) : IsComposing Uri :=
  if node.state = "active" then
    (handler.startRemoteRefreshTimer configured remoteAddr (node.refresh.getD 0)).tell remoteAddr true
  else if node.state = "idle" then (handler.stopRemoteRefreshTimer remoteAddr).tell remoteAddr false
  else handler

/-- `remoteRefreshTimerExpired` (`is-composing.cpp:166`, `:212`): `uri` refers into the data. -/
def remoteRefreshTimerExpired (data : Nat) : Except ComposingFault (IsComposing Uri) := do
  let handler := handler.stopRemoteRefreshTimer (← handler.uriAt data)
  return handler.tell (← handler.uriAt data) false

/-- A call of `IsComposing`. -/
def step (configured : Int32) : ComposingEvent Uri → Except ComposingFault (IsComposing Uri)
  | .document remoteAddr node => .ok (handler.parse configured remoteAddr node)
  | .expiry uri =>
    match handler.remoteRefreshTimers uri with
    | some timer => if timer.running then handler.remoteRefreshTimerExpired timer.data else .ok handler
    | none => .ok handler

end Operations

/-- A run from the start. -/
def run (configured : Int32) (events : List (ComposingEvent Uri)) :
    Except ComposingFault (IsComposing Uri) :=
  events.foldlM (step · configured) {}

end IsComposing

/-! ## What the senders asked for -/

/-- The seconds that a document asks for. -/
def ComposingNode.seconds (configured : Int32) (node : ComposingNode) : Nat :=
  match node.refresh with
  | some refresh => refresh.toNat
  | none => (getRemoteRefreshTimerDuration configured).toNat

/-- The delay after which a sender does not compose any more, for those that compose. -/
def delays (configured : Int32) (before : Uri → Option Nat) : ComposingEvent Uri → Uri → Option Nat
  | .document uri node =>
    if node.state = "active" then update before uri (some (1000 * node.seconds configured))
    else if node.state = "idle" then update before uri none
    else before
  | .expiry uri => update before uri none

/-- The listener was last told that a sender composes exactly if the sender asked for a delay, and
exactly then a timer with it runs. -/
def Tracked (asked : Uri → Option Nat) (handler : IsComposing Uri) : Prop :=
  ∀ uri, handler.composing uri = (asked uri).isSome ∧
    (handler.remoteRefreshTimers uri).map (fun timer => (timer.timeout.toNat, timer.running)) =
      (asked uri).map fun delay => (delay, true)

/-- No timer expires, and the delay of a document does not wrap: it fits an `int` where the timer is
created, and a `refresh` of 0 is what is configured. -/
def Spared (configured : Int32) (asked : Uri → Option Nat) : ComposingEvent Uri → Prop
  | .document uri node => node.state = "active" →
      1000 * node.seconds configured < (if asked uri = none then 2 ^ 31 else 2 ^ 32) ∧
        (node.refresh = some 0 → getRemoteRefreshTimerDuration configured * 1000 = 0)
  | .expiry uri => asked uri = none

/-! ## Runs -/

variable {handler : IsComposing Uri} {asked : Uri → Option Nat} {configured : Int32}

theorem remoteTimeout_eq {node : ComposingNode} (h : 1000 * node.seconds configured < 2 ^ 32)
    (hzero : node.refresh = some 0 → getRemoteRefreshTimerDuration configured * 1000 = 0) :
    (remoteTimeout configured (node.refresh.getD 0)).toNat = 1000 * node.seconds configured := by
  unfold remoteTimeout
  unfold ComposingNode.seconds at *
  cases hrefresh : node.refresh with
  | none =>
    simp only [hrefresh] at h
    simp
    omega
  | some refresh =>
    by_cases heq : refresh = 0
    · simp [heq, hzero (heq ▸ hrefresh)]
    · simp only [hrefresh] at h
      simp [heq]
      omega

theorem Tracked.stop (h : Tracked asked handler) (uri : Uri) :
    Tracked (update asked uri none)
      ((handler.stopRemoteRefreshTimer uri).tell uri false) := by
  intro other
  have hother := h other
  unfold stopRemoteRefreshTimer
  by_cases heq : other = uri
  · subst heq
    cases htimer : handler.remoteRefreshTimers other <;> simp [IsComposing.tell, htimer]
  · cases htimer : handler.remoteRefreshTimers uri <;> simpa [IsComposing.tell, heq] using hother

theorem Tracked.start (h : Tracked asked handler) {uri : Uri} {node : ComposingNode}
    (hfits : 1000 * node.seconds configured < if asked uri = none then 2 ^ 31 else 2 ^ 32)
    (hzero : node.refresh = some 0 → getRemoteRefreshTimerDuration configured * 1000 = 0) :
    Tracked (update asked uri (some (1000 * node.seconds configured)))
      ((handler.startRemoteRefreshTimer configured uri (node.refresh.getD 0)).tell uri true) := by
  intro other
  have htimeout := remoteTimeout_eq (by split at hfits <;> omega) hzero
  have hother := h other
  unfold startRemoteRefreshTimer
  by_cases heq : other = uri
  · subst heq
    cases htimer : handler.remoteRefreshTimers other <;> cases hasked : asked other <;>
      simp_all [IsComposing.tell]
  · cases htimer : handler.remoteRefreshTimers uri <;> simpa [IsComposing.tell, heq] using hother

theorem step_tracked (configured : Int32) (h : Tracked asked handler) (event : ComposingEvent Uri)
    (hspared : Spared configured asked event) : ∃ next, handler.step configured event = .ok next ∧
      Tracked (delays configured asked event) next := by
  cases event with
  | document uri node =>
    refine ⟨_, rfl, ?_⟩
    simp only [parse, delays]
    split
    · next hactive => exact h.start (hspared hactive).1 (hspared hactive).2
    · split
      · exact h.stop uri
      · exact h
  | expiry uri =>
    have htimers := (h uri).2
    rw [show asked uri = none from hspared, Option.map_none, Option.map_eq_none_iff] at htimers
    refine ⟨handler, by rw [step, htimers], ?_⟩
    rwa [delays, update_eq_self_iff.mpr (Eq.symm hspared)]

/-- After a run whose calls are all spared, timers and listener are right. -/
theorem run_tracked (configured : Int32) (events : List (ComposingEvent Uri))
    (h : AllowedRun (Spared configured) (delays configured) (fun _ => none) events) :
    ∃ handler, run configured events = .ok handler ∧
      Tracked (events.foldl (delays configured) fun _ => none) handler := by
  unfold run
  exact foldlM_refines Tracked (fun _ _ event htracked => step_tracked configured htracked event)
    (fun _ => ⟨rfl, rfl⟩) h

/-- `run_tracked` of a sender that composes for two minutes at most. -/
theorem run_tracked_document : ∃ handler : IsComposing String, run 120
    [.document "sip:a@b" { state := "active", refresh := none }] = .ok handler ∧
      handler.composing "sip:a@b" = true := by
  obtain ⟨handler, hrun, htracked⟩ := run_tracked 120
    [.document "sip:a@b" { state := "active", refresh := none }] ⟨fun _ => by decide, trivial⟩
  exact ⟨handler, hrun, (htracked "sip:a@b").1⟩

/-- When the timer of a sender expires, its address is read from data that is deleted. -/
theorem expiry_faults : ¬∀ (configured : Int32) (events : List (ComposingEvent String)),
    ∃ handler, run configured events = .ok handler ∧
      Tracked (events.foldl (delays configured) fun _ => none) handler := by
  intro h
  obtain ⟨handler, hrun, -⟩ :=
    h 120 [.document "sip:a@b" { state := "active", refresh := none }, .expiry "sip:a@b"]
  have hfault : run 120 [.document "sip:a@b" { state := "active", refresh := none },
      .expiry "sip:a@b"] = .error .useAfterDelete := by rfl
  rw [hfault] at hrun
  cases hrun

end GrooveIp.Chat
