import GrooveIp.Sal.CallOp

/-!
# Modifying a call

`call-session.cpp` and `media-session.cpp`: an established call is updated, paused or resumed by a
request in its dialog, and a transitional state stands for the answer that is awaited. One field
remembers the state to come back to, and every transition writes it.
-/

namespace GrooveIp.Session

open Sal

/-- `CallSession::State` (`call-enums.h:25`). -/
inductive State where
  | idle | incomingReceived | outgoingInit | outgoingProgress | outgoingRinging | outgoingEarlyMedia
  | connected | streamsRunning | pausing | paused | resuming | referred | error | ended
  | pausedByRemote | updatedByRemote | incomingEarlyMedia | updating | released
  | earlyUpdatedByRemote | earlyUpdating
  deriving DecidableEq, Repr

/-- `CallSession::isEarlyState` (`call-session.cpp:1357`). -/
def State.isEarly : State → Bool
  | .idle | .outgoingInit | .outgoingEarlyMedia | .outgoingRinging | .outgoingProgress
  | .incomingReceived | .incomingEarlyMedia | .earlyUpdatedByRemote | .earlyUpdating => true
  | _ => false

/-- The states of a call that was accepted and has not ended. -/
def State.isEstablished : State → Bool
  | .connected | .streamsRunning | .paused | .pausedByRemote | .updatedByRemote
  | .updating | .pausing | .resuming => true
  | _ => false

/-- The states in which the answer to a request of ours is awaited. -/
def State.isChanging : State → Bool
  | .updating | .pausing | .resuming => true
  | _ => false

/-- `SalReason` (`c-sal.h:367`). -/
inductive SalReason where
  | none | declined | busy | redirect | temporarilyUnavailable | requestTimeout | notFound
    | doNotDisturb
  | unsupportedContent | forbidden | unknown | serviceUnavailable | requestPending | unauthorized
  | notAcceptable | noMatch | movedPermanently | gone | addressIncomplete | notImplemented
    | badGateway
  | serverTimeout | ioError | internalError
  deriving DecidableEq, Repr

/-- What the modifications of a call read and write. `outstanding` says that a re-INVITE of ours has
not been answered in the dialog, and `inConference` belongs to the parameters of the call. -/
structure CallSession where
  state : State
  prevState : State
  outstanding : Bool := false
  resultDesc : SalMediaDescription := salMediaDescriptionNew
  inConference : Bool := false
  soundResourcesLocked : Bool := false
  hasListener : Bool := true
  referTo : Option String := none
  referPending : Bool := false
  automaticallyPaused : Bool := false
  pausedByApp : Bool := false
  broken : Bool := false

namespace CallSession

variable (session : CallSession)

/-- `CallSessionPrivate::setState` (`call-session.cpp:62`). -/
def setState (newState : State) : CallSession :=
  if session.state = newState then session
  else if (session.state = .ended ∨ session.state = .error) ∧ newState ≠ .released then
    { session with prevState := session.state }
  else if newState = .released ∧ session.state ≠ .error ∧ session.state ≠ .ended then
    { session with prevState := session.state }
  else if newState = .referred then
    -- an event rather than a state, but `prevState` has moved
    { session with prevState := session.state }
  else { session with prevState := session.state, state := newState }

variable (canSend : Bool)

/-- `SalCallOp::update` (`call-op.cpp:1087`) of a confirmed dialog; `canSend` says whether the
request leaves. No re-INVITE is created while another one is pending (`dialog.c:832`). -/
def opUpdate : Int × CallSession :=
  if session.outstanding ∨ canSend = false then (-1, session)
  else (0, { session with outstanding := true })

/-- `CallSessionPrivate::isUpdateAllowed` (`call-session.cpp:561`). -/
def isUpdateAllowed : Option State :=
  match session.state with
  | .incomingReceived | .incomingEarlyMedia | .outgoingRinging | .outgoingEarlyMedia =>
    some .earlyUpdating
  | .connected | .streamsRunning | .pausedByRemote | .updatedByRemote => some .updating
  | .paused => some .pausing
  | .outgoingProgress | .pausing | .resuming | .updating => some session.state
  | _ => none

/-- `MediaSession::update` (`media-session.cpp:4326`) with new parameters; `deferred` says that ICE
candidates are gathered first. -/
def update (inConference deferred canSend : Bool) : Int × CallSession :=
  match session.isUpdateAllowed with
  | none => (-1, session)
  | some nextState =>
    let initialState := session.state
    let session := { session with broken := false }.setState nextState
    let session := { session with inConference := inConference }
    if deferred then (0, session)
    else
      match session.opUpdate canSend with
      | (result, session) =>
        if result ≠ 0 ∧ session.state ≠ initialState then (result, session.setState initialState)
        else (result, session)

/-- Whether there is a stream to pause (`media-session.cpp:3562–3569`). -/
def hasReasonToPause : Bool :=
  session.resultDesc.hasDir .sendRecv || session.resultDesc.hasDir .recvOnly

/-- `MediaSessionPrivate::pause` (`media-session.cpp:3555`). -/
def pausePrivate : Int × CallSession :=
  if session.state ≠ .streamsRunning ∧ session.state ≠ .pausedByRemote then (-1, session)
  else if session.hasReasonToPause = false then (-1, session)
  else
    let session := { session with broken := false }.setState .pausing
    -- what `update` returns is not looked at
    let session := (session.opUpdate canSend).2
    (0, { session with pausedByApp := false })

/-- `MediaSession::pause` (`media-session.cpp:4161`). -/
def pause : Int × CallSession :=
  match session.pausePrivate canSend with
  | (result, session) => (result, if result = 0 then { session with pausedByApp := true }
    else session)

/-- `MediaSession::resume` (`media-session.cpp:4169`). -/
def resume : Int × CallSession :=
  if session.state ≠ .paused then (-1, session)
  else if session.inConference = false ∧ session.soundResourcesLocked then (-1, session)
  else
    let session := { session with automaticallyPaused := false, broken := false }
    match session.opUpdate canSend with
    | (result, session) => if result ≠ 0 then (-1, session) else (0, session.setState .resuming)

/-- `MediaSessionPrivate::pauseForTransfer` (`media-session.cpp:261`). -/
def pauseForTransfer : CallSession :=
  { (session.pause canSend).2 with automaticallyPaused := true }

/-- `CallPrivate::startReferredCall` (`call.cpp:107`), as far as the call that was referred goes. -/
def startReferredCall : CallSession :=
  let session := if session.state ≠ .paused then session.pauseForTransfer canSend else session
  { session with referPending := false }

/-- `CallSessionPrivate::referred` (`call-session.cpp:335`). -/
def referred (referToAddr : String) (canSend : Bool) : CallSession :=
  let session := { session with referTo := some referToAddr, referPending := true }.setState
    .referred
  if session.referPending ∧ session.hasListener then session.startReferredCall canSend else session

/-- `MediaSessionPrivate::handleIceEvents` (`media-session.cpp:2239`) when the candidates of an
update are gathered: the request is sent in one state only, and its result is not looked at. -/
def gatheringFinished : CallSession :=
  match session.state with
  | .updating => (session.opUpdate canSend).2
  | _ => session

/-- `CallSessionPrivate::failure` (`call-session.cpp:255`) of a call past its early states. -/
def failure (reason : SalReason) : CallSession :=
  if session.state.isChanging ∧ reason ≠ .noMatch then session.setState session.prevState
  else if session.state = .ended ∨ session.state = .error then session
  else if reason = .declined then session.setState .ended
  else if session.state.isEarly then session.setState .error
  else session.setState .ended

/-- A final answer that refuses the request comes in (`call-op.cpp:473`). -/
def refused (reason : SalReason) : CallSession :=
  { session with outstanding := false }.failure reason

end CallSession

/-- What the application asks of a call. -/
inductive Operation where
  | update (inConference : Bool)
  | pause
  | resume
  deriving DecidableEq, Repr

/-- The call is in a state where the operation is allowed. -/
def CallSession.accepts (session : CallSession) : Operation → Bool
  | .update _ => session.isUpdateAllowed.isSome
  | .pause => (session.state = .streamsRunning || session.state = .pausedByRemote) &&
    session.hasReasonToPause
  | .resume => session.state = .paused && (session.inConference || !session.soundResourcesLocked)

/-- What happens to a call. -/
inductive Event where
  | start (operation : Operation) (deferred canSend : Bool)
  | refer (referToAddr : String) (canSend : Bool)
  | gatheringFinished (canSend : Bool)
  | refused (reason : SalReason)
  deriving DecidableEq, Repr

namespace CallSession

variable (session : CallSession)

/-- The call after an event. -/
def step : Event → CallSession
  | .start (.update inConference) deferred canSend =>
    (session.update inConference deferred canSend).2
  | .start .pause _ canSend => (session.pause canSend).2
  | .start .resume _ canSend => (session.resume canSend).2
  | .refer referToAddr canSend => session.referred referToAddr canSend
  | .gatheringFinished canSend => session.gatheringFinished canSend
  | .refused reason => session.refused reason

/-- The call after events. -/
def run (events : List Event) : CallSession := events.foldl step session

end CallSession

end GrooveIp.Session
