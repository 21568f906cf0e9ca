import GrooveIp.Sip.Transaction

/-!
# Client transactions

INVITE and other client transactions (`ict.c`, `nict.c`) with the parts of `transaction.c` and
`provider.c` they share. A transaction is kept with what it has handed to its channel and what its
listener has been told. The listener may terminate the transaction while it is told something.
-/

namespace GrooveIp.Sip

open Lib

/-- The timers of the two kinds of client transactions. -/
inductive ClientTimer where
  | A
  | B
  | D
  | M
  | E
  | F
  | K
  deriving DecidableEq, Repr

/-- `belle_sip_transaction_t` of a client (`belle_sip_internal.h:670`) with the fields of
`belle_sip_ict_t` and `belle_sip_nict_t`. A timer is on when the main loop has it. -/
structure ClientTransaction where
  method : String
  state : TransactionState := .init
  channel : Option Channel := none
  lastResponse : Option Int := none
  callRepairTimer : Bool := false
  timedOut : Bool := false
  timers : ClientTimer → Bool := fun _ => false
  ack : Bool := false

/-- What the listener of a transaction is told. -/
inductive Report where
  | response (code : Int)
  | timeout
  | ioError
  | terminated
  deriving DecidableEq, Repr

/-- What is handed to the channel. -/
inductive ClientMessage where
  | request
  | ack
  deriving DecidableEq, Repr

/-- A transaction, whether the provider has it in its list, and its history. -/
structure ClientRun extends ClientTransaction where
  listed : Bool := false
  queued : List ClientMessage := []
  reports : List Report := []

/-- The class the provider gives a transaction by its method (`provider.c:780`). -/
def ClientTransaction.isInvite (t : ClientTransaction) : Bool := t.method == "INVITE"

/-- Whether the listener terminates the transaction when it is told something. -/
abbrev Reaction := Report → Bool

/-! ## Common parts -/

variable (reaction : Reaction) (run : ClientRun) (channelDead : Bool)

/-- `belle_sip_transaction_start_timer`. -/
def ClientRun.startTimer (timer : ClientTimer) : ClientRun :=
  { run with timers := fun other => if other = timer then true else run.timers other }

/-- `belle_sip_transaction_stop_timer`; also a timer that answers `BELLE_SIP_STOP`. -/
def ClientRun.stopTimer (timer : ClientTimer) : ClientRun :=
  { run with timers := fun other => if other = timer then false else run.timers other }

/-- `belle_sip_channel_queue_message` on the channel of the transaction. -/
def ClientRun.queueMessage (message : ClientMessage) : Except Fault ClientRun := do
  let _ ← followChannel run.channel
  return { run with queued := run.queued ++ [message] }

/-- `belle_sip_transaction_terminate` (`transaction.c:253`) with `on_ict_terminate`,
`nict_on_terminate` and `belle_sip_provider_set_transaction_terminated` (`provider.c:907`). A
termination from inside the last report finds the transaction terminated. -/
def ClientRun.terminate : ClientRun :=
  if run.state = .terminated then { run with callRepairTimer := false }
  else
    { run with
      callRepairTimer := false
      state := .terminated
      timers := fun _ => false
      ack := false
      listed := false
      reports := run.reports ++ [.terminated] }

/-- `BELLE_SIP_PROVIDER_INVOKE_LISTENERS_FOR_TRANSACTION`. -/
def ClientRun.report (reaction : Reaction) (report : Report) : ClientRun :=
  let run := { run with reports := run.reports ++ [report] }
  if reaction report then run.terminate else run

variable (code : Int) (absorbed : Bool)

/-- `belle_sip_client_transaction_notify_response` (`transaction.c:579`); the dialog may absorb the
response. -/
def notifyResponse : ClientRun :=
  let run := { run with lastResponse := some code }
  if absorbed then run else run.report reaction (.response code)

/-- `belle_sip_transaction_notify_timeout` (`transaction.c:285`); `channelDead` is what
`belle_sip_channel_notify_timeout` answers. -/
def notifyTimeout : Except Fault ClientRun :=
  if run.method == "REGISTER" then do
    let _ ← followChannel run.channel
    return if channelDead then { run with timedOut := true } else run
  else .ok (run.report reaction .timeout).terminate

/-! ## INVITE client transactions -/

/-- `ict_on_response` (`ict.c:101`). -/
def ictOnResponse : Except Fault ClientRun :=
  let run := if run.state = .calling then { run with state := .proceeding } else run
  match run.state with
  | .proceeding =>
    if code ≥ 300 then do
      let run ← ({ run with state := .completed, ack := true } : ClientRun).queueMessage .ack
      return (notifyResponse reaction run code absorbed).startTimer .D
    else if code ≥ 200 then
      .ok (notifyResponse reaction { run.startTimer .M with state := .accepted } code absorbed)
    else if code ≥ 100 then .ok (notifyResponse reaction run code absorbed)
    else .ok run
  | .accepted =>
    if code ≥ 200 ∧ code < 300 then .ok (notifyResponse reaction run code absorbed) else .ok run
  | .completed => if code ≥ 300 ∧ run.ack then run.queueMessage .ack else .ok run
  | _ => .ok run

/-- `ict_on_timer_A` (`ict.c:151`). -/
def ictOnTimerA : Except Fault ClientRun :=
  if run.channel.isNone then .ok (run.stopTimer .A)
  else if run.state = .calling then run.queueMessage .request
  else .ok run

/-- `ict_on_timer_B` (`ict.c:174`). -/
def ictOnTimerB : Except Fault ClientRun := do
  let run ← if run.state = .calling then notifyTimeout reaction run channelDead else .ok run
  return run.stopTimer .B

/-- `ict_on_timer_D` (`ict.c:84`). -/
def ictOnTimerD : ClientRun :=
  (if run.state = .completed then run.terminate else run).stopTimer .D

/-- `ict_on_timer_M` (`ict.c:93`). -/
def ictOnTimerM : ClientRun :=
  (if run.state = .accepted then run.terminate else run).stopTimer .M

/-- `ict_send_request` (`ict.c:197`). -/
def ictSendRequest : Except Fault ClientRun := do
  let channel ← followChannel run.channel
  let run := { run with state := .calling }
  let run := if channel.reliable then run else run.startTimer .A
  (run.startTimer .B).queueMessage .request

/-! ## Other client transactions -/

/-- `nict_set_completed` (`nict.c:30`). -/
def nictSetCompleted : Except Fault ClientRun :=
  if run.timers .K then .error .abort
  else do
    let run := notifyResponse reaction { run with state := .completed } code absorbed
    let channel ← followChannel run.channel
    return if channel.reliable then run.terminate else run.startTimer .K

/-- `nict_on_response` (`nict.c:57`). -/
def nictOnResponse : Except Fault ClientRun :=
  match run.state with
  | .trying =>
    if code < 200 then .ok (notifyResponse reaction { run with state := .proceeding } code absorbed)
    else nictSetCompleted reaction run code absorbed
  | .proceeding => if code ≥ 200 then nictSetCompleted reaction run code absorbed else .ok run
  | _ => .ok run

/-- `nict_on_timer_F` (`nict.c:99`). -/
def nictOnTimerF : Except Fault ClientRun := do
  let run ← if run.state = .trying ∨ run.state = .proceeding then
      notifyTimeout reaction run channelDead
    else .ok run
  return run.stopTimer .F

/-- `nict_on_timer_E` (`nict.c:112`). -/
def nictOnTimerE : Except Fault ClientRun :=
  if run.state = .trying ∨ run.state = .proceeding then run.queueMessage .request
  else .ok (run.stopTimer .E)

/-- `nict_on_timer_K` (`nict.c:25`). -/
def nictOnTimerK : ClientRun := run.terminate.stopTimer .K

/-- `nict_send_request` (`nict.c:148`). -/
def nictSendRequest : Except Fault ClientRun := do
  let channel ← followChannel run.channel
  let run := { run with state := .trying }.startTimer .F
  let run := if channel.reliable then run else run.startTimer .E
  run.queueMessage .request

/-! ## Both kinds -/

/-- The `send_request` method. -/
def sendRequest : Except Fault ClientRun :=
  if run.isInvite then ictSendRequest run else nictSendRequest run

/-- What `belle_sip_client_transaction_send_request_to` finds: whether the URIs are valid, whether
the request waits in the queue of its dialog or was queued by a dialog that is gone, and the channel
of the next hop with its state. -/
structure SendConditions where
  urisValid : Bool := true
  dialogGone : Bool := false
  dialogBusy : Bool := false
  channel : Option (Channel × ChannelState)

/-- `belle_sip_client_transaction_send_request_to` (`transaction.c:486`). -/
def clientTransactionSendRequestTo (found : SendConditions) : Except Fault ClientRun :=
  if run.state ≠ .init ∨ found.urisValid = false then .ok run
  else if found.dialogGone then .ok run.terminate
  else if found.dialogBusy then .ok run
  else
    let run := { run with listed := true }
    match found.channel with
    | none => .ok run.terminate
    | some (channel, state) =>
      let run := { run with channel := some channel }
      if state = .ready then sendRequest run else .ok run

/-- `belle_sip_provider_dispatch_response` (`provider.c:189`) for a response that matches; without a
channel the provider looks for one, and without one the transaction is not told. -/
def dispatchResponse (found : Option Channel) : Except Fault ClientRun :=
  if run.listed then
    let run := { run with channel := run.channel <|> found }
    if run.channel.isSome then
      if run.isInvite then ictOnResponse reaction run code absorbed
      else nictOnResponse reaction run code absorbed
    else .ok run
  else .ok run

/-- A time-out that was handed over to the channel is reported; else a repair of the call that was
waited for is given up (`transaction.c:148–159`). -/
def clientReportTimeout : ClientRun :=
  if run.timedOut then run.report reaction .timeout
  else if run.isInvite then { run with callRepairTimer := false }
  else run

/-- A repair of the call is waited for, or the transaction is terminated (`transaction.c:167–185`). -/
def clientAwaitRepair : ClientRun :=
  let run :=
    if !run.timedOut && run.state.isTransient && run.isInvite then
      { run with callRepairTimer := true }
    else run.terminate
  { run with channel := none }

/-- The part of `on_channel_state_changed` for a lost channel (`transaction.c:134–192`). -/
def clientChannelLost : ClientRun :=
  let run := if run.state.isTransient then run.report reaction .ioError else run
  clientAwaitRepair (clientReportTimeout reaction run)

/-- `on_channel_state_changed` (`transaction.c:119`). -/
def clientOnChannelStateChanged : ChannelState → Except Fault ClientRun
  | .ready => if run.state = .init then sendRequest run else .ok run
  | .error | .disconnected => .ok (clientChannelLost reaction run)
  | .init | .resInProgress | .resDone | .connecting | .retry => .ok run

/-- What happens to a client transaction. -/
inductive ClientEvent where
  | sendRequest (found : SendConditions)
  | response (code : Int) (absorbed : Bool) (found : Option Channel)
  | timer (timer : ClientTimer) (channelDead : Bool)
  | callRepair
  | channelState (state : ChannelState)
  | terminate
  | stopRetransmissions

/-- A timer of the main loop fires. -/
def clientOnTimer : ClientTimer → Except Fault ClientRun
  | .A => ictOnTimerA run
  | .B => ictOnTimerB reaction run channelDead
  | .D => .ok (ictOnTimerD run)
  | .M => .ok (ictOnTimerM run)
  | .E => nictOnTimerE run
  | .F => nictOnTimerF reaction run channelDead
  | .K => .ok (nictOnTimerK run)

/-- What an event does. Timers fire when the main loop has them, and the state of a channel reaches
the transactions that have it. -/
def clientEvent : ClientEvent → Except Fault ClientRun
  | .sendRequest found => clientTransactionSendRequestTo run found
  | .response code absorbed found => dispatchResponse reaction run code absorbed found
  | .timer timer channelDead =>
    if run.timers timer then clientOnTimer reaction run channelDead timer else .ok run
  | .callRepair => .ok (if run.callRepairTimer then run.terminate else run)
  | .channelState state =>
    if run.channel.isSome then clientOnChannelStateChanged reaction run state else .ok run
  | .terminate => .ok run.terminate
  | .stopRetransmissions => .ok ((run.stopTimer .A).stopTimer .E)

end GrooveIp.Sip
