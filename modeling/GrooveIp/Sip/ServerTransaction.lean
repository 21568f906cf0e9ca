import GrooveIp.Sip.Transaction

/-!
# Server transactions

INVITE and other server transactions (`ist.c`, `nist.c`) with the parts of `transaction.c` and
`provider.c` they share. A transaction is kept with the log of what it has handed to its channel. The
user may send responses and terminate the transaction while it is told of an I/O error or a request.
-/

namespace GrooveIp.Sip

open Lib

/-- The timers of the two kinds of server transactions. -/
inductive ServerTimer where
  | G
  | H
  | I
  | L
  | J
  deriving DecidableEq, Repr

/-- A response with its status code, as it is sent. -/
structure SipResponse where
  statusCode : Int
  text : List UInt8 := []
  deriving DecidableEq, Repr

/-- What a server transaction has done: a response of the user handed to the channel, a response
handed to it again, and its termination. -/
inductive ServerLog where
  | sent (response : SipResponse)
  | answered (response : SipResponse)
  | terminated
  deriving DecidableEq, Repr

/-- `belle_sip_transaction_t` of a server (`belle_sip_internal.h:670`) with the fields of
`belle_sip_ist_t` and `belle_sip_nist_t`, and its log. A timer is on when the main loop has it. -/
structure ServerTransaction where
  method : String
  state : TransactionState
  channel : Option Channel := none
  lastResponse : Option SipResponse := none
  callRepairTimer : Bool := false
  timers : ServerTimer → Bool := fun _ => false
  log : List ServerLog := []

variable (reaction : List UserAction) (t : ServerTransaction) (response : SipResponse)

/-- The class the provider gives a transaction by its method (`provider.c:811`). -/
def ServerTransaction.isInvite : Bool := t.method == "INVITE"

/-! ## Common parts -/

/-- `belle_sip_transaction_start_timer`. -/
def ServerTransaction.startTimer (timer : ServerTimer) : ServerTransaction :=
  { t with timers := fun other => if other = timer then true else t.timers other }

/-- `belle_sip_transaction_stop_timer`; also a timer that answers `BELLE_SIP_STOP`. -/
def ServerTransaction.stopTimer (timer : ServerTimer) : ServerTransaction :=
  { t with timers := fun other => if other = timer then false else t.timers other }

/-- `belle_sip_channel_queue_message` for a response of the user. -/
def ServerTransaction.queueNew : Except Fault ServerTransaction := do
  let _ ← followChannel t.channel
  return { t with log := t.log ++ [.sent response] }

/-- `belle_sip_channel_queue_message` for the last response. -/
def ServerTransaction.queueLast : Except Fault ServerTransaction := do
  let _ ← followChannel t.channel
  match t.lastResponse with
  | some response => return { t with log := t.log ++ [.answered response] }
  | none => throw .nullDereference

/-- `belle_sip_transaction_terminate` (`transaction.c:253`) with `ist_on_terminate` and
`nist_on_terminate`. -/
def ServerTransaction.terminate : ServerTransaction :=
  if t.state = .terminated then { t with callRepairTimer := false }
  else
    { t with
      callRepairTimer := false
      state := .terminated
      timers := fun _ => false
      log := t.log ++ [.terminated] }

/-! ## INVITE server transactions -/

/-- `ist_send_new_response` (`ist.c:131`), with whether it answers zero. -/
def istSendNewResponse : Except Fault (ServerTransaction × Bool) :=
  match t.state with
  | .proceeding => do
    let t ← t.queueNew response
    if response.statusCode ≥ 200 ∧ response.statusCode < 300 then
      return ({ t with state := .accepted }.startTimer .L, true)
    else if response.statusCode ≥ 300 then do
      let channel ← followChannel t.channel
      let t := { t with state := .completed }
      let t := if channel.reliable then t else t.startTimer .G
      return (t.startTimer .H, true)
    else return (t, true)
  | .accepted => .ok (t, response.statusCode ≥ 200 && response.statusCode < 300)
  | _ => .ok (t, false)

/-- The part of `belle_sip_ist_process_ack` (`ist.c:88`) in the state COMPLETED. -/
def istAcknowledge : Except Fault ServerTransaction := do
  let t := { t.stopTimer .G with state := .confirmed }
  let channel ← followChannel t.channel
  return if channel.reliable then t.terminate else t.startTimer .I

/-! ## Other server transactions -/

/-- `nist_set_completed` (`nist.c:45`). -/
def nistSetCompleted : Except Fault ServerTransaction := do
  let _ ← followChannel t.channel
  return { t.startTimer .J with state := .completed }

/-- `nist_send_new_response` (`nist.c:69`), with whether it answers zero. -/
def nistSendNewResponse : Except Fault (ServerTransaction × Bool) :=
  match t.state with
  | .trying =>
    if response.statusCode < 200 then do
      return (← ({ t with state := .proceeding } : ServerTransaction).queueNew response, true)
    else do
      let t ← nistSetCompleted t
      return (← t.queueNew response, true)
  | .proceeding => do
    let t ← if response.statusCode ≥ 200 then nistSetCompleted t else .ok t
    return (← t.queueNew response, true)
  | .completed => .ok (t, false)
  | _ => .ok (t, true)

/-! ## Both kinds -/

/-- The `send_new_response` method. -/
def sendNewResponse : Except Fault (ServerTransaction × Bool) :=
  if t.isInvite then istSendNewResponse t response else nistSendNewResponse t response

/-- `belle_sip_server_transaction_send_response` (`transaction.c:358`); `found` is the channel
`belle_sip_provider_get_channel` answers. -/
def serverTransactionSendResponse (found : Option Channel) : Except Fault ServerTransaction :=
  let t := if t.lastResponse.isNone || t.channel.isNone then { t with channel := found } else t
  if t.channel.isNone then .ok t
  else do
    let (t, accepted) ← sendNewResponse t response
    return if accepted then { t with lastResponse := some response } else t

/-- `ist_on_request_retransmission` (`ist.c:176`) and `nist_on_request_retransmission`
(`nist.c:99`). -/
def onRequestRetransmission : Except Fault ServerTransaction :=
  if t.state = .proceeding ∨ t.state = .completed then t.queueLast else .ok t

/-- What the user does. -/
inductive UserAction where
  | send (response : SipResponse) (found : Option Channel)
  | terminate

/-- An action of the user. -/
def userAction : UserAction → Except Fault ServerTransaction
  | .send response found => serverTransactionSendResponse t response found
  | .terminate => .ok t.terminate

/-- A request that reaches the transaction. -/
inductive ServerRequest where
  | ack (dialogHandles : Bool)
  | cancel
  | retransmission
  deriving DecidableEq, Repr

/-- `belle_sip_server_transaction_on_request` (`transaction.c:410`); `reaction` is what the user does
when it is told of the request. -/
def serverTransactionOnRequest : ServerRequest → Except Fault ServerTransaction
  | .ack dialogHandles =>
    if t.isInvite then
      if t.state = .completed then istAcknowledge t
      else if t.state = .accepted && dialogHandles then reaction.foldlM userAction t
      else .ok t
    else .ok t
  | .cancel => reaction.foldlM userAction t
  | .retransmission => onRequestRetransmission t

/-- The timers: `ist.c:53–86` and `nist.c:40`. -/
def serverOnTimer : ServerTimer → Except Fault ServerTransaction
  | .G => if t.state = .completed then t.queueLast else .ok (t.stopTimer .G)
  | .H => .ok ((if t.state = .completed then t.terminate else t).stopTimer .H)
  | .I => .ok (t.terminate.stopTimer .I)
  | .L => .ok (t.terminate.stopTimer .L)
  | .J => .ok (t.terminate.stopTimer .J)

/-- `server_transaction_on_call_repair_timer` (`transaction.c:109`). -/
def serverOnCallRepair (found : Option Channel) : Except Fault ServerTransaction :=
  serverTransactionSendResponse { t with callRepairTimer := false } ⟨503, []⟩ found

/-- A repair of the call is waited for, or the transaction is terminated (`transaction.c:148–192`);
the time-out of a server transaction is never handed over. -/
def serverAwaitRepair : ServerTransaction :=
  let t := if t.isInvite then { t with callRepairTimer := false } else t
  let t :=
    if t.state.isTransient && t.isInvite then { t with callRepairTimer := true } else t.terminate
  { t with channel := none }

/-- `on_channel_state_changed` (`transaction.c:119`) for a channel that is lost; `reaction` is what
the user does when it is told of the I/O error. -/
def serverChannelLost : Except Fault ServerTransaction := do
  let t ← if t.state.isTransient then reaction.foldlM userAction t else .ok t
  return serverAwaitRepair t

/-- What happens to a server transaction. -/
inductive ServerEvent where
  | request (request : ServerRequest)
  | user (action : UserAction)
  | timer (timer : ServerTimer)
  | callRepair (found : Option Channel)
  | channelState (state : ChannelState)

/-- What an event does. Timers fire when the main loop has them, and the state of a channel reaches
the transactions that have it. -/
def serverEvent : ServerEvent → Except Fault ServerTransaction
  | .request request => serverTransactionOnRequest reaction t request
  | .user action => userAction t action
  | .timer timer => if t.timers timer then serverOnTimer t timer else .ok t
  | .callRepair found => if t.callRepairTimer then serverOnCallRepair t found else .ok t
  | .channelState state =>
    if t.channel.isSome && (state = .error || state = .disconnected) then
      serverChannelLost reaction t
    else .ok t

/-- `belle_sip_provider_create_server_transaction` (`provider.c:808`); an INVITE transaction sends a
100 at once. -/
def createServerTransaction (method : String) (found : Option Channel) :
    Except Fault ServerTransaction :=
  if method == "INVITE" then
    serverTransactionSendResponse { method := method, state := .proceeding } ⟨100, []⟩ found
  else .ok { method := method, state := .trying }

end GrooveIp.Sip
