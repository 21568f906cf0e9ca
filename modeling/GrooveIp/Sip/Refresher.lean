import GrooveIp.Lib.Scanf
import GrooveIp.Sip.Dialog

/-!
# Refreshers

`refresher.c`: a refresher keeps a registration, a subscription or a publication alive by sending its
request again before it expires, and after an error. It reacts to the events of its current client
transaction, which is no INVITE, to errors of channels, to the end of its dialog, to its timer and to
calls of the application. What it finds around it is given with each of them. Next to the state of a
refresher stand the calls of its listener, with what was so when they were made, and whether the
application was told last that nothing will follow.
-/

namespace GrooveIp.Sip.Refresh

open Lib

/-- What is compared with the method of a request. -/
inductive Method where
  | register
  | subscribe
  | publish
  | other
  deriving DecidableEq, Repr

/-- A request as far as a refresher sees it: its `Expires` header and the `expires` parameters of its
contacts, `-1` where there is none. -/
structure Request where
  method : Method
  expires : Option Int := none
  contacts : List Int := []
  deriving DecidableEq, Repr

/-- `belle_sip_client_transaction_t`, with whether its request was handed to a channel, and whether its
final response, a timeout or an error was reported. -/
structure Transaction where
  request : Request
  state : TransactionState
  sent : Bool
  outcome : Bool := false
  deriving DecidableEq, Repr

/-- The first contact of a response: whether it has a URI, and a `pub-gruu` parameter. -/
structure ResponseContact where
  uri : Bool
  pubGruu : Bool
  deriving DecidableEq, Repr

/-- A response as far as a refresher sees it: `matching` is the `expires` parameter of the contact that
`belle_sip_refresher_get_contact` finds in it, `minExpires` the value of its `Min-Expires` header and
`dialog` whether the event has a dialog. -/
structure Response where
  code : Int
  contact : Option ResponseContact := none
  matching : Option Int := none
  expires : Option Int := none
  minExpires : Option (Option (List Char)) := none
  dialog : Bool := false
  deriving DecidableEq, Repr

/-- `belle_sip_auth_event_t`: whether it has a password or an `ha1`. -/
structure AuthEvent where
  passwd : Bool
  ha1 : Bool
  deriving DecidableEq, Repr

/-- `timer_purpose_t`. -/
inductive TimerPurpose where
  | normalRefresh
  | retry
  deriving DecidableEq, Repr

/-- A timer with its delay, and whether it is in the main loop. -/
structure Timer where
  delay : Int
  linked : Bool
  deriving DecidableEq, Repr

/-- A call of the listener, and whether a retry timer was armed or a request in flight. -/
structure Report where
  code : Int
  willRetry : Bool
  retrying : Bool
  deriving DecidableEq, Repr

/-- `struct belle_sip_refresher` (`refresher.c:38`), the calls of its listener, and whether the
application was told last that nothing will follow. -/
structure Refresher where
  listener : Bool
  timer : Option Timer := none
  transaction : Transaction
  firstAcknolegedRequest : Option Request := none
  dialog : Bool := false
  targetExpires : Int := 0
  obtainedExpires : Int := 0
  started : Bool := false
  retryAfter : Int := 60000
  authEvents : List AuthEvent := []
  authFailures : Nat := 0
  onIoError : Bool := false
  numberOfRetry : Nat := 0
  timerPurpose : TimerPurpose := .normalRefresh
  manual : Bool := false
  publishPending : Bool := false
  reports : List Report := []
  gaveUp : Bool := false
  deriving DecidableEq, Repr

/-- What the sending of a request again finds: the state of the dialog and whether a request is pending
in it, the authentication information, whether the URIs are valid, the channel, and whether the new
transaction has a dialog. -/
structure Attempt where
  dialogState : DialogState := .null
  dialogPending : Bool := false
  authInfos : List AuthEvent := []
  urisValid : Bool := true
  channel : Option ChannelState := some .ready
  dialog : Bool := false
  deriving DecidableEq, Repr

/-- A host and a port. -/
structure Address where
  ip : Option String
  port : Int
  deriving DecidableEq, Repr

/-- What an event or a call finds: what a request sent again finds, and one that the end of a
transaction leads to, the first contact of the request in unknown state, the public address of the
channel, whether the NAT helper is enabled, and a random number. -/
structure Surroundings where
  attempt : Attempt := {}
  nested : Attempt := {}
  unknownContact : Option Address := none
  channel : Option Address := none
  natHelper : Bool := false
  random : Nat := 0
  deriving DecidableEq, Repr

/-- The transaction waits for a final response, a timeout or an error. -/
def Transaction.awaiting (t : Transaction) : Bool :=
  t.sent && !t.outcome && t.state.isTransient

variable (r : Refresher)

/-- The timer is in the main loop. -/
def Refresher.armed : Bool := r.timer.any (·.linked)

/-- A retry timer is armed, or a request is in flight. -/
def Refresher.retrying : Bool :=
  r.armed && decide (r.timerPurpose = .retry) || r.transaction.awaiting

/-- The listener is called. -/
def Refresher.notify (code : Int) (willRetry : Bool) : Refresher :=
  { r with
    reports := if r.listener then r.reports ++ [⟨code, willRetry, r.retrying⟩] else r.reports
    gaveUp := !willRetry }

/-! ## Timers -/

/-- `cancel_retry` (`refresher.c:66`). -/
def Refresher.cancelRetry : Refresher := { r with timer := none }

/-- `schedule_timer_at` (`refresher.c:73`): the main loop arms no timer with a negative timeout. -/
def Refresher.scheduleTimerAt (delay : Int) (purpose : TimerPurpose) : Refresher :=
  { r with timerPurpose := purpose, timer := some ⟨delay, 0 ≤ delay⟩, gaveUp := false }

/-- `retry_later` (`refresher.c:84`). -/
def Refresher.retryLater : Refresher :=
  { r with numberOfRetry := r.numberOfRetry + 1 }.scheduleTimerAt r.retryAfter .retry

/-- `retry_later_on_io_error` (`refresher.c:89`). -/
def Refresher.retryLaterOnIoError : Refresher :=
  if r.numberOfRetry < 1 then
    { r.scheduleTimerAt 500 .retry with numberOfRetry := r.numberOfRetry + 1 }
  else r.retryLater

/-- The delay of `schedule_timer` as an `int`. -/
def Refresher.refreshDelay : Int := (r.obtainedExpires * 900).bmod (2 ^ 32)

/-- `schedule_timer` (`refresher.c:99`). -/
def Refresher.scheduleTimer : Refresher := r.scheduleTimerAt r.refreshDelay .normalRefresh

/-! ## Sending again -/

/-- The request to send: one is delayed to the end of a transaction, or cannot be made. -/
inductive Creation where
  | delayed
  | refused
  | created (request : Request)
  deriving DecidableEq, Repr

/-- The request that `belle_sip_refresher_refresh_internal` makes (`refresher.c:464`). -/
def Refresher.createRequest (attempt : Attempt) : Creation :=
  let old := r.transaction.request
  if r.dialog then
    match attempt.dialogState with
    | .confirmed =>
      if attempt.dialogPending then .refused
      else if old.method = .subscribe then
        .created { old with expires := some (old.expires.getD 0) }
      else .created old
    | .terminated =>
      match r.firstAcknolegedRequest with
      | some request => .created request
      | none => .refused
    | .null | .early => .refused
  else if r.transaction.state.isTransient then
    match old.method with
    | .publish => .delayed
    | .subscribe => .refused
    | .register | .other => .created old
  else .created old

/-- Authentication information is looked for, and what is found is kept when the caller wants it. -/
def Refresher.authorize (attempt : Attempt) (authInfos : Bool) : Refresher :=
  let looked :=
    if r.dialog then decide (attempt.dialogState = .confirmed)
    else !r.transaction.state.isTransient
  { r with
    authEvents := if authInfos && looked then r.authEvents ++ attempt.authInfos else r.authEvents }

/-- `unfilled_auth_info` (`refresher.c:440`), which is zero for what `belle_sip_list_find_custom` finds. -/
def AuthEvent.unfilled (event : AuthEvent) : Bool := !(event.passwd || event.ha1)

/-- The expiration in a request is updated (`refresher.c:562`). -/
def Request.updateExpires (request : Request) (expires : Int) : Request :=
  { request with
    expires := request.expires.map fun _ => expires
    contacts :=
      match request.contacts with
      | [] => []
      | first :: rest => (if 0 ≤ first then expires else first) :: rest }

/-- `belle_sip_transaction_terminate` of the current transaction. -/
def Refresher.terminate (terminated : Refresher → Refresher) : Refresher :=
  terminated { r with transaction := { r.transaction with state := .terminated } }

/-- The current transaction is terminated when it is in a very early state (`refresher.c:590`). -/
def Refresher.terminateEarly (terminated : Refresher → Refresher) : Refresher :=
  match r.transaction.state with
  | .init | .calling | .trying => r.terminate terminated
  | .completed | .confirmed | .accepted | .proceeding | .terminated => r

/-- A new transaction takes the place of the current one and is sent (`refresher.c:579`); a channel that
is not ready makes it wait. -/
def Refresher.send (terminated : Refresher → Refresher) (request : Request) (attempt : Attempt) :
    Bool × Refresher :=
  let r := r.terminateEarly terminated
  let transaction := { request, state := .init, sent := false : Transaction }
  let r := { r with transaction, dialog := attempt.dialog }
  if attempt.urisValid then
    match attempt.channel with
    | none => (false, r.terminate terminated)
    | some channel =>
      let state := if channel = .ready then .trying else .init
      (true, { r with transaction := { transaction with state, sent := true }, gaveUp := false })
  else (false, r)

/-- The error flag is reset (`refresher.c:557`), and the first acknowledged request goes to its new
transaction. -/
def Refresher.prepare (attempt : Attempt) : Refresher :=
  { r with
    onIoError := false
    firstAcknolegedRequest :=
      if r.dialog ∧ attempt.dialogState = .terminated then none else r.firstAcknolegedRequest }

/-- What follows when a request was made (`refresher.c:551`): it is sent, unless authentication
information is missing. -/
def Refresher.refreshCreated (terminated : Refresher → Refresher) (request : Request) (expires : Int)
    (authMandatory authInfos : Bool) (attempt : Attempt) : Bool × Refresher :=
  let r := r.authorize attempt authInfos
  if authMandatory ∧ authInfos ∧ r.authEvents.any AuthEvent.unfilled then (false, r)
  else
    let (sent, r) :=
      (r.prepare attempt).send terminated (request.updateExpires r.targetExpires) attempt
    if sent ∧ expires = 0 then (sent, { r with timer := none, started := false }) else (sent, r)

/-- `belle_sip_refresher_refresh_internal` (`refresher.c:445`), whose result is whether it returns zero.
`terminated` is what `process_transaction_terminated` does, `authInfos` whether the caller wants the
authentication information. -/
def Refresher.refreshInternalWith (terminated : Refresher → Refresher) (expires : Int)
    (authMandatory authInfos : Bool) (attempt : Attempt) : Bool × Refresher :=
  let r := { r with targetExpires := if 0 ≤ expires then expires else r.targetExpires }
  match r.createRequest attempt with
  | .delayed => (true, { r with publishPending := true })
  | .refused => (false, r)
  | .created request => r.refreshCreated terminated request expires authMandatory authInfos attempt

/-- `belle_sip_refresher_refresh` (`refresher.c:433`). -/
def Refresher.refreshWith (terminated : Refresher → Refresher) (expires : Int) (attempt : Attempt) :
    Bool × Refresher :=
  { r.cancelRetry with authFailures := 0 }.refreshInternalWith terminated expires false false attempt

/-- `process_transaction_terminated` (`refresher.c:381`). The request that it sends ends no transaction
with a publication pending. -/
def Refresher.processTransactionTerminated (attempt : Attempt) : Refresher :=
  if r.publishPending ∧ r.started then
    ({ r with publishPending := false }.refreshWith (fun r => { r with publishPending := false })
      r.targetExpires attempt).2
  else { r with publishPending := false }

/-- `belle_sip_refresher_refresh_internal` in its surroundings. -/
def Refresher.refreshInternal (expires : Int) (authMandatory authInfos : Bool) (sur : Surroundings) :
    Bool × Refresher :=
  r.refreshInternalWith (·.processTransactionTerminated sur.nested) expires authMandatory authInfos
    sur.attempt

/-- `belle_sip_refresher_refresh` in its surroundings. -/
def Refresher.refresh (expires : Int) (sur : Surroundings) : Bool × Refresher :=
  r.refreshWith (·.processTransactionTerminated sur.nested) expires sur.attempt

variable (response : Response) (sur : Surroundings)

/-- `belle_sip_refresher_stop` (`refresher.c:760`). -/
def Refresher.stop : Refresher :=
  let r := r.cancelRetry
  let r :=
    if r.transaction.state.isTransient then r.terminate (·.processTransactionTerminated sur.nested)
    else r
  { r with started := false }

/-! ## Expirations and contacts -/

/-- `set_expires_from_trans` (`refresher.c:677`). -/
def Refresher.setExpiresFromTrans (response : Option Response) : Refresher :=
  let request := r.transaction.request
  let register := request.method = .register
  if register ∨ request.expires.isSome then
    let targetExpires :=
      match request.expires, request.contacts with
      | some expires, _ => expires
      | none, first :: _ => if register ∧ first ≠ -1 then first else r.targetExpires
      | none, [] => r.targetExpires
    let matching := if register then (response.bind Response.matching).getD (-1) else -1
    let obtained :=
      if matching = -1 then (response.bind Response.expires).getD (-1) else matching
    let obtainedExpires :=
      if obtained = -1 ∨ 0 < targetExpires ∧ obtained = 0 then targetExpires else obtained
    { r with targetExpires, obtainedExpires }
  else { r with obtainedExpires := -1 }

/-- `is_contact_address_acurate` (`refresher.c:179`). -/
def isContactAddressAcurate : Except Fault Bool :=
  match sur.unknownContact with
  | none => .ok true
  | some contact =>
    match sur.channel with
    | none => .error .nullDereference
    | some channel =>
      .ok (channel.port = contact.port && channel.ip.isSome && channel.ip = contact.ip)

/-! ## Events -/

/-- A response comes for the current transaction, and its dialog is taken over. -/
def Refresher.heard : Refresher :=
  { r with
    transaction := { r.transaction with
      state := if response.code < 200 then .proceeding else .completed
      outcome := 200 ≤ response.code }
    dialog := response.dialog }

/-- A success is taken note of (`refresher.c:224`): expirations are updated, a refresher with nothing to
refresh is stopped, and the request is kept. -/
def Refresher.accepted : Refresher :=
  let r := { r with authFailures := 0, numberOfRetry := 0 }.setExpiresFromTrans (some response)
  let r : Refresher :=
    if r.targetExpires ≤ 0 then r.stop sur
    else
      let request := { r.transaction.request with
        contacts := r.transaction.request.contacts.filter (· ≠ 0) }
      { r with transaction := { r.transaction with request } }
  if r.started ∧ r.firstAcknolegedRequest = none then
    { r with firstAcknolegedRequest := some r.transaction.request }
  else r

/-- The response to a success: its contact was right, or nothing is done about it. -/
def refreshesLater (acurate : Bool) (response : Response) (sur : Surroundings) : Bool :=
  acurate || !sur.natHelper || response.contact.any (·.pubGruu)

/-- The success case of `process_response_event` (`refresher.c:224`). -/
def Refresher.processSuccess : Except Fault Refresher :=
  let r := r.accepted response sur
  if r.started then
    match isContactAddressAcurate sur with
    | .error fault => .error fault
    | .ok acurate =>
      if refreshesLater acurate response sur then .ok (r.scheduleTimer.notify response.code true)
      else .ok (r.refresh r.targetExpires sur).2
  else .ok (r.notify response.code true)

/-- A retry when there is something to refresh, and its report. -/
def Refresher.retryOrNot (code : Int) (retry : Refresher → Refresher) : Refresher :=
  if 0 < r.targetExpires then (retry r).notify code true else r.notify code false

/-- The error cases of `process_response_event` (`refresher.c:276`). -/
def Refresher.processError : Refresher :=
  let code := response.code
  if code = 301 ∨ code = 302 then
    if response.contact.any (·.uri) then
      let (sent, r) := r.refreshInternal r.targetExpires true true sur
      if sent then r else r.notify code true
    else r.notify code true
  else if code = 401 ∨ code = 407 then
    let r : Refresher := { r with authFailures := r.authFailures + 1 }
    if r.authFailures > 1 then
      let r : Refresher := if 0 < r.targetExpires then r.retryLater else r
      { r with authFailures := 0 }.notify code true
    else
      let (sent, r) := { r with authEvents := [] : Refresher }.refreshInternal r.targetExpires true true sur
      if sent then r else r.notify code true
  else if code = 403 then r.retryOrNot code Refresher.retryLater
  else if code = 412 then
    if r.transaction.request.method = .publish then
      if 0 < r.targetExpires then r.retryLaterOnIoError else r.notify code false
    else r.retryOrNot code Refresher.retryLater
  else if code = 423 then
    match response.minExpires with
    | some (some value) =>
      if 0 < atoi value ∧ r.started then
        ({ r with targetExpires := atoi value }.refresh (atoi value) sur).2
      else r.notify code false
    | some none | none => r.notify code false
  else if code = 491 then
    if 0 < r.targetExpires then r.scheduleTimerAt (sur.random % 10000 : Nat) .retry
    else r.notify code false
  else if code = 505 ∨ code = 501 then r.notify code false
  else if code = 481 ∨ code = 503 then
    r.retryOrNot code fun r => if r.dialog then r.retryLaterOnIoError else r.retryLater
  else if code < 600 then r.retryOrNot code Refresher.retryLater
  else r.notify code false

/-- `process_response_event` (`refresher.c:209`), for a transaction that is not over. -/
def Refresher.processResponseEvent : Except Fault Refresher :=
  let r := r.heard response
  if 200 ≤ response.code ∧ response.code < 300 then r.processSuccess response sur
  else if 300 ≤ response.code then .ok (r.processError response sur)
  else .ok (r.notify response.code true)

/-- `process_timeout` (`refresher.c:367`). -/
def Refresher.processTimeout : Refresher :=
  let r := if r.started then r.scheduleTimerAt 2000 .retry else r
  r.notify 408 r.started

/-- `process_io_error` (`refresher.c:121`) of the current transaction. -/
def Refresher.processTransactionError : Refresher :=
  let early := r.transaction.state = .trying ∨ r.transaction.state = .init
  if r.onIoError then r
  else if ¬r.started ∧ ¬early then r
  else if r.targetExpires = 0 ∧ ¬early then r
  else
    let r := if r.started then r.retryLaterOnIoError else r
    r.notify 503 r.started

/-- `process_io_error` (`refresher.c:121`) of the provider: `lost` is whether the transaction has a
channel that is disconnected or in error. -/
def Refresher.processProviderError (lost : Bool) : Refresher :=
  if ¬r.onIoError ∧ r.started ∧ r.transaction.state = .terminated ∧ lost then
    { r.retryLaterOnIoError.notify 503 true with onIoError := true }
  else r

/-- `process_dialog_terminated` (`refresher.c:103`): `mine` is whether the transaction has the dialog. -/
def Refresher.processDialogTerminated (mine expired : Bool) : Refresher :=
  if mine ∧ expired ∧ r.started then r.notify 481 true else r

/-- `timer_cb` (`refresher.c:615`). -/
def Refresher.timerCb : Refresher :=
  if r.timerPurpose = .normalRefresh ∧ r.manual then
    { r.notify 0 false with timer := r.timer.map ({ · with linked := false }) }
  else
    let (sent, r) := r.refresh r.targetExpires sur
    if sent then r else r.retryLater

/-- `belle_sip_refresher_start` (`refresher.c:738`). -/
def Refresher.start : Except Fault Refresher :=
  if r.started then .ok r
  else if 0 < r.targetExpires then
    let r := { r with started := true }
    match isContactAddressAcurate sur with
    | .error fault => .error fault
    | .ok true => .ok r.scheduleTimer
    | .ok false => .ok (r.refresh r.targetExpires sur).2
  else .ok { r with started := false }

/-- What happens to a refresher. -/
inductive Step where
  | response (response : Response) (sur : Surroundings)
  | timeout (sur : Surroundings)
  | transactionError (timedOut : Bool) (sur : Surroundings)
  | providerError (lost : Bool)
  | terminated (sur : Surroundings)
  | dialogTerminated (mine expired : Bool)
  | timer (sur : Surroundings)
  | refresh (expires : Int) (sur : Surroundings)
  | start (sur : Surroundings)
  | stop (sur : Surroundings)
  | setRetryAfter (delay : Int)
  | enableManualMode (enabled : Bool)

/-- The current transaction is over for its user. -/
def Refresher.over : Refresher :=
  { r with transaction := { r.transaction with outcome := true } }

/-- A step. Responses, timeouts and errors come while the current transaction is not over, and it
terminates after them; the application is told by a call that fails, too. -/
def Refresher.step : Step → Except Fault Refresher
  | .response response sur =>
    if r.transaction.awaiting then r.processResponseEvent response sur else .ok r
  | .timeout sur =>
    if r.transaction.awaiting then
      .ok (r.over.processTimeout.terminate (·.processTransactionTerminated sur.nested))
    else .ok r
  | .transactionError timedOut sur =>
    if r.transaction.awaiting then
      let r := r.over.processTransactionError
      let r := if timedOut then r.processTimeout else r
      .ok (r.terminate (·.processTransactionTerminated sur.nested))
    else .ok r
  | .providerError lost => .ok (r.processProviderError lost)
  | .terminated sur =>
    if r.transaction.state = .completed then
      .ok (r.terminate (·.processTransactionTerminated sur.nested))
    else .ok r
  | .dialogTerminated mine expired => .ok (r.processDialogTerminated mine expired)
  | .timer sur => .ok (if r.armed then r.timerCb sur else r)
  | .refresh expires sur =>
    let (sent, r) := r.refresh expires sur
    .ok (if sent then r else { r with gaveUp := true })
  | .start sur => r.start sur
  | .stop sur => .ok (r.stop sur)
  | .setRetryAfter delay => .ok { r with retryAfter := delay }
  | .enableManualMode enabled => .ok { r with manual := enabled }

/-- A run of steps. -/
def Refresher.run : Refresher → List Step → Except Fault Refresher
  | r, [] => .ok r
  | r, step :: steps =>
    match r.step step with
    | .error fault => .error fault
    | .ok r => r.run steps

end GrooveIp.Sip.Refresh
