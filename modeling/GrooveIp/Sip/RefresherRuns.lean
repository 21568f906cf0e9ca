import GrooveIp.Sip.Refresher

/-!
# Refreshers stay alive

In a run in which what a refresher sends again in answer to an event can be sent, its delays are not
negative as an `int`, a redirection and a challenge are followed, and a dialog expires only while its
renewal goes on, a started refresher with something to refresh has a timer, or a request in flight, or
has told the application that nothing will follow; and its listener is told the truth about retries.
-/

namespace GrooveIp.Sip.Refresh

open Lib Transaction
open TransactionState (isTransient)

variable {r : Refresher} {attempt : Attempt} {sur : Surroundings}

/-! ## Conditions -/

/-- The request can be made and sent again. -/
def Refresher.Sends (r : Refresher) (attempt : Attempt) : Prop :=
  (∃ request, r.createRequest attempt = .created request) ∧ attempt.urisValid ∧
    attempt.channel.isSome

/-- The authentication information is there. -/
def Refresher.Filled (r : Refresher) (attempt : Attempt) : Prop :=
  (r.authorize attempt true).authEvents.any AuthEvent.unfilled = false

/-- The contact is right and the timer can be armed, or the request can be sent again. -/
def Refresher.Follows (r : Refresher) (later : Bool → Bool) (sur : Surroundings) : Prop :=
  match isContactAddressAcurate sur with
  | .error _ => False
  | .ok acurate => if later acurate then 0 ≤ r.refreshDelay else r.Sends sur.attempt

/-- What a response asks for can be done. -/
def Refresher.Answers (r : Refresher) (response : Response) (sur : Surroundings) : Prop :=
  let code := response.code
  if 200 ≤ code ∧ code < 300 then
    let r := (r.heard response).accepted response sur
    r.started → r.Follows (refreshesLater · response sur) sur
  else if code = 301 ∨ code = 302 then
    response.contact.any (·.uri) ∧ (r.heard response).Sends sur.attempt ∧
      (r.heard response).Filled sur.attempt
  else if code = 401 ∨ code = 407 then
    if 0 < r.authFailures then 0 < r.targetExpires
    else (r.heard response).Sends sur.attempt ∧
      { r.heard response with authEvents := [] }.Filled sur.attempt
  else if code = 423 then
    ∀ value, response.minExpires = some (some value) → 0 < atoi value → r.started →
      (r.heard response).Sends sur.attempt
  else True

/-- The URIs of a publication are valid when it is sent again. -/
def Refresher.Valid (r : Refresher) (sur : Surroundings) : Prop :=
  r.transaction.request.method = .publish → sur.attempt.urisValid ∧ sur.nested.urisValid

/-- A publication that is pending can be sent when the transaction terminates. -/
def Refresher.Publishes (r : Refresher) (sur : Surroundings) : Prop :=
  r.publishPending → r.started →
    { r with transaction := { r.transaction with state := .terminated } }.Sends sur.nested

/-- The conditions under which a step keeps a refresher alive and its reports true. -/
def Refresher.Allows (r : Refresher) : Step → Prop
  | .response response sur => r.Valid sur ∧ r.Answers response sur
  | .timeout sur | .transactionError _ sur | .terminated sur => r.Valid sur ∧ r.Publishes sur
  | .dialogTerminated mine expired => mine → expired → r.started → r.retrying
  | .timer sur => r.Valid sur ∧ (r.publishPending → r.Sends sur.attempt)
  | .refresh _ sur | .stop sur => r.Valid sur
  | .start sur => r.Valid sur ∧ (r.started = false → 0 < r.targetExpires →
      r.transaction.awaiting = false ∧ r.Follows id sur)
  | .setRetryAfter delay => 0 ≤ delay
  | .providerError _ | .enableManualMode _ => True

/-! ## The invariant -/

/-- What holds between the steps of a run. -/
structure Sane (r : Refresher) : Prop where
  quiet : r.transaction.awaiting → r.armed = false
  publish : r.transaction.request.method = .publish → r.transaction.state.isTransient →
    r.transaction.sent
  error : r.transaction.awaiting → r.onIoError = false
  delay : 0 ≤ r.retryAfter
  acknowledged : ∀ request, r.firstAcknolegedRequest = some request →
    request.method = r.transaction.request.method
  truthful : ∀ report ∈ r.reports, 300 ≤ report.code → report.willRetry = report.retrying

/-- A transaction that is not over has not reported an outcome. -/
def Transaction.Open (t : Transaction) : Prop := t.state.isTransient → t.outcome = false

/-- A started refresher with something to refresh has a timer, a request in flight, or has told that
nothing will follow. -/
def Refresher.Alive (r : Refresher) : Prop :=
  r.started → 0 < r.targetExpires → r.armed ∨ r.transaction.awaiting ∨ r.gaveUp

theorem Transaction.awaiting_iff {t : Transaction} :
    t.awaiting ↔ t.sent = true ∧ t.outcome = false ∧ t.state.isTransient = true := by
  simp [awaiting, and_assoc]

theorem createRequest_method (h : Sane r) {request : Request}
    (hcreated : r.createRequest attempt = .created request) :
    request.method = r.transaction.request.method := by
  have hacknowledged := h.acknowledged
  unfold Refresher.createRequest at hcreated
  grind

theorem Sane.notify (h : Sane r) {code : Int} {willRetry : Bool}
    (htrue : 300 ≤ code → willRetry = r.retrying) : Sane (r.notify code willRetry) :=
  { h with
    truthful := by
      intro report hreport hcode
      unfold Refresher.notify at hreport
      split at hreport
      · obtain hold | hnew := List.mem_append.mp hreport
        · exact h.truthful report hold hcode
        · rw [List.mem_singleton.mp hnew] at hcode ⊢
          exact htrue hcode
      · exact h.truthful report hreport hcode }

theorem Sane.scheduleTimerAt (h : Sane r) (hidle : r.transaction.awaiting = false) (delay : Int)
    (purpose : TimerPurpose) : Sane (r.scheduleTimerAt delay purpose) :=
  { h with quiet := fun hawaiting => by simp [Refresher.scheduleTimerAt, hidle] at hawaiting }

theorem armed_scheduleTimerAt {delay : Int} (h : 0 ≤ delay) (purpose : TimerPurpose) :
    (r.scheduleTimerAt delay purpose).armed = true := by
  simp [Refresher.armed, Refresher.scheduleTimerAt, h]

theorem armed_scheduleTimer (h : 0 ≤ r.refreshDelay) : r.scheduleTimer.armed = true :=
  armed_scheduleTimerAt h .normalRefresh

/-- A retry that is due later: its timer is armed, and nothing else changes that matters here. -/
structure Retries (r r' : Refresher) : Prop extends Sane r' where
  armed : r'.armed = true
  purpose : r'.timerPurpose = .retry
  transaction : r'.transaction = r.transaction
  started : r'.started = r.started
  publishPending : r'.publishPending = r.publishPending
  dialog : r'.dialog = r.dialog
  firstAcknolegedRequest : r'.firstAcknolegedRequest = r.firstAcknolegedRequest

theorem Sane.retryAt (h : Sane r) (hidle : r.transaction.awaiting = false) {delay : Int}
    (hdelay : 0 ≤ delay) : Retries r (r.scheduleTimerAt delay .retry) :=
  { h.scheduleTimerAt hidle delay .retry with
    armed := armed_scheduleTimerAt hdelay _
    purpose := rfl
    transaction := rfl
    started := rfl
    publishPending := rfl
    dialog := rfl
    firstAcknolegedRequest := rfl }

theorem Sane.retryLater (h : Sane r) (hidle : r.transaction.awaiting = false) :
    Retries r r.retryLater :=
  have h' : Sane { r with numberOfRetry := r.numberOfRetry + 1 } := { h with }
  { h'.retryAt hidle h.delay with }

theorem Sane.retryLaterOnIoError (h : Sane r) (hidle : r.transaction.awaiting = false) :
    Retries r r.retryLaterOnIoError := by
  unfold Refresher.retryLaterOnIoError
  split
  · exact { h.retryAt hidle (by decide : (0 : Int) ≤ 500) with }
  · exact h.retryLater hidle

variable {r' : Refresher}

theorem Retries.retrying (h : Retries r r') : r'.retrying = true := by
  simp [Refresher.retrying, h.armed, h.purpose]

theorem Retries.notify (h : Retries r r') (code : Int) : Retries r (r'.notify code true) :=
  { h.toSane.notify fun _ => h.retrying.symm with
    armed := h.armed
    purpose := h.purpose
    transaction := h.transaction
    started := h.started
    publishPending := h.publishPending
    dialog := h.dialog
    firstAcknolegedRequest := h.firstAcknolegedRequest }

theorem Retries.alive (h : Retries r r') : r'.Alive := fun _ _ => .inl h.armed

theorem Sane.giveUp (h : Sane r) (hidle : r.retrying = false) (code : Int) :
    Sane (r.notify code false) ∧ (r.notify code false).Alive :=
  ⟨h.notify fun _ => hidle.symm, fun _ _ => .inr (.inr rfl)⟩

/-! ## Sending again -/

/-- No timer is armed, and none is after it. -/
structure Calm (r r' : Refresher) : Prop extends Sane r' where
  unarmed : r'.armed = false
  method : r'.transaction.request.method = r.transaction.request.method
  noError : r.onIoError = false → r'.onIoError = false
  opened : r.transaction.Open → r'.transaction.Open

/-- What the end of a transaction does keeps a refresher calm. -/
def Calming (method : Method) (terminated : Refresher → Refresher) : Prop :=
  ∀ r, Sane r → r.transaction.Open → r.armed = false →
    r.transaction.request.method = method → Calm r (terminated r)

theorem Sane.terminate (h : Sane r) :
    Sane { r with transaction := { r.transaction with state := .terminated } } :=
  { h with
    quiet := fun hawaiting => by simp [awaiting, isTransient] at hawaiting
    publish := fun _ htransient => by cases htransient
    error := fun hawaiting => by simp [awaiting, isTransient] at hawaiting }

variable {terminated : Refresher → Refresher}

theorem Sane.terminateEarly (h : Sane r) (hunarmed : r.armed = false)
    (hcalm : Calming r.transaction.request.method terminated) :
    Calm r (r.terminateEarly terminated) := by
  have hterminate : Calm r (r.terminate terminated) :=
    have hafter := hcalm _ h.terminate (fun htransient => by cases htransient) hunarmed rfl
    { hafter with opened := fun _ => hafter.opened fun htransient => by cases htransient }
  have hstay : Calm r r :=
    { h with unarmed := hunarmed, method := rfl, noError := id, opened := id }
  unfold Refresher.terminateEarly
  cases r.transaction.state <;> assumption

/-- A new transaction: it waits when it was sent. -/
theorem Sane.send (h : Sane r) (hunarmed : r.armed = false) (herror : r.onIoError = false)
    (hcalm : Calming r.transaction.request.method terminated) (request : Request)
    (attempt : Attempt) (hmethod : request.method = r.transaction.request.method)
    (hvalid : r.transaction.request.method = .publish → attempt.urisValid) :
    Calm r (r.send terminated request attempt).2 ∧ ((r.send terminated request attempt).1 →
        (r.send terminated request attempt).2.transaction.awaiting) ∧
      ((r.send terminated request attempt).1 ↔ attempt.urisValid ∧ attempt.channel.isSome) := by
  have hearly := h.terminateEarly hunarmed hcalm
  unfold Refresher.send
  generalize r.terminateEarly terminated = r' at hearly ⊢
  have hacknowledged := hearly.acknowledged
  rw [hearly.method] at hacknowledged
  split
  · next huris =>
    split
    · next hchannel =>
      have hsane : Sane { r' with
          transaction := { request, state := .terminated, sent := false }
          dialog := attempt.dialog } :=
        { hearly.toSane with
          quiet := fun hawaiting => by cases hawaiting
          publish := fun _ htransient => by cases htransient
          error := fun hawaiting => by cases hawaiting
          acknowledged := by rwa [← hmethod] at hacknowledged }
      have hafter := hcalm _ hsane (fun htransient => by cases htransient) hearly.unarmed hmethod
      refine ⟨{ hafter with
        method := hafter.method.trans hmethod
        noError := fun _ => hafter.noError (hearly.noError herror)
        opened := fun _ => hafter.opened fun htransient => by cases htransient }, ?_, ?_⟩
      · simp
      · simp [hchannel]
    · next channel hchannel =>
      refine ⟨{ hearly.toSane with
        quiet := fun _ => hearly.unarmed
        publish := fun _ _ => rfl
        error := fun _ => hearly.noError herror
        acknowledged := by rwa [← hmethod] at hacknowledged
        unarmed := hearly.unarmed
        method := hmethod
        noError := fun _ => hearly.noError herror
        opened := fun _ _ => rfl }, ?_, ?_⟩
      · intro _
        by_cases hready : channel = .ready
        · rw [if_pos hready]
          rfl
        · rw [if_neg hready]
          rfl
      · simp [huris, hchannel]
  · next huris =>
    have hother : request.method ≠ .publish := by
      rw [hmethod]
      exact fun hpublish => huris (hvalid hpublish)
    refine ⟨{ hearly.toSane with
      quiet := fun hawaiting => by cases hawaiting
      publish := fun hpublish => absurd hpublish hother
      error := fun hawaiting => by cases hawaiting
      acknowledged := by rwa [← hmethod] at hacknowledged
      unarmed := hearly.unarmed
      method := hmethod
      noError := fun _ => hearly.noError herror
      opened := fun _ _ => rfl }, ?_, ?_⟩
    · simp
    · simp [huris]

theorem Sane.prepare (h : Sane r) (attempt : Attempt) : Sane (r.prepare attempt) :=
  { h with
    error := fun _ => rfl
    acknowledged := by
      intro request hrequest
      unfold Refresher.prepare at hrequest
      split at hrequest
      · cases hrequest
      · exact h.acknowledged request hrequest }

theorem Sane.refreshCreated (h : Sane r) (hunarmed : r.armed = false)
    (hcalm : Calming r.transaction.request.method terminated) {request : Request}
    (hmethod : request.method = r.transaction.request.method)
    (hvalid : r.transaction.request.method = .publish → attempt.urisValid) {expires : Int}
    {authMandatory authInfos sent : Bool}
    (hres : r.refreshCreated terminated request expires authMandatory authInfos attempt = (sent,
      r')) : Calm r r' ∧ (sent → r'.transaction.awaiting) ∧
      (attempt.urisValid → attempt.channel.isSome →
        (authMandatory → authInfos ∧ r.Filled attempt) → sent) := by
  unfold Refresher.refreshCreated at hres
  dsimp only at hres
  split at hres
  · next hunfilled =>
    cases hres
    refine ⟨{ h with unarmed := hunarmed, method := rfl, noError := id, opened := id }, by simp, ?_⟩
    intro _ _ hfilled
    have hnone := (hfilled hunfilled.1).2
    rw [hunfilled.2.1, hnone] at hunfilled
    simp at hunfilled
  · have hauthorize : Sane (r.authorize attempt authInfos) := { h with }
    have hsend := (hauthorize.prepare attempt).send hunarmed rfl hcalm
      (request.updateExpires (r.authorize attempt authInfos).targetExpires) attempt hmethod hvalid
    generalize ((r.authorize attempt authInfos).prepare attempt).send terminated
      (request.updateExpires (r.authorize attempt authInfos).targetExpires) attempt = result
      at hsend hres
    obtain ⟨hcalm', hawaiting, hsent⟩ := hsend
    split at hres
    · cases hres
      exact ⟨{ hcalm' with
        quiet := fun _ => rfl
        unarmed := rfl
        noError := fun _ => hcalm'.noError rfl
        opened := hcalm'.opened }, hawaiting,
        fun huris hchannel _ => hsent.mpr ⟨huris, hchannel⟩⟩
    · cases hres
      exact ⟨{ hcalm' with noError := fun _ => hcalm'.noError rfl }, hawaiting,
        fun huris hchannel _ => hsent.mpr ⟨huris, hchannel⟩⟩

theorem Sane.refreshInternalWith (h : Sane r) (hunarmed : r.armed = false)
    (hopen : r.transaction.Open) (hcalm : Calming r.transaction.request.method terminated)
    (hvalid : r.transaction.request.method = .publish → attempt.urisValid) (expires : Int)
    (authMandatory authInfos : Bool) {sent : Bool}
    (hres : r.refreshInternalWith terminated expires authMandatory authInfos attempt = (sent, r')) :
    Calm r r' ∧ (sent → r'.transaction.awaiting) ∧
      (r.Sends attempt → (authMandatory → authInfos ∧ r.Filled attempt) → sent) := by
  unfold Refresher.refreshInternalWith at hres
  generalize (if 0 ≤ expires then expires else r.targetExpires) = targetExpires at hres
  have hsane : Sane { r with targetExpires } := { h with }
  dsimp only at hres
  rw [show Refresher.createRequest { r with targetExpires } attempt = r.createRequest attempt
    from rfl] at hres
  cases hcreate : r.createRequest attempt with
  | delayed =>
    rw [hcreate] at hres
    cases hres
    refine ⟨{ h with unarmed := hunarmed, method := rfl, noError := id, opened := id }, fun _ => ?_, fun _ _ => rfl⟩
    have hpublish : r.transaction.request.method = .publish ∧
        r.transaction.state.isTransient := by
      unfold Refresher.createRequest at hcreate
      grind
    exact awaiting_iff.mpr
      ⟨h.publish hpublish.1 hpublish.2, hopen hpublish.2, hpublish.2⟩
  | refused =>
    rw [hcreate] at hres
    cases hres
    refine ⟨{ h with unarmed := hunarmed, method := rfl, noError := id, opened := id }, by simp, ?_⟩
    rintro ⟨⟨request, hrequest⟩, -⟩
    rw [hcreate] at hrequest
    cases hrequest
  | created request =>
    rw [hcreate] at hres
    obtain ⟨hcalm', hawaiting, hsent⟩ :=
      hsane.refreshCreated hunarmed hcalm (createRequest_method h hcreate) hvalid hres
    exact ⟨{ hcalm' with }, hawaiting, fun hsends => hsent hsends.2.1 hsends.2.2⟩

theorem Sane.refreshWith (h : Sane r) (hopen : r.transaction.Open)
    (hcalm : Calming r.transaction.request.method terminated)
    (hvalid : r.transaction.request.method = .publish → attempt.urisValid) (expires : Int)
    {sent : Bool} (hres : r.refreshWith terminated expires attempt = (sent, r')) :
    Calm r r' ∧ (sent → r'.transaction.awaiting) ∧ (r.Sends attempt → sent) := by
  have hcancel : Sane { r.cancelRetry with authFailures := 0 } := { h with quiet := fun _ => rfl }
  obtain ⟨hcalm', hawaiting, hsent⟩ :=
    hcancel.refreshInternalWith rfl hopen hcalm hvalid expires false false hres
  exact ⟨{ hcalm' with }, hawaiting, fun hsends => hsent hsends (by simp)⟩

theorem calming_last (method : Method) :
    Calming method fun r => { r with publishPending := false } := by
  intro r h hopen hunarmed hmethod
  exact { h with unarmed := hunarmed, method := rfl, noError := id, opened := id }

theorem Sane.processTransactionTerminated (h : Sane r) (hopen : r.transaction.Open)
    (hvalid : r.transaction.request.method = .publish → attempt.urisValid) :
    Sane (r.processTransactionTerminated attempt) ∧
      (r.processTransactionTerminated attempt).transaction.Open ∧
      (r.publishPending → r.started → r.Sends attempt →
        (r.processTransactionTerminated attempt).transaction.awaiting) ∧
      (¬(r.publishPending = true ∧ r.started = true) →
        r.processTransactionTerminated attempt = { r with publishPending := false }) := by
  unfold Refresher.processTransactionTerminated
  split
  · next hpending =>
    have hstart : Sane { r with publishPending := false } := { h with }
    obtain ⟨hcalm, hawaiting, hsent⟩ :=
      hstart.refreshWith hopen (calming_last _) hvalid r.targetExpires rfl
    exact ⟨hcalm.toSane, hcalm.opened hopen, fun _ _ hsends => hawaiting (hsent hsends),
      fun hnot => absurd hpending hnot⟩
  · next hpending =>
    exact ⟨{ h with }, hopen,
      fun hpublish hstarted => absurd ⟨hpublish, hstarted⟩ hpending, fun _ => rfl⟩

theorem calming_processTransactionTerminated {method : Method}
    (hvalid : method = .publish → attempt.urisValid) :
    Calming method (·.processTransactionTerminated attempt) := by
  intro r h hopen hunarmed hmethod
  change Calm r (r.processTransactionTerminated attempt)
  unfold Refresher.processTransactionTerminated
  split
  · have hstart : Sane { r with publishPending := false } := { h with }
    obtain ⟨hcalm, -, -⟩ :=
      hstart.refreshWith hopen (calming_last _) (by rwa [hmethod]) r.targetExpires rfl
    exact { hcalm with }
  · exact { h with unarmed := hunarmed, method := rfl, noError := id, opened := id }

theorem Sane.refreshInternal (h : Sane r) (hunarmed : r.armed = false)
    (hopen : r.transaction.Open) (hvalid : r.Valid sur) (expires : Int) :
    Calm r (r.refreshInternal expires true true sur).2 ∧
      ((r.refreshInternal expires true true sur).1 →
        (r.refreshInternal expires true true sur).2.transaction.awaiting) ∧
      (r.Sends sur.attempt → r.Filled sur.attempt →
        (r.refreshInternal expires true true sur).1) := by
  obtain ⟨hcalm, hawaiting, hsent⟩ := h.refreshInternalWith hunarmed hopen
    (calming_processTransactionTerminated fun hpublish => (hvalid hpublish).2)
    (fun hpublish => (hvalid hpublish).1) expires true true rfl
  exact ⟨hcalm, hawaiting, fun hsends hfilled => hsent hsends fun _ => ⟨rfl, hfilled⟩⟩

theorem Sane.refresh (h : Sane r) (hopen : r.transaction.Open) (hvalid : r.Valid sur)
    (expires : Int) : Calm r (r.refresh expires sur).2 ∧
      ((r.refresh expires sur).1 → (r.refresh expires sur).2.transaction.awaiting) ∧
      (r.Sends sur.attempt → (r.refresh expires sur).1) :=
  h.refreshWith hopen (calming_processTransactionTerminated fun hpublish => (hvalid hpublish).2)
    (fun hpublish => (hvalid hpublish).1) expires rfl

/-- What the end of a transaction does when no publication is pending. -/
def Quiet (terminated : Refresher → Refresher) : Prop :=
  ∀ r, r.publishPending = false → terminated r = { r with publishPending := false }

theorem publishPending_terminateEarly (hquiet : Quiet terminated)
    (hpending : r.publishPending = false) :
    (r.terminateEarly terminated).publishPending = false := by
  have hterminate : (r.terminate terminated).publishPending = false := by
    unfold Refresher.terminate
    rw [hquiet]
    exact hpending
  unfold Refresher.terminateEarly
  cases r.transaction.state <;> assumption

theorem idle_send (hquiet : Quiet terminated) (hpending : r.publishPending = false)
    (request : Request) (hsent : (r.send terminated request attempt).1 = false) :
    (r.send terminated request attempt).2.transaction.awaiting = false := by
  have hearly := publishPending_terminateEarly hquiet hpending
  unfold Refresher.send at hsent ⊢
  generalize r.terminateEarly terminated = r' at hearly hsent ⊢
  dsimp only at hsent ⊢
  split
  · next huris =>
    split
    · unfold Refresher.terminate
      rw [hquiet]
      · rfl
      · exact hearly
    · next channel hchannel =>
      rw [if_pos huris, hchannel] at hsent
      cases hsent
  · rfl

theorem idle_refreshInternalWith (hquiet : Quiet terminated)
    (hpending : r.publishPending = false) (hidle : r.transaction.awaiting = false) (expires : Int)
    (authMandatory authInfos : Bool)
    (hsent : (r.refreshInternalWith terminated expires authMandatory authInfos attempt).1 = false) :
    (r.refreshInternalWith terminated expires authMandatory authInfos attempt).2.transaction.awaiting =
      false := by
  unfold Refresher.refreshInternalWith at hsent ⊢
  generalize (if 0 ≤ expires then expires else r.targetExpires) = targetExpires at hsent ⊢
  dsimp only at hsent ⊢
  generalize ({ r with targetExpires } : Refresher).createRequest attempt = creation at hsent ⊢
  cases creation with
  | delayed => cases hsent
  | refused => exact hidle
  | created request =>
    unfold Refresher.refreshCreated at hsent ⊢
    dsimp only at hsent ⊢
    split
    · exact hidle
    · next hfilled =>
      rw [if_neg hfilled] at hsent
      split
      · next hstop =>
        rw [if_pos hstop, hstop.1] at hsent
        cases hsent
      · next hstay =>
        rw [if_neg hstay] at hsent
        exact idle_send hquiet (by exact hpending) _ hsent

theorem quiet_processTransactionTerminated : Quiet (·.processTransactionTerminated attempt) := by
  intro r hpending
  simp [Refresher.processTransactionTerminated, hpending]

/-! ## Responses -/

/-- What holds between the steps of a run: the refresher is sane and alive, and its transaction is open
while it is not over. -/
structure Inv (r : Refresher) : Prop extends Sane r where
  opened : r.transaction.Open
  alive : r.Alive

theorem Calm.inv (h : Calm r r') (hopen : r.transaction.Open)
    (hawaiting : r'.transaction.awaiting) : Inv r' :=
  { h with
    opened := h.opened hopen
    alive := fun _ _ => .inr (.inl hawaiting) }

theorem Retries.inv (h : Retries r r') (hopen : r.transaction.Open) : Inv r' :=
  { h with
    opened := by
      rw [h.transaction]
      exact hopen
    alive := h.alive }

theorem Transaction.idle {t : Transaction} (h : t.state.isTransient = false) :
    t.awaiting = false ∧ t.Open := by
  refine ⟨?_, fun htransient => ?_⟩
  · simp [awaiting, h]
  · rw [h] at htransient
    cases htransient

theorem not_retrying (hunarmed : r.armed = false) (hidle : r.transaction.awaiting = false) :
    r.retrying = false := by
  simp [Refresher.retrying, hunarmed, hidle]

theorem Sane.heard (h : Sane r) (hawaiting : r.transaction.awaiting) (response : Response) :
    Sane (r.heard response) ∧ (r.heard response).armed = false ∧
      (r.heard response).transaction.Open ∧
      (200 ≤ response.code → (r.heard response).transaction.state.isTransient = false) ∧
      (response.code < 200 → (r.heard response).transaction.awaiting) := by
  have hunarmed := h.quiet hawaiting
  obtain ⟨hsent, -, -⟩ := awaiting_iff.mp hawaiting
  refine ⟨{ h with
    quiet := fun _ => hunarmed
    publish := fun _ _ => hsent
    error := fun _ => h.error hawaiting }, hunarmed, ?_, ?_, ?_⟩
  · intro htransient
    by_cases hcode : response.code < 200
    · simp [Refresher.heard, hcode]
    · simp [Refresher.heard, hcode, isTransient] at htransient
  · intro hcode
    simp [Refresher.heard, Int.not_lt.mpr hcode, isTransient]
  · intro hcode
    simp [Refresher.heard, hcode, awaiting, hsent, isTransient]

theorem stop_of_over (h : r.transaction.state.isTransient = false) :
    r.stop sur = { r with timer := none, started := false } := by
  simp [Refresher.stop, Refresher.cancelRetry, h]

theorem setExpiresFromTrans_eq (r : Refresher) (response : Option Response) :
    ∃ targetExpires obtainedExpires,
      r.setExpiresFromTrans response = { r with targetExpires, obtainedExpires } := by
  unfold Refresher.setExpiresFromTrans
  dsimp only
  split
  · exact ⟨_, _, rfl⟩
  · exact ⟨_, _, rfl⟩

theorem Sane.accepted (h : Sane r) (hunarmed : r.armed = false)
    (hover : r.transaction.state.isTransient = false) (response : Response) (sur : Surroundings) :
    Calm r (r.accepted response sur) ∧
      (r.accepted response sur).transaction.state.isTransient = false := by
  obtain ⟨targetExpires, obtainedExpires, hexpires⟩ := setExpiresFromTrans_eq
    { r with authFailures := 0, numberOfRetry := 0 } (some response)
  unfold Refresher.accepted
  rw [hexpires]
  dsimp only
  generalize hmiddle : (if targetExpires ≤ 0 then _ else _ : Refresher) = r'
  have hafter : Calm r r' ∧ r'.transaction.state = r.transaction.state := by
    rw [← hmiddle]
    split
    · rw [stop_of_over]
      · exact ⟨{ h with
          quiet := fun _ => rfl
          unarmed := rfl
          method := rfl
          noError := id
          opened := id }, rfl⟩
      · exact hover
    · exact ⟨{ h with
        quiet := fun _ => hunarmed
        unarmed := hunarmed
        method := rfl
        noError := id
        opened := id }, rfl⟩
  obtain ⟨hcalm, hstate⟩ := hafter
  rw [← hstate] at hover
  split
  · refine ⟨{ hcalm with
      acknowledged := ?_ }, hover⟩
    rintro request ⟨⟩
    rfl
  · exact ⟨hcalm, hover⟩

theorem Sane.processSuccess (h : Sane r) (hunarmed : r.armed = false)
    (hover : r.transaction.state.isTransient = false) {response : Response} (hvalid : r.Valid sur)
    (hcode : response.code < 300) (hfollows : (r.accepted response sur).started →
      (r.accepted response sur).Follows (refreshesLater · response sur) sur) :
    ∃ r', r.processSuccess response sur = .ok r' ∧ Inv r' := by
  obtain ⟨hcalm, hover'⟩ := h.accepted hunarmed hover response sur
  obtain ⟨hidle, hopen⟩ := idle hover'
  have hvalid' : (r.accepted response sur).Valid sur := by
    unfold Refresher.Valid
    rw [hcalm.method]
    exact hvalid
  unfold Refresher.processSuccess
  generalize r.accepted response sur = r' at *
  have hquiet : ∀ r'' willRetry, Sane r'' → Sane (r''.notify response.code willRetry) :=
    fun r'' willRetry h'' => h''.notify fun herror => absurd herror (by omega)
  dsimp only
  split
  · next hstarted =>
    have hfollow := hfollows hstarted
    unfold Refresher.Follows at hfollow
    split
    · next fault hfault =>
      rw [hfault] at hfollow
      exact hfollow.elim
    · next acurate hacurate =>
      rw [hacurate] at hfollow
      dsimp only at hfollow
      by_cases hlater : refreshesLater acurate response sur = true
      · rw [if_pos hlater] at hfollow ⊢
        refine ⟨_, rfl, { hquiet _ true (hcalm.toSane.scheduleTimerAt hidle _ _) with
          opened := hopen
          alive := fun _ _ => .inl (armed_scheduleTimer hfollow) }⟩
      · rw [if_neg hlater] at hfollow ⊢
        obtain ⟨hcalm', hawaiting, hsent⟩ :=
          hcalm.toSane.refresh hopen hvalid' r'.targetExpires
        exact ⟨_, rfl, hcalm'.inv hopen (hawaiting (hsent hfollow))⟩
  · next hstopped =>
    exact ⟨_, rfl, { hquiet _ true hcalm.toSane with
      opened := hopen
      alive := fun hstarted => absurd hstarted hstopped }⟩

theorem Sane.retryOrNot (h : Sane r) (hunarmed : r.armed = false)
    (hidle : r.transaction.awaiting = false) (hopen : r.transaction.Open) (code : Int)
    {retry : Refresher → Refresher} (hretry : Retries r (retry r)) : Inv (r.retryOrNot code retry) := by
  unfold Refresher.retryOrNot
  split
  · exact (hretry.notify code).inv hopen
  · obtain ⟨hsane, halive⟩ := h.giveUp (not_retrying hunarmed hidle) code
    exact { hsane with opened := hopen, alive := halive }

/-- An error that is answered: it is followed by a request, a retry timer or the news that there is
none. -/
theorem Sane.processError (h : Sane r) (hunarmed : r.armed = false)
    (hover : r.transaction.state.isTransient = false) (hvalid : r.Valid sur) {response : Response}
    (hredirect : response.code = 301 ∨ response.code = 302 → response.contact.any (·.uri) ∧
      r.Sends sur.attempt ∧ r.Filled sur.attempt)
    (hchallenge : response.code = 401 ∨ response.code = 407 →
      if 0 < r.authFailures then 0 < r.targetExpires
      else r.Sends sur.attempt ∧ { r with authEvents := [] }.Filled sur.attempt)
    (hbrief : response.code = 423 → ∀ value, response.minExpires = some (some value) →
      0 < atoi value → r.started → r.Sends sur.attempt) : Inv (r.processError response sur) := by
  obtain ⟨hidle, hopen⟩ := idle hover
  have hlater := h.retryLater hidle
  have hsoon := h.retryLaterOnIoError hidle
  have hgiveUp : Inv (r.notify response.code false) := by
    obtain ⟨hsane, halive⟩ := h.giveUp (not_retrying hunarmed hidle) response.code
    exact { hsane with opened := hopen, alive := halive }
  unfold Refresher.processError
  dsimp only
  split
  · next hcode =>
    obtain ⟨huri, hsends, hfilled⟩ := hredirect hcode
    rw [if_pos huri]
    obtain ⟨hcalm, hawaiting, hsent⟩ :=
      h.refreshInternal hunarmed hopen hvalid r.targetExpires
    rw [if_pos (hsent hsends hfilled)]
    exact hcalm.inv hopen (hawaiting (hsent hsends hfilled))
  split
  · next hcode =>
    have hanswer := hchallenge hcode
    by_cases hfailed : 0 < r.authFailures
    · rw [if_pos hfailed] at hanswer
      rw [if_pos (by simpa using hfailed), if_pos hanswer]
      have hcount : Sane { r with authFailures := r.authFailures + 1 } := { h with }
      have hretry := hcount.retryLater hidle
      have hreset : Retries r
          { ({ r with authFailures := r.authFailures + 1 } : Refresher).retryLater with
            authFailures := 0 } :=
        { hretry with }
      exact (hreset.notify _).inv hopen
    · rw [if_neg hfailed] at hanswer
      rw [if_neg (by simpa using hfailed)]
      have hforget : Sane { r with authFailures := r.authFailures + 1, authEvents := [] } :=
        { h with }
      obtain ⟨hcalm, hawaiting, hsent⟩ :=
        hforget.refreshInternal hunarmed hopen hvalid r.targetExpires
      rw [if_pos (hsent hanswer.1 hanswer.2)]
      exact hcalm.inv hopen (hawaiting (hsent hanswer.1 hanswer.2))
  split
  · exact h.retryOrNot hunarmed hidle hopen _ hlater
  split
  · split
    · split
      · exact hsoon.inv hopen
      · exact hgiveUp
    · exact h.retryOrNot hunarmed hidle hopen _ hlater
  split
  · next hcode =>
    split
    · next value hvalue =>
      split
      · next hmin =>
        have hset : Sane { r with targetExpires := atoi value } := { h with }
        obtain ⟨hcalm, hawaiting, hsent⟩ := hset.refresh hopen hvalid (atoi value)
        exact hcalm.inv hopen (hawaiting (hsent (hbrief hcode value hvalue hmin.1 hmin.2)))
      · exact hgiveUp
    · exact hgiveUp
    · exact hgiveUp
  split
  · split
    · exact (h.retryAt hidle (by omega)).inv hopen
    · exact hgiveUp
  split
  · exact hgiveUp
  split
  · refine h.retryOrNot hunarmed hidle hopen _ ?_
    split
    · exact hsoon
    · exact hlater
  split
  · exact h.retryOrNot hunarmed hidle hopen _ hlater
  · exact hgiveUp

theorem Inv.response (h : Inv r) (hawaiting : r.transaction.awaiting) {response : Response}
    (hvalid : r.Valid sur) (hanswers : r.Answers response sur) :
    ∃ r', r.processResponseEvent response sur = .ok r' ∧ Inv r' := by
  obtain ⟨hsane, hunarmed, hopen, hover, hwaits⟩ := h.toSane.heard hawaiting response
  have hvalid' : (r.heard response).Valid sur := hvalid
  unfold Refresher.Answers at hanswers
  unfold Refresher.processResponseEvent
  split
  · next hcode =>
    rw [if_pos hcode] at hanswers
    exact hsane.processSuccess hunarmed (hover hcode.1) hvalid' hcode.2 hanswers
  · next hother =>
    rw [if_neg hother] at hanswers
    split
    · next hcode =>
      refine ⟨_, rfl, hsane.processError hunarmed (hover (by omega)) hvalid' ?_ ?_ ?_⟩
      · intro hredirect
        rwa [if_pos hredirect] at hanswers
      · intro hchallenge
        rw [if_neg (by omega), if_pos hchallenge] at hanswers
        exact hanswers
      · intro hbrief
        rw [if_neg (by omega), if_neg (by omega), if_pos hbrief] at hanswers
        exact hanswers
    · next hcode =>
      refine ⟨_, rfl, { hsane.notify (by omega) with
        opened := hopen
        alive := fun _ _ => .inr (.inl (hwaits (by omega))) }⟩

/-! ## Timeouts, errors and ends -/

/-- An outcome was reported: a started refresher with something to refresh has a timer, or has told that
nothing will follow. -/
structure Told (r r' : Refresher) : Prop extends Sane r' where
  kept : r'.started → 0 < r'.targetExpires → r'.armed ∨ r'.gaveUp
  unarmed : r'.started = false → r'.armed = false
  transaction : r'.transaction = r.transaction
  started : r'.started = r.started
  publishPending : r'.publishPending = r.publishPending
  dialog : r'.dialog = r.dialog
  firstAcknolegedRequest : r'.firstAcknolegedRequest = r.firstAcknolegedRequest

theorem Sane.told (h : Sane r) (hunarmed : r.armed = false)
    (hidle : r.transaction.awaiting = false) (code : Int) : Told r (r.notify code false) :=
  { (h.giveUp (not_retrying hunarmed hidle) code).1 with
    kept := fun _ _ => .inr rfl
    unarmed := fun _ => hunarmed
    transaction := rfl
    started := rfl
    publishPending := rfl
    dialog := rfl
    firstAcknolegedRequest := rfl }

theorem Retries.told (h : Retries r r') (hstarted : r.started = true) (code : Int) :
    Told r (r'.notify code true) :=
  { h.notify code with
    kept := fun _ _ => .inl h.armed
    unarmed := by
      rw [(h.notify code).started, hstarted]
      exact nofun }

theorem Sane.processTimeout (h : Sane r) (hidle : r.transaction.awaiting = false)
    (hunarmed : r.started = false → r.armed = false) : Told r r.processTimeout := by
  unfold Refresher.processTimeout
  dsimp only
  split
  · next hstarted =>
    have hretry := h.retryAt hidle (by decide : (0 : Int) ≤ 2000)
    rw [hretry.started, hstarted]
    exact hretry.told hstarted 408
  · next hstopped =>
    have hstopped : r.started = false := by simpa using hstopped
    rw [hstopped]
    exact h.told (hunarmed hstopped) hidle 408

theorem Sane.processTransactionError (h : Sane r) (hidle : r.transaction.awaiting = false)
    (hunarmed : r.armed = false) (herror : r.onIoError = false) :
    Told r r.processTransactionError := by
  have hstay : (r.started = true → r.targetExpires = 0) → Told r r := fun hnothing =>
    { h with
      kept := by
        intro hstarted htarget
        have := hnothing hstarted
        omega
      unarmed := fun _ => hunarmed
      transaction := rfl
      started := rfl
      publishPending := rfl
      dialog := rfl
      firstAcknolegedRequest := rfl }
  unfold Refresher.processTransactionError
  dsimp only
  rw [if_neg (by simp [herror])]
  split
  · next hlate => exact hstay fun hstarted => absurd hstarted hlate.1
  split
  · next hlate => exact hstay fun _ => hlate.1
  split
  · next hstarted =>
    have hretry := h.retryLaterOnIoError hidle
    rw [hretry.started, hstarted]
    exact hretry.told hstarted 503
  · next hstopped =>
    have hstopped : r.started = false := by simpa using hstopped
    rw [hstopped]
    exact h.told hunarmed hidle 503

theorem Told.trans {r₁ r₂ r₃ : Refresher} (h : Told r₁ r₂) (h' : Told r₂ r₃) : Told r₁ r₃ :=
  { h' with
    transaction := h'.transaction.trans h.transaction
    started := h'.started.trans h.started
    publishPending := h'.publishPending.trans h.publishPending
    dialog := h'.dialog.trans h.dialog
    firstAcknolegedRequest := h'.firstAcknolegedRequest.trans h.firstAcknolegedRequest }

theorem Sane.terminates (h : Sane r) (hkept : r.started → 0 < r.targetExpires → r.armed ∨ r.gaveUp)
    (hvalid : r.Valid sur) (hpublishes : r.Publishes sur) :
    Inv (r.terminate (·.processTransactionTerminated sur.nested)) := by
  obtain ⟨hsane, hopen, hawaiting, hnothing⟩ :=
    h.terminate.processTransactionTerminated (fun htransient => by cases htransient)
      fun hpublish => (hvalid hpublish).2
  refine { hsane with
    opened := hopen
    alive := ?_ }
  by_cases hpending : r.publishPending = true ∧ r.started = true
  · exact fun _ _ => .inr (.inl
      (hawaiting hpending.1 hpending.2 (hpublishes hpending.1 hpending.2)))
  · unfold Refresher.terminate
    dsimp only
    rw [hnothing hpending]
    intro hstarted htarget
    obtain harmed | hgaveUp := hkept hstarted htarget
    · exact .inl harmed
    · exact .inr (.inr hgaveUp)

theorem Told.publishes (h : Told r.over r') (hpublishes : r.Publishes sur) : r'.Publishes sur := by
  intro hpending hstarted
  rw [h.publishPending] at hpending
  rw [h.started] at hstarted
  obtain ⟨⟨request, hrequest⟩, hsent⟩ := hpublishes hpending hstarted
  refine ⟨⟨request, ?_⟩, hsent⟩
  rw [← hrequest]
  rw [h.dialog, h.transaction, h.firstAcknolegedRequest]
  rfl

theorem Sane.over (h : Sane r) : Sane r.over ∧ r.over.transaction.awaiting = false := by
  have hidle : r.over.transaction.awaiting = false := by simp [Refresher.over, awaiting]
  refine ⟨{ h with quiet := ?_, error := ?_ }, hidle⟩
  · intro hawaiting
    rw [hidle] at hawaiting
    cases hawaiting
  · intro hawaiting
    rw [hidle] at hawaiting
    cases hawaiting

theorem Told.terminates (h : Told r.over r') (hvalid : r.Valid sur) (hpublishes : r.Publishes sur) :
    Inv (r'.terminate (·.processTransactionTerminated sur.nested)) := by
  refine h.toSane.terminates h.kept ?_ (h.publishes hpublishes)
  unfold Refresher.Valid
  rw [h.transaction]
  exact hvalid

/-! ## Calls -/

theorem Inv.start (h : Inv r) (hvalid : r.Valid sur)
    (hfollows : r.started = false → 0 < r.targetExpires →
      r.transaction.awaiting = false ∧ r.Follows id sur) : ∃ r', r.start sur = .ok r' ∧ Inv r' := by
  unfold Refresher.start
  split
  · exact ⟨r, rfl, h⟩
  next hstopped =>
  split
  · next htarget =>
    obtain ⟨hidle, hfollow⟩ := hfollows (by simpa using hstopped) htarget
    have hstart : Sane { r with started := true } := { h with }
    unfold Refresher.Follows at hfollow
    split
    · next fault hfault =>
      rw [hfault] at hfollow
      exact hfollow.elim
    · next hacurate =>
      rw [hacurate] at hfollow
      exact ⟨_, rfl, { hstart.scheduleTimerAt hidle _ _ with
        opened := h.opened
        alive := fun _ _ => .inl (armed_scheduleTimer hfollow) }⟩
    · next hacurate =>
      rw [hacurate] at hfollow
      obtain ⟨hcalm, hawaiting, hsent⟩ := hstart.refresh h.opened hvalid r.targetExpires
      exact ⟨_, rfl, hcalm.inv h.opened (hawaiting (hsent hfollow))⟩
  · exact ⟨_, rfl, { h with alive := nofun }⟩

theorem Inv.stop (h : Inv r) (hvalid : r.Valid sur) : Inv (r.stop sur) := by
  have hcancel : Sane r.cancelRetry := { h with quiet := fun _ => rfl }
  have hstop : ∀ r', Sane r' → r'.transaction.Open → Inv { r' with started := false } :=
    fun r' h' hopen => { h' with opened := hopen, alive := nofun }
  unfold Refresher.stop
  dsimp only
  split
  · obtain ⟨hsane, hopen, -, -⟩ :=
      hcancel.terminate.processTransactionTerminated (fun htransient => by cases htransient)
        fun hpublish => (hvalid hpublish).2
    exact hstop _ hsane hopen
  · exact hstop _ hcancel h.opened

/-! ## Runs -/

/-- A step that meets its conditions keeps the invariant. -/
theorem Inv.step (h : Inv r) {step : Step} (hallows : r.Allows step) :
    ∃ r', r.step step = .ok r' ∧ Inv r' := by
  cases step with
  | response response sur =>
    dsimp only [Refresher.step]
    split
    · next hawaiting => exact h.response hawaiting hallows.1 hallows.2
    · exact ⟨_, rfl, h⟩
  | timeout sur =>
    dsimp only [Refresher.step]
    split
    · next hawaiting =>
      obtain ⟨hover, hidle⟩ := h.toSane.over
      have htold := hover.processTimeout hidle fun _ => h.quiet hawaiting
      exact ⟨_, rfl, htold.terminates hallows.1 hallows.2⟩
    · exact ⟨_, rfl, h⟩
  | transactionError timedOut sur =>
    dsimp only [Refresher.step]
    split
    · next hawaiting =>
      obtain ⟨hover, hidle⟩ := h.toSane.over
      have herror :=
        hover.processTransactionError hidle (h.quiet hawaiting) (h.error hawaiting)
      refine ⟨_, rfl, ?_⟩
      split
      · have htimeout := herror.toSane.processTimeout (by rw [herror.transaction]; exact hidle)
          herror.unarmed
        exact (herror.trans htimeout).terminates hallows.1 hallows.2
      · exact herror.terminates hallows.1 hallows.2
    · exact ⟨_, rfl, h⟩
  | providerError lost =>
    refine ⟨_, rfl, ?_⟩
    unfold Refresher.processProviderError
    split
    · next hlost =>
      have hover : r.transaction.state.isTransient = false := by rw [hlost.2.2.1]; rfl
      obtain ⟨hidle, hopen⟩ := idle hover
      have hretry := (h.toSane.retryLaterOnIoError hidle).notify 503
      have hwaits : r.retryLaterOnIoError.transaction.awaiting = false := by
        have := hretry.transaction
        rw [show r.retryLaterOnIoError.transaction = r.transaction from this]
        exact hidle
      have hflag : Retries r { r.retryLaterOnIoError.notify 503 true with onIoError := true } :=
        { hretry with
          error := fun hawaiting => by
            have := hwaits.symm.trans hawaiting
            cases this }
      exact hflag.inv hopen
    · exact h
  | terminated sur =>
    dsimp only [Refresher.step]
    split
    · next hcompleted =>
      have hover : r.transaction.state.isTransient = false := by rw [hcompleted]; rfl
      refine ⟨_, rfl, h.toSane.terminates ?_ hallows.1 hallows.2⟩
      intro hstarted htarget
      have := h.alive hstarted htarget
      rw [(idle hover).1] at this
      simpa using this
    · exact ⟨_, rfl, h⟩
  | dialogTerminated mine expired =>
    refine ⟨_, rfl, ?_⟩
    unfold Refresher.processDialogTerminated
    split
    · next hended =>
      have hretrying := hallows hended.1 hended.2.1 hended.2.2
      refine { h.toSane.notify fun _ => hretrying.symm with
        opened := h.opened
        alive := ?_ }
      intro _ _
      have hkept : r.armed = true ∧ r.timerPurpose = .retry ∨ r.transaction.awaiting = true := by
        simpa [Refresher.retrying] using hretrying
      obtain ⟨harmed, -⟩ | hawaiting := hkept
      · exact .inl harmed
      · exact .inr (.inl hawaiting)
    · exact h
  | timer sur =>
    refine ⟨_, rfl, ?_⟩
    split
    · next harmed =>
      have hidle : r.transaction.awaiting = false := by
        cases hawaiting : r.transaction.awaiting with
        | false => rfl
        | true =>
          rw [h.quiet hawaiting] at harmed
          cases harmed
      unfold Refresher.timerCb
      split
      · exact { h.toSane.notify fun hcode => absurd hcode (by decide) with
            quiet := fun hawaiting => by
              have := hidle.symm.trans hawaiting
              cases this
            opened := h.opened
            alive := fun _ _ => .inr (.inr rfl) }
      · obtain ⟨hcalm, hawaiting, hsends⟩ :=
          h.toSane.refresh h.opened hallows.1 r.targetExpires
        dsimp only
        split
        · next hsent => exact hcalm.inv h.opened (hawaiting hsent)
        · next hsent =>
          have hpending : r.publishPending = false := by
            cases hpending : r.publishPending with
            | false => rfl
            | true => exact absurd (hsends (hallows.2 hpending)) hsent
          have hnone : (r.refresh r.targetExpires sur).2.transaction.awaiting = false :=
            idle_refreshInternalWith quiet_processTransactionTerminated (by exact hpending)
              (by exact hidle) r.targetExpires false false (Bool.eq_false_iff.mpr hsent)
          have hlater := hcalm.toSane.retryLater hnone
          exact hlater.inv (hcalm.opened h.opened)
    · exact h
  | refresh expires sur =>
    obtain ⟨hcalm, hawaiting, -⟩ := h.toSane.refresh h.opened hallows expires
    dsimp only [Refresher.step]
    refine ⟨_, rfl, ?_⟩
    split
    · next hsent => exact hcalm.inv h.opened (hawaiting hsent)
    · exact { hcalm with
        opened := hcalm.opened h.opened
        alive := fun _ _ => .inr (.inr rfl) }
  | start sur => exact h.start hallows.1 hallows.2
  | stop sur => exact ⟨_, rfl, h.stop hallows⟩
  | setRetryAfter delay => exact ⟨_, rfl, { h with delay := hallows }⟩
  | enableManualMode enabled => exact ⟨_, rfl, { h with }⟩

/-- Each step of a run meets its conditions in the state before it. -/
def Refresher.AllowsAll : Refresher → List Step → Prop
  | _, [] => True
  | r, step :: steps => r.Allows step ∧ ∀ r', r.step step = .ok r' → r'.AllowsAll steps

theorem Inv.run (h : Inv r) {steps : List Step} (hallows : r.AllowsAll steps) :
    ∃ r', r.run steps = .ok r' ∧ Inv r' := by
  induction steps generalizing r with
  | nil => exact ⟨r, rfl, h⟩
  | cons step steps ih =>
    obtain ⟨r', hstep, h'⟩ := h.step hallows.1
    unfold Refresher.run
    rw [hstep]
    exact ih h' (hallows.2 r' hstep)

end GrooveIp.Sip.Refresh
