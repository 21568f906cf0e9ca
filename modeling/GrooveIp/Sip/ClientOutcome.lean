import GrooveIp.Lib.Fuelled
import GrooveIp.Sip.ClientTransaction
import Mathlib.Logic.Relation

/-!
# A client transaction reports one outcome

What a listener may be told forms a small automaton: provisional responses first, then one outcome,
or the successes of an INVITE, then the termination. The reports of every run follow it, as long as
no channel is lost after the time-out of a REGISTER was handed over to it (`transaction.c:286–290`).
The I/O error of an INVITE transaction is no outcome: the transaction lives on to be repaired.
-/

namespace GrooveIp.Sip

open Lib List TransactionState ClientRun

/-! ## Outcomes -/

/-- A final response, a time-out or an I/O error. -/
def Report.isFinal : Report → Bool
  | .response code => code ≥ 200
  | .timeout | .ioError => true
  | .terminated => false

/-- A provisional response. -/
def Report.isProvisional : Report → Bool
  | .response code => code < 200
  | .timeout | .ioError | .terminated => false

/-- A response of class 2xx. -/
def Report.isSuccess : Report → Bool
  | .response code => code ≥ 200 && code < 300
  | .timeout | .ioError | .terminated => false

/-- At most one outcome, where repeated successes of an INVITE count as one, no provisional response
after it, and nothing after the termination. -/
structure OneOutcome (invite : Bool) (outcome : Report → Bool) (reports : List Report) : Prop where
  once : reports.Pairwise fun e e' => outcome e = true → e'.isFinal = true →
    invite = true ∧ e.isSuccess = true ∧ e'.isSuccess = true
  provisional : reports.Pairwise fun e e' => outcome e = true → e'.isProvisional = false
  last : reports.Pairwise fun e _ => e ≠ .terminated

/-- The outcomes, when the I/O error of an INVITE transaction is none. -/
def isOutcome (invite : Bool) : Report → Bool
  | .ioError => !invite
  | report => report.isFinal

/-! ## The order of reports -/

/-- What a listener has been told: nothing final, a success of an INVITE, another outcome, or that
the transaction is terminated. -/
inductive Phase where
  | pending
  | accepted
  | done
  | ended
  deriving DecidableEq, Repr

open Phase

/-- The phase after a report that may come in a phase. -/
def Phase.next (invite : Bool) : Phase → Report → Option Phase
  | .ended, _ => none
  | .pending, .terminated | .accepted, .terminated | .done, .terminated => some .ended
  | .pending, .response code =>
    some (if code < 200 then .pending else if invite ∧ code < 300 then .accepted else .done)
  | .pending, .timeout => some .done
  | .pending, .ioError => some (if invite then .pending else .done)
  | .accepted, .response code => if code ≥ 200 ∧ code < 300 then some .accepted else none
  | .accepted, .timeout | .accepted, .ioError => none
  | .done, _ => none

/-- A report that may come after another one. -/
def Follows (invite : Bool) (e e' : Report) : Prop :=
  e ≠ .terminated ∧ (isOutcome invite e = true →
    e' = .terminated ∨ invite = true ∧ e.isSuccess = true ∧ e'.isSuccess = true)

/-- What may come in a phase. -/
def Phase.Allows (invite : Bool) : Phase → Report → Prop
  | .pending, _ => True
  | .accepted, e => e = .terminated ∨ invite = true ∧ e.isSuccess = true
  | .done, e => e = .terminated
  | .ended, _ => False

variable {invite : Bool} {phase phase' : Phase} {report : Report} {reports : List Report}

theorem Phase.next_accepted (h : phase.next invite report = some phase')
    (accepted : phase = .accepted → invite = true) (heq : phase' = .accepted) : invite = true := by
  subst heq
  cases phase with
  | accepted => exact accepted rfl
  | pending =>
    cases report with
    | response code =>
      simp only [Phase.next, Option.some.injEq] at h
      split at h
      · cases h
      · split at h
        · next hinvite => exact hinvite.1
        · cases h
    | ioError =>
      simp only [Phase.next, Option.some.injEq] at h
      split at h <;> cases h
    | timeout => cases h
    | terminated => cases h
  | done => cases report <;> cases h
  | ended => cases h

theorem Phase.allows_of_next (h : phase.next invite report = some phase')
    (accepted : phase = .accepted → invite = true) : phase.Allows invite report := by
  cases phase with
  | pending => trivial
  | accepted =>
    cases report with
    | response code =>
      simp only [Phase.next] at h
      split at h
      · next hcode => exact .inr ⟨accepted rfl, by simpa [Report.isSuccess] using hcode⟩
      · cases h
    | terminated => exact .inl rfl
    | timeout => cases h
    | ioError => cases h
  | done =>
    cases report with
    | terminated => rfl
    | response => cases h
    | timeout => cases h
    | ioError => cases h
  | ended => cases h

variable {e : Report}

theorem Phase.Allows.of_next (h : phase.next invite report = some phase')
    (he : phase'.Allows invite e) : phase.Allows invite e := by
  cases phase with
  | pending => trivial
  | accepted =>
    cases report with
    | response code =>
      simp only [Phase.next] at h
      split at h
      · cases h
        exact he
      · cases h
    | terminated =>
      cases h
      exact he.elim
    | timeout => cases h
    | ioError => cases h
  | done =>
    cases report with
    | terminated =>
      cases h
      exact he.elim
    | response => cases h
    | timeout => cases h
    | ioError => cases h
  | ended => cases h

/-- What the phase after a report allows may follow the report. -/
theorem Phase.Allows.follows (h : phase.next invite report = some phase')
    (he : phase'.Allows invite e) : Follows invite report e := by
  cases report with
  | response code =>
    refine ⟨by simp, fun houtcome => ?_⟩
    have final : 200 ≤ code := by simpa [isOutcome, Report.isFinal] using houtcome
    cases phase with
    | pending =>
      simp only [Phase.next, Option.some.injEq] at h
      rw [if_neg (by omega)] at h
      split at h
      · next hcode =>
        subst h
        rcases he with rfl | he
        · exact .inl rfl
        · refine .inr ⟨he.1, ?_, he.2⟩
          simp [Report.isSuccess, final, hcode.2]
      · subst h
        exact .inl he
    | accepted =>
      simp only [Phase.next] at h
      split at h
      · next hcode =>
        cases h
        rcases he with rfl | he
        · exact .inl rfl
        · refine .inr ⟨he.1, ?_, he.2⟩
          simp [Report.isSuccess, hcode.1, hcode.2]
      · cases h
    | done => cases h
    | ended => cases h
  | timeout =>
    refine ⟨by simp, fun _ => .inl ?_⟩
    cases phase with
    | pending =>
      cases h
      exact he
    | accepted => cases h
    | done => cases h
    | ended => cases h
  | ioError =>
    refine ⟨by simp, fun houtcome => .inl ?_⟩
    have hinvite : invite = false := by simpa [isOutcome] using houtcome
    cases phase with
    | pending =>
      rw [Phase.next, hinvite] at h
      cases h
      exact he
    | accepted => cases h
    | done => cases h
    | ended => cases h
  | terminated =>
    cases phase with
    | pending =>
      cases h
      exact he.elim
    | accepted =>
      cases h
      exact he.elim
    | done =>
      cases h
      exact he.elim
    | ended => cases h

theorem pairwise_follows (h : reports.foldlM (Phase.next invite) phase = some phase')
    (accepted : phase = .accepted → invite = true) :
    (∀ e ∈ reports, phase.Allows invite e) ∧ reports.Pairwise (Follows invite) := by
  induction reports generalizing phase with
  | nil => exact ⟨by simp, .nil⟩
  | cons report reports ih =>
    obtain ⟨middle, hnext, hrest⟩ := Option.bind_eq_some_iff.mp h
    obtain ⟨allowed, pairwise⟩ := ih hrest (next_accepted hnext accepted)
    constructor
    · intro e he
      rcases mem_cons.mp he with rfl | he
      · exact allows_of_next hnext accepted
      · exact (allowed e he).of_next hnext
    · exact pairwise_cons.mpr ⟨fun e he => (allowed e he).follows hnext, pairwise⟩

theorem oneOutcome_of_follows (h : reports.Pairwise (Follows invite)) :
    OneOutcome invite (isOutcome invite) reports where
  once := h.imp fun follows houtcome hfinal => by
    rcases follows.2 houtcome with rfl | hsuccess
    · cases hfinal
    · exact hsuccess
  provisional := h.imp fun {e e'} follows houtcome => by
    rcases follows.2 houtcome with rfl | ⟨-, -, hsuccess⟩
    · rfl
    · cases e' with
      | response code =>
        have hcode : 200 ≤ code ∧ code < 300 := by simpa [Report.isSuccess] using hsuccess
        simp [Report.isProvisional, hcode.1]
      | timeout => rfl
      | ioError => rfl
      | terminated => rfl
  last := h.imp And.left

/-! ## The phase of a run -/

/-- What the phase of the reports says about the state of a transaction. -/
def Phase.Fits (state : TransactionState) (invite : Bool) : Phase → Prop
  | .pending => state ≠ .terminated
  | .accepted => state = .accepted ∧ invite = true
  | .done => state = .completed
  | .ended => state = .terminated

/-- The reports of a transaction have come to a phase. -/
def Told (run : ClientRun) (phase : Phase) : Prop :=
  run.reports.foldlM (Phase.next run.isInvite) .pending = some phase

/-- The reports of a transaction are in order and fit its state. -/
def Tracks (run : ClientRun) : Prop :=
  ∃ phase, Told run phase ∧ phase.Fits run.state run.isInvite

variable {run run' : ClientRun} {reaction : Reaction}

theorem Told.congr (h : Told run phase) (method : run'.method = run.method)
    (reports : run'.reports = run.reports) : Told run' phase := by
  have invite : run'.isInvite = run.isInvite := by simp [ClientTransaction.isInvite, method]
  rw [Told, reports, invite]
  exact h

theorem Tracks.congr (h : Tracks run) (method : run'.method = run.method)
    (state : run'.state = run.state) (reports : run'.reports = run.reports) : Tracks run' := by
  obtain ⟨phase, told, fits⟩ := h
  have invite : run'.isInvite = run.isInvite := by simp [ClientTransaction.isInvite, method]
  exact ⟨phase, told.congr method reports, by rwa [state, invite]⟩

theorem Told.concat (h : Told run phase) (hnext : phase.next run.isInvite e = some phase') :
    Told { run with reports := run.reports ++ [e] } phase' := by
  have fold : (run.reports ++ [e]).foldlM (Phase.next run.isInvite) .pending = some phase' := by
    rw [foldlM_append, show run.reports.foldlM _ _ = some phase from h]
    simpa using hnext
  exact fold

theorem Told.terminate (h : Told run phase) (ended : phase = .ended ↔ run.state = .terminated) :
    Tracks run.terminate := by
  unfold ClientRun.terminate
  split
  · next hstate =>
    obtain rfl := ended.mpr hstate
    exact ⟨.ended, h, hstate⟩
  · next hstate =>
    have hnext : phase.next run.isInvite .terminated = some .ended := by
      cases phase with
      | ended => exact absurd (ended.mp rfl) hstate
      | pending => rfl
      | accepted => rfl
      | done => rfl
    exact ⟨.ended, h.concat hnext, rfl⟩

theorem Phase.Fits.over_iff {state : TransactionState} (h : phase.Fits state invite) :
    phase = .ended ↔ state = .terminated := by
  cases phase with
  | pending =>
    have hstate : state ≠ .terminated := h
    simp [hstate]
  | accepted => simp [h.1]
  | done => simp [show state = .completed from h]
  | ended => simp [show state = .terminated from h]

theorem Tracks.terminate (h : Tracks run) : Tracks run.terminate := by
  obtain ⟨phase, told, fits⟩ := h
  exact told.terminate fits.over_iff

theorem Told.tracks_report (h : Told run phase)
    (hnext : phase.next run.isInvite e = some phase') (fits : phase'.Fits run.state run.isInvite) :
    Tracks (run.report reaction e) := by
  have tracks : Tracks { run with reports := run.reports ++ [e] } :=
    ⟨phase', h.concat hnext, fits⟩
  unfold report
  split
  · exact tracks.terminate
  · exact tracks

variable {code : Int} {absorbed : Bool}

theorem Told.tracks_notifyResponse (h : Told run phase)
    (hnext : phase.next run.isInvite (.response code) = some phase')
    (before : phase.Fits run.state run.isInvite) (after : phase'.Fits run.state run.isInvite) :
    Tracks (notifyResponse reaction run code absorbed) := by
  have told : Told { run with lastResponse := some code } phase := h
  unfold notifyResponse
  split
  · exact ⟨phase, told, before⟩
  · exact told.tracks_report hnext after

theorem Tracks.pending (h : Tracks run) (transient : run.state.isTransient = true) :
    Told run .pending := by
  obtain ⟨phase, told, fits⟩ := h
  cases phase with
  | pending => exact told
  | accepted => simp [fits.1, isTransient] at transient
  | done => simp [show run.state = .completed from fits, isTransient] at transient
  | ended => simp [show run.state = .terminated from fits, isTransient] at transient

/-! ## The handlers -/

theorem Tracks.queueMessage (h : Tracks run) {message : ClientMessage}
    (returned : run.queueMessage message = .ok run') : Tracks run' := by
  unfold ClientRun.queueMessage at returned
  obtain ⟨channel, hchannel, returned⟩ := bind_eq_ok.mp returned
  cases returned
  exact h.congr rfl rfl rfl

theorem queueMessage_eq {message : ClientMessage} (returned : run.queueMessage message = .ok run') :
    run' = { run with queued := run.queued ++ [message] } := by
  unfold ClientRun.queueMessage at returned
  obtain ⟨channel, hchannel, returned⟩ := bind_eq_ok.mp returned
  exact (Except.ok.inj returned).symm

theorem Tracks.notifyTimeout (h : Tracks run) (transient : run.state.isTransient = true)
    {channelDead : Bool} (returned : notifyTimeout reaction run channelDead = .ok run') :
    Tracks run' := by
  unfold Sip.notifyTimeout at returned
  split at returned
  · obtain ⟨channel, hchannel, returned⟩ := bind_eq_ok.mp returned
    cases returned
    split
    · exact h.congr rfl rfl rfl
    · exact h
  · cases returned
    -- the state is still transient while the listener is told, so that only the termination follows
    have told : Told { run with reports := run.reports ++ [Report.timeout] } .done :=
      (h.pending transient).concat rfl
    have ended : Phase.done = .ended ↔ run.state = .terminated := by
      constructor
      · exact fun h => by cases h
      · intro hstate
        simp [hstate, isTransient] at transient
    unfold report
    split
    · exact (told.terminate ended).terminate
    · exact told.terminate ended

/-- `ict_on_response`. -/
theorem Tracks.ictOnResponse (h : Tracks run) (invite : run.isInvite = true)
    (returned : ictOnResponse reaction run code absorbed = .ok run') : Tracks run' := by
  unfold Sip.ictOnResponse at returned
  have start : ∃ start : ClientRun, (if run.state = .calling then
      { run with state := .proceeding } else run) = start ∧ Tracks start ∧
      start.isInvite = true := by
    split
    · next hstate =>
      refine ⟨_, rfl, ⟨.pending, h.pending (by simp [hstate, isTransient]), ?_⟩,
        invite⟩
      simp [Phase.Fits]
    · exact ⟨run, rfl, h, invite⟩
  obtain ⟨start, hstart, tracks, hinvite⟩ := start
  rw [hstart] at returned
  dsimp only at returned
  split at returned
  · next hstate =>
    have told := tracks.pending (by simp [hstate, isTransient])
    split at returned
    · next hcode =>
      obtain ⟨queued, hqueue, returned⟩ := bind_eq_ok.mp returned
      cases returned
      obtain rfl := queueMessage_eq hqueue
      have hnext : Phase.next start.isInvite .pending (.response code) = some .done := by
        simp [Phase.next, show ¬ code < 200 by omega, show ¬ code < 300 by omega]
      have completed : Told { start with
          state := .completed, ack := true, queued := start.queued ++ [.ack] } .pending := told
      have notified : Tracks (notifyResponse reaction { start with
          state := .completed, ack := true, queued := start.queued ++ [.ack] } code absorbed) :=
        completed.tracks_notifyResponse hnext (by simp [Phase.Fits]) rfl
      exact notified.congr rfl rfl rfl
    · split at returned
      · next hcode hcode' =>
        cases returned
        have hnext : Phase.next start.isInvite .pending (.response code) = some .accepted := by
          simp [Phase.next, show ¬ code < 200 by omega, show code < 300 by omega, hinvite]
        have accepted : Told { start.startTimer .M with state := .accepted } .pending := told
        exact accepted.tracks_notifyResponse hnext (by simp [Phase.Fits]) ⟨rfl, hinvite⟩
      · split at returned
        · next hcode hcode' hcode'' =>
          cases returned
          have hnext : Phase.next start.isInvite .pending (.response code) = some .pending := by
            simp [Phase.next, show code < 200 by omega]
          exact told.tracks_notifyResponse hnext (by simp [Phase.Fits, hstate])
            (by simp [Phase.Fits, hstate])
        · cases returned
          exact tracks
  · next hstate =>
    split at returned
    · next hcode =>
      cases returned
      obtain ⟨phase, told, fits⟩ := tracks
      cases phase with
      | pending =>
        have hnext : Phase.next start.isInvite .pending (.response code) = some .accepted := by
          simp [Phase.next, show ¬ code < 200 by omega, show code < 300 by omega, hinvite]
        exact told.tracks_notifyResponse hnext fits ⟨hstate, hinvite⟩
      | accepted =>
        have hnext : Phase.next start.isInvite .accepted (.response code) = some .accepted := by
          simp [Phase.next, hcode.1, hcode.2]
        exact told.tracks_notifyResponse hnext fits fits
      | done => simp [show start.state = .completed from fits] at hstate
      | ended => simp [show start.state = .terminated from fits] at hstate
    · cases returned
      exact tracks
  · split at returned
    · exact tracks.queueMessage returned
    · cases returned
      exact tracks
  · cases returned
    exact tracks

theorem Tracks.nictSetCompleted (h : Tracks run)
    (transient : run.state.isTransient = true) (other : run.isInvite = false) (hcode : 200 ≤ code)
    (returned : nictSetCompleted reaction run code absorbed = .ok run') : Tracks run' := by
  have completed : Told { run with state := .completed } .pending := h.pending transient
  have hnext : Phase.next run.isInvite .pending (.response code) = some .done := by
    simp [Phase.next, show ¬ code < 200 by omega, other]
  have notified : Tracks (notifyResponse reaction { run with state := .completed } code absorbed) :=
    completed.tracks_notifyResponse hnext (by simp [Phase.Fits]) rfl
  unfold Sip.nictSetCompleted at returned
  split at returned
  · cases returned
  · dsimp only at returned
    generalize notifyResponse reaction { run with state := .completed } code absorbed = notifiedRun
      at notified returned
    obtain ⟨channel, hchannel, returned⟩ := bind_eq_ok.mp returned
    cases returned
    split
    · exact notified.terminate
    · exact notified.congr rfl rfl rfl

theorem Tracks.nictOnResponse (h : Tracks run) (other : run.isInvite = false)
    (returned : nictOnResponse reaction run code absorbed = .ok run') : Tracks run' := by
  unfold Sip.nictOnResponse at returned
  split at returned
  · next hstate =>
    have transient : run.state.isTransient = true := by
      simp [hstate, isTransient]
    split at returned
    · next hcode =>
      cases returned
      have proceeding : Told { run with state := .proceeding } .pending := h.pending transient
      have hnext : Phase.next run.isInvite .pending (.response code) = some .pending := by
        simp [Phase.next, hcode]
      exact proceeding.tracks_notifyResponse hnext (by simp [Phase.Fits]) (by simp [Phase.Fits])
    · next hcode => exact h.nictSetCompleted transient other (by omega) returned
  · next hstate =>
    split at returned
    · next hcode =>
      exact h.nictSetCompleted (by simp [hstate, isTransient]) other hcode returned
    · cases returned
      exact h
  · cases returned
    exact h

/-- The timers. -/
theorem Tracks.clientOnTimer (h : Tracks run) {channelDead : Bool} {timer : ClientTimer}
    (returned : clientOnTimer reaction run channelDead timer = .ok run') : Tracks run' := by
  cases timer with
  | A =>
    simp only [Sip.clientOnTimer, ictOnTimerA] at returned
    split at returned
    · cases returned
      exact h.congr rfl rfl rfl
    · split at returned
      · exact h.queueMessage returned
      · cases returned
        exact h
  | B =>
    simp only [Sip.clientOnTimer, ictOnTimerB] at returned
    split at returned
    · next hstate =>
      obtain ⟨timed, htimeout, returned⟩ := bind_eq_ok.mp returned
      cases returned
      have tracks := h.notifyTimeout (by simp [hstate, isTransient]) htimeout
      exact tracks.congr rfl rfl rfl
    · simp only [bind, Except.bind] at returned
      cases returned
      exact h.congr rfl rfl rfl
  | D =>
    cases returned
    unfold ictOnTimerD
    split
    · exact h.terminate.congr rfl rfl rfl
    · exact h.congr rfl rfl rfl
  | M =>
    cases returned
    unfold ictOnTimerM
    split
    · exact h.terminate.congr rfl rfl rfl
    · exact h.congr rfl rfl rfl
  | E =>
    simp only [Sip.clientOnTimer, nictOnTimerE] at returned
    split at returned
    · exact h.queueMessage returned
    · cases returned
      exact h.congr rfl rfl rfl
  | F =>
    simp only [Sip.clientOnTimer, nictOnTimerF] at returned
    split at returned
    · next hstate =>
      obtain ⟨timed, htimeout, returned⟩ := bind_eq_ok.mp returned
      cases returned
      have transient : run.state.isTransient = true := by
        rcases hstate with hstate | hstate
        · simp [hstate, isTransient]
        · simp [hstate, isTransient]
      exact (h.notifyTimeout transient htimeout).congr rfl rfl rfl
    · simp only [bind, Except.bind] at returned
      cases returned
      exact h.congr rfl rfl rfl
  | K =>
    cases returned
    exact h.terminate.congr rfl rfl rfl

theorem Tracks.sendRequest (h : Tracks run) (hstate : run.state = .init)
    (returned : sendRequest run = .ok run') : Tracks run' := by
  have told := h.pending (by simp [hstate, isTransient])
  -- the new state is transient, so that nothing final has been told in it either
  have fresh : ∀ next : ClientRun, next.method = run.method → next.reports = run.reports →
      next.state ≠ .terminated → Tracks next :=
    fun next method reports hne => ⟨.pending, told.congr method reports, hne⟩
  unfold Sip.sendRequest at returned
  split at returned
  · unfold ictSendRequest at returned
    obtain ⟨channel, hchannel, returned⟩ := bind_eq_ok.mp returned
    split at returned
    · apply Tracks.queueMessage _ returned
      exact fresh _ rfl rfl (by simp [startTimer])
    · apply Tracks.queueMessage _ returned
      exact fresh _ rfl rfl (by simp [startTimer])
  · unfold nictSendRequest at returned
    obtain ⟨channel, hchannel, returned⟩ := bind_eq_ok.mp returned
    split at returned
    · apply Tracks.queueMessage _ returned
      exact fresh _ rfl rfl (by simp [startTimer])
    · apply Tracks.queueMessage _ returned
      exact fresh _ rfl rfl (by simp [startTimer])

/-- What holds once a transaction has been told that its channel is lost. -/
def Bereft (run : ClientRun) : Prop :=
  ∃ phase, Told run phase ∧ (phase = .ended ↔ run.state = .terminated) ∧
    (run.state.isTransient = true → run.isInvite = true → phase = .pending)

theorem Tracks.bereft (h : Tracks run) : Bereft run := by
  by_cases transient : run.state.isTransient = true
  · refine ⟨.pending, h.pending transient, ?_, fun _ _ => rfl⟩
    constructor
    · exact fun heq => by cases heq
    · intro hstate
      simp [hstate, isTransient] at transient
  · obtain ⟨phase, told, fits⟩ := h
    exact ⟨phase, told, fits.over_iff, fun h => absurd h transient⟩

theorem Tracks.report_ioError (h : Tracks run) (transient : run.state.isTransient = true) :
    Bereft (run.report reaction .ioError) := by
  have told := (h.pending transient).concat (e := .ioError) rfl
  have ended : (if run.isInvite = true then Phase.pending else Phase.done) = .ended ↔
      run.state = .terminated := by
    constructor
    · intro heq
      split at heq <;> cases heq
    · intro hstate
      simp [hstate, isTransient] at transient
  unfold report
  split
  · exact (told.terminate ended).bereft
  · exact ⟨_, told, ended, fun _ invite => if_pos invite⟩

theorem Bereft.awaitRepair (h : Bereft run) : Tracks (clientAwaitRepair run) := by
  obtain ⟨phase, told, ended, fits⟩ := h
  unfold clientAwaitRepair
  split
  · next hwait =>
    simp only [Bool.and_eq_true] at hwait
    obtain rfl := fits hwait.1.2 hwait.2
    refine ⟨.pending, told, fun hstate => ?_⟩
    cases ended.mpr hstate
  · exact (told.terminate ended).congr rfl rfl rfl

theorem Bereft.reportTimeout (h : Bereft run) (intime : run.timedOut = false) :
    Bereft (clientReportTimeout reaction run) := by
  unfold clientReportTimeout
  rw [if_neg (by simp [intime])]
  split
  · exact h
  · exact h

/-- A report does not hand a time-out over. -/
@[simp] theorem report_timedOut (run : ClientRun) (reaction : Reaction) (e : Report) :
    (run.report reaction e).timedOut = run.timedOut := by
  unfold report ClientRun.terminate
  dsimp only
  split
  · split <;> rfl
  · rfl

theorem Tracks.clientChannelLost (h : Tracks run) (intime : run.timedOut = false) :
    Tracks (clientChannelLost reaction run) := by
  unfold Sip.clientChannelLost
  split
  · next transient =>
    have bereft : Bereft (run.report reaction .ioError) := h.report_ioError transient
    exact (bereft.reportTimeout (by simp [intime])).awaitRepair
  · exact (h.bereft.reportTimeout intime).awaitRepair

/-- No channel is lost after a time-out was handed over to it. -/
def KeepsTimeout (run : ClientRun) : ClientEvent → Prop
  | .channelState state => (state = .error ∨ state = .disconnected) → run.timedOut = false
  | _ => True

/-- Every event keeps the reports in order. -/
theorem Tracks.clientEvent (h : Tracks run) {event : ClientEvent} (keeps : KeepsTimeout run event)
    (returned : clientEvent reaction run event = .ok run') : Tracks run' := by
  cases event with
  | sendRequest found =>
    simp only [Sip.clientEvent, clientTransactionSendRequestTo] at returned
    split at returned
    · cases returned
      exact h
    · next hcond =>
      split at returned
      · cases returned
        exact h.terminate
      · split at returned
        · cases returned
          exact h
        · have listed : Tracks { run with listed := true } := h.congr rfl rfl rfl
          split at returned
          · cases returned
            exact listed.terminate
          · next channel state _ =>
            have ready : Tracks { run with listed := true, channel := some channel } :=
              h.congr rfl rfl rfl
            split at returned
            · have hstate : run.state = .init := Decidable.of_not_not fun hne => hcond (.inl hne)
              exact ready.sendRequest hstate returned
            · cases returned
              exact ready
  | response code absorbed found =>
    simp only [Sip.clientEvent, dispatchResponse] at returned
    have reached : Tracks { run with channel := run.channel <|> found } := h.congr rfl rfl rfl
    split at returned
    · split at returned
      · split at returned
        · next invite => exact reached.ictOnResponse invite returned
        · next other => exact reached.nictOnResponse (by simpa using other) returned
      · cases returned
        exact reached
    · cases returned
      exact h
  | timer timer channelDead =>
    simp only [Sip.clientEvent] at returned
    split at returned
    · exact h.clientOnTimer returned
    · cases returned
      exact h
  | callRepair =>
    cases returned
    split
    · exact h.terminate
    · exact h
  | channelState state =>
    simp only [Sip.clientEvent] at returned
    split at returned
    · cases state with
      | ready =>
        simp only [clientOnChannelStateChanged] at returned
        split at returned
        · next hstate => exact h.sendRequest hstate returned
        · cases returned
          exact h
      | error =>
        cases returned
        exact h.clientChannelLost (keeps (.inl rfl))
      | disconnected =>
        cases returned
        exact h.clientChannelLost (keeps (.inr rfl))
      | _ =>
        cases returned
        exact h
    · cases returned
      exact h
  | terminate =>
    cases returned
    exact h.terminate
  | stopRetransmissions =>
    cases returned
    exact h.congr rfl rfl rfl

/-! ## Runs -/

/-- An event of a run, with what the listener does; `cond` is a condition on the events. -/
inductive ClientStep (cond : ClientRun → ClientEvent → Prop) : ClientRun → ClientRun → Prop where
  | event {run run' : ClientRun} (event : ClientEvent) (reaction : Reaction)
      (allowed : cond run event) (returned : clientEvent reaction run event = .ok run') :
      ClientStep cond run run'

/-- The runs of a client transaction. -/
def ClientReaches (cond : ClientRun → ClientEvent → Prop) : ClientRun → ClientRun → Prop :=
  Relation.ReflTransGen (ClientStep cond)

/-- A new client transaction. -/
def clientTransaction (method : String) : ClientRun := { method := method }

/-- In every run in which no channel is lost after a time-out was handed over to it, a client
transaction reports one outcome, the I/O errors of an INVITE transaction apart, and nothing after
its termination. -/
theorem clientTransaction_oneOutcome {method : String} {run : ClientRun}
    (reaches : ClientReaches KeepsTimeout (clientTransaction method) run) :
    OneOutcome run.isInvite (isOutcome run.isInvite) run.reports := by
  have tracks : Tracks run := by
    induction reaches with
    | refl => exact ⟨.pending, rfl, by simp [clientTransaction, Phase.Fits]⟩
    | tail _ step ih =>
      cases step with
      | event event reaction allowed returned => exact ih.clientEvent allowed returned
  obtain ⟨phase, told, -⟩ := tracks
  exact oneOutcome_of_follows (pairwise_follows told (fun h => by cases h)).2

/-- A listener that never terminates the transaction. -/
def onlyListens : Reaction := fun _ => false

/-- The run with these events and such a listener. -/
def runClient (run : ClientRun) (events : List ClientEvent) : Option ClientRun :=
  events.foldlM (fun run event => (clientEvent onlyListens run event).toOption) run

theorem runClient_reaches {cond : ClientRun → ClientEvent → Prop} {events : List ClientEvent}
    (allowed : ∀ run, ∀ event ∈ events, cond run event) (h : runClient run events = some run') :
    ClientReaches cond run run' := by
  induction events generalizing run with
  | nil =>
    cases h
    exact .refl
  | cons event events ih =>
    obtain ⟨middle, hevent, hrest⟩ := Option.bind_eq_some_iff.mp h
    cases hcall : clientEvent onlyListens run event with
    | error e => simp [hcall, Except.toOption] at hevent
    | ok next =>
      simp only [hcall, Except.toOption, Option.some.injEq] at hevent
      subst hevent
      exact Relation.ReflTransGen.head
        (.event event onlyListens (allowed run event mem_cons_self) hcall)
        (ih (fun run event he => allowed run event (mem_cons_of_mem _ he)) hrest)

/-- A channel that is ready. -/
def readyChannel : SendConditions := { channel := some (⟨false⟩, .ready) }

/-- An INVITE that is answered, and answered again before timer M ends it. -/
theorem clientTransaction_oneOutcome_answered : ∃ run : ClientRun,
      run.reports = [.response 180, .response 200, .response 200, .terminated] ∧
      OneOutcome run.isInvite (isOutcome run.isInvite) run.reports := by
  have heval : (runClient (clientTransaction "INVITE")
      [.sendRequest readyChannel, .timer .A false, .response 180 false none,
        .response 200 false none, .response 200 false none, .timer .M false]).map
          (fun run => run.reports) =
      some [.response 180, .response 200, .response 200, .terminated] := by
    decide +kernel
  obtain ⟨run, hrun, hreports⟩ := Option.map_eq_some_iff.mp heval
  refine ⟨run, hreports, clientTransaction_oneOutcome (runClient_reaches (fun run event he => ?_) hrun)⟩
  simp only [mem_cons, not_mem_nil, or_false] at he
  rcases he with rfl | rfl | rfl | rfl | rfl | rfl <;> trivial

/-- An INVITE transaction loses its channel, and the response reaches it over another one. -/
theorem clientTransaction_repaired : ¬ ∀ (method : String) (run : ClientRun),
      ClientReaches (fun _ _ => True) (clientTransaction method) run →
      OneOutcome run.isInvite Report.isFinal run.reports := by
  intro h
  have heval : (runClient (clientTransaction "INVITE")
      [.sendRequest readyChannel, .channelState .disconnected,
        .response 200 false (some ⟨false⟩)]).map (fun run => run.reports) =
      some [.ioError, .response 200] := by
    decide +kernel
  obtain ⟨run, hrun, hreports⟩ := Option.map_eq_some_iff.mp heval
  have one := (h "INVITE" run (runClient_reaches (fun _ _ _ => trivial) hrun)).once
  rw [hreports] at one
  have both := (pairwise_cons.mp one).1 _ mem_cons_self rfl rfl
  exact absurd both.2.1 (by decide)

end GrooveIp.Sip
