import GrooveIp.Sip.ServerTransaction
import Mathlib.Logic.Relation

/-!
# A server transaction answers retransmissions

As long as no INVITE is retransmitted to a transaction in the state PROCEEDING that has no channel,
no handler follows a NULL pointer, each retransmission is answered with the last response that was
sent, at most one failure is sent, and nothing is sent after the termination.
-/

namespace GrooveIp.Sip

open Lib List ServerTransaction ServerLog

/-! ## The log -/

/-- A response of the user in the log. -/
def ServerLog.sent? : ServerLog → Option SipResponse
  | .sent response => some response
  | .answered _ | .terminated => none

/-- The last response of the user that was sent. -/
def lastSent (log : List ServerLog) : Option SipResponse := (log.filterMap sent?).getLast?

/-- A final response other than 2xx that the user sent. -/
def ServerLog.isFailure : ServerLog → Bool
  | .sent response => response.statusCode ≥ 300
  | .answered _ | .terminated => false

/-- Answers repeat the last response of the user, at most one failure is sent, and nothing after the
termination. -/
structure LogConsistent (log : List ServerLog) : Prop where
  answered : ∀ before response after, log = before ++ .answered response :: after →
    lastSent before = some response
  failures : (log.filter isFailure).length ≤ 1
  silent : log.Pairwise fun e _ => e ≠ .terminated

variable {log : List ServerLog} {response : SipResponse} {t t' : ServerTransaction}

theorem concat_eq_append {e e' : ServerLog} {before after : List ServerLog}
    (h : log ++ [e] = before ++ e' :: after) :
    (log = before ∧ e = e' ∧ after = []) ∨ ∃ rest, after = rest ++ [e] ∧ log = before ++ e' :: rest := by
  rcases eq_nil_or_concat after with rfl | ⟨rest, last, rfl⟩
  · obtain ⟨hlog, he⟩ := List.append_inj' h rfl
    exact .inl ⟨hlog, by simpa using he, rfl⟩
  · rw [List.concat_eq_append, ← List.cons_append, ← List.append_assoc] at h
    obtain ⟨hlog, he⟩ := List.append_inj' h rfl
    obtain rfl : e = last := by simpa using he
    exact .inr ⟨rest, by simp, hlog⟩

theorem LogConsistent.concat (h : LogConsistent log) {e : ServerLog} (open' : .terminated ∉ log)
    (answers : ∀ response, e = .answered response → lastSent log = some response)
    (fails : e.isFailure = true → ∀ e ∈ log, e.isFailure = false) : LogConsistent (log ++ [e]) where
  answered before response after heq := by
    rcases concat_eq_append heq with ⟨rfl, rfl, rfl⟩ | ⟨rest, rfl, hlog⟩
    · exact answers response rfl
    · exact h.answered before response rest hlog
  failures := by
    cases hfail : e.isFailure with
    | false =>
      have hold := h.failures
      simpa [hfail] using hold
    | true =>
      have none : log.filter isFailure = [] := by
        apply filter_eq_nil_iff.mpr
        intro e he
        simp [fails hfail e he]
      simp [none, hfail]
  silent := by
    apply pairwise_append.mpr
    refine ⟨h.silent, pairwise_singleton _ _, fun e' he' _ _ heq => ?_⟩
    exact open' (heq ▸ he')

/-- The response that has just been sent is the last one. -/
@[simp] theorem lastSent_sent (log : List ServerLog) (response : SipResponse) :
    lastSent (log ++ [.sent response]) = some response := by
  simp [lastSent, sent?]

/-- Answers and the termination are no responses of the user. -/
@[simp] theorem lastSent_answered (log : List ServerLog) (response : SipResponse) :
    lastSent (log ++ [.answered response]) = lastSent log := by
  simp [lastSent, sent?]

@[simp] theorem lastSent_terminated (log : List ServerLog) :
    lastSent (log ++ [.terminated]) = lastSent log := by
  simp [lastSent, sent?]

/-! ## The invariant -/

/-- What holds of a server transaction between two events. -/
structure Serves (t : ServerTransaction) : Prop where
  log : LogConsistent t.log
  ended : .terminated ∈ t.log ↔ t.state = .terminated
  channel : t.state = .completed ∨ t.state = .proceeding ∧ t.isInvite = false →
    t.channel.isSome = true
  last : t.state = .trying ∨ t.state = .proceeding ∨ t.state = .completed →
    t.lastResponse = lastSent t.log
  known : t.state = .completed ∨ t.state = .proceeding ∧ t.channel.isSome = true →
    t.lastResponse.isSome = true
  unfailed : t.state = .trying ∨ t.state = .proceeding ∨ t.state = .accepted →
    ∀ e ∈ t.log, e.isFailure = false

theorem Serves.congr (h : Serves t) (method : t'.method = t.method) (state : t'.state = t.state)
    (channel : t'.channel = t.channel) (last : t'.lastResponse = t.lastResponse)
    (log : t'.log = t.log) : Serves t' := by
  have invite : t'.isInvite = t.isInvite := by simp [isInvite, method]
  refine ⟨?_, ?_, ?_, ?_, ?_, ?_⟩
  · rw [log]
    exact h.log
  · rw [log, state]
    exact h.ended
  · rw [state, channel, invite]
    exact h.channel
  · rw [state, last, log]
    exact h.last
  · rw [state, channel, last]
    exact h.known
  · rw [state, log]
    exact h.unfailed

theorem Serves.not_over (h : Serves t) (hstate : t.state ≠ .terminated) : .terminated ∉ t.log :=
  fun hmem => hstate (h.ended.mp hmem)

theorem Serves.terminate (h : Serves t) : Serves t.terminate := by
  unfold ServerTransaction.terminate
  split
  · exact h.congr rfl rfl rfl rfl rfl
  · next hstate =>
    refine ⟨h.log.concat (h.not_over hstate) (by simp) (by simp [isFailure]), ?_,
      ?_, ?_, ?_, ?_⟩ <;> simp

theorem terminate_state (t : ServerTransaction) : t.terminate.state = .terminated := by
  unfold ServerTransaction.terminate
  split
  · assumption
  · rfl

theorem Serves.settled (h : Serves t)
    (hstate : ¬ (t.state = .trying ∨ t.state = .proceeding ∨ t.state = .completed))
    (state : t'.state = t.state) (log : t'.log = t.log) : Serves t' := by
  simp only [not_or] at hstate
  refine ⟨?_, ?_, ?_, ?_, ?_, ?_⟩
  · rw [log]
    exact h.log
  · rw [log, state]
    exact h.ended
  · simp [state, hstate]
  · simp [state, hstate]
  · simp [state, hstate]
  · rw [state, log]
    exact h.unfailed

theorem Serves.sent (h : Serves t) (hstate : t.state = .trying ∨ t.state = .proceeding)
    (next : t'.state = .completed ∨
      (t'.state = .proceeding ∨ t'.state = .accepted) ∧ response.statusCode < 300)
    (channel : t'.channel.isSome = true) (last : t'.lastResponse = some response)
    (log : t'.log = t.log ++ [.sent response]) : Serves t' := by
  have hne : t.state ≠ .terminated := by
    rcases hstate with hstate | hstate <;> simp [hstate]
  have unfailed : ∀ e ∈ t.log, e.isFailure = false := by
    apply h.unfailed
    rcases hstate with hstate | hstate <;> simp [hstate]
  refine ⟨?_, ?_, fun _ => channel, ?_, ?_, ?_⟩
  · rw [log]
    exact h.log.concat (h.not_over hne) (by simp) fun _ => unfailed
  · have open' : t'.state ≠ .terminated := by
      rcases next with next | ⟨next | next, -⟩ <;> simp [next]
    simp [log, open', h.not_over hne]
  · intro _
    rw [last, log, lastSent_sent]
  · intro _
    rw [last]
    rfl
  · rw [log]
    intro hopen e he
    rcases mem_append.mp he with he | he
    · exact unfailed e he
    · obtain rfl := mem_singleton.mp he
      rcases next with hcompleted | ⟨-, small⟩
      · simp [hcompleted] at hopen
      · simpa [isFailure] using small

/-! ## The handlers -/

theorem queueNew_eq (hchannel : t.channel.isSome = true) (response : SipResponse) :
    t.queueNew response = .ok { t with log := t.log ++ [.sent response] } := by
  obtain ⟨channel, hchannel⟩ := Option.isSome_iff_exists.mp hchannel
  simp [queueNew, hchannel, followChannel, bind, Except.bind, pure, Except.pure]

theorem queueLast_eq (hchannel : t.channel.isSome = true) (hlast : t.lastResponse = some response) :
    t.queueLast = .ok { t with log := t.log ++ [.answered response] } := by
  obtain ⟨channel, hchannel⟩ := Option.isSome_iff_exists.mp hchannel
  simp [queueLast, hchannel, hlast, followChannel, bind, Except.bind, pure,
    Except.pure]

theorem Serves.queueLast (h : Serves t)
    (hstate : t.state = .completed ∨ t.state = .proceeding ∧ t.channel.isSome = true) :
    ∃ response, lastSent t.log = some response ∧
      t.queueLast = .ok { t with log := t.log ++ [.answered response] } ∧
      Serves { t with log := t.log ++ [.answered response] } := by
  obtain ⟨response, hresponse⟩ := Option.isSome_iff_exists.mp (h.known hstate)
  have hchannel : t.channel.isSome = true := by
    rcases hstate with hstate | hstate
    · exact h.channel (.inl hstate)
    · exact hstate.2
  have hopen : t.state ≠ .terminated := by
    rcases hstate with hstate | hstate <;> simp [hstate]
  have hlast : lastSent t.log = some response := by
    rw [← h.last (by rcases hstate with hstate | hstate <;> simp [hstate]), hresponse]
  refine ⟨response, hlast, queueLast_eq hchannel hresponse, ?_⟩
  refine ⟨?_, ?_, h.channel, fun hcase => ?_, h.known, fun hcase e he => ?_⟩
  · apply h.log.concat (h.not_over hopen)
    · intro other heq
      obtain rfl := answered.inj heq
      exact hlast
    · simp [isFailure]
  · simpa using h.ended
  · rw [lastSent_answered]
    exact h.last hcase
  · rcases mem_append.mp he with he | he
    · exact h.unfailed hcase e he
    · obtain rfl := mem_singleton.mp he
      rfl

/-- What the `send_new_response` methods do to a transaction with a channel: they refuse and change
nothing, or they accept in a settled state, or they send the response. -/
theorem sendNewResponse_cases (hchannel : t.channel.isSome = true) (response : SipResponse) :
    ∃ t' accepted, sendNewResponse t response = .ok (t', accepted) ∧ (t' = t ∧ (accepted = false ∨
          ¬ (t.state = .trying ∨ t.state = .proceeding ∨ t.state = .completed)) ∧
          (accepted = false → ¬ (t.state = .proceeding)) ∧
          (accepted = false → t.isInvite = false → t.state ≠ .trying) ∨
        accepted = true ∧ (t.state = .trying ∨ t.state = .proceeding) ∧ (t'.state = .completed ∨
            (t'.state = .proceeding ∨ t'.state = .accepted) ∧ response.statusCode < 300) ∧
          t'.channel = t.channel ∧ t'.method = t.method ∧ t'.log = t.log ++ [.sent response]) := by
  obtain ⟨channel, hc⟩ := Option.isSome_iff_exists.mp hchannel
  unfold sendNewResponse
  split
  · next invite =>
    unfold istSendNewResponse
    split
    · next hstate =>
      rw [queueNew_eq hchannel]
      split
      · next hcode =>
        exact ⟨_, _, rfl, .inr ⟨rfl, .inr hstate, .inr ⟨.inr rfl, hcode.2⟩, rfl, rfl, rfl⟩⟩
      · split
        · simp only [hc, followChannel]
          refine ⟨_, _, rfl, .inr ⟨rfl, .inr hstate, .inl ?_, ?_, ?_, ?_⟩⟩ <;> split <;>
            simp [startTimer]
        · next hcode =>
          exact ⟨_, _, rfl, .inr ⟨rfl, .inr hstate, .inr ⟨.inl hstate, by omega⟩, rfl, rfl, rfl⟩⟩
    · next hstate =>
      refine ⟨t, _, rfl, .inl ⟨rfl, .inr (by simp [hstate]), by simp [hstate], ?_⟩⟩
      simp [hstate]
    · next hproceeding haccepted =>
      exact ⟨t, false, rfl, .inl ⟨rfl, .inl rfl, fun _ => hproceeding, fun _ hother => by
        simp [invite] at hother⟩⟩
  · next other =>
    have completed :
        nistSetCompleted t = .ok { t with state := .completed, timers := (t.startTimer .J).timers } := by
      simp [nistSetCompleted, startTimer, hc, followChannel, bind, Except.bind, pure, Except.pure]
    have queued (state : TransactionState) (timers : ServerTimer → Bool) :
        ({ t with state := state, timers := timers } : ServerTransaction).queueNew response =
          .ok { t with state := state, timers := timers, log := t.log ++ [.sent response] } :=
      queueNew_eq (t := { t with state := state, timers := timers }) hchannel response
    unfold nistSendNewResponse
    split
    · next hstate =>
      split
      · next hcode =>
        rw [queued .proceeding t.timers]
        exact ⟨_, _, rfl, .inr ⟨rfl, .inl hstate, .inr ⟨.inl rfl, by omega⟩, rfl, rfl, rfl⟩⟩
      · rw [completed]
        simp only [bind, Except.bind]
        rw [queued]
        exact ⟨_, _, rfl, .inr ⟨rfl, .inl hstate, .inl rfl, rfl, rfl, rfl⟩⟩
    · next hstate =>
      split
      · rw [completed]
        simp only [bind, Except.bind]
        rw [queued]
        exact ⟨_, _, rfl, .inr ⟨rfl, .inr hstate, .inl rfl, rfl, rfl, rfl⟩⟩
      · next hcode =>
        simp only [bind, Except.bind]
        rw [queueNew_eq hchannel]
        exact ⟨_, _, rfl, .inr ⟨rfl, .inr hstate, .inr ⟨.inl hstate, by omega⟩, rfl, rfl, rfl⟩⟩
    · next hstate =>
      exact ⟨t, false, rfl, .inl ⟨rfl, .inl rfl, by simp [hstate], by simp [hstate]⟩⟩
    · next htrying hproceeding hcompleted =>
      exact ⟨t, true, rfl, .inl ⟨rfl, .inr fun hstate =>
        hstate.elim htrying (Or.elim · hproceeding hcompleted), by simp, by simp⟩⟩

theorem Serves.rechannel (h : Serves t) {channel : Option Channel} (hcompleted : t.state ≠ .completed)
    (hproceeding : t.state = .proceeding → t.isInvite = true ∧ channel = none) :
    Serves { t with channel := channel } := by
  refine ⟨h.log, h.ended, fun hcase => ?_, h.last, fun hcase => ?_, h.unfailed⟩
  · rcases hcase with hcase | ⟨hcase, hother⟩
    · exact absurd hcase hcompleted
    · have hnot : t.isInvite = false := hother
      simp [(hproceeding hcase).1] at hnot
  · rcases hcase with hcase | ⟨hcase, hchannel⟩
    · exact absurd hcase hcompleted
    · rw [(hproceeding hcase).2] at hchannel
      simp at hchannel

/-- What a handler may do: it answers a transaction that serves, and the log only grows. -/
def Continues (t : ServerTransaction) (result : Except Fault ServerTransaction) : Prop :=
  ∃ t', result = .ok t' ∧ Serves t' ∧ t.log <+: t'.log

theorem Serves.prepared (h : Serves t)
    (hsearch : (t.lastResponse.isNone || t.channel.isNone) = true) :
    t.state ≠ .completed ∧ (t.state = .proceeding → t.isInvite = true) := by
  have hnot : ¬ (t.channel.isSome = true ∧ t.lastResponse.isSome = true) := by
    simp only [Bool.or_eq_true, Option.isNone_iff_eq_none] at hsearch
    rcases hsearch with hnone | hnone <;> simp [hnone]
  refine ⟨fun hcompleted => hnot ⟨h.channel (.inl hcompleted), h.known (.inl hcompleted)⟩,
    fun hproceeding => ?_⟩
  cases hinvite : t.isInvite with
  | true => rfl
  | false =>
    have hchannel := h.channel (.inr ⟨hproceeding, hinvite⟩)
    exact absurd ⟨hchannel, h.known (.inr ⟨hproceeding, hchannel⟩)⟩ hnot

/-- A response of the user. -/
theorem Serves.sendResponse (h : Serves t) (response : SipResponse) (found : Option Channel) :
    Continues t (serverTransactionSendResponse t response found) := by
  unfold serverTransactionSendResponse
  extract_lets t₁
  have state : t₁.state = t.state := by
    simp only [t₁]
    split <;> rfl
  have log : t₁.log = t.log := by
    simp only [t₁]
    split <;> rfl
  -- without a response the transaction is as before, on its channel or on another one
  have still (hproceeding : t.state = .proceeding → t₁.channel = none) : Serves t₁ := by
    have hstep : t₁ = t ∨ ((t.lastResponse.isNone || t.channel.isNone) = true ∧
        t₁ = { t with channel := t₁.channel }) := by
      simp only [t₁]
      split
      · next hsearch => exact .inr ⟨hsearch, rfl⟩
      · exact .inl rfl
    rcases hstep with hstep | ⟨hsearch, hstep⟩
    · rw [hstep]
      exact h
    · rw [hstep]
      have hprepared := h.prepared hsearch
      exact h.rechannel hprepared.1 fun hcase => ⟨hprepared.2 hcase, hproceeding hcase⟩
  split
  · next hnone =>
    refine ⟨t₁, rfl, still fun _ => by simpa using hnone, ?_⟩
    exact log ▸ prefix_rfl
  · next hsome =>
    have hchannel : t₁.channel.isSome = true := by simpa [Option.isSome_iff_ne_none] using hsome
    obtain ⟨t₂, accepted, hsend, hcases⟩ := sendNewResponse_cases hchannel response
    rw [hsend]
    rcases hcases with ⟨hsame, hover, hrefused, -⟩ | ⟨haccepted, hstate, next, channel, -, hlog⟩
    · have grown : t.log <+: t₂.log := by
        exact hsame ▸ log ▸ prefix_rfl
      cases accepted with
      | false =>
        refine ⟨t₂, rfl, ?_, grown⟩
        rw [hsame]
        exact still fun hproceeding => absurd (state.trans hproceeding) (hrefused rfl)
      | true =>
        refine ⟨{ t₂ with lastResponse := some response }, rfl, ?_, grown⟩
        have hsettled : ¬ (t.state = .trying ∨ t.state = .proceeding ∨ t.state = .completed) := by
          rw [← state]
          exact hover.resolve_left (by simp)
        apply h.settled hsettled
        · rw [hsame]
          exact state
        · rw [hsame]
          exact log
    · rw [state] at hstate
      rw [log] at hlog
      have hsent : t₂.channel.isSome = true := by rw [channel, hchannel]
      refine ⟨{ t₂ with lastResponse := some response }, ?_, ?_, ?_⟩
      · simp [haccepted, bind, Except.bind, pure, Except.pure]
      · apply h.sent hstate _ _ rfl
        · exact hlog
        · exact next
        · exact hsent
      · change t.log <+: t₂.log
        rw [hlog]
        exact prefix_append _ _

theorem Continues.trans {t'' : ServerTransaction} (hlog : t.log <+: t''.log)
    {result : Except Fault ServerTransaction} (h : Continues t'' result) : Continues t result := by
  obtain ⟨t', hok, hserves, hgrown⟩ := h
  exact ⟨t', hok, hserves, hlog.trans hgrown⟩

theorem terminate_log (t : ServerTransaction) : t.log <+: t.terminate.log := by
  unfold ServerTransaction.terminate
  split
  · exact prefix_rfl
  · exact prefix_append _ _

theorem Serves.userAction (h : Serves t) (action : UserAction) :
    Continues t (userAction t action) := by
  cases action with
  | send response found => exact h.sendResponse response found
  | terminate => exact ⟨_, rfl, h.terminate, terminate_log t⟩

theorem Serves.actions (reaction : List UserAction) (h : Serves t) :
    Continues t (reaction.foldlM Sip.userAction t) := by
  induction reaction generalizing t with
  | nil => exact ⟨t, rfl, h, prefix_rfl⟩
  | cons action rest ih =>
    obtain ⟨t₁, hok, hserves, hgrown⟩ := h.userAction action
    rw [foldlM_cons, hok]
    exact Continues.trans hgrown (ih hserves)

theorem Serves.acknowledge (h : Serves t) (hstate : t.state = .completed) :
    Continues t (istAcknowledge t) := by
  obtain ⟨channel, hchannel⟩ := Option.isSome_iff_exists.mp (h.channel (.inl hstate))
  have hopen : .terminated ∉ t.log := h.not_over (by simp [hstate])
  have confirmed : Serves { t.stopTimer .G with state := .confirmed } := by
    refine ⟨h.log, ?_, ?_, ?_, ?_, ?_⟩ <;> simp [stopTimer, hopen]
  unfold istAcknowledge
  simp only [stopTimer, hchannel, followChannel, bind, Except.bind, pure,
    Except.pure] at confirmed ⊢
  split
  · exact ⟨_, rfl, confirmed.terminate, terminate_log { t with state := .confirmed, .. }⟩
  · exact ⟨_, rfl, confirmed.congr rfl rfl rfl rfl rfl, prefix_rfl⟩

theorem Serves.retransmission (h : Serves t)
    (hchannel : t.state = .proceeding → t.channel.isSome = true) :
    Continues t (onRequestRetransmission t) := by
  unfold onRequestRetransmission
  split
  · next hstate =>
    have hready : t.state = .completed ∨ t.state = .proceeding ∧ t.channel.isSome = true := by
      rcases hstate with hstate | hstate
      · exact .inr ⟨hstate, hchannel hstate⟩
      · exact .inl hstate
    obtain ⟨response, -, hok, hserves⟩ := h.queueLast hready
    exact ⟨_, hok, hserves, prefix_append _ _⟩
  · exact ⟨t, rfl, h, prefix_rfl⟩

theorem Serves.timer (h : Serves t) (timer : ServerTimer) : Continues t (serverOnTimer t timer) := by
  have ended : Continues t (.ok (t.terminate.stopTimer timer)) :=
    ⟨_, rfl, h.terminate.congr rfl rfl rfl rfl rfl, terminate_log t⟩
  have stopped : Continues t (.ok (t.stopTimer timer)) :=
    ⟨_, rfl, h.congr rfl rfl rfl rfl rfl, prefix_rfl⟩
  cases timer with
  | G =>
    simp only [serverOnTimer]
    split
    · next hstate =>
      obtain ⟨response, -, hok, hserves⟩ := h.queueLast (.inl hstate)
      exact ⟨_, hok, hserves, prefix_append _ _⟩
    · exact stopped
  | H =>
    simp only [serverOnTimer]
    split
    · exact ended
    · exact stopped
  | I => exact ended
  | L => exact ended
  | J => exact ended

theorem Serves.awaitRepair (h : Serves t) :
    Serves (serverAwaitRepair t) ∧ t.log <+: (serverAwaitRepair t).log := by
  have unwatched (timer : Bool) : Serves { t with callRepairTimer := timer } :=
    h.congr rfl rfl rfl rfl rfl
  have ended (timer : Bool) :
      Serves { ({ t with callRepairTimer := timer } : ServerTransaction).terminate with
        channel := none } := by
    have hsettled := terminate_state { t with callRepairTimer := timer }
    apply (unwatched timer).terminate.settled
    · simp [hsettled]
    · rfl
    · rfl
  have waiting (hinvite : t.isInvite = true) (htransient : t.state.isTransient = true) :
      Serves { t with callRepairTimer := true, channel := none } := by
    apply (unwatched true).rechannel
    · intro hstate
      have hcompleted : t.state = .completed := hstate
      simp [hcompleted, TransactionState.isTransient] at htransient
    · intro _
      exact ⟨hinvite, rfl⟩
  unfold serverAwaitRepair
  cases hinvite : t.isInvite with
  | true =>
    have hinvite' : ({ t with callRepairTimer := false } : ServerTransaction).isInvite = true :=
      hinvite
    simp only [if_true, hinvite', Bool.and_true]
    split
    · next htransient => exact ⟨waiting hinvite htransient, prefix_rfl⟩
    · exact ⟨ended false, terminate_log _⟩
  | false =>
    simp only [hinvite, Bool.and_false, Bool.false_eq_true, if_false]
    exact ⟨ended t.callRepairTimer, terminate_log t⟩

theorem Serves.channelLost (reaction : List UserAction) (h : Serves t) :
    Continues t (serverChannelLost reaction t) := by
  unfold serverChannelLost
  split
  · obtain ⟨t₁, hok, hserves, hgrown⟩ := h.actions reaction
    obtain ⟨hserves', hgrown'⟩ := hserves.awaitRepair
    refine ⟨serverAwaitRepair t₁, ?_, hserves', hgrown.trans hgrown'⟩
    simp only [hok, bind, Except.bind, pure, Except.pure]
  · exact ⟨serverAwaitRepair t, rfl, h.awaitRepair⟩

/-! ## Runs -/

/-- The condition: no retransmission of the INVITE reaches the transaction while it is PROCEEDING
without a channel. -/
def Answerable (t : ServerTransaction) : ServerEvent → Prop
  | .request .retransmission => t.isInvite = true → t.state = .proceeding → t.channel.isSome = true
  | .request _ | .user _ | .timer _ | .callRepair _ | .channelState _ => True

theorem Serves.event (h : Serves t) (reaction : List UserAction) {event : ServerEvent}
    (hanswerable : Answerable t event) : Continues t (serverEvent reaction t event) := by
  have unchanged : Continues t (.ok t) := ⟨t, rfl, h, prefix_rfl⟩
  cases event with
  | request request =>
    cases request with
    | ack dialogHandles =>
      simp only [serverEvent, serverTransactionOnRequest]
      split
      · split
        · next hstate => exact h.acknowledge hstate
        · split
          · exact h.actions reaction
          · exact unchanged
      · exact unchanged
    | cancel => exact h.actions reaction
    | retransmission =>
      apply h.retransmission
      intro hstate
      cases hinvite : t.isInvite with
      | true => exact hanswerable hinvite hstate
      | false => exact h.channel (.inr ⟨hstate, hinvite⟩)
  | user action => exact h.userAction action
  | timer timer =>
    simp only [serverEvent]
    split
    · exact h.timer timer
    · exact unchanged
  | callRepair found =>
    simp only [serverEvent]
    split
    · have unwatched : Serves { t with callRepairTimer := false } := h.congr rfl rfl rfl rfl rfl
      exact Continues.trans prefix_rfl (unwatched.sendResponse ⟨503, []⟩ found)
    · exact unchanged
  | channelState state =>
    simp only [serverEvent]
    split
    · exact h.channelLost reaction
    · exact unchanged

theorem Serves.created (method : String) (found : Option Channel) :
    ∃ t, createServerTransaction method found = .ok t ∧ Serves t := by
  have fresh (state : TransactionState) (hstate : state = .proceeding ∧ (method == "INVITE") = true ∨
      state = .trying) : Serves { method := method, state := state } := by
    refine ⟨⟨by simp, by simp, by simp⟩, ?_, ?_, by simp [lastSent], ?_, by simp⟩
    · rcases hstate with ⟨rfl, -⟩ | rfl <;> simp
    · rcases hstate with ⟨rfl, hinvite⟩ | rfl <;> simp [isInvite, *]
    · rcases hstate with ⟨rfl, hinvite⟩ | rfl <;> simp
  unfold createServerTransaction
  split
  · next hinvite =>
    obtain ⟨t, hok, hserves, -⟩ := (fresh .proceeding (.inl ⟨rfl, hinvite⟩)).sendResponse ⟨100, []⟩ found
    exact ⟨t, hok, hserves⟩
  · exact ⟨_, rfl, fresh .trying (.inr rfl)⟩

/-- The transactions that are reached from a request by events that meet the condition. -/
inductive ServerReached (method : String) : ServerTransaction → Prop
  | created {found : Option Channel} {t : ServerTransaction}
      (hok : createServerTransaction method found = .ok t) : ServerReached method t
  | event {t t' : ServerTransaction} {reaction : List UserAction} {event : ServerEvent}
      (reached : ServerReached method t) (hanswerable : Answerable t event)
      (hok : serverEvent reaction t event = .ok t') : ServerReached method t'

theorem ServerReached.serves {method : String} (reached : ServerReached method t) : Serves t := by
  induction reached with
  | @created found t hok =>
    obtain ⟨t', hok', hserves⟩ := Serves.created method found
    rw [hok] at hok'
    cases hok'
    exact hserves
  | @event t t' reaction event reached hanswerable hok ih =>
    obtain ⟨t'', hok', hserves, -⟩ := ih.event reaction hanswerable
    rw [hok] at hok'
    cases hok'
    exact hserves

theorem LogConsistent.eq_of_prefix {log' : List ServerLog} (h : LogConsistent log')
    (hgrown : log <+: log') (hover : .terminated ∈ log) : log' = log := by
  obtain ⟨more, rfl⟩ := hgrown
  cases more with
  | nil => simp
  | cons e more =>
    have hpair := (pairwise_append.mp h.silent).2.2 _ hover e (by simp)
    exact absurd rfl hpair

/-- In every run of a server transaction in which no INVITE is retransmitted while the transaction is
PROCEEDING without a channel, the log is consistent, an event follows a NULL pointer only if it does
not meet the condition, a retransmission in PROCEEDING or COMPLETED is answered with the last response
of the user and nothing else, and nothing is sent once the state is TERMINATED. -/
theorem serverTransaction_answers {method : String} {t : ServerTransaction}
    (reached : ServerReached method t) : LogConsistent t.log ∧ ∀ reaction event,
      (Answerable t event ↔ ∃ t', serverEvent reaction t event = .ok t') ∧
      ∀ t', serverEvent reaction t event = .ok t' →
        (event = .request .retransmission → t.state = .proceeding ∨ t.state = .completed →
          ∃ response, lastSent t.log = some response ∧ t'.log = t.log ++ [.answered response]) ∧
        (t.state = .terminated → t'.log = t.log) := by
  have h := reached.serves
  have fails (reaction : List UserAction) (event : ServerEvent) (hnot : ¬ Answerable t event) :
      serverEvent reaction t event = .error .nullDereference := by
    match event with
    | .request .retransmission =>
      simp only [Answerable, Classical.not_imp] at hnot
      obtain ⟨-, hstate, hchannel⟩ := hnot
      have hnone : t.channel = none := by simpa using hchannel
      simp [serverEvent, serverTransactionOnRequest, onRequestRetransmission, hstate,
        queueLast, hnone, followChannel, bind, Except.bind]
    | .request (.ack _) | .request .cancel | .user _ | .timer _ | .callRepair _ | .channelState _ =>
      exact absurd trivial hnot
  have answerable (reaction : List UserAction) (event : ServerEvent) (t' : ServerTransaction)
      (hok : serverEvent reaction t event = .ok t') : Answerable t event := by
    apply Classical.byContradiction
    intro hnot
    rw [fails reaction event hnot] at hok
    simp at hok
  refine ⟨h.log, fun reaction event => ⟨⟨fun hanswerable => ?_, fun ⟨t', hok⟩ => ?_⟩,
    fun t' hok => ⟨?_, fun hover => ?_⟩⟩⟩
  · obtain ⟨t', hok, -⟩ := h.event reaction hanswerable
    exact ⟨t', hok⟩
  · exact answerable reaction event t' hok
  · rintro rfl hstate
    have hready : t.state = .completed ∨ t.state = .proceeding ∧ t.channel.isSome = true := by
      rcases hstate with hstate | hstate
      · cases hinvite : t.isInvite with
        | true => exact .inr ⟨hstate, answerable reaction _ t' hok hinvite hstate⟩
        | false => exact .inr ⟨hstate, h.channel (.inr ⟨hstate, hinvite⟩)⟩
      · exact .inl hstate
    obtain ⟨response, hlast, hqueued, -⟩ := h.queueLast hready
    have hanswer : serverEvent reaction t (.request .retransmission) = t.queueLast := by
      simp [serverEvent, serverTransactionOnRequest, onRequestRetransmission, hstate]
    rw [hanswer, hqueued] at hok
    cases hok
    exact ⟨response, hlast, rfl⟩
  · obtain ⟨t'', hok', hserves, hgrown⟩ := h.event reaction (answerable reaction event t' hok)
    rw [hok] at hok'
    cases hok'
    exact hserves.log.eq_of_prefix hgrown (h.ended.mpr hover)

/-- An INVITE transaction that has sent 100 and 180. -/
def ringing : ServerTransaction where
  method := "INVITE"
  state := .proceeding
  channel := some ⟨true⟩
  lastResponse := some ⟨180, []⟩
  log := [.sent ⟨100, []⟩, .sent ⟨180, []⟩]

/-- It answers a retransmission with the 180. -/
theorem serverTransaction_answers_ringing :
    ∃ t', serverEvent [] ringing (.request .retransmission) = .ok t' ∧
      ∃ response, lastSent ringing.log = some response ∧
        t'.log = ringing.log ++ [.answered response] := by
  have created : ServerReached "INVITE"
      { ringing with lastResponse := some ⟨100, []⟩, log := [.sent ⟨100, []⟩] } :=
    @ServerReached.created _ (some ⟨true⟩) _ rfl
  have reached : ServerReached "INVITE" ringing :=
    @ServerReached.event _ _ _ [] (.user (.send ⟨180, []⟩ none)) created trivial rfl
  have answers := (serverTransaction_answers reached).2 [] (.request .retransmission)
  obtain ⟨t', hok⟩ := answers.1.mp fun _ _ => rfl
  exact ⟨t', hok, (answers.2 t' hok).1 rfl (.inl rfl)⟩

/-- An INVITE transaction loses its channel and is asked again: it queues on a NULL channel. -/
theorem serverTransaction_followsNull :
    ∃ t t', createServerTransaction "INVITE" (some ⟨true⟩) = .ok t ∧
      serverEvent [] t (.channelState .disconnected) = .ok t' ∧ t'.state = .proceeding ∧
      serverEvent [] t' (.request .retransmission) = .error .nullDereference :=
  ⟨_, _, rfl, rfl, rfl, rfl⟩

end GrooveIp.Sip
