import GrooveIp.Session.CallSession

/-!
# Coming back from a modification that failed

A modification that cannot be sent, or that the peer refuses, leads back to the state it was started
in just when no REFER comes while it is under way, and the failure is one that the operation looks
at.
-/

namespace GrooveIp.Session

open Sal

namespace CallSession

variable {session after : CallSession}

/-! ## Transfer requests in between -/

/-- The call is in the same state, with the same request, parameters and streams. -/
structure Unchanged (session after : CallSession) : Prop where
  state : after.state = session.state
  outstanding : after.outstanding = session.outstanding
  resultDesc : after.resultDesc = session.resultDesc
  inConference : after.inConference = session.inConference
  soundResourcesLocked : after.soundResourcesLocked = session.soundResourcesLocked

theorem Unchanged.refl (session : CallSession) : Unchanged session session :=
  ⟨rfl, rfl, rfl, rfl, rfl⟩

theorem Unchanged.trans {third : CallSession} (h : Unchanged session after)
    (h' : Unchanged after third) : Unchanged session third where
  state := h'.state.trans h.state
  outstanding := h'.outstanding.trans h.outstanding
  resultDesc := h'.resultDesc.trans h.resultDesc
  inConference := h'.inConference.trans h.inConference
  soundResourcesLocked := h'.soundResourcesLocked.trans h.soundResourcesLocked

theorem setState_referred (h : session.state.isChanging) :
    session.setState .referred = { session with prevState := session.state } := by
  unfold setState
  cases hs : session.state <;> simp_all [State.isChanging]

theorem pause_of_changing (h : session.state.isChanging) (canSend : Bool) :
    (session.pause canSend).2 = session := by
  unfold pause pausePrivate
  cases hs : session.state <;> simp_all [State.isChanging]

theorem referred_of_changing (h : session.state.isChanging) (referToAddr : String)
    (canSend : Bool) : Unchanged session (session.referred referToAddr canSend) ∧
      (session.referred referToAddr canSend).prevState = session.state := by
  unfold referred
  dsimp only
  rw [setState_referred (by exact h)]
  split
  · unfold startReferredCall
    split
    · unfold pauseForTransfer
      rw [pause_of_changing (by exact h)]
      exact ⟨⟨rfl, rfl, rfl, rfl, rfl⟩, rfl⟩
    · exact ⟨⟨rfl, rfl, rfl, rfl, rfl⟩, rfl⟩
  · exact ⟨⟨rfl, rfl, rfl, rfl, rfl⟩, rfl⟩

end CallSession

/-- REFERs that come one after the other. -/
def referEvents (refers : List (String × Bool)) : List Event :=
  refers.map fun refer => .refer refer.1 refer.2

namespace CallSession

variable {session after : CallSession}

theorem run_append (events events' : List Event) :
    session.run (events ++ events') = (session.run events).run events' :=
  List.foldl_append

theorem run_refers (h : session.state.isChanging) (refers : List (String × Bool)) :
    Unchanged session (session.run (referEvents refers)) ∧
      (session.run (referEvents refers)).prevState
        = if refers = [] then session.prevState else session.state := by
  induction refers generalizing session with
  | nil => exact ⟨Unchanged.refl session, rfl⟩
  | cons refer rest ih =>
    have hfirst := referred_of_changing h refer.1 refer.2
    have hchanging : (session.referred refer.1 refer.2).state.isChanging := hfirst.1.state ▸ h
    have hrest := ih hchanging
    have hrun : session.run (referEvents (refer :: rest))
        = (session.referred refer.1 refer.2).run (referEvents rest) := rfl
    rw [hrun]
    refine ⟨hfirst.1.trans hrest.1, ?_⟩
    rw [hrest.2, hfirst.1.state, hfirst.2, ite_self, if_neg (List.cons_ne_nil refer rest)]

/-! ## What starting an operation does -/

theorem setState_of_established (session : CallSession) (newState : State)
    (h : session.state.isEstablished) (hnew : newState.isEstablished) :
    (session.setState newState).state = newState ∧ (session.setState newState).prevState
        = if session.state = newState then session.prevState else session.state := by
  unfold setState
  by_cases heq : session.state = newState
  · rw [if_pos heq, if_pos heq]
    exact ⟨heq, rfl⟩
  · have hended : ¬((session.state = .ended ∨ session.state = .error) ∧ newState ≠ .released) := by
      cases hs : session.state <;> simp_all [State.isEstablished]
    have hreleased : newState ≠ .released := by
      rintro rfl
      cases hnew
    have hreferred : newState ≠ .referred := by
      rintro rfl
      cases hnew
    rw [if_neg heq, if_neg hended, if_neg (fun hand => hreleased hand.1), if_neg hreferred,
      if_neg heq]
    exact ⟨rfl, rfl⟩

variable (newState : State)

@[simp] theorem setState_outstanding :
    (session.setState newState).outstanding = session.outstanding := by
  unfold setState
  repeat' split
  all_goals rfl

@[simp] theorem setState_resultDesc :
    (session.setState newState).resultDesc = session.resultDesc := by
  unfold setState
  repeat' split
  all_goals rfl

@[simp] theorem setState_inConference :
    (session.setState newState).inConference = session.inConference := by
  unfold setState
  repeat' split
  all_goals rfl

@[simp] theorem setState_soundResourcesLocked :
    (session.setState newState).soundResourcesLocked = session.soundResourcesLocked := by
  unfold setState
  repeat' split
  all_goals rfl

theorem opUpdate_sent (h : session.outstanding = false) :
    session.opUpdate true = (0, { session with outstanding := true }) := by
  simp [opUpdate, h]

theorem opUpdate_unsent {canSend : Bool} (h : session.outstanding = true ∨ canSend = false) :
    session.opUpdate canSend = (-1, session) := by
  rw [opUpdate, if_pos h]

/-- The state that an update of an established call waits in. -/
def updateState (session : CallSession) : State :=
  if session.state.isChanging then session.state
  else if session.state = .paused then .pausing else .updating

theorem isUpdateAllowed_of_established (h : session.state.isEstablished) :
    session.isUpdateAllowed = some session.updateState := by
  unfold isUpdateAllowed updateState
  cases hs : session.state <;> simp_all [State.isEstablished, State.isChanging]

theorem updateState_isChanging (session : CallSession) : session.updateState.isChanging := by
  unfold updateState
  split
  · assumption
  · split
    · rfl
    · rfl

theorem State.isEstablished_of_isChanging {state : State} (h : state.isChanging) :
    state.isEstablished := by
  cases state with
  | updating => rfl
  | pausing => rfl
  | resuming => rfl
  | _ => cases h

/-- An update before anything is sent. -/
def updateBegun (session : CallSession) (inConference : Bool) : CallSession :=
  { { session with broken := false }.setState session.updateState with
    inConference := inConference }

theorem updateBegun_state (h : session.state.isEstablished) (inConference : Bool) :
    (session.updateBegun inConference).state = session.updateState :=
  (setState_of_established { session with broken := false } session.updateState h
    (State.isEstablished_of_isChanging session.updateState_isChanging)).1

theorem update_deferred (h : session.state.isEstablished) (inConference canSend : Bool) :
    (session.update inConference true canSend).2 = session.updateBegun inConference := by
  unfold update
  rw [isUpdateAllowed_of_established h]
  rfl

theorem update_sent (h : session.state.isEstablished) (hfree : session.outstanding = false)
    (inConference : Bool) : (session.update inConference false true).2
      = { session.updateBegun inConference with outstanding := true } := by
  unfold update
  rw [isUpdateAllowed_of_established h]
  dsimp only
  rw [if_neg Bool.false_ne_true, opUpdate_sent (by simp [hfree])]
  rfl

theorem update_unsent (h : session.state.isEstablished) (inConference : Bool) {canSend : Bool}
    (hunsent : session.outstanding = true ∨ canSend = false) :
    (session.update inConference false canSend).2
      = if session.updateState = session.state then session.updateBegun inConference
        else (session.updateBegun inConference).setState session.state := by
  unfold update
  rw [isUpdateAllowed_of_established h]
  dsimp only
  rw [if_neg Bool.false_ne_true, opUpdate_unsent (by simpa using hunsent)]
  have hbegun := updateBegun_state h inConference
  show (if (-1 : Int) ≠ 0 ∧ (session.updateBegun inConference).state ≠ session.state then
      ((-1 : Int), (session.updateBegun inConference).setState session.state)
    else (-1, session.updateBegun inConference)).2 = _
  by_cases heq : session.updateState = session.state
  · rw [if_pos heq, if_neg (fun hand => hand.2 (hbegun.trans heq))]
  · rw [if_neg heq, if_pos ⟨by decide, fun hstate => heq (hbegun.symm.trans hstate)⟩]

/-- A modification is under way. -/
structure Begun (session started : CallSession) (inConference : Bool) : Prop where
  isChanging : started.state.isChanging
  prevState : session.state.isChanging = false → started.prevState = session.state
  resultDesc : started.resultDesc = session.resultDesc
  inConference : started.inConference = inConference
  soundResourcesLocked : started.soundResourcesLocked = session.soundResourcesLocked

theorem Begun.sent {started : CallSession} {inConference : Bool}
    (h : Begun session started inConference)
    (outstanding : Bool) : Begun session { started with outstanding } inConference :=
  ⟨h.isChanging, h.prevState, h.resultDesc, h.inConference, h.soundResourcesLocked⟩

theorem updateBegun_begun (h : session.state.isEstablished) (inConference : Bool) :
    Begun session (session.updateBegun inConference) inConference := by
  have hset := setState_of_established { session with broken := false } session.updateState h
    (State.isEstablished_of_isChanging session.updateState_isChanging)
  refine ⟨?_, ?_, by simp [updateBegun], rfl, by simp [updateBegun]⟩
  · show ({ session with broken := false }.setState session.updateState).state.isChanging
    rw [hset.1]
    exact session.updateState_isChanging
  · intro hnot
    refine hset.2.trans (if_neg ?_)
    intro heq
    rw [show session.state = session.updateState from heq, session.updateState_isChanging] at hnot
    cases hnot

/-! ## Operations that start -/

theorem pause_eq (haccepts : session.accepts .pause) (canSend : Bool) : (session.pause canSend).2
      = { (({ session with broken := false }.setState .pausing).opUpdate canSend).2 with
          pausedByApp := true } := by
  have hboth := Bool.and_eq_true_iff.mp haccepts
  unfold pause pausePrivate
  rw [if_neg (by grind), if_neg (by rw [hboth.2]; exact Bool.noConfusion)]
  rfl

theorem resume_eq (haccepts : session.accepts .resume) (canSend : Bool) : (session.resume canSend).2
      = if session.outstanding = true ∨ canSend = false then
          { session with automaticallyPaused := false, broken := false }
        else
          { session with
            automaticallyPaused := false, broken := false, outstanding := true }.setState
              .resuming := by
  have hboth := Bool.and_eq_true_iff.mp haccepts
  have hstate : session.state = .paused := by simpa using hboth.1
  have hlock : ¬(session.inConference = false ∧ session.soundResourcesLocked = true) := by
    rintro ⟨hconference, hlocked⟩
    rw [hconference, hlocked] at hboth
    exact Bool.false_ne_true hboth.2
  unfold resume opUpdate
  rw [if_neg (fun hne => hne hstate), if_neg hlock]
  dsimp only
  by_cases hunsent : session.outstanding = true ∨ canSend = false
  · rw [if_pos hunsent, if_pos hunsent]
    rfl
  · rw [if_neg hunsent, if_neg hunsent]
    rfl

/-! ## Refusals -/

theorem refused_after_refers (h : session.state.isChanging)
    (hprev : session.prevState.isEstablished)
    {reason : SalReason} (hreason : reason ≠ .noMatch) (refers : List (String × Bool)) : Unchanged
      { session with
        state := if refers = [] then session.prevState else session.state, outstanding := false }
      ((session.run (referEvents refers)).refused reason) := by
  have hrefers := run_refers h refers
  generalize session.run (referEvents refers) = awaiting at hrefers
  have hchanging : awaiting.state.isChanging := hrefers.1.state ▸ h
  have hrefused : awaiting.refused reason
      = { awaiting with outstanding := false }.setState awaiting.prevState := by
    unfold refused failure
    rw [if_pos ⟨hchanging, hreason⟩]
  have hestablished : awaiting.prevState.isEstablished := by
    rw [hrefers.2]
    split
    · exact hprev
    · exact State.isEstablished_of_isChanging h
  have hset := setState_of_established { awaiting with outstanding := false } awaiting.prevState
    (State.isEstablished_of_isChanging hchanging) hestablished
  rw [hrefused]
  refine ⟨hset.1.trans hrefers.2, ?_, ?_, ?_, ?_⟩
  · exact setState_outstanding _
  · exact (setState_resultDesc _).trans hrefers.1.resultDesc
  · exact (setState_inConference _).trans hrefers.1.inConference
  · exact (setState_soundResourcesLocked _).trans hrefers.1.soundResourcesLocked

end CallSession

/-- The parameters that an operation leaves. -/
def Operation.inConference (session : CallSession) : Operation → Bool
  | .update inConference => inConference
  | .pause => session.inConference
  | .resume => session.inConference

namespace CallSession

variable {session after : CallSession}

theorem start_sent (h : session.state.isEstablished) (hnot : session.state.isChanging = false)
    (hfree : session.outstanding = false) {operation : Operation}
    (haccepts : session.accepts operation) :
    Begun session (session.step (.start operation false true)) (operation.inConference session) ∧
      (session.step (.start operation false true)).outstanding = true := by
  cases operation with
  | update inConference =>
    rw [show session.step (.start (.update inConference) false true)
      = (session.update inConference false true).2 from rfl, update_sent h hfree]
    exact ⟨(updateBegun_begun h inConference).sent true, rfl⟩
  | pause =>
    rw [show session.step (.start .pause false true) = (session.pause true).2 from rfl,
      pause_eq haccepts, opUpdate_sent (by simp [hfree])]
    have hset := setState_of_established { session with broken := false } .pausing h rfl
    refine ⟨⟨?_, ?_, by simp, ?_, by simp⟩, rfl⟩
    · show ({ session with broken := false }.setState .pausing).state.isChanging
      rw [hset.1]
      rfl
    · intro _
      refine hset.2.trans (if_neg ?_)
      rintro (hpausing : session.state = .pausing)
      rw [hpausing] at hnot
      cases hnot
    · exact setState_inConference _
  | resume =>
    rw [show session.step (.start .resume false true) = (session.resume true).2 from rfl,
      resume_eq haccepts, if_neg (by simp [hfree])]
    have hset := setState_of_established
      { session with automaticallyPaused := false, broken := false, outstanding := true } .resuming
        h rfl
    refine ⟨⟨?_, ?_, by simp, ?_, by simp⟩, by simp⟩
    · rw [hset.1]
      rfl
    · intro _
      refine hset.2.trans (if_neg ?_)
      rintro (hresuming : session.state = .resuming)
      rw [hresuming] at hnot
      cases hnot
    · exact setState_inConference _

end CallSession

/-! ## Runs that fail -/

/-- The ways in which a modification fails: it cannot be sent, or it is refused after some REFERs,
and both once the candidates that it waits for are gathered. -/
inductive Failing where
  | atOnce (canSend : Bool)
  | refused (refers : List (String × Bool)) (reason : SalReason)
  | gatheringFailed (refers : List (String × Bool)) (canSend : Bool)
  | gatheringRefused (before after : List (String × Bool)) (reason : SalReason)

/-- What happens to the call. -/
def Failing.events (operation : Operation) : Failing → List Event
  | .atOnce canSend => [.start operation false canSend]
  | .refused refers reason => [.start operation false true] ++ referEvents refers ++
    [.refused reason]
  | .gatheringFailed refers canSend =>
    [.start operation true true] ++ referEvents refers ++ [.gatheringFinished canSend]
  | .gatheringRefused before after reason =>
    [.start operation true true] ++ referEvents before ++ [.gatheringFinished true] ++
      referEvents after ++ [.refused reason]

/-- A request leaves in the course of the events. -/
def CallSession.Sends (session : CallSession) (events : List Event) : Prop :=
  session.outstanding = false ∧ (session.run events).outstanding = true

/-- The failure can happen: only what was sent is refused, and only an update waits for
candidates. -/
def Failing.Possible (session : CallSession) (operation : Operation) : Failing → Prop
  | .atOnce canSend => ¬session.Sends [.start operation false canSend]
  | .refused _ reason => reason ≠ .noMatch ∧ session.Sends [.start operation false true]
  | .gatheringFailed refers canSend =>
    (∃ inConference, operation = .update inConference) ∧
      ¬session.Sends ([.start operation true true] ++ referEvents refers ++
        [.gatheringFinished canSend])
  | .gatheringRefused before _ reason =>
    (∃ inConference, operation = .update inConference) ∧ reason ≠ .noMatch ∧
      session.Sends ([.start operation true true] ++ referEvents before ++
        [.gatheringFinished true])

/-- The call is in the state it was in, every answer that its state stands for is awaited, no other
request is in the way, and every operation that was allowed is allowed. -/
structure Restored (session after : CallSession) : Prop where
  state : after.state = session.state
  awaited : after.state.isChanging → after.outstanding = true
  free : session.outstanding = false → after.outstanding = false
  accepts : ∀ operation, session.accepts operation → after.accepts operation

/-- The failures that an operation looks at: a pause does not see that it was not sent, nobody sees
that an update was not sent when its candidates are gathered, and a REFER takes the place of the
state to come back to. -/
def Failing.Seen (session : CallSession) (operation : Operation) : Failing → Prop
  | .atOnce _ => operation ≠ .pause
  | .refused refers _ => refers = []
  | .gatheringFailed _ _ => session.state.isChanging
  | .gatheringRefused before after _ => before = [] ∧ after = []

/-- A call that is paused in a conference, while another one holds the sound, is not updated out of
it. -/
def Operation.KeepsConference (session : CallSession) (operation : Operation) : Prop :=
  session.state = .paused → session.inConference = true → session.soundResourcesLocked = true →
    operation.inConference session = true

namespace CallSession

variable {session after : CallSession} {operation : Operation}

/-! ## When the call is restored -/

theorem not_restored_of_stuck (hchanging : session.state.isChanging)
    (hstuck : session.outstanding = false) : ¬Restored session after := by
  intro hrestored
  have hawaited := hrestored.awaited (hrestored.state ▸ hchanging)
  rw [hrestored.free hstuck] at hawaited
  cases hawaited

theorem isUpdateAllowed_eq (h : after.state = session.state) :
    after.isUpdateAllowed = session.isUpdateAllowed := by
  unfold isUpdateAllowed
  rw [h]

theorem restored_iff_keepsConference
    (hawaited : session.state.isChanging → session.outstanding = true)
    (h : Unchanged { session with inConference := operation.inConference session } after) :
    Restored session after ↔ operation.KeepsConference session := by
  have hstate : after.state = session.state := h.state
  have hconference : after.inConference = operation.inConference session := h.inConference
  have hlocked : after.soundResourcesLocked = session.soundResourcesLocked := h.soundResourcesLocked
  have hresume : after.accepts .resume = (decide (session.state = .paused)
      && (operation.inConference session || !session.soundResourcesLocked)) := by
    show (decide (after.state = .paused) && (after.inConference || !after.soundResourcesLocked)) = _
    rw [hstate, hconference, hlocked]
  constructor
  · intro hrestored hpaused hin hsound
    have haccepted := hrestored.accepts .resume (by simp [accepts, hpaused, hin])
    rw [hresume, hsound] at haccepted
    simpa [hpaused] using haccepted
  · intro hkeeps
    refine ⟨hstate, ?_, fun hfree => h.outstanding.trans hfree, ?_⟩
    · intro hchanging
      exact h.outstanding.trans (hawaited (hstate ▸ hchanging))
    · intro other hother
      cases other with
      | update inConference =>
        show after.isUpdateAllowed.isSome = true
        rw [isUpdateAllowed_eq hstate]
        exact hother
      | pause =>
        have hreason : after.hasReasonToPause = session.hasReasonToPause := by
          unfold hasReasonToPause
          rw [h.resultDesc]
        show ((after.state = .streamsRunning || after.state = .pausedByRemote) &&
          after.hasReasonToPause) = true
        rw [hstate, hreason]
        exact hother
      | resume =>
        rw [hresume]
        have hboth := Bool.and_eq_true_iff.mp hother
        refine Bool.and_eq_true_iff.mpr ⟨hboth.1, ?_⟩
        have hpaused : session.state = .paused := of_decide_eq_true hboth.1
        cases hsound : session.soundResourcesLocked with
        | false => simp
        | true =>
          have hin : session.inConference = true := by simpa [hsound] using hboth.2
          rw [hkeeps hpaused hin hsound]
          rfl

theorem not_restored_of_state (h : after.state ≠ session.state) : ¬Restored session after :=
  fun hrestored => h hrestored.state

theorem ne_of_isChanging {state state' : State} (h : state.isChanging)
    (h' : state'.isChanging = false) : state ≠ state' := by
  rintro rfl
  rw [h] at h'
  cases h'

theorem isChanging_of_free (hawaited : session.state.isChanging → session.outstanding = true)
    (hfree : session.outstanding = false) : session.state.isChanging = false := by
  rw [Bool.eq_false_iff]
  intro hchanging
  rw [hawaited hchanging] at hfree
  cases hfree

variable {canSend : Bool}

theorem unsent_of_not_sends (h : session.state.isEstablished)
    (hnot : session.state.isChanging = false) (haccepts : session.accepts operation)
    (hsends : ¬session.Sends [.start operation false canSend]) :
    session.outstanding = true ∨ canSend = false := by
  cases hfree : session.outstanding with
  | true => exact .inl rfl
  | false =>
    cases canSend with
    | false => exact .inr rfl
    | true => exact absurd ⟨hfree, (start_sent h hnot hfree haccepts).2⟩ hsends

theorem updateState_of_changing (h : session.state.isChanging) :
    session.updateState = session.state :=
  if_pos h

theorem updateBegun_outstanding (inConference : Bool) :
    (session.updateBegun inConference).outstanding = session.outstanding :=
  setState_outstanding _

theorem updateBegun_unchanged (h : session.state.isChanging) (inConference : Bool) :
    Unchanged { session with inConference := inConference } (session.updateBegun inConference) where
  state := (updateBegun_state (State.isEstablished_of_isChanging h) inConference).trans
    (updateState_of_changing h)
  outstanding := updateBegun_outstanding inConference
  resultDesc := setState_resultDesc _
  inConference := rfl
  soundResourcesLocked := setState_soundResourcesLocked _

/-! ## Each kind of failure -/

theorem atOnce_iff (h : session.state.isEstablished)
    (hawaited : session.state.isChanging → session.outstanding = true)
    (haccepts : session.accepts operation)
    (hpossible : (Failing.atOnce canSend).Possible session operation) :
    Restored session (session.run ((Failing.atOnce canSend).events operation)) ↔
      (Failing.atOnce canSend).Seen session operation ∧ operation.KeepsConference session := by
  have hunsent : session.outstanding = true ∨ canSend = false := by
    cases hchanging : session.state.isChanging with
    | true => exact .inl (hawaited hchanging)
    | false => exact unsent_of_not_sends h hchanging haccepts hpossible
  show Restored session (session.step (.start operation false canSend)) ↔ operation ≠ .pause ∧ _
  cases operation with
  | update inConference =>
    rw [and_iff_right (by simp)]
    apply restored_iff_keepsConference hawaited
    show Unchanged _ (session.update inConference false canSend).2
    rw [update_unsent h inConference hunsent]
    split
    · next heq =>
      refine updateBegun_unchanged ?_ inConference
      rw [← heq]
      exact session.updateState_isChanging
    · have hbegun := updateBegun_state h inConference
      refine ⟨?_, by simp [updateBegun_outstanding], by simp [updateBegun],
        ?_, by simp [updateBegun]⟩
      · exact (setState_of_established _ _ (hbegun ▸
          State.isEstablished_of_isChanging session.updateState_isChanging) h).1
      · exact setState_inConference _
  | pause =>
    apply iff_of_false _ (by simp)
    have hstate := Bool.and_eq_true_iff.mp haccepts
    have hset := setState_of_established { session with broken := false } .pausing h rfl
    apply not_restored_of_state
    show (session.pause canSend).2.state ≠ session.state
    rw [pause_eq haccepts, opUpdate_unsent (by simpa using hunsent)]
    rw [hset.1]
    intro hpausing
    rw [← hpausing] at hstate
    exact Bool.false_ne_true hstate.1
  | resume =>
    rw [and_iff_right (by simp)]
    apply restored_iff_keepsConference hawaited
    show Unchanged _ (session.resume canSend).2
    rw [resume_eq haccepts, if_pos hunsent]
    exact ⟨rfl, rfl, rfl, rfl, rfl⟩

variable {reason : SalReason}

theorem refusal_iff (operation : Operation) (awaiting : CallSession)
    (h : session.state.isEstablished) (hnot : session.state.isChanging = false)
    (hfree : session.outstanding = false) (hchanging : awaiting.state.isChanging)
    (hresult : awaiting.resultDesc = session.resultDesc)
    (hin : awaiting.inConference = operation.inConference session)
    (hsound : awaiting.soundResourcesLocked = session.soundResourcesLocked)
    (hprev : awaiting.prevState = session.state ∨ awaiting.prevState.isChanging)
    (hreason : reason ≠ .noMatch) (refers : List (String × Bool)) :
    Restored session ((awaiting.run (referEvents refers)).refused reason) ↔
      (awaiting.prevState = session.state ∧ refers = []) ∧ operation.KeepsConference session := by
  have hestablished : awaiting.prevState.isEstablished := by
    rcases hprev with hprev | hprev
    · exact hprev ▸ h
    · exact State.isEstablished_of_isChanging hprev
  have hafter := refused_after_refers hchanging hestablished hreason refers
  by_cases hback : awaiting.prevState = session.state ∧ refers = []
  · rw [and_iff_right hback]
    refine restored_iff_keepsConference (fun hstuck => ?_)
      ⟨?_, hafter.outstanding.trans hfree.symm, hafter.resultDesc.trans hresult,
        hafter.inConference.trans hin, hafter.soundResourcesLocked.trans hsound⟩
    · rw [hnot] at hstuck
      cases hstuck
    · exact hafter.state.trans ((if_pos hback.2).trans hback.1)
  · refine iff_of_false (not_restored_of_state ?_) (fun hand => hback hand.1)
    rw [hafter.state]
    split
    · next hnone =>
      have hprev := hprev.resolve_left (fun hprev => hback ⟨hprev, hnone⟩)
      exact ne_of_isChanging hprev hnot
    · exact ne_of_isChanging hchanging hnot

theorem refused_iff (h : session.state.isEstablished)
    (hawaited : session.state.isChanging → session.outstanding = true)
    (haccepts : session.accepts operation) {refers : List (String × Bool)}
    (hpossible : (Failing.refused refers reason).Possible session operation) :
    Restored session (session.run ((Failing.refused refers reason).events operation)) ↔
      (Failing.refused refers reason).Seen session operation ∧
        operation.KeepsConference session := by
  have hfree := hpossible.2.1
  have hnot := isChanging_of_free hawaited hfree
  have hbegun := (start_sent h hnot hfree haccepts).1
  show Restored session (session.run ([.start operation false true] ++ referEvents refers ++
    [.refused reason])) ↔ refers = [] ∧ _
  rw [run_append, run_append]
  have hiff := refusal_iff operation _ h hnot hfree hbegun.isChanging hbegun.resultDesc
    hbegun.inConference hbegun.soundResourcesLocked (.inl (hbegun.prevState hnot)) hpossible.1
      refers
  rw [and_iff_right (hbegun.prevState hnot)] at hiff
  exact hiff

theorem gatheringFinished_unsent (h : session.outstanding = true ∨ session.state ≠ .updating)
    (canSend : Bool) : session.gatheringFinished canSend = session := by
  unfold gatheringFinished
  split
  · next hstate =>
    rw [opUpdate_unsent (.inl (h.resolve_right (fun hne => hne hstate)))]
  · rfl

theorem gatheringFinished_eq (canSend : Bool) : session.gatheringFinished canSend
      = { session with outstanding := (session.gatheringFinished canSend).outstanding } := by
  unfold gatheringFinished opUpdate
  split
  · split
    · rfl
    · rfl
  · rfl

theorem gatheringFailed_iff (h : session.state.isEstablished)
    (hawaited : session.state.isChanging → session.outstanding = true)
    {refers : List (String × Bool)}
    (hpossible : (Failing.gatheringFailed refers canSend).Possible session operation) :
    Restored session (session.run ((Failing.gatheringFailed refers canSend).events operation)) ↔
      (Failing.gatheringFailed refers canSend).Seen session operation ∧
        operation.KeepsConference session := by
  rcases hpossible.1 with ⟨inConference, rfl⟩
  show Restored session (session.run ([.start (.update inConference) true true] ++
    referEvents refers ++ [.gatheringFinished canSend])) ↔ session.state.isChanging = true ∧ _
  rw [run_append, run_append]
  show Restored session ((((session.update inConference true true).2.run
    (referEvents refers)).gatheringFinished canSend)) ↔ _
  rw [update_deferred h]
  have hstate := updateBegun_state h inConference
  have hrefers := (run_refers (hstate ▸ session.updateState_isChanging) refers).1
  cases hchanging : session.state.isChanging with
  | true =>
    have hbegun := updateBegun_unchanged hchanging inConference
    have houtstanding :
        ((session.updateBegun inConference).run (referEvents refers)).outstanding = true :=
      hrefers.outstanding.trans (hbegun.outstanding.trans (hawaited hchanging))
    rw [gatheringFinished_unsent (.inl houtstanding), and_iff_right rfl]
    exact restored_iff_keepsConference hawaited (hbegun.trans hrefers)
  | false =>
    refine iff_of_false (not_restored_of_state ?_) (fun hand => Bool.false_ne_true hand.1)
    rw [gatheringFinished_eq]
    rw [hrefers.state, hstate]
    exact ne_of_isChanging session.updateState_isChanging hchanging

theorem gatheringRefused_iff (h : session.state.isEstablished)
    (hawaited : session.state.isChanging → session.outstanding = true)
    {before between : List (String × Bool)}
    (hpossible : (Failing.gatheringRefused before between reason).Possible session operation) :
    Restored session (session.run (
      (Failing.gatheringRefused before between reason).events operation)) ↔
      (Failing.gatheringRefused before between reason).Seen session operation ∧
        operation.KeepsConference session := by
  rcases hpossible.1 with ⟨inConference, rfl⟩
  have hfree := hpossible.2.2.1
  have hnot := isChanging_of_free hawaited hfree
  have hbegun := updateBegun_begun h inConference
  have hrefers := run_refers hbegun.isChanging before
  have hrun : session.run ((Failing.gatheringRefused before between reason).events
    (.update inConference))
      = (((((session.updateBegun inConference).run (referEvents before)).gatheringFinished true).run
          (referEvents between)).refused reason) := by
    show session.run ([.start (.update inConference) true true] ++ referEvents before ++
      [.gatheringFinished true] ++ referEvents between ++ [.refused reason]) = _
    rw [run_append, run_append, run_append, run_append]
    show ((((session.update inConference true true).2.run _).gatheringFinished true).run
      _).refused reason = _
    rw [update_deferred h]
  rw [hrun, gatheringFinished_eq]
  have hprev : ((session.updateBegun inConference).run (referEvents before)).prevState
      = if before = [] then session.state else (session.updateBegun inConference).state := by
    rw [hrefers.2, hbegun.prevState hnot]
  have hback : (if before = [] then session.state else (session.updateBegun inConference).state)
      = session.state ↔ before = [] := by
    constructor
    · intro heq
      by_cases hnone : before = []
      · exact hnone
      · rw [if_neg hnone] at heq
        exact absurd heq (ne_of_isChanging hbegun.isChanging hnot)
    · exact fun hnone => if_pos hnone
  have hiff := refusal_iff (.update inConference)
    { (session.updateBegun inConference).run (referEvents before) with
      outstanding := (((session.updateBegun inConference).run
        (referEvents before)).gatheringFinished true).outstanding } h hnot hfree
    (hrefers.1.state ▸ hbegun.isChanging) (hrefers.1.resultDesc.trans hbegun.resultDesc)
    (hrefers.1.inConference.trans hbegun.inConference)
    (hrefers.1.soundResourcesLocked.trans hbegun.soundResourcesLocked) (by
      by_cases hsome : before = []
      · exact .inl (hprev.trans (if_pos hsome))
      · refine .inr ?_
        rw [hprev, if_neg hsome]
        exact hbegun.isChanging) hpossible.2.1 between
  refine hiff.trans (and_congr_left' (and_congr_left' ?_))
  rw [hprev, hback]

/-! ## Every failure -/

/-- A modification that fails leads back to the state that it was started in just when that state
had its answer awaited, the failure is one that is seen, and the parameters that it leaves are in no
way. -/
theorem failing_restores_iff (session : CallSession) (operation : Operation) (failing : Failing)
    (h : session.state.isEstablished) (haccepts : session.accepts operation)
    (hpossible : failing.Possible session operation) :
    Restored session (session.run (failing.events operation)) ↔
      (session.state.isChanging → session.outstanding = true) ∧
        failing.Seen session operation ∧ operation.KeepsConference session := by
  by_cases hawaited : session.state.isChanging → session.outstanding = true
  · rw [and_iff_right hawaited]
    cases failing with
    | atOnce canSend => exact atOnce_iff h hawaited haccepts hpossible
    | refused refers reason => exact refused_iff h hawaited haccepts hpossible
    | gatheringFailed refers canSend => exact gatheringFailed_iff h hawaited hpossible
    | gatheringRefused before between reason => exact gatheringRefused_iff h hawaited hpossible
  · refine iff_of_false ?_ (fun hand => hawaited hand.1)
    cases hchanging : session.state.isChanging with
    | false => exact absurd (fun hstuck => by rw [hchanging] at hstuck; cases hstuck) hawaited
    | true =>
      refine not_restored_of_stuck hchanging ?_
      rw [← Bool.not_eq_true]
      exact fun houtstanding => hawaited (fun _ => houtstanding)

/-- A call whose streams run both ways. -/
def running : CallSession where
  state := .streamsRunning
  prevState := .connected
  resultDesc :=
    { salMediaDescriptionNew with streams := fun _ => { dir := .sendRecv, rtpPort := 7078 } }

theorem failing_restores_running :
    Restored running (running.run (Failing.events (.update false) (.refused [] .notAcceptable))) :=
  (failing_restores_iff running (.update false) (.refused [] .notAcceptable) rfl rfl
    ⟨by decide, rfl, rfl⟩).mpr ⟨by decide, rfl, fun hpaused => by cases hpaused⟩

/-- An update that is refused after a REFER, and a pause that cannot be sent, leave the call waiting
for nothing. -/
theorem failing_leavesWaiting :
    (running.state.isEstablished ∧ running.accepts (.update false) ∧ running.accepts .pause) ∧
      (let failing := Failing.refused [("sip:carol@example.org", true)] .notAcceptable
       failing.Possible running (.update false) ∧
         (running.run (failing.events (.update false))).state = .updating ∧
         (running.run (failing.events (.update false))).outstanding = false ∧
         ¬Restored running (running.run (failing.events (.update false)))) ∧
      (let failing := Failing.atOnce false
       failing.Possible running .pause ∧
         (running.run (failing.events .pause)).state = .pausing ∧
         (running.run (failing.events .pause)).outstanding = false ∧
         ¬Restored running (running.run (failing.events .pause))) := by
  refine ⟨by decide, ⟨⟨by decide, rfl, rfl⟩, rfl, rfl, ?_⟩, ?_, rfl, rfl, ?_⟩
  · exact fun hrestored => absurd hrestored.state (by decide)
  · exact fun hsends => absurd hsends.2 (by decide)
  · exact fun hrestored => absurd hrestored.state (by decide)

end CallSession

end GrooveIp.Session
