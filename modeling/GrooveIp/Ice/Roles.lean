import GrooveIp.Ice.Runs

/-!
# Role conflicts between two agents

Two sessions exchange binding requests and 487 error responses, each of which the network may lose,
delay, repeat or bring in another order. A request tells the tie-breaker of its sender, and an error
response carries an identifier of its own (`ice.c:1709`), so that it never names a check of its
receiver. Once the agent with the larger tie-breaker is controlling and the other one controlled,
they stay so.
-/

namespace GrooveIp.Ice

open Lib Stun List MSStunMessage

/-- A request that shows what the received one says about the role of its sender. -/
def ShowsRole (msg : MSStunMessage) : IceSent → Prop
  | .bindingRequest _ request =>
    msg.hasIceControlling = request.hasIceControlling ∧
      msg.iceControlling = request.iceControlling ∧
      msg.hasIceControlled = request.hasIceControlled ∧ msg.iceControlled = request.iceControlled
  | _ => False

/-- An error response with the identifier of the received one. -/
def ShowsError (msg : MSStunMessage) : IceSent → Prop
  | .errorResponse response => msg.trId = response.trId
  | _ => False

/-- The requests and the 487 error responses that arrive are some the peer has sent, each maybe
again. -/
def FromPeer (peer : IceRun) : IceInput → Prop
  | .packet _ evt => ∀ msg, msStunMessageCreateFromBufferParsing evt.packet = .ok (some msg) →
    (stunClass msg = 0x0000 → ∃ tagged ∈ peer.sent, ShowsRole msg tagged.2) ∧
    (stunClass msg = 0x0110 → msg.hasErrorCode = true →
      msg.errorCode.number = msIceErrorCodeRoleConflict →
      ∃ tagged ∈ peer.sent, ShowsError msg tagged.2)
  | .start => True
  | .tick _ _ _ => True

/-- The identifiers a call draws are none of the peer's. -/
def DrawnApart (peer : IceRun) (input : IceInput) : Prop :=
  ∀ id ∈ input.drawn, id ∉ peer.drawn

/-- A call of one of two agents. -/
inductive AgentsStep (env : IceEnvironment) : IceRun × IceRun → IceRun × IceRun → Prop where
  | first {a b : IceRun} {session' : IceSession} {sent : List (StreamIndex × IceSent)}
      (input : IceInput) (peer : FromPeer b input) (apart : DrawnApart b input)
      (returned : iceInput env a.session input = .ok (session', sent)) :
      AgentsStep env (a, b) (⟨session', a.sent ++ sent, a.drawn ++ input.drawn⟩, b)
  | second {a b : IceRun} {session' : IceSession} {sent : List (StreamIndex × IceSent)}
      (input : IceInput) (peer : FromPeer a input) (apart : DrawnApart a input)
      (returned : iceInput env b.session input = .ok (session', sent)) :
      AgentsStep env (a, b) (a, ⟨session', b.sent ++ sent, b.drawn ++ input.drawn⟩)

/-- The runs of two agents. -/
def AgentsReach (env : IceEnvironment) : IceRun × IceRun → IceRun × IceRun → Prop :=
  Relation.ReflTransGen (AgentsStep env)

/-- The first agent is controlling and the second one controlled. -/
def RolesSettled (agents : IceRun × IceRun) : Prop :=
  agents.1.session.role = .controlling ∧ agents.2.session.role = .controlled

variable {call : IceCall} {session session' : IceSession} {env : IceEnvironment}

/-! ## What a step tells -/

/-- What is sent tells the tie-breaker, and its error responses have identifiers in a list. -/
structure Tells (tieBreaker : UInt64) (drawn : List UInt96) (sent : List (StreamIndex × IceSent)) :
    Prop where
  controlling : ∀ i p msg, (i, IceSent.bindingRequest p msg) ∈ sent →
    msg.hasIceControlling = true → msg.iceControlling = tieBreaker
  controlled : ∀ i p msg, (i, IceSent.bindingRequest p msg) ∈ sent →
    msg.hasIceControlled = true → msg.iceControlled = tieBreaker
  errors : ∀ i msg, (i, IceSent.errorResponse msg) ∈ sent → msg.trId ∈ drawn

variable {cl : IceCheckList}

variable {pair : PairRef}

theorem iceBindingRequest_controlling {trId : UInt96}
    (h : (iceBindingRequest session cl pair trId).hasIceControlling = true) :
    (iceBindingRequest session cl pair trId).iceControlling = session.tieBreaker := by
  unfold iceBindingRequest at h ⊢
  cases hrole : session.role with
  | controlling => rfl
  | controlled =>
    rw [hrole] at h
    simp [setIceControlled, msStunMessageCreate, enableUseCandidate, setPriority, setUsername] at h

theorem iceBindingRequest_controlled {trId : UInt96}
    (h : (iceBindingRequest session cl pair trId).hasIceControlled = true) :
    (iceBindingRequest session cl pair trId).iceControlled = session.tieBreaker := by
  unfold iceBindingRequest at h ⊢
  cases hrole : session.role with
  | controlling =>
    rw [hrole] at h
    simp [setIceControlling, msStunMessageCreate, enableUseCandidate, setPriority, setUsername] at h
  | controlled => rfl

theorem IceChange.sent {cl' : IceCheckList} {sent : List IceSent}
    (change : IceChange session call cl sent cl') {m : IceSent} (hm : m ∈ sent) :
    (∃ p, m = .indication p) ∨
      ∃ cl p trId, m = .bindingRequest p (iceBindingRequest session cl p trId) := by
  cases change with
  | upkeep step =>
    cases step with
    | quiet q indications => exact .inl (indications m hm)
    | retransmit q inProgress found allowed requests =>
      obtain ⟨cl, rfl⟩ := requests m hm
      exact .inr ⟨cl, _, _, rfl⟩
  | transmit timer known fresh update started wire requests =>
    obtain ⟨cl, rfl⟩ := requests m hm
    exact .inr ⟨cl, _, _, rfl⟩
  | _ => cases hm

variable {sent : List (StreamIndex × IceSent)}

theorem SessionStep.tells (step : SessionStep call session sent session')
    (drawn : List UInt96) (replies : ¬ call.timer → call.trId ∈ drawn) :
    Tells session.tieBreaker drawn sent := by
  cases step with
  | @list i cl cl' sent hi change =>
    have each : ∀ j m, (j, m) ∈ sent.map (fun m => (i, m)) → m ∈ sent := by
      intro j m hm
      obtain ⟨m', hm', heq⟩ := mem_map.mp hm
      exact (Prod.mk.inj heq).2 ▸ hm'
    refine ⟨fun j p msg hm has => ?_, fun j p msg hm has => ?_, fun j msg hm => ?_⟩
    · rcases change.sent (each j _ hm) with ⟨q, hq⟩ | ⟨cl, q, trId, hq⟩
      · cases hq
      · obtain ⟨-, rfl⟩ := IceSent.bindingRequest.inj hq
        exact iceBindingRequest_controlling has
    · rcases change.sent (each j _ hm) with ⟨q, hq⟩ | ⟨cl, q, trId, hq⟩
      · cases hq
      · obtain ⟨-, rfl⟩ := IceSent.bindingRequest.inj hq
        exact iceBindingRequest_controlled has
    · rcases change.sent (each j _ hm) with ⟨q, hq⟩ | ⟨cl, q, trId, hq⟩
      · cases hq
      · cases hq
  | @reply i sent timer h =>
    have each : ∀ j m, (j, m) ∈ sent.map (fun m => (i, m)) → m ∈ sent := by
      intro j m hm
      obtain ⟨m', hm', heq⟩ := mem_map.mp hm
      exact (Prod.mk.inj heq).2 ▸ hm'
    refine ⟨fun j p msg hm => ?_, fun j p msg hm => ?_, fun j msg hm => ?_⟩
    · rcases h _ (each j _ hm) with ⟨m, hm'⟩ | ⟨m, hm', -⟩
      · cases hm'
      · cases hm'
    · rcases h _ (each j _ hm) with ⟨m, hm'⟩ | ⟨m, hm', -⟩
      · cases hm'
      · cases hm'
    · rcases h _ (each j _ hm) with ⟨m, hm'⟩ | ⟨m, hm', hid⟩
      · cases hm'
      · obtain rfl := IceSent.errorResponse.inj hm'
        exact hid ▸ replies timer
  | _ => exact ⟨by simp, by simp, by simp⟩

theorem SessionStep.tieBreaker (step : SessionStep call session sent session') :
    session'.tieBreaker = session.tieBreaker := by
  cases step with
  | list => rfl
  | finish =>
    unfold iceNotifySessionProcessingFinished
    split <;> rfl
  | takeRole =>
    unfold iceSessionSetRole
    split <;> rfl
  | same same => exact same.tieBreaker
  | reply => rfl
  | pairing => rfl
  | started => rfl

theorem SessionStep.role (step : SessionStep call session sent session')
    (none : ∀ session role, ¬ call.takesRole session role) : session'.role = session.role := by
  cases step with
  | list => rfl
  | finish =>
    unfold iceNotifySessionProcessingFinished
    split <;> rfl
  | takeRole allowed => exact absurd allowed (none _ _)
  | same same => exact same.role
  | reply => rfl
  | pairing => rfl
  | started => rfl

theorem Tells.append {tieBreaker : UInt64} {drawn drawn' : List UInt96}
    {sent' : List (StreamIndex × IceSent)} (h : Tells tieBreaker drawn sent)
    (h' : Tells tieBreaker drawn' sent') (sub : drawn ⊆ drawn') :
    Tells tieBreaker drawn' (sent ++ sent') where
  controlling i p msg hm := (mem_append.mp hm).elim (h.controlling i p msg) (h'.controlling i p msg)
  controlled i p msg hm := (mem_append.mp hm).elim (h.controlled i p msg) (h'.controlled i p msg)
  errors i msg hm := (mem_append.mp hm).elim (fun hm => sub (h.errors i msg hm)) (h'.errors i msg)

/-! ## One agent -/

/-- Whatever arrives the agent's pointers are inside, what it sent tells its tie-breaker, and the
identifiers of its errors and transactions were drawn. -/
structure AgentInvariant (tie : UInt64) (run : IceRun) : Prop where
  inside : Inside run.session
  tieBreaker : run.session.tieBreaker = tie
  tells : Tells tie run.drawn run.sent
  drawn : ∀ i cl, run.session.streams i = some cl →
    ∀ t ∈ cl.transactionList, t.transactionID ∈ run.drawn

theorem AgentInvariant.input {tie : UInt64} {run : IceRun} {input : IceInput}
    (h : AgentInvariant tie run)
    (returned : iceInput env run.session input = .ok (session', sent)) :
    AgentInvariant tie ⟨session', run.sent ++ sent, run.drawn ++ input.drawn⟩ := by
  have trace := iceInput_trace h.inside (anyCall_allows env run.session input) returned
  -- the start replies nothing, so that it needs no identifier
  have told : Tells tie (run.drawn ++ input.drawn) sent ∧ session'.tieBreaker = tie := by
    have along := trace.preserves_output (fun session sent => session.tieBreaker = tie ∧
      (input ≠ .start → Tells tie (run.drawn ++ input.drawn) sent)) []
      (fun {s past out s'} inv step => by
        refine ⟨step.tieBreaker.trans inv.1, fun hstart => (inv.2 hstart).append ?_ (fun _ => id)⟩
        have tells := step.tells (run.drawn ++ input.drawn) fun timer => ?_
        · rwa [inv.1] at tells
        · cases input with
          | start => exact absurd rfl hstart
          | packet i evt => simp [anyCall, IceInput.trId, IceInput.drawn]
          | tick i now trId => exact absurd trivial timer)
      ⟨h.tieBreaker, fun _ => ⟨by simp, by simp, by simp⟩⟩
    refine ⟨?_, along.1⟩
    by_cases hstart : input = .start
    · subst hstart
      obtain ⟨session₁, hcall, returned⟩ := bind_eq_ok.mp returned
      obtain ⟨-, rfl⟩ := Prod.mk.inj (Except.ok.inj returned)
      exact ⟨by simp, by simp, by simp⟩
    · simpa using along.2 hstart
  refine ⟨h.inside.trace trace, told.2, h.tells.append told.1 (subset_append_left _ _), ?_⟩
  intro i cl hi t ht
  apply mem_append.mpr
  rcases SessionTrace.transaction trace h.inside hi ht with ⟨cl₀, hcl₀, t₀, ht₀, hid, -⟩ | ⟨timer, hid⟩
  · exact .inl (hid ▸ h.drawn i cl₀ hcl₀ t₀ ht₀)
  · right
    rw [hid]
    cases input with
    | tick i now trId => exact mem_singleton.mpr rfl
    | start => exact timer.elim
    | packet i evt => exact timer.elim

/-- A call that takes no role. -/
def roleKeepingCall (input : IceInput) : IceCall :=
  ⟨input.trId, False, input.IsTick, fun _ _ => True, fun _ => True, fun _ _ => False⟩

theorem iceInput_role {input : IceInput} (inside : Inside session)
    (none : ∀ i evt msg role, input = .packet i evt → msStunMessageCreateFromBufferParsing
      evt.packet = .ok (some msg) → ¬ TakesRole env session i evt.packet msg role)
    (returned : iceInput env session input = .ok (session', sent)) :
    session'.role = session.role := by
  have allows : InputAllows env (roleKeepingCall input) session input := by
    cases input with
    | start => trivial
    | packet i evt =>
      exact ⟨rfl, fun msg hmsg => ⟨id, fun _ _ _ _ _ => trivial,
        fun role _ takes _ => none i evt msg role rfl hmsg takes⟩⟩
    | tick i now trId => exact ⟨rfl, trivial, False.elim, .always session i now trId⟩
  have trace := iceInput_trace inside allows returned
  exact trace.preserves (fun s => s.role = session.role)
    (fun hrole step => (step.role fun _ _ => id).trans hrole) rfl

theorem not_rejected {tie : UInt64} {run peer : IceRun} {i : StreamIndex} {evt : IceEvent}
    {msg : MSStunMessage} {peerTie : UInt64} (h : AgentInvariant tie run)
    (hpeer : AgentInvariant peerTie peer) (apart : ∀ id ∈ run.drawn, id ∉ peer.drawn)
    (honest : FromPeer peer (.packet i evt))
    (hmsg : msStunMessageCreateFromBufferParsing evt.packet = .ok (some msg))
    (response : stunClass msg = 0x0110) (hi : run.session.streams i = some cl)
    (answers : iceFindPairFromTransactionID cl msg.trId = some pair) :
    ¬ (msg.hasErrorCode = true ∧ msg.errorCode.number = msIceErrorCodeRoleConflict) := by
  rintro ⟨hcode, hnumber⟩
  obtain ⟨⟨j, m⟩, hsent, hshows⟩ := (honest msg hmsg).2 response hcode hnumber
  cases m with
  | errorResponse sent =>
    obtain ⟨t, hfound, -⟩ := Option.map_eq_some_iff.mp answers
    have ht := mem_of_find?_eq_some hfound
    have hid : t.transactionID = msg.trId := by simpa using List.find?_some hfound
    have mine : msg.trId ∈ run.drawn := hid ▸ h.drawn i cl hi t ht
    have theirs : msg.trId ∈ peer.drawn := by
      rw [show msg.trId = sent.trId from hshows]
      exact hpeer.tells.errors j sent hsent
    exact apart _ mine theirs
  | bindingRequest => exact hshows
  | bindingResponse => exact hshows
  | indication => exact hshows

/-! ## Two agents -/

/-- What holds of two agents in every state they reach. -/
structure AgentsInvariant (tieA tieB : UInt64) (agents : IceRun × IceRun) : Prop where
  first : AgentInvariant tieA agents.1
  second : AgentInvariant tieB agents.2
  apart : ∀ id ∈ agents.1.drawn, id ∉ agents.2.drawn

theorem AgentsInvariant.step {tieA tieB : UInt64} {agents agents' : IceRun × IceRun}
    (h : AgentsInvariant tieA tieB agents) (step : AgentsStep env agents agents') :
    AgentsInvariant tieA tieB agents' := by
  cases step with
  | first input peer apart returned =>
    refine ⟨h.first.input returned, h.second, fun id hid => ?_⟩
    exact (mem_append.mp hid).elim (h.apart id) (apart id)
  | second input peer apart returned =>
    refine ⟨h.first, h.second.input returned, fun id hid hid' => ?_⟩
    exact (mem_append.mp hid').elim (h.apart id hid) fun hid' => apart id hid' hid

variable {agents agents' : IceRun × IceRun}

theorem AgentsInvariant.reach {tieA tieB : UInt64} (h : AgentsInvariant tieA tieB agents)
    (reaches : AgentsReach env agents agents') : AgentsInvariant tieA tieB agents' := by
  induction reaches with
  | refl => exact h
  | tail _ step ih => exact ih.step step

theorem RolesSettled.step {tieA tieB : UInt64} {agents agents' : IceRun × IceRun}
    (h : AgentsInvariant tieA tieB agents) (larger : tieB < tieA) (settled : RolesSettled agents)
    (step : AgentsStep env agents agents') : RolesSettled agents' := by
  cases step with
  | @first a b session' sent input peer apart returned =>
    refine ⟨?_, settled.2⟩
    refine (iceInput_role h.first.inside ?_ returned).trans settled.1
    rintro i evt msg role rfl hmsg takes
    cases takes with
    | yield request present letIn controlling conflict smaller =>
      obtain ⟨⟨j, m⟩, hsent, hshows⟩ := (peer msg hmsg).1 request
      cases m with
      | bindingRequest p sent =>
        obtain ⟨hhas, htie, -, -⟩ := hshows
        rw [htie, h.second.tells.controlling j p sent hsent (hhas ▸ conflict),
          h.first.tieBreaker] at smaller
        exact UInt64.lt_asymm larger smaller
      | bindingResponse => exact hshows
      | errorResponse => exact hshows
      | indication => exact hshows
    | claim request present letIn controlled conflict larger' =>
      rw [settled.1] at controlled
      cases controlled
    | rejected response hi gathered answers conflict =>
      exact not_rejected h.first h.second h.apart peer hmsg response hi answers conflict
  | @second a b session' sent input peer apart returned =>
    refine ⟨settled.1, ?_⟩
    refine (iceInput_role h.second.inside ?_ returned).trans settled.2
    rintro i evt msg role rfl hmsg takes
    cases takes with
    | yield request present letIn controlling conflict smaller =>
      rw [settled.2] at controlling
      cases controlling
    | claim request present letIn controlled conflict larger' =>
      obtain ⟨⟨j, m⟩, hsent, hshows⟩ := (peer msg hmsg).1 request
      cases m with
      | bindingRequest p sent =>
        obtain ⟨-, -, hhas, htie⟩ := hshows
        rw [htie, h.first.tells.controlled j p sent hsent (hhas ▸ conflict),
          h.second.tieBreaker] at larger'
        exact UInt64.not_le.mpr larger larger'
      | bindingResponse => exact hshows
      | errorResponse => exact hshows
      | indication => exact hshows
    | rejected response hi gathered answers conflict =>
      exact not_rejected h.second h.first (fun id hid hid' => h.apart id hid' hid) peer hmsg
        response hi answers conflict

theorem FreshSession.agentInvariant (h : FreshSession session) :
    AgentInvariant session.tieBreaker { session := session } where
  inside := h.inside
  tieBreaker := rfl
  tells := ⟨by simp, by simp, by simp⟩
  drawn i cl hi t ht := by simp [(h.lists i cl hi).transactionList] at ht

/-- Of two agents with distinct tie-breakers, once that with the larger one is controlling and the
other controlled neither changes its role. -/
theorem iceCheckRoleConflict_stable {a b : IceSession} {agents agents' : IceRun × IceRun}
    (freshA : FreshSession a) (freshB : FreshSession b) (larger : b.tieBreaker < a.tieBreaker)
    (reaches : AgentsReach env ({ session := a }, { session := b }) agents)
    (settled : RolesSettled agents) (later : AgentsReach env agents agents') :
    RolesSettled agents' := by
  have start : AgentsInvariant a.tieBreaker b.tieBreaker ({ session := a }, { session := b }) :=
    ⟨freshA.agentInvariant, freshB.agentInvariant, fun _ h => absurd h not_mem_nil⟩
  have reached := start.reach reaches
  induction later with
  | refl => exact settled
  | tail before step ih => exact ih.step (reached.reach before) larger step

/-! ## A conflict that is resolved -/

instance (msg : MSStunMessage) : ∀ sent, Decidable (ShowsRole msg sent)
  | .bindingRequest _ _ => inferInstanceAs (Decidable (_ ∧ _ ∧ _ ∧ _))
  | .bindingResponse _ => .isFalse id
  | .errorResponse _ => .isFalse id
  | .indication _ => .isFalse id

instance (msg : MSStunMessage) : ∀ sent, Decidable (ShowsError msg sent)
  | .errorResponse response => inferInstanceAs (Decidable (msg.trId = response.trId))
  | .bindingRequest _ _ => .isFalse id
  | .bindingResponse _ => .isFalse id
  | .indication _ => .isFalse id

/-- A decidable property of the message that was parsed, if there is one. -/
instance decidableParsed {P : MSStunMessage → Prop} [DecidablePred P] :
    ∀ parsed : Except Fault (Option MSStunMessage),
      Decidable (∀ msg, parsed = .ok (some msg) → P msg)
  | .ok (some msg) => decidable_of_iff (P msg) (by simp)
  | .ok none => .isTrue (by simp)
  | .error _ => .isTrue (by simp)

instance (peer : IceRun) : ∀ input, Decidable (FromPeer peer input)
  | .packet _ evt => decidableParsed (msStunMessageCreateFromBufferParsing evt.packet)
  | .start => .isTrue trivial
  | .tick _ _ _ => .isTrue trivial

instance (peer : IceRun) (input : IceInput) : Decidable (DrawnApart peer input) :=
  inferInstanceAs (Decidable (∀ id ∈ input.drawn, id ∉ peer.drawn))

/-- A call of the first agent, or of the second. -/
def callAgent (env : IceEnvironment) (agents : IceRun × IceRun) (call : Bool × IceInput) :
    Option (IceRun × IceRun) :=
  let (run, peer) := if call.1 then agents else agents.swap
  if FromPeer peer call.2 ∧ DrawnApart peer call.2 then
    match iceInput env run.session call.2 with
    | .ok (session, sent) =>
      let run := ⟨session, run.sent ++ sent, run.drawn ++ call.2.drawn⟩
      some (if call.1 then (run, peer) else (peer, run))
    | .error _ => none
  else none

theorem callAgent_step {call : Bool × IceInput}
    (h : callAgent env agents call = some agents') : AgentsStep env agents agents' := by
  obtain ⟨first, input⟩ := call
  unfold callAgent at h
  cases first with
  | true =>
    simp only [if_true] at h
    split at h
    · next cond =>
      split at h
      · next session' sent returned =>
        cases h
        exact .first input cond.1 cond.2 returned
      · cases h
    · cases h
  | false =>
    simp only [Bool.false_eq_true, if_false, Prod.fst_swap, Prod.snd_swap] at h
    split at h
    · next cond =>
      split at h
      · next session' sent returned =>
        cases h
        exact .second input cond.1 cond.2 returned
      · cases h
    · cases h

theorem callAgents_reach {calls : List (Bool × IceInput)}
    (h : calls.foldlM (callAgent env) agents = some agents') : AgentsReach env agents agents' := by
  induction calls generalizing agents with
  | nil =>
    cases h
    exact .refl
  | cons call calls ih =>
    obtain ⟨middle, hcall, hrest⟩ := Option.bind_eq_some_iff.mp h
    exact Relation.ReflTransGen.head (callAgent_step hcall) (ih hrest)

/-- The sample with a tie-breaker. -/
def sampleAgent (tieBreaker : UInt64) : IceSession :=
  { sampleSession with tieBreaker := tieBreaker }

/-- Both agents start as the controlling one; the request of the first settles their roles, and its
repetition changes nothing. -/
theorem iceCheckRoleConflict_stable_repeated :
    ∃ agents agents' : IceRun × IceRun, RolesSettled agents ∧
      agents.2.sent.length < agents'.2.sent.length ∧ RolesSettled agents' := by
  have heval : (([(true, .start), (true, .tick firstStream 100 [1]), (false, .start),
      (false, .packet firstStream (arrival controllingRequest 2 150 [2]))].foldlM
        (callAgent sampleEnvironment)
        ({ session := sampleAgent 12 }, { session := sampleAgent 9 })).bind fun agents =>
      (callAgent sampleEnvironment agents
        (false, .packet firstStream (arrival controllingRequest 2 250 [3]))).map fun agents' =>
          (agents, agents')).map (fun pair => (pair.1.1.session.role, pair.1.2.session.role,
            decide (pair.1.2.sent.length < pair.2.2.sent.length))) =
      some (.controlling, .controlled, true) := by
    decide +kernel
  obtain ⟨⟨agents, agents'⟩, hrun, hroles⟩ := Option.map_eq_some_iff.mp heval
  obtain ⟨middle, hfirst, hlast⟩ := Option.bind_eq_some_iff.mp hrun
  obtain ⟨last, hcall, hpair⟩ := Option.map_eq_some_iff.mp hlast
  obtain ⟨rfl, rfl⟩ := Prod.mk.inj hpair
  obtain ⟨hcontrolling, hrest⟩ := Prod.mk.inj hroles
  obtain ⟨hcontrolled, hmore⟩ := Prod.mk.inj hrest
  exact ⟨middle, last, ⟨hcontrolling, hcontrolled⟩, of_decide_eq_true hmore,
    iceCheckRoleConflict_stable (a := sampleAgent 12) (b := sampleAgent 9)
      ⟨rfl, sampleSession_fresh.lists⟩ ⟨rfl, sampleSession_fresh.lists⟩ (by decide)
      (callAgents_reach hfirst) ⟨hcontrolling, hcontrolled⟩ (.single (callAgent_step hcall))⟩

end GrooveIp.Ice
