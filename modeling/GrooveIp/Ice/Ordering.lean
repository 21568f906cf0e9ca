import GrooveIp.Ice.Runs

/-!
# Ordinary checks follow the priorities

The check list is made and extended by sorted insertion, and a new role gives every pair another
priority without moving it (`ice.c:743–774`). As long as a role is only taken when the running check
lists are in the order of its priorities too, they stay in order, and the ordinary check that
`ice_check_list_process` sends (`ice.c:4164–4183`) is for the best waiting pair.
-/

namespace GrooveIp.Ice

open Lib Stun IceCheckList

/-- The check list is in the order of the priorities its pairs have under a role. -/
def RoleKeepsOrder (cl : IceCheckList) (role : IceRole) : Prop :=
  cl.checkList.Pairwise fun p q => cl.currentPriority role q ≤ cl.currentPriority role p

/-- If a packet makes the session change its role, the running check lists are in the order of the
new role. -/
def SwitchKeepsOrder (env : IceEnvironment) (session : IceSession) : IceInput → Prop
  | .packet i evt => ∀ msg role,
    msStunMessageCreateFromBufferParsing evt.packet = .ok (some msg) →
    TakesRole env session i evt.packet msg role → session.role ≠ role →
    ∀ j cl, session.streams j = some cl → cl.state = .running → RoleKeepsOrder cl role
  | .start => True
  | .tick _ _ _ => True

/-- A pair with the maximal priority among the waiting pairs of a check list, or among the frozen
ones when none is waiting. -/
def BestToCheck (cl : IceCheckList) (pair : PairRef) : Prop :=
  ((cl.heap pair).state = .waiting ∧ ∀ q ∈ cl.checkList, (cl.heap q).state = .waiting →
      (cl.heap q).priority ≤ (cl.heap pair).priority) ∨
  ((∀ q ∈ cl.checkList, (cl.heap q).state ≠ .waiting) ∧ (cl.heap pair).state = .frozen ∧
    ∀ q ∈ cl.checkList, (cl.heap q).state = .frozen →
      (cl.heap q).priority ≤ (cl.heap pair).priority)

/-- The running check lists of a session are in order, and whenever the timer calls, it sends the
ordinary check for the best pair. -/
structure FollowsPriority (session : IceSession) : Prop where
  ordered : ∀ i cl, session.streams i = some cl → cl.state = .running → Ordered cl.heap cl.checkList
  ordinary : ∀ i now trId cl₀ session' sent cl pair, session.streams i = some cl₀ →
    cl₀.state = .running → iceBeforeChecks session i now trId = (session', sent, some cl) →
    iceOrdinaryCheckPair cl = some pair → BestToCheck cl pair

variable {call : IceCall} {session session' : IceSession} {i : StreamIndex} {cl cl' : IceCheckList}
  {pair : PairRef}

/-! ## Steps -/

theorem Ordered.sublist {heap heap' : PairRef → IceCandidatePair} {list list' : List PairRef}
    (h : Ordered heap list) (sub : list'.Sublist list)
    (priority : ∀ p ∈ list', (heap' p).priority = (heap p).priority) : Ordered heap' list' := by
  apply (List.Pairwise.sublist sub h).imp_of_mem
  intro p q hp hq hle
  rw [priority p hp, priority q hq]
  exact hle

theorem Quiet.ordered (q : Quiet cl cl') (h : Ordered cl.heap cl.checkList) :
    Ordered cl'.heap cl'.checkList :=
  h.sublist q.checkList fun p _ => (q.heap p).priority

theorem Ordered.updatePair (h : Ordered cl.heap cl.checkList) (pair : PairRef)
    {f : IceCandidatePair → IceCandidatePair}
    (priority : (f (cl.heap pair)).priority = (cl.heap pair).priority) :
    Ordered (cl.updatePair pair f).heap (cl.updatePair pair f).checkList := by
  apply h.sublist (List.Sublist.refl _)
  intro p _
  by_cases hp : p = pair
  · simpa [IceCheckList.updatePair, hp] using priority
  · simp [IceCheckList.updatePair, hp]

theorem IceChange.ordered {sent : List IceSent} (wf : WellFormed cl)
    (change : IceChange session call cl sent cl') (h : Ordered cl.heap cl.checkList) :
    Ordered cl'.heap cl'.checkList := by
  cases change with
  | upkeep step =>
    cases step with
    | quiet q => exact q.ordered h
    | retransmit q => exact q.ordered h
  | @transmit _ pair f timer known fresh update started wire requests =>
    have create : Ordered (iceCreateTransaction cl pair call.trId).heap
        (iceCreateTransaction cl pair call.trId).checkList := h
    exact create.updatePair pair update.priority
  | @cancel pair timer inProgress =>
    have cancel : Ordered
        { cl with transactionList := iceCancelTransaction pair cl.transactionList }.heap
        { cl with transactionList := iceCancelTransaction pair cl.transactionList }.checkList := h
    exact cancel.updatePair pair rfl
  | newPair hl hr =>
    apply h.sublist (List.Sublist.refl _)
    intro p hp
    -- the new pair is none of the pairs of the check list
    have old : p ≠ cl.nextPair := (wf.pairs p (wf.checkList p hp)).ne
    simp [appendPair, old]
  | enlist known => exact h.insertByPriority _
  | remoteCandidate => exact h
  | localCandidate => exact h
  | validPair => exact h
  | succeed answered => exact h.updatePair _ rfl

theorem IceFinish.ordered (finish : IceFinish cl cl') (h : Ordered cl.heap cl.checkList) :
    Ordered cl'.heap cl'.checkList := by
  cases finish with
  | complete => exact h
  | fail => exact h

theorem RoleKeepsOrder.reprioritized {role : IceRole} (wf : WellFormed cl)
    (h : RoleKeepsOrder cl role) :
    Ordered (fun p => if p ∈ cl.pairs then cl.reprioritized role p else cl.heap p)
      cl.checkList := by
  apply List.Pairwise.imp_of_mem _ h
  intro p q hp hq hle
  simpa [wf.checkList p hp, wf.checkList q hq, IceCheckList.reprioritized] using hle

/-- The check lists in a set and the running ones are in order. -/
def OrderedLists (K : StreamIndex → Prop) (session : IceSession) : Prop :=
  ∀ i cl, session.streams i = some cl → K i ∨ cl.state = .running → Ordered cl.heap cl.checkList

/-- In the same lists, the order also is the one of a role. -/
def RoleKeepsLists (K : StreamIndex → Prop) (session : IceSession) (role : IceRole) : Prop :=
  session.role ≠ role → ∀ i cl, session.streams i = some cl → K i ∨ cl.state = .running →
    RoleKeepsOrder cl role

theorem RoleKeepsLists.same {K : StreamIndex → Prop} {role : IceRole}
    (same : SameSession session session') (h : RoleKeepsLists K session role) :
    RoleKeepsLists K session' role := by
  intro hrole j cl' hj hrunning
  have hrel := same.streams j
  rw [hj] at hrel
  cases hcl : session.streams j with
  | none =>
    rw [hcl] at hrel
    cases hrel
  | some cl =>
    rw [hcl] at hrel
    cases hrel with
    | some q =>
      have old := h (same.role ▸ hrole) j cl hcl (q.state ▸ hrunning)
      apply (List.Pairwise.sublist q.checkList old).imp
      intro p p' hle
      -- a quiet change keeps the candidates, so that no priority under the role changes
      simpa [currentPriority, localOf, remoteOf,
        localAt, remoteAt, q.localCandidates, q.remoteCandidates,
        (q.heap p).localCandidate, (q.heap p).remoteCandidate, (q.heap p').localCandidate,
        (q.heap p').remoteCandidate] using hle

theorem OrderedLists.step {K : StreamIndex → Prop} {sent : List (StreamIndex × IceSent)}
    (inside : Inside session) (h : OrderedLists K session)
    (keeps : ∀ session role, call.takesRole session role → RoleKeepsLists K session role)
    (step : SessionStep call session sent session') : OrderedLists K session' := by
  cases step with
  | @list i cl cl' sent hi change =>
    apply forall_setStream h
    intro hrunning
    exact change.ordered (inside i cl hi) (h i cl hi (change.state ▸ hrunning))
  | @finish i cl cl' cl'' now hi running finish q =>
    intro j other hj
    rw [iceNotifySessionProcessingFinished_streams] at hj
    refine forall_setStream (P := fun i cl => K i ∨ cl.state = .running →
      Ordered cl.heap cl.checkList) h ?_ j other hj
    intro _
    exact q.ordered (finish.ordered (h i cl hi (.inr running)))
  | @takeRole role allowed =>
    intro j cl hj hrunning
    by_cases hrole : session.role = role
    · rw [iceSessionSetRole, if_neg (not_not.mpr hrole)] at hj
      exact h j cl hj hrunning
    · rcases iceSessionSetRole_streams hj with hcl | ⟨cl', hcl, rfl⟩
      · exact h j cl hcl hrunning
      · exact (keeps session role allowed hrole j cl' hcl hrunning).reprioritized (inside j cl' hcl)
  | same same =>
    intro j cl' hj hrunning
    have hrel := same.streams j
    rw [hj] at hrel
    cases hcl : session.streams j with
    | none =>
      rw [hcl] at hrel
      cases hrel
    | some cl =>
      rw [hcl] at hrel
      cases hrel with
      | some q => exact q.ordered (h j cl hcl (q.state ▸ hrunning))
  | reply => exact h
  | pairing hi running pair =>
    apply forall_setStream h
    intro _
    exact (iceCheckListPairCandidates_spec (inside _ _ hi) running pair).2.2
  | started => exact h

theorem OrderedLists.trace {K : StreamIndex → Prop} {sent : List (StreamIndex × IceSent)}
    (inside : Inside session) (h : OrderedLists K session)
    (keeps : ∀ session role, call.takesRole session role → RoleKeepsLists K session role)
    (trace : SessionTrace call session sent session') : OrderedLists K session' :=
  (trace.preserves (fun session => Inside session ∧ OrderedLists K session)
    (fun h step => ⟨h.1.step step, h.2.step h.1 keeps step⟩) ⟨inside, h⟩).2

/-! ## The ordinary check -/

theorem Ordered.find_max {heap : PairRef → IceCandidatePair} {list : List PairRef}
    (h : Ordered heap list) {state : IceCandidatePairState}
    (found : list.find? (fun p => (heap p).state == state) = some pair) :
    (heap pair).state = state ∧
      ∀ q ∈ list, (heap q).state = state → (heap q).priority ≤ (heap pair).priority := by
  obtain ⟨hstate, before, after, rfl, hbefore⟩ := List.find?_eq_some_iff_append.mp found
  refine ⟨by simpa using hstate, fun q hq hqstate => ?_⟩
  rcases List.mem_append.mp hq with hq | hq
  · have := hbefore q hq
    simp [hqstate] at this
  · rcases List.mem_cons.mp hq with rfl | hq
    · exact UInt64.le_refl _
    · have tail := (List.pairwise_append.mp h).2.1
      exact List.rel_of_pairwise_cons tail hq

theorem Ordered.bestToCheck (h : Ordered cl.heap cl.checkList)
    (hpair : iceOrdinaryCheckPair cl = some pair) : BestToCheck cl pair := by
  unfold iceOrdinaryCheckPair at hpair
  cases hwaiting : cl.checkList.find? fun pair => (cl.heap pair).state == .waiting with
  | some p =>
    rw [hwaiting] at hpair
    cases hpair
    exact .inl (h.find_max hwaiting)
  | none =>
    rw [hwaiting] at hpair
    have hfrozen : cl.checkList.find? (fun pair => (cl.heap pair).state == .frozen) = some pair :=
      hpair
    have none : ∀ q ∈ cl.checkList, (cl.heap q).state ≠ .waiting := by
      simpa using List.find?_eq_none.mp hwaiting
    exact .inr ⟨none, h.find_max hfrozen⟩

theorem OrderedLists.followsPriority (inside : Inside session)
    (h : OrderedLists (fun _ => False) session) : FollowsPriority session where
  ordered i cl hi running := h i cl hi (.inr running)
  ordinary i now trId cl₀ session' sent cl pair hi running hbefore hpair := by
    -- a call that takes no role; it also keeps the order of a check list that ends
    let timer : IceCall := ⟨trId, False, True, fun _ _ => True, fun _ => True, fun _ _ => False⟩
    have before := iceBeforeChecks_trace timer inside
      (RetransmissionsMeet.always session i now trId).1
    rw [hbefore] at before
    have hcl := before.2 cl rfl
    have keeps : OrderedLists (fun j => j = i) session := by
      intro j other hj hcase
      rcases hcase with rfl | hrunning
      · rw [hi] at hj
        cases hj
        exact h j cl₀ hi (.inr running)
      · exact h j other hj (.inr hrunning)
    have along := keeps.trace inside (fun _ _ hno => False.elim hno) before.1
    exact (along i cl hcl (.inl rfl)).bestToCheck hpair

/-! ## Runs -/

/-- What a call may do when its role switch keeps the order. -/
def orderedCall (input : IceInput) : IceCall :=
  ⟨input.trId, False, input.IsTick, fun _ _ => True, fun _ => True, RoleKeepsLists fun _ => False⟩

theorem orderedCall_allows {env : IceEnvironment} {input : IceInput}
    (h : SwitchKeepsOrder env session input) :
    InputAllows env (orderedCall input) session input := by
  cases input with
  | start => trivial
  | packet i evt =>
    refine ⟨rfl, fun msg hmsg => ⟨id, fun _ _ _ _ _ => trivial, fun role session' takes same => ?_⟩⟩
    apply RoleKeepsLists.same same
    intro hrole j cl hj hrunning
    exact h msg role hmsg takes hrole j cl hj (hrunning.resolve_left id)
  | tick i now trId => exact ⟨rfl, trivial, False.elim, .always session i now trId⟩

/-- In every run that takes no role by which a running check list is out of order, the running check
lists are in order and the ordinary checks follow the priorities. -/
theorem iceCheckListProcess_followsPriority {env : IceEnvironment} {run : IceRun}
    (fresh : FreshSession session)
    (reaches : IceReaches env (fun run input => SwitchKeepsOrder env run.session input)
      { session := session } run) : FollowsPriority run.session := by
  have start : OrderedLists (fun _ => False) session := by
    intro i cl hi _
    rw [(fresh.lists i cl hi).checkList]
    exact .nil
  have invariant := reaches.invariant (fun run => OrderedLists (fun _ => False) run.session)
    (fun input inside h cond returned => by
      have trace := iceInput_trace inside (orderedCall_allows cond) returned
      exact ⟨inside.trace trace, h.trace inside (fun _ _ takes => takes) trace⟩) fresh.inside start
  exact invariant.2.followsPriority invariant.1

/-! ## A role conflict between two agents with relayed candidates -/

instance (heap : PairRef → IceCandidatePair) (list : List PairRef) : Decidable (Ordered heap list) :=
  inferInstanceAs (Decidable (List.Pairwise _ list))

/-- A host and a relayed candidate on each side. -/
def relayedList : IceCheckList :=
  { sampleList with
    localCandidates := [hostCandidate 1 2130706303 (some 0),
      { hostCandidate 4 16777087 (some 1) with type := .relayed, foundation := [0x32] }]
    remoteCandidates := [hostCandidate 2 2130706303 none,
      { hostCandidate 3 16777087 none with type := .relayed, foundation := [0x32] }] }

/-- A controlling session with that check list. -/
def relayedSession : IceSession :=
  { sampleSession with streams := fun i => if i = firstStream then some relayedList else none }

theorem relayedSession_fresh : FreshSession relayedSession where
  state := rfl
  lists i cl hi := by
    simp only [relayedSession] at hi
    split at hi
    · cases hi
      exact ⟨rfl, rfl, rfl, rfl, rfl, rfl, rfl, rfl, by simp [relayedList, sampleList, hostCandidate],
        by simp [relayedList, sampleList, hostCandidate]⟩
    · cases hi

/-- The best pair is checked first. -/
theorem iceCheckListProcess_followsPriority_firstCheck :
    ∃ run : IceRun, run.sent ≠ [] ∧ FollowsPriority run.session := by
  have heval : (runInputs sampleEnvironment
      (fun _ input => match input with | .packet _ _ => false | _ => true)
      { session := relayedSession } [.start, .tick firstStream 100 [1]]).map
        (fun run => run.sent.isEmpty) = some false := by
    decide +kernel
  obtain ⟨run, hrun, hsent⟩ := Option.map_eq_some_iff.mp heval
  have reaches : IceReaches sampleEnvironment
      (fun run input => SwitchKeepsOrder sampleEnvironment run.session input)
      { session := relayedSession } run := by
    apply runInputs_reaches _ hrun
    intro run input h
    cases input with
    | start => trivial
    | packet => cases h
    | tick => trivial
  exact ⟨run, by simpa using hsent, iceCheckListProcess_followsPriority relayedSession_fresh reaches⟩

/-- After a role switch the pair from the host to the relayed candidate stands in front of its
reverse, which now is better. -/
theorem iceSessionSetRole_unordered :
    ¬ ∀ (env : IceEnvironment) (session : IceSession) (run : IceRun), FreshSession session →
      IceReaches env (fun _ _ => True) { session := session } run → FollowsPriority run.session := by
  intro h
  have heval : (runInputs sampleEnvironment (fun _ _ => true) { session := relayedSession }
      [.start, .packet firstStream (arrival controllingRequest 2 50 [3])]).map
        (fun run => (run.session.streams firstStream).map fun cl =>
          (cl.state, decide (Ordered cl.heap cl.checkList))) = some (some (.running, false)) := by
    decide +kernel
  obtain ⟨run, hrun, hlist⟩ := Option.map_eq_some_iff.mp heval
  obtain ⟨cl, hcl, hstate⟩ := Option.map_eq_some_iff.mp hlist
  obtain ⟨running, unordered⟩ := Prod.mk.inj hstate
  have follows := h _ _ _ relayedSession_fresh (runInputs_reaches (fun _ _ _ => trivial) hrun)
  exact of_decide_eq_false unordered (follows.ordered firstStream cl hcl running)

end GrooveIp.Ice
