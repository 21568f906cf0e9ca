import GrooveIp.Ice.Runs

/-!
# Completion is consistent

In every state a run reaches, the session is completed or failed only when its check lists are,
and a completed check list has one selected valid pair for each component the code selects for,
which is nominated. Nothing a completed check list still does takes that away: it may add valid
pairs, but unselected ones, and it may nominate more pairs.
-/

namespace GrooveIp.Ice

open Lib Stun List IceValidCandidatePair IceCheckList

variable {call : IceCall} {session session' : IceSession} {i : StreamIndex} {cl cl' : IceCheckList}

/-- The selected valid pairs of a component. -/
def IceCheckList.selectedFor (cl : IceCheckList) (componentID : UInt16) :
    List IceValidCandidatePair :=
  cl.validList.filter fun v => v.selected && (cl.localOf v.valid).componentID == componentID

/-- Each of the components 1 and 2 of a check list has one selected valid pair, a nominated one. -/
def Selected (cl : IceCheckList) : Prop :=
  ∀ c ∈ cl.localComponentIDs, c = 1 ∨ c = 2 →
    ∃ v, cl.selectedFor c = [v] ∧ (cl.heap v.valid).isNominated = true

/-- The states of a session and of its check lists agree. -/
structure CompletionConsistent (session : IceSession) : Prop where
  completed : session.state = .completed →
    ∀ i cl, session.streams i = some cl → cl.state = .completed
  failed : session.state = .failed → (∀ i cl, session.streams i = some cl → cl.state ≠ .running) ∧
      ∃ i cl, session.streams i = some cl ∧ cl.state ≠ .completed
  selected : ∀ i cl, session.streams i = some cl → cl.state = .completed → Selected cl

/-! ## What keeps the selection -/

/-- A change that selects and unselects nothing. -/
structure KeepsSelection (cl cl' : IceCheckList) : Prop where
  selected : (cl'.validList.filter (·.selected)).map key =
    (cl.validList.filter (·.selected)).map key
  component : ∀ v ∈ cl.validList,
    (cl'.localOf v.valid).componentID = (cl.localOf v.valid).componentID
  nominated : ∀ v ∈ cl.validList, (cl.heap v.valid).isNominated = true →
    (cl'.heap v.valid).isNominated = true
  componentIDs : cl'.localComponentIDs = cl.localComponentIDs

theorem selectedFor_keys (cl : IceCheckList) (c : UInt16) :
    (cl.selectedFor c).map key =
      ((cl.validList.filter (·.selected)).map key).filter
        fun k => (cl.localOf k.1).componentID == c := by
  rw [filter_map, filter_filter]
  congr 1
  apply filter_congr
  intro v _
  simp [key, Bool.and_comm]

theorem KeepsSelection.keeps (h : KeepsSelection cl cl') (hsel : Selected cl) : Selected cl' := by
  intro c hc hid
  obtain ⟨v, hv, hnominated⟩ := hsel c (h.componentIDs ▸ hc) hid
  have hmem : v ∈ cl.validList := by
    apply mem_of_mem_filter
    rw [← selectedFor, hv]
    exact mem_singleton.mpr rfl
  have hkeys : (cl'.selectedFor c).map key = [v.key] := by
    have hold : (cl.selectedFor c).map key = [v.key] := by rw [hv]; rfl
    rw [selectedFor_keys, h.selected, ← hold, selectedFor_keys]
    apply filter_congr
    intro k hk
    obtain ⟨w, hw, rfl⟩ := mem_map.mp hk
    have hcomponent := h.component w (mem_of_mem_filter hw)
    simp only [key, hcomponent]
  obtain ⟨v', hv', hkey⟩ := map_eq_singleton_iff.mp hkeys
  refine ⟨v', hv', ?_⟩
  have hvalid : v'.valid = v.valid := congrArg Prod.fst hkey
  rw [hvalid]
  exact h.nominated v hmem hnominated

theorem Quiet.keepsSelection (q : Quiet cl cl') : KeepsSelection cl cl' where
  selected := by
    have hsel : ∀ l : List IceValidCandidatePair,
        (l.filter (·.selected)).map key =
          (l.map key).filter fun k => k.2.2 := by
      intro l
      rw [filter_map]
      rfl
    rw [hsel, hsel, q.validList]
  component v _ := by
    simp [localOf, localAt, (q.heap v.valid).localCandidate, q.localCandidates]
  nominated v _ := (q.heap v.valid).nominated
  componentIDs := q.localComponentIDs

theorem filter_selected_orderedInsert {r : IceValidCandidatePair → IceValidCandidatePair → Prop}
    [DecidableRel r] {v : IceValidCandidatePair} (h : v.selected = false)
    (l : List IceValidCandidatePair) :
    (l.orderedInsert r v).filter (·.selected) = l.filter (·.selected) := by
  induction l with
  | nil => simp [h]
  | cons w l ih =>
    rw [orderedInsert_cons]
    split
    · simp [h]
    · simp only [filter_cons, ih]

theorem KeepsSelection.of_heap (heap : ∀ v ∈ cl.validList,
      (cl'.heap v.valid).localCandidate = (cl.heap v.valid).localCandidate ∧
      ((cl.heap v.valid).isNominated = true → (cl'.heap v.valid).isNominated = true))
    (validList : cl'.validList = cl.validList) (localCandidates : ∀ v ∈ cl.validList,
      cl'.localAt (cl.heap v.valid).localCandidate = cl.localAt (cl.heap v.valid).localCandidate)
    (componentIDs : cl'.localComponentIDs = cl.localComponentIDs) : KeepsSelection cl cl' where
  selected := by rw [validList]
  component v hv := by
    simp only [localOf, (heap v hv).1, localCandidates v hv]
  nominated v hv := (heap v hv).2
  componentIDs := componentIDs

theorem IceChange.keepsSelection {sent : List IceSent} (wf : WellFormed cl)
    (h : IceChange session call cl sent cl') : KeepsSelection cl cl' := by
  -- one pair changes its state and its clocks
  have update : ∀ (cl' : IceCheckList) (pair : PairRef) (f : IceCandidatePair → IceCandidatePair),
      cl'.heap = cl.heap → cl'.validList = cl.validList → cl'.localCandidates = cl.localCandidates →
      cl'.localComponentIDs = cl.localComponentIDs →
      (f (cl.heap pair)).localCandidate = (cl.heap pair).localCandidate →
      ((cl.heap pair).isNominated = true → (f (cl.heap pair)).isNominated = true) →
      KeepsSelection cl (cl'.updatePair pair f) := by
    intro cl' pair f hheap hvalid hlocals hcomponents hlocal hnominated
    apply KeepsSelection.of_heap
    · intro v _
      by_cases hp : v.valid = pair
      · simpa [updatePair, hp, hheap] using ⟨hlocal, hnominated⟩
      · simp [updatePair, hp, hheap]
    · exact hvalid
    · intro v _
      simp [updatePair, localAt, hlocals]
    · exact hcomponents
  cases h with
  | upkeep h =>
    cases h with
    | quiet q => exact q.keepsSelection
    | retransmit q => exact q.keepsSelection
  | @transmit _ pair f timer known fresh change started wire requests =>
    exact update _ pair f rfl rfl rfl rfl change.localCandidate change.nominated
  | @cancel pair timer inProgress => exact update _ pair _ rfl rfl rfl rfl rfl id
  | newPair hl hr =>
    apply KeepsSelection.of_heap
    · intro v hv
      have hne : v.valid ≠ cl.nextPair := Nat.ne_of_lt (wf.validList v hv).1
      simp [appendPair, hne]
    · rfl
    · exact fun v _ => rfl
    · rfl
  | enlist known => exact .of_heap (fun v _ => ⟨rfl, id⟩) rfl (fun v _ => rfl) rfl
  | remoteCandidate candidate componentIDs =>
    exact .of_heap (fun v _ => ⟨rfl, id⟩) rfl (fun v _ => rfl) rfl
  | localCandidate generator base component =>
    refine .of_heap (fun v _ => ⟨rfl, id⟩) rfl (fun v hv => ?_) rfl
    have hlt := (wf.candidates v.valid (wf.validList v hv).1).1
    simp [localAt, List.getElem?_append_left hlt]
  | validPair valid generatedFrom unselected answered =>
    refine ⟨?_, fun v _ => rfl, fun v _ => id, rfl⟩
    rw [filter_selected_orderedInsert unselected]
  | @succeed pair answered => exact update _ pair _ rfl rfl rfl rfl rfl id

/-! ## The end of a check list selects -/

theorem iceSelectComponent_other (cl : IceCheckList) {c c' : UInt16} (hne : c ≠ c')
    (l : List IceValidCandidatePair) : (iceSelectComponent cl c l).filter
        (fun v => v.selected && (cl.localOf v.valid).componentID == c') =
      l.filter fun v => v.selected && (cl.localOf v.valid).componentID == c' := by
  induction l with
  | nil => rfl
  | cons v l ih =>
    unfold iceSelectComponent
    split
    · next hfound =>
      have hcomponent : (cl.localOf v.valid).componentID = c := by
        simp only [iceFindNominatedValidPair, Bool.not_not, Bool.and_eq_true, beq_iff_eq] at hfound
        exact hfound.2
      simp [hcomponent, hne]
    · simp only [filter_cons, ih]

theorem iceSelectComponent_selects (cl : IceCheckList) (c : UInt16) {l : List IceValidCandidatePair}
    (hnone : l.filter (fun v => v.selected && (cl.localOf v.valid).componentID == c) = [])
    (hex : ∃ v ∈ l, (cl.heap v.valid).isNominated = true ∧ (cl.localOf v.valid).componentID = c) :
    ∃ v, (iceSelectComponent cl c l).filter
        (fun v => v.selected && (cl.localOf v.valid).componentID == c) = [v] ∧
      (cl.heap v.valid).isNominated = true := by
  induction l with
  | nil =>
    obtain ⟨v, hv, _⟩ := hex
    exact absurd hv not_mem_nil
  | cons w l ih =>
    unfold iceSelectComponent
    have hrest : l.filter (fun v => v.selected && (cl.localOf v.valid).componentID == c) = [] := by
      rw [filter_eq_nil_iff] at hnone ⊢
      exact fun v hv => hnone v (mem_cons_of_mem w hv)
    split
    · next hfound =>
      simp only [iceFindNominatedValidPair, Bool.not_not, Bool.and_eq_true, beq_iff_eq] at hfound
      refine ⟨{ w with selected := true }, ?_, hfound.1⟩
      simp [hfound.2, hrest]
    · next hfound =>
      have hhead : (w.selected && (cl.localOf w.valid).componentID == c) = false := by
        have := filter_eq_nil_iff.mp hnone w mem_cons_self
        simpa using this
      rw [filter_cons_of_neg (by simp [hhead])]
      apply ih hrest
      obtain ⟨v, hv, hnominated, hcomponent⟩ := hex
      rcases mem_cons.mp hv with rfl | hv
      · simp [iceFindNominatedValidPair, hnominated, hcomponent] at hfound
      · exact ⟨v, hv, hnominated, hcomponent⟩

theorem iceSelectComponent_valid (cl : IceCheckList) (c : UInt16) (l : List IceValidCandidatePair) :
    (iceSelectComponent cl c l).map (·.valid) = l.map (·.valid) := by
  induction l with
  | nil => rfl
  | cons v l ih =>
    unfold iceSelectComponent
    split
    · rfl
    · simp [ih]

theorem exists_valid_of_map_eq {P : PairRef → Prop} {l l' : List IceValidCandidatePair}
    (h : l'.map (·.valid) = l.map (·.valid)) (hex : ∃ v ∈ l, P v.valid) : ∃ v ∈ l', P v.valid := by
  obtain ⟨v, hv, hP⟩ := hex
  have hmem : v.valid ∈ l'.map (·.valid) := h ▸ mem_map_of_mem hv
  obtain ⟨v', hv', heq⟩ := mem_map.mp hmem
  exact ⟨v', hv', heq ▸ hP⟩

theorem iceCheckListSelectCandidates_selected (hstate : cl.state = .completed)
    (hnominated : ∀ c ∈ cl.localComponentIDs, ∃ v ∈ cl.validList,
      (cl.heap v.valid).isNominated = true ∧ (cl.localOf v.valid).componentID = c) :
    Selected (iceCheckListSelectCandidates cl) := by
  have hselect : iceCheckListSelectCandidates cl =
      { cl with validList := iceSelectComponent cl 2 (iceSelectComponent cl 1
          (cl.validList.map fun v => { v with selected := false })) } := by
    simp [iceCheckListSelectCandidates, hstate]
  rw [hselect]
  have hvalid : (cl.validList.map fun v => { v with selected := false }).map (·.valid) =
      cl.validList.map (·.valid) := by
    rw [map_map]
    rfl
  have hunselected : ∀ c : UInt16, (cl.validList.map fun v => { v with selected := false }).filter
      (fun v => v.selected && (cl.localOf v.valid).componentID == c) = [] := by
    intro c
    simp [filter_eq_nil_iff]
  generalize cl.validList.map (fun v => { v with selected := false }) = unselected
    at hvalid hunselected ⊢
  intro c hc hid
  have hex := exists_valid_of_map_eq (P := fun p => (cl.heap p).isNominated = true ∧
    (cl.localOf p).componentID = c) hvalid (hnominated c hc)
  rcases hid with rfl | rfl
  · obtain ⟨v, hv, hnom⟩ := iceSelectComponent_selects cl 1 (hunselected 1) hex
    refine ⟨v, ?_, hnom⟩
    exact (iceSelectComponent_other cl (by decide) _).trans hv
  · have hnone := (iceSelectComponent_other cl (by decide : (1 : UInt16) ≠ 2) unselected).trans
      (hunselected 2)
    exact iceSelectComponent_selects cl 2 hnone
      (exists_valid_of_map_eq (P := fun p => (cl.heap p).isNominated = true ∧
        (cl.localOf p).componentID = 2) (iceSelectComponent_valid cl 1 unselected) hex)

theorem IceFinish.selected (h : IceFinish cl cl') :
    (cl'.state = .completed → Selected cl') ∧ cl'.state ≠ .running := by
  cases h with
  | complete nominated =>
    refine ⟨fun _ => iceCheckListSelectCandidates_selected rfl nominated, ?_⟩
    simp [iceCheckListSelectCandidates]
  | fail => exact ⟨by simp, by simp⟩

/-! ## The states -/

theorem CompletionConsistent.setStream (h : CompletionConsistent session)
    (hi : session.streams i = some cl) (hstate : cl'.state = cl.state)
    (hselected : cl'.state = .completed → Selected cl') :
    CompletionConsistent (session.setStream i cl') where
  completed hs := by
    apply forall_setStream (h.completed hs)
    rw [hstate]
    exact h.completed hs i cl hi
  failed hs := by
    obtain ⟨hnone, j, other, hj, hne⟩ := h.failed hs
    refine ⟨forall_setStream hnone (hstate ▸ hnone i cl hi), ?_⟩
    by_cases heq : j = i
    · subst heq
      rw [hi] at hj
      cases hj
      exact ⟨j, cl', setStream_self session j cl', hstate ▸ hne⟩
    · exact ⟨j, other, (setStream_ne session cl' heq).trans hj, hne⟩
  selected := forall_setStream h.selected hselected

theorem CompletionConsistent.relate (h : CompletionConsistent session)
    (hstate : session'.state = session.state)
    (hrel : ∀ i, Option.Rel (fun cl cl' => cl'.state = cl.state ∧ (Selected cl → Selected cl'))
      (session.streams i) (session'.streams i)) : CompletionConsistent session' := by
  have old : ∀ i cl', session'.streams i = some cl' → ∃ cl, session.streams i = some cl ∧
      cl'.state = cl.state ∧ (Selected cl → Selected cl') := by
    intro i cl' hi
    have hi' := hrel i
    rw [hi] at hi'
    cases hcl : session.streams i with
    | none =>
      rw [hcl] at hi'
      cases hi'
    | some cl =>
      rw [hcl] at hi'
      cases hi' with
      | some hsame => exact ⟨cl, rfl, hsame⟩
  refine ⟨fun hs i cl' hi => ?_, fun hs => ⟨fun i cl' hi => ?_, ?_⟩, fun i cl' hi hs => ?_⟩
  · obtain ⟨cl, hcl, hsame, _⟩ := old i cl' hi
    rw [hsame]
    exact h.completed (hstate ▸ hs) i cl hcl
  · obtain ⟨cl, hcl, hsame, _⟩ := old i cl' hi
    rw [hsame]
    exact (h.failed (hstate ▸ hs)).1 i cl hcl
  · obtain ⟨i, cl, hcl, hne⟩ := (h.failed (hstate ▸ hs)).2
    have hi := hrel i
    rw [hcl] at hi
    cases hcl' : session'.streams i with
    | none =>
      rw [hcl'] at hi
      cases hi
    | some cl' =>
      rw [hcl'] at hi
      cases hi with
      | some hsame => exact ⟨i, cl', hcl', hsame.1 ▸ hne⟩
  · obtain ⟨cl, hcl, hsame, hkeeps⟩ := old i cl' hi
    exact hkeeps (h.selected i cl hcl (hsame ▸ hs))

theorem CompletionConsistent.setRole (h : CompletionConsistent session) (role : IceRole) :
    CompletionConsistent (iceSessionSetRole session role) := by
  unfold iceSessionSetRole
  split
  · refine h.relate rfl fun i => ?_
    dsimp only
    cases session.streams i with
    | none => exact .none
    | some cl =>
      apply Option.Rel.some
      rw [iceCheckListComputePairPriorities_eq]
      refine ⟨rfl, KeepsSelection.keeps (.of_heap (fun v _ => ?_) rfl (fun v _ => rfl) rfl)⟩
      dsimp only
      split
      · exact ⟨rfl, id⟩
      · exact ⟨rfl, id⟩
  · exact h

theorem iceNotifySessionProcessingFinished_consistent (now : MSTimeSpec)
    (hrunning : session.state ≠ .completed ∧ session.state ≠ .failed)
    (hselected : ∀ i cl, session.streams i = some cl → cl.state = .completed → Selected cl) :
    CompletionConsistent (iceNotifySessionProcessingFinished session now) := by
  unfold iceNotifySessionProcessingFinished
  cases hfind : iceFindCheckListFromState session .running with
  | some j => exact ⟨fun hs => absurd hs hrunning.1, fun hs => absurd hs hrunning.2, hselected⟩
  | none =>
    have hnone : ∀ i cl, session.streams i = some cl → cl.state ≠ .running := by
      intro i cl hi hs
      have hfalse := List.find?_eq_none.mp hfind i (mem_finRange i)
      simp [hi, hs] at hfalse
    dsimp only
    refine ⟨fun hs => ?_, fun hs => ⟨hnone, ?_⟩, hselected⟩
    · intro i cl hi
      split at hs
      · next hall =>
        have hi' := all_eq_true.mp hall i (mem_finRange i)
        dsimp only at hi
        simpa [hi] using hi'
      · cases hs
    · split at hs
      · cases hs
      · next hall =>
        simp only [all_eq_true, not_forall] at hall
        obtain ⟨i, _, hi⟩ := hall
        cases hcl : session.streams i with
        | none => simp [hcl] at hi
        | some cl => exact ⟨i, cl, hcl, by simpa [hcl] using hi⟩

theorem CompletionConsistent.step {sent : List (StreamIndex × IceSent)} (inside : Inside session)
    (h : CompletionConsistent session) (step : SessionStep call session sent session') :
    CompletionConsistent session' := by
  cases step with
  | @list i cl cl' sent hi change =>
    refine h.setStream hi change.state fun hs => ?_
    have hold := h.selected i cl hi (change.state ▸ hs)
    exact (change.keepsSelection (inside i cl hi)).keeps hold
  | @finish i cl cl' cl'' now hi running finish q =>
    apply iceNotifySessionProcessingFinished_consistent
    · constructor
      · intro hs
        have hcompleted := h.completed hs i cl hi
        simp [running] at hcompleted
      · exact fun hs => (h.failed hs).1 i cl hi running
    · apply forall_setStream h.selected
      intro hs
      exact q.keepsSelection.keeps (finish.selected.1 (q.state ▸ hs))
  | @takeRole role allowed => exact h.setRole role
  | same same =>
    exact h.relate same.state (same.imp fun q => ⟨q.state, q.keepsSelection.keeps⟩)
  | reply => exact h
  | pairing hi running pair =>
    have paired := (iceCheckListPairCandidates_spec (inside _ _ hi) running pair).1
    refine h.setStream hi paired.state fun hs => ?_
    rw [paired.state, running] at hs
    cases hs
  | started => exact ⟨by simp, by simp, h.selected⟩

/-! ## Runs -/

theorem FreshSession.completionConsistent (h : FreshSession session) :
    CompletionConsistent session where
  completed hs := by simp [h.state] at hs
  failed hs := by simp [h.state] at hs
  selected i cl hi hs := by simp [(h.lists i cl hi).state] at hs

/-- In every reachable state a session is completed only if every check list is and failed only if
none is running or completed, and each component of a completed check list has one selected valid
pair, which is nominated. -/
theorem iceConcludeProcessing_consistent {env : IceEnvironment} {run : IceRun}
    (fresh : FreshSession session)
    (reaches : IceReaches env (fun _ _ => True) { session := session } run) :
    CompletionConsistent run.session := by
  apply And.right (reaches.invariant (fun run => CompletionConsistent run.session) ?_ fresh.inside
    fresh.completionConsistent)
  intro run session' sent input inside consistent _ returned
  have trace := iceInput_trace inside (anyCall_allows env run.session input) returned
  exact trace.preserves (fun session => Inside session ∧ CompletionConsistent session)
    (fun h step => ⟨h.1.step step, h.2.step h.1 step⟩) ⟨inside, consistent⟩

/-- A success response to a check of the sample, from an agent that saw its host address. -/
def checkResponse (id : UInt8) : List UInt8 :=
  [0x01, 0x01, 0x00, 0x2C, 0x21, 0x12, 0xA4, 0x42] ++ List.replicate 12 id ++
    [0x00, 0x20, 0x00, 0x08, 0x00, 0x01, 0x22, 0xFA, 0x21, 0x12, 0xA4, 0x43] ++
    [0x00, 0x08, 0x00, 0x14] ++ List.replicate 20 9 ++
    [0x80, 0x28, 0x00, 0x04, 0x00, 0x00, 0x00, 0x00]

/-- The first pair is checked, nominated, checked again and answered. -/
def nominatedRun : List IceInput :=
  [.start, .tick firstStream 100 (List.replicate 12 1),
    .packet firstStream (arrival (checkResponse 1) 2 150 [7]),
    .tick firstStream 200 (List.replicate 12 2),
    .packet firstStream (arrival (checkResponse 2) 2 250 [8])]

/-- Its session is completed. -/
theorem iceConcludeProcessing_consistent_nominated :
    ∃ run : IceRun, run.session.state = .completed ∧ CompletionConsistent run.session := by
  have heval : (runInputs sampleEnvironment (fun _ _ => true) { session := sampleSession }
      nominatedRun).map (fun run => run.session.state) = some .completed := by
    decide +kernel
  obtain ⟨run, hrun, hstate⟩ := Option.map_eq_some_iff.mp heval
  exact ⟨run, hstate, iceConcludeProcessing_consistent sampleSession_fresh
    (runInputs_reaches (fun _ _ _ => trivial) hrun)⟩

/-! ## A conclusion is final -/

/-- The state of a check list and the keys of the valid pairs it has selected. -/
def IceSession.conclusion (session : IceSession) (i : StreamIndex) :
    Option (IceCheckListState × List (PairRef × PairRef × Bool)) :=
  (session.streams i).map fun cl => (cl.state, (cl.validList.filter (·.selected)).map key)

variable {state : IceCheckListState} {selected : List (PairRef × PairRef × Bool)}

theorem SessionStep.concludes {sent : List (StreamIndex × IceSent)} (inside : Inside session)
    (hi : session.conclusion i = some (state, selected)) (hstate : state ≠ .running)
    (step : SessionStep call session sent session') :
    session'.conclusion i = some (state, selected) := by
  -- the check list that is written is another one, or it runs, or its conclusion stays
  have write : ∀ {j : StreamIndex} {old new : IceCheckList}, session.streams j = some old →
      (old.state ≠ .running → new.state = old.state ∧ KeepsSelection old new) →
      (session.setStream j new).conclusion i = some (state, selected) := by
    intro j old new hj hnew
    by_cases heq : i = j
    · subst heq
      simp only [IceSession.conclusion, hj, setStream_self, Option.map_some] at hi ⊢
      cases hi
      obtain ⟨hsame, keeps⟩ := hnew hstate
      rw [hsame, keeps.selected]
    · rwa [IceSession.conclusion, setStream_ne session new heq]
  cases step with
  | list hj change => exact write hj fun _ => ⟨change.state, change.keepsSelection (inside _ _ hj)⟩
  | finish now hj running =>
    rw [IceSession.conclusion, iceNotifySessionProcessingFinished_streams]
    exact write hj (absurd running)
  | takeRole =>
    rw [← hi, iceSessionSetRole]
    split
    · simp only [IceSession.conclusion, Option.map_map, Function.comp_def,
        iceCheckListComputePairPriorities_eq]
    · rfl
  | same same =>
    have hrel := same.streams i
    rw [← hi, IceSession.conclusion, IceSession.conclusion]
    generalize session.streams i = old, session'.streams i = new at hrel
    cases hrel with
    | none => rfl
    | some q => simp only [Option.map_some, q.state, q.keepsSelection.selected]
  | reply => exact hi
  | pairing hj running => exact write hj (absurd running)
  | started => exact hi

/-- Whatever calls follow, a check list of a reachable session that is completed or failed stays so,
and selects the same valid pairs. -/
theorem iceCheckList_final {env : IceEnvironment} {run run' : IceRun} (fresh : FreshSession session)
    (reaches : IceReaches env (fun _ _ => True) { session := session } run)
    (hi : run.session.conclusion i = some (state, selected)) (hstate : state ≠ .running)
    (continues : IceReaches env (fun _ _ => True) run run') :
    run'.session.conclusion i = some (state, selected) := by
  have inside := (reaches.invariant (fun _ => True) (fun input inside _ _ returned =>
    ⟨inside.trace (iceInput_trace inside (anyCall_allows _ _ input) returned), trivial⟩)
    fresh.inside trivial).1
  apply And.right (continues.invariant
    (fun run => run.session.conclusion i = some (state, selected)) ?_ inside hi)
  intro run session' sent input inside kept _ returned
  have trace := iceInput_trace inside (anyCall_allows env run.session input) returned
  exact trace.preserves
    (fun session => Inside session ∧ session.conclusion i = some (state, selected))
    (fun h step => ⟨h.1.step step, step.concludes h.1 h.2 hstate⟩) ⟨inside, kept⟩

/-- The sample selects its nominated pair for good. -/
theorem iceCheckList_final_nominated : ∃ run : IceRun,
    ∀ run', IceReaches sampleEnvironment (fun _ _ => True) run run' →
      run'.session.conclusion firstStream = some (.completed, [(0, 0, true)]) := by
  have heval : (runInputs sampleEnvironment (fun _ _ => true) { session := sampleSession }
      nominatedRun).map (·.session.conclusion firstStream) =
        some (some (.completed, [(0, 0, true)])) := by
    decide +kernel
  obtain ⟨run, hrun, hi⟩ := Option.map_eq_some_iff.mp heval
  exact ⟨run, fun run' => iceCheckList_final sampleSession_fresh
    (runInputs_reaches (fun _ _ _ => trivial) hrun) hi (by decide)⟩

end GrooveIp.Ice
