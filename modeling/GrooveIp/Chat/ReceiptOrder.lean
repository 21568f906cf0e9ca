import GrooveIp.Chat.Receipts

/-!
# When the order of receipts matters

Receipts of a message that was sent lead to the same state in every order just when one of three things
holds: there is one participant, nobody reports a failure, or somebody reports nothing but failures and
nobody displays the message.
-/

namespace GrooveIp.Chat

open List

variable {P : Type} [DecidableEq P] {message : GroupMessage P}

/-! ## A participant that failed -/

/-- A message that is not delivered, to a participant. -/
structure Failed (participant : P) (message : GroupMessage P) : Prop where
  mem : participant ∈ message.participants
  participantState : message.participantState participant = .notDelivered
  state : message.state = .notDelivered

variable {p : P}

omit [DecidableEq P] in
theorem expected_of_notDelivered (message : GroupMessage P)
    (hp : p ∈ message.participants) (hstate : message.participantState p = .notDelivered) :
    message.expected = .notDelivered := by
  unfold GroupMessage.expected
  rw [if_pos (mem_map.mpr ⟨p, hp, hstate⟩)]

theorem Failed.receive (h : Failed p message) (q : P) (receipt : Receipt)
    (hreceipt : q = p → receipt = .notDelivered) :
    Failed p (message.setParticipantState false q receipt.state) := by
  cases hvalid : validStateTransition (message.participantState q) receipt.state with
  | false =>
    rw [setParticipantState_refused hvalid]
    exact h
  | true =>
    have hother : p ≠ q := by
      rintro rfl
      rw [h.participantState, hreceipt rfl] at hvalid
      cases hvalid
    rw [setParticipantState_accepted hvalid]
    dsimp only
    have hstays : raiseOne message.participantState (q, receipt) p = .notDelivered := by
      rw [raiseOne, Function.update_of_ne hother]
      exact h.participantState
    rw [expected_of_notDelivered { message with
      participantState := raiseOne message.participantState (q, receipt) } h.mem hstays,
      if_neg (by simp)]
    unfold GroupMessage.setState
    rw [if_neg (by simp [validStateTransition, h.state])]
    exact ⟨h.mem, hstays, h.state⟩

theorem Failed.receiveAll (h : Failed p message) (receipts : List (P × Receipt))
    (hreceipts : ∀ receipt ∈ receipts, receipt.1 = p → receipt.2 = .notDelivered) :
    Failed p (message.receive receipts) := by
  induction receipts generalizing message with
  | nil => exact h
  | cons receipt receipts ih =>
    exact ih (h.receive receipt.1 receipt.2 (hreceipts receipt mem_cons_self))
      fun next hnext => hreceipts next (mem_cons_of_mem _ hnext)

theorem setParticipantState_notDelivered (hp : p ∈ message.participants)
    (hbehind : message.participantState p = .delivered) (hstate : message.state = .delivered) :
    (message.setParticipantState false p .notDelivered).state = .notDelivered ∧
      ∀ q ∈ message.participants,
        (message.setParticipantState false p .notDelivered).participantState q = .notDelivered := by
  have hvalid : validStateTransition (message.participantState p) Receipt.notDelivered.state = true := by
    rw [hbehind]
    rfl
  have haccepted := setParticipantState_accepted hvalid
  dsimp only at haccepted
  generalize hmoved : ({ message with
    participantState := raiseOne message.participantState (p, Receipt.notDelivered) } :
      GroupMessage P) = moved at haccepted
  have hparticipants : moved.participants = message.participants := by rw [← hmoved]
  have hmovedState : moved.participantState p = .notDelivered := by
    rw [← hmoved]
    simp [raiseOne, raise, hbehind, Receipt.state, validStateTransition]
  have hsaid : validStateTransition moved.state .notDelivered = true := by
    rw [← hmoved]
    simp [validStateTransition, hstate]
  rw [expected_of_notDelivered moved (hparticipants ▸ hp) hmovedState, if_neg (by simp)]
    at haccepted
  change (message.setParticipantState false p Receipt.notDelivered.state).state = _ ∧
    ∀ q ∈ _, (message.setParticipantState false p Receipt.notDelivered.state).participantState q = _
  rw [haccepted, state_setState hsaid]
  refine ⟨rfl, fun q hq => ?_⟩
  rw [participantState_setState hsaid (hparticipants ▸ hq), if_pos (.inr rfl)]

/-! ## Nobody displays the message -/

/-- A message that is not displayed, to anybody. -/
structure Undisplayed (message : GroupMessage P) : Prop where
  participantState : ∀ p ∈ message.participants, message.participantState p ≠ .displayed
  state : message.state ≠ .displayed

variable {receipt : Receipt}

theorem Undisplayed.receive (h : Undisplayed message) (hreceipt : receipt ≠ .displayed)
    (hsome : message.participants ≠ []) :
    Undisplayed (message.setParticipantState false p receipt.state) := by
  cases hvalid : validStateTransition (message.participantState p) receipt.state with
  | false =>
    rw [setParticipantState_refused hvalid]
    exact h
  | true =>
    rw [setParticipantState_accepted hvalid]
    dsimp only
    generalize hmoved : ({ message with
      participantState := raiseOne message.participantState (p, receipt) } : GroupMessage P) = moved
    have hmovedStates : ∀ q ∈ moved.participants, moved.participantState q ≠ .displayed := by
      intro q hq
      rw [← hmoved] at hq ⊢
      simp only [raiseOne, raise, hvalid, if_true, Function.update_apply]
      split
      · cases receipt with
        | displayed => exact absurd rfl hreceipt
        | deliveredToUser => simp [Receipt.state]
        | notDelivered => simp [Receipt.state]
      · exact h.participantState q hq
    have hmovedState : moved.state ≠ .displayed := by
      rw [← hmoved]
      exact h.state
    have hexpected : moved.expected ≠ .displayed := by
      obtain ⟨q, hq⟩ := exists_mem_of_ne_nil _ hsome
      have hq' : q ∈ moved.participants := by
        rw [← hmoved]
        exact hq
      by_cases hnot : ∃ r ∈ moved.participants, moved.participantState r = .notDelivered
      · obtain ⟨r, hr, hfailed⟩ := hnot
        rw [expected_of_notDelivered moved hr hfailed]
        simp
      · rw [expected_of_states moved fun r hr hfailed => hnot ⟨r, hr, hfailed⟩,
          if_neg fun hall => hmovedStates q hq' (hall q hq')]
        split <;> simp
    split
    · exact ⟨hmovedStates, hmovedState⟩
    · cases hsaid : validStateTransition moved.state moved.expected with
      | false =>
        unfold GroupMessage.setState
        rw [if_neg (by simp [hsaid])]
        exact ⟨hmovedStates, hmovedState⟩
      | true =>
        refine ⟨fun q hq => ?_, ?_⟩
        · rw [participants_setState] at hq
          rw [participantState_setState hsaid hq]
          split
          · exact hexpected
          · exact hmovedStates q hq
        · rw [state_setState hsaid]
          exact hexpected

theorem Undisplayed.receiveAll (h : Undisplayed message) (hsome : message.participants ≠ [])
    (receipts : List (P × Receipt)) (hreceipts : ∀ receipt ∈ receipts, receipt.2 ≠ .displayed) :
    Undisplayed (message.receive receipts) := by
  induction receipts generalizing message with
  | nil => exact h
  | cons receipt receipts ih =>
    exact ih (h.receive (hreceipts receipt mem_cons_self) hsome)
      (by rw [participants_setParticipantState]; exact hsome)
      fun next hnext => hreceipts next (mem_cons_of_mem _ hnext)

/-! ## A participant that nothing is heard of -/

/-- A message that is plain, with a participant that nothing is heard of. -/
structure Waiting (participant : P) (message : GroupMessage P) : Prop where
  mem : participant ∈ message.participants
  participantState : message.participantState participant = .delivered
  plain : Plain message

omit [DecidableEq P] in
theorem Waiting.state (h : Waiting p message) : message.state = .delivered := by
  have hbehind := h.participantState
  rw [h.plain.state, expected_of_states message fun q hq hfailed => by
      have := h.plain.states q hq
      rw [hfailed] at this
      simp at this, if_neg fun hall => by simpa [hbehind] using hall p h.mem,
    if_neg fun hall => by simpa [hbehind] using hall p h.mem]

omit [DecidableEq P] in
theorem GroupMessage.Sent.waiting (h : message.Sent) {p : P} (hp : p ∈ message.participants) :
    Waiting p message :=
  ⟨hp, h.participants p hp, h.plain⟩

theorem Waiting.receive (h : Waiting p message) {q : P} (hq : q ∈ message.participants)
    (hother : q ≠ p) (receipt : Receipt) (hreceipt : receipt ≠ .notDelivered) :
    Waiting p (message.setParticipantState false q receipt.state) := by
  obtain ⟨hplain, hstates, -⟩ := h.plain.receive hq receipt hreceipt
  refine ⟨?_, ?_, hplain⟩
  · rw [participants_setParticipantState]
    exact h.mem
  · rw [hstates, raiseOne, Function.update_of_ne (Ne.symm hother)]
    exact h.participantState

theorem Waiting.receiveAll (h : Waiting p message) (receipts : List (P × Receipt))
    (hin : ∀ receipt ∈ receipts, receipt.1 ∈ message.participants)
    (hreceipts : ∀ receipt ∈ receipts, receipt.1 ≠ p ∧ receipt.2 ≠ .notDelivered) :
    Waiting p (message.receive receipts) := by
  induction receipts generalizing message with
  | nil => exact h
  | cons receipt receipts ih =>
    obtain ⟨hother, hup⟩ := hreceipts receipt mem_cons_self
    refine ih (h.receive (hin receipt mem_cons_self) hother receipt.2 hup) (fun next hnext => ?_)
      fun next hnext => hreceipts next (mem_cons_of_mem _ hnext)
    rw [participants_setParticipantState]
    exact hin next (mem_cons_of_mem _ hnext)

theorem Waiting.fail {q : P} (h : Waiting p message) (hq : q ∈ message.participants) :
    Failed q (message.setParticipantState false p .notDelivered) := by
  obtain ⟨hstate, hstates⟩ := setParticipantState_notDelivered h.mem h.participantState h.state
  refine ⟨?_, hstates q hq, hstate⟩
  have := participants_setParticipantState message p .notDelivered
  rw [Receipt.state] at this
  rw [this]
  exact hq

theorem Waiting.receive_or (h : Waiting p message) {q : P} (hq : q ∈ message.participants)
    (hreceipt : q = p → receipt = .notDelivered) :
    (Waiting p (message.setParticipantState false q receipt.state) ∧ q ≠ p) ∨
      Failed p (message.setParticipantState false q receipt.state) := by
  cases receipt with
  | deliveredToUser =>
    have hother : q ≠ p := fun heq => by simpa using hreceipt heq
    exact .inl ⟨h.receive hq hother _ (by simp), hother⟩
  | displayed =>
    have hother : q ≠ p := fun heq => by simpa using hreceipt heq
    exact .inl ⟨h.receive hq hother _ (by simp), hother⟩
  | notDelivered =>
    obtain hbehind | hahead := h.plain.states q hq
    · exact .inr ((⟨hq, hbehind, h.plain⟩ : Waiting q message).fail h.mem)
    · have hrefused : validStateTransition (message.participantState q)
          Receipt.notDelivered.state = false := by
        obtain hstate | hstate := hahead
        · rw [hstate]
          rfl
        · rw [hstate]
          rfl
      rw [setParticipantState_refused hrefused]
      refine .inl ⟨h, ?_⟩
      rintro rfl
      rw [h.participantState] at hahead
      simp at hahead

variable {receipts : List (P × Receipt)}

theorem Waiting.receiveAll_or (h : Waiting p message)
    (hin : ∀ receipt ∈ receipts, receipt.1 ∈ message.participants)
    (hreceipts : ∀ receipt ∈ receipts, receipt.1 = p → receipt.2 = .notDelivered) :
    (Waiting p (message.receive receipts) ∧ ∀ receipt ∈ receipts, receipt.1 ≠ p) ∨
      Failed p (message.receive receipts) := by
  induction receipts generalizing message with
  | nil => exact .inl ⟨h, by simp⟩
  | cons receipt receipts ih =>
    have hrest : ∀ next ∈ receipts, next.1 = p → next.2 = .notDelivered :=
      fun next hnext => hreceipts next (mem_cons_of_mem _ hnext)
    obtain ⟨hwaiting, hother⟩ | hfailed := h.receive_or (hin receipt mem_cons_self)
      (hreceipts receipt mem_cons_self)
    · have hin' : ∀ next ∈ receipts,
          next.1 ∈ (message.setParticipantState false receipt.1 receipt.2.state).participants := by
        intro next hnext
        rw [participants_setParticipantState]
        exact hin next (mem_cons_of_mem _ hnext)
      obtain ⟨hwaiting', hothers⟩ | hfailed := ih hwaiting hin' hrest
      · exact .inl ⟨hwaiting', forall_mem_cons.mpr ⟨hother, hothers⟩⟩
      · exact .inr hfailed
    · exact .inr (hfailed.receiveAll receipts hrest)

/-! ## When the order matters -/

theorem orderFree_of_failed (h : Waiting p message) (hundisplayed : Undisplayed message)
    (hin : ∀ receipt ∈ receipts, receipt.1 ∈ message.participants)
    (hp : (p, Receipt.notDelivered) ∈ receipts)
    (hreceipts : ∀ receipt ∈ receipts, receipt.1 = p → receipt.2 = .notDelivered)
    (hdisplayed : ∀ receipt ∈ receipts, receipt.2 ≠ .displayed) : message.OrderFree receipts := by
  have hfailed : ∀ order : List (P × Receipt), order.Perm receipts →
      Failed p (message.receive order) := by
    intro order horder
    have hmem : ∀ receipt ∈ order, receipt ∈ receipts := fun receipt => horder.mem_iff.mp
    obtain ⟨-, hothers⟩ | hfailed := h.receiveAll_or (fun receipt hr => hin receipt (hmem receipt hr))
      fun receipt hr => hreceipts receipt (hmem receipt hr)
    · exact absurd rfl (hothers _ (horder.mem_iff.mpr hp))
    · exact hfailed
  have hnever : ∀ before : List (P × Receipt), (∀ receipt ∈ before, receipt ∈ receipts) →
      Undisplayed (message.receive before) := fun before hbefore =>
    hundisplayed.receiveAll (ne_nil_of_mem h.mem) before
      fun receipt hreceipt => hdisplayed receipt (hbefore receipt hreceipt)
  refine ⟨fun order horder => ?_, fun order horder => ?_, fun order horder => ?_⟩
  · rw [(hfailed order horder).state, (hfailed receipts (List.Perm.refl _)).state]
  · have hend := hfailed order horder
    rw [hend.state, expected_of_notDelivered _ hend.mem hend.participantState]
  · intro before receipt after hsplit
    have hbefore := hnever before fun next hnext => horder.mem_iff.mp (by
      rw [hsplit]
      exact mem_append_left _ hnext)
    refine ⟨fun hstate => absurd hstate hbefore.state, fun q hq hstate => ?_⟩
    refine absurd hstate (hbefore.participantState q ?_)
    rw [participants_receive]
    exact hq

theorem not_orderFree_of_displayed (h : message.Sent) {q : P}
    (hp : p ∈ message.participants) (hq : q ∈ message.participants) (hother : q ≠ p)
    (hfails : (p, Receipt.notDelivered) ∈ receipts)
    (hdisplays : (q, Receipt.displayed) ∈ receipts) : ¬ message.OrderFree receipts := by
  intro hfree
  have hstill : (p, Receipt.notDelivered) ∈ receipts.erase (q, .displayed) :=
    (mem_erase_of_ne (by simp)).mpr hfails
  have hperm := (perm_cons_erase hdisplays).trans
    ((perm_cons_erase hstill).cons (q, Receipt.displayed))
  obtain ⟨-, hkeeps⟩ := hfree.monotone _ hperm.symm [(q, .displayed)] (p, .notDelivered) _ rfl
  have hwaiting := (h.waiting hp).receive hq hother .displayed (by simp)
  obtain ⟨-, hstates, -⟩ := h.plain.receive hq .displayed (by simp)
  have hbefore : (message.receive [(q, .displayed)]).participantState q = .displayed := by
    have : raiseOne message.participantState (q, .displayed) q = .displayed := by
      simp [raiseOne, h.participants q hq, raise, validStateTransition, Receipt.state]
    rw [← this]
    exact congrFun hstates q
  have hfailed := hwaiting.fail (q := q) (by rw [participants_setParticipantState]; exact hq)
  have hafter := hkeeps q hq hbefore
  cases hfailed.participantState.symm.trans hafter

/-- A participant that confirmed the message. -/
def Ahead (state : MessageState) : Prop := state = .deliveredToUser ∨ state = .displayed

theorem raise_ahead (state : MessageState) (h : receipt ≠ .notDelivered) :
    Ahead (raise state receipt) := by
  unfold Ahead
  cases receipt with
  | notDelivered => exact absurd rfl h
  | deliveredToUser => cases state <;> simp [raise, validStateTransition, Receipt.state]
  | displayed => cases state <;> simp [raise, validStateTransition, Receipt.state]

theorem Ahead.raise {state : MessageState} (h : Ahead state) (receipt : Receipt) :
    Ahead (raise state receipt) := by
  unfold Ahead
  obtain rfl | rfl := h
  · cases receipt <;> simp [Chat.raise, validStateTransition, Receipt.state]
  · cases receipt <;> simp [Chat.raise, validStateTransition, Receipt.state]

theorem Ahead.foldl {states : P → MessageState} (h : Ahead (states p))
    (receipts : List (P × Receipt)) : Ahead (receipts.foldl raiseOne states p) := by
  induction receipts generalizing states with
  | nil => exact h
  | cons receipt receipts ih =>
    refine ih ?_
    rw [raiseOne, Function.update_apply]
    split
    · next heq =>
      rw [← heq]
      exact h.raise receipt.2
    · exact h

theorem foldl_ahead (states : P → MessageState) (hreceipt : receipt ≠ .notDelivered)
    (h : (p, receipt) ∈ receipts) : Ahead (receipts.foldl raiseOne states p) := by
  induction receipts generalizing states with
  | nil => cases h
  | cons next receipts ih =>
    cases h with
    | head =>
      refine Ahead.foldl ?_ receipts
      rw [raiseOne, Function.update_self]
      exact raise_ahead _ hreceipt
    | tail _ h => exact ih _ h

theorem receive_refused
    (h : ∀ receipt ∈ receipts, Ahead (message.participantState receipt.1) ∧ receipt.2 =
      .notDelivered) : message.receive receipts = message := by
  induction receipts with
  | nil => rfl
  | cons receipt receipts ih =>
    obtain ⟨hahead, hfails⟩ := h receipt mem_cons_self
    have hrefused : validStateTransition (message.participantState receipt.1)
        receipt.2.state = false := by
      obtain hstate | hstate := hahead
      · rw [hstate, hfails]
        rfl
      · rw [hstate, hfails]
        rfl
    calc
      message.receive (receipt :: receipts)
      _ = (message.setParticipantState false receipt.1 receipt.2.state).receive receipts := rfl
      _ = message.receive receipts := by rw [setParticipantState_refused hrefused]
      _ = message := ih fun next hnext => h next (mem_cons_of_mem _ hnext)

omit [DecidableEq P] in
theorem Plain.state_ne (h : Plain message) : message.state ≠ .notDelivered := by
  rw [h.state, expected_of_states message fun p hp hfailed => by
    have := h.states p hp
    rw [hfailed] at this
    simp at this]
  split
  · simp
  · split <;> simp

theorem not_orderFree_of_confirmed (h : message.Sent)
    (hin : ∀ receipt ∈ receipts, receipt.1 ∈ message.participants) {r : P}
    (hr : r ∈ message.participants) (hother : r ≠ p) (hfails : (p, Receipt.notDelivered) ∈ receipts)
    (hconfirms : ∀ q, (q, Receipt.notDelivered) ∈ receipts → ∃ receipt, (q, receipt) ∈ receipts ∧
      receipt ≠ .notDelivered) : ¬ message.OrderFree receipts := by
  intro hfree
  have hp : p ∈ message.participants := hin _ hfails
  have hgood : (message.receive (receipts.filter (fun receipt => receipt.2 ≠ .notDelivered) ++
      receipts.filter fun receipt => !decide (receipt.2 ≠ .notDelivered))).state ≠ .notDelivered := by
    obtain ⟨hplain, hstates⟩ := h.plain.receiveAll
      (receipts.filter fun receipt => receipt.2 ≠ .notDelivered)
      (fun receipt hreceipt => hin receipt (mem_of_mem_filter hreceipt))
      (fun receipt hreceipt => by simpa using (mem_filter.mp hreceipt).2)
    rw [receive_append, receive_refused]
    · exact hplain.state_ne
    · intro receipt hreceipt
      obtain ⟨hmem, hfailure⟩ := mem_filter.mp hreceipt
      have hfailure : receipt.2 = .notDelivered := by simpa using hfailure
      obtain ⟨news, hnews, hup⟩ := hconfirms receipt.1 (by rw [← hfailure]; exact hmem)
      rw [hstates]
      exact ⟨foldl_ahead _ hup (mem_filter.mpr ⟨hnews, by simpa using hup⟩), hfailure⟩
  have hbad : ∀ rest : List (P × Receipt),
      (∀ receipt ∈ rest, receipt.1 = r → receipt.2 = .notDelivered) →
      (message.receive (receipts.filter (fun receipt =>
        receipt.1 = r ∧ receipt.2 ≠ .notDelivered) ++ (p, .notDelivered) :: rest)).state =
          .notDelivered := by
    intro rest hrest
    have hwaiting := (h.waiting hp).receiveAll
      (receipts.filter fun receipt => receipt.1 = r ∧ receipt.2 ≠ .notDelivered)
      (fun receipt hreceipt => hin receipt (mem_of_mem_filter hreceipt)) (fun receipt hreceipt => by
        have hboth := (mem_filter.mp hreceipt).2
        rw [decide_eq_true_iff] at hboth
        exact ⟨fun heq => hother (hboth.1.symm.trans heq), hboth.2⟩)
    rw [receive_append]
    exact ((hwaiting.fail (by rw [participants_receive]; exact hr)).receiveAll rest hrest).state
  have hrest : (p, Receipt.notDelivered) ∈ receipts.filter fun receipt =>
      !decide (receipt.1 = r ∧ receipt.2 ≠ .notDelivered) :=
    mem_filter.mpr ⟨hfails, by simp⟩
  have hperm := ((perm_cons_erase hrest).symm.append_left (receipts.filter fun receipt =>
    receipt.1 = r ∧ receipt.2 ≠ .notDelivered)).trans (filter_append_perm _ receipts)
  refine hgood ?_
  rw [hfree.same _ (filter_append_perm _ receipts), ← hfree.same _ hperm]
  refine hbad _ fun receipt hreceipt hfrom => ?_
  have := (mem_filter.mp (mem_of_mem_erase hreceipt)).2
  simpa [hfrom] using this

/-- When the order of the receipts of a message that was sent does not matter. -/
theorem GroupMessage.Sent.orderFree_iff (h : message.Sent) (receipts : List (P × Receipt))
    (hin : ∀ receipt ∈ receipts, receipt.1 ∈ message.participants) : message.OrderFree receipts ↔
      (∀ p ∈ message.participants, ∀ q ∈ message.participants, p = q) ∨
      (∀ receipt ∈ receipts, receipt.2 ≠ .notDelivered) ∨
      (∃ p, (p, Receipt.notDelivered) ∈ receipts ∧
        ∀ receipt ∈ receipts, receipt.1 = p → receipt.2 = .notDelivered) ∧
        ∀ receipt ∈ receipts, receipt.2 ≠ .displayed := by
  constructor
  · intro hfree
    by_cases hone : ∀ p ∈ message.participants, ∀ q ∈ message.participants, p = q
    · exact .inl hone
    refine .inr ?_
    by_cases hnone : ∀ receipt ∈ receipts, receipt.2 ≠ .notDelivered
    · exact .inl hnone
    refine .inr ?_
    have hfailure : ∃ p, (p, Receipt.notDelivered) ∈ receipts := by
      by_contra hno
      refine hnone fun receipt hreceipt heq => hno ⟨receipt.1, ?_⟩
      rw [← heq]
      exact hreceipt
    have honly : ∃ p, (p, Receipt.notDelivered) ∈ receipts ∧
        ∀ receipt ∈ receipts, receipt.1 = p → receipt.2 = .notDelivered := by
      by_contra hconfirms
      obtain ⟨p, hp⟩ := hfailure
      have hother : ∃ r ∈ message.participants, r ≠ p := by
        by_contra hsame
        refine hone fun q hq r hr => ?_
        have hq' : q = p := by_contra fun hne => hsame ⟨q, hq, hne⟩
        have hr' : r = p := by_contra fun hne => hsame ⟨r, hr, hne⟩
        rw [hq', hr']
      obtain ⟨r, hr, hne⟩ := hother
      refine not_orderFree_of_confirmed h hin hr hne hp (fun q hq => ?_) hfree
      by_contra hall
      refine hconfirms ⟨q, hq, fun receipt hreceipt heq => ?_⟩
      by_contra hup
      refine hall ⟨receipt.2, ?_, hup⟩
      rw [← heq]
      exact hreceipt
    refine ⟨honly, fun receipt hreceipt hdisplayed => ?_⟩
    obtain ⟨p, hp, hall⟩ := honly
    have hmem : (receipt.1, Receipt.displayed) ∈ receipts := by
      rw [← hdisplayed]
      exact hreceipt
    have hother : receipt.1 ≠ p := by
      intro heq
      have := hall receipt hreceipt heq
      rw [hdisplayed] at this
      cases this
    exact not_orderFree_of_displayed h (hin _ hp) (hin receipt hreceipt) hother hp hmem hfree
  · rintro (hone | hup | ⟨⟨p, hp, honly⟩, hdisplayed⟩)
    · exact orderFree_of_single h.single hone hin
    · exact orderFree_of_plain h.plain hin hup
    · have hundisplayed : Undisplayed message :=
        ⟨fun q hq => by simp [h.participants q hq], by simp [h.state]⟩
      exact orderFree_of_failed (h.waiting (hin _ hp)) hundisplayed hin hp honly hdisplayed

/-- Two participants, of whom one displays the message and the other does not get it. -/
def sentToTwo : GroupMessage Bool where
  participants := [false, true]
  participantState := fun _ => .delivered
  state := .delivered

theorem sentToTwo_sent : sentToTwo.Sent :=
  ⟨by simp [sentToTwo], fun _ _ => rfl, rfl⟩

/-- Receipts of one kind are order free among two participants. -/
theorem GroupMessage.Sent.orderFree_iff_delivered :
    sentToTwo.Sent ∧ sentToTwo.OrderFree [(false, .deliveredToUser), (true, .displayed)] :=
  ⟨sentToTwo_sent, (sentToTwo_sent.orderFree_iff [(false, .deliveredToUser), (true, .displayed)]
    (by simp [sentToTwo])).mpr (.inr (.inl (by simp)))⟩

/-- A participant that displayed the message goes back to `NotDelivered` when the other one fails. -/
theorem receive_forgetsDisplayed :
    sentToTwo.Sent ∧ ¬ sentToTwo.OrderFree [(false, .displayed), (true, .notDelivered)] := by
  refine ⟨sentToTwo_sent, fun hfree => ?_⟩
  obtain ⟨-, hkeeps⟩ := hfree.monotone _ (List.Perm.refl _) [(false, .displayed)]
    (true, .notDelivered) [] rfl
  have hforgets : (sentToTwo.receive
      ([(false, .displayed)] ++ [(true, .notDelivered)])).participantState false =
        .notDelivered := by decide
  rw [hkeeps false (by decide) (by decide)] at hforgets
  cases hforgets

end GrooveIp.Chat
