import GrooveIp.Chat.GroupMessage
import Mathlib.Data.List.Perm.Basic

/-!
# The order of receipts

When receipts lead to the same state of a group message in every order. A participant that gets better
news moves up, whatever comes first. But a message that is not delivered to one participant is stored as
not delivered to all of them, which forgets what they had confirmed, and the message stays so when that
participant moves up while another has not confirmed.
-/

namespace GrooveIp.Chat

open List

variable {P : Type} [DecidableEq P] {message : GroupMessage P}

/-! ## What a message should say -/

/-- The state of a message that the states of its participants stand for. -/
def GroupMessage.expected (message : GroupMessage P) : MessageState :=
  let states := message.participants.map message.participantState
  if .notDelivered ∈ states then .notDelivered
  else if ∀ state ∈ states, state = .displayed then .displayed
  else if ∀ state ∈ states, state = .displayed ∨ state = .deliveredToUser then .deliveredToUser
  else .delivered

/-- Nobody and nothing goes back from `Displayed` on the way. -/
def GroupMessage.KeepsDisplayed (message : GroupMessage P) (receipts : List (P × Receipt)) : Prop :=
  ∀ before receipt after, receipts = before ++ receipt :: after →
    ((message.receive before).state = .displayed →
      (message.receive (before ++ [receipt])).state = .displayed) ∧
    ∀ participant ∈ message.participants,
      (message.receive before).participantState participant = .displayed →
        (message.receive (before ++ [receipt])).participantState participant = .displayed

/-- In every order of the receipts the message ends in the state its participants stand for, and
nothing goes back from `Displayed`. -/
structure GroupMessage.OrderFree (message : GroupMessage P) (receipts : List (P × Receipt)) : Prop where
  same : ∀ order, order.Perm receipts →
    (message.receive order).state = (message.receive receipts).state
  expected : ∀ order, order.Perm receipts →
    (message.receive order).state = (message.receive order).expected
  monotone : ∀ order, order.Perm receipts → message.KeepsDisplayed order

open GroupMessage

theorem count_add_count_eq_length (states : List MessageState) :
    states.count .displayed + states.count .deliveredToUser = states.length ↔
      ∀ state ∈ states, state = .displayed ∨ state = .deliveredToUser := by
  have hsum : states.count .displayed + states.count .deliveredToUser =
      states.countP fun state => state = .displayed ∨ state = .deliveredToUser := by
    induction states with
    | nil => rfl
    | cons state states ih =>
      rw [count_cons, count_cons, countP_cons, ← ih]
      cases state <;> simp <;> omega
  rw [hsum, countP_eq_length]
  simp

omit [DecidableEq P] in
theorem summary_eq (message : GroupMessage P) :
    message.summary = if message.expected = .delivered then none else some message.expected := by
  unfold summary expected
  simp only [count_add_count_eq_length, gt_iff_lt, count_pos_iff, count_eq_length]
  by_cases hnot : MessageState.notDelivered ∈ message.participants.map message.participantState
  · simp [hnot]
  · grind

/-! ## One receipt -/

/-- The state of a participant after a receipt. -/
def raise (state : MessageState) (receipt : Receipt) : MessageState :=
  if validStateTransition state receipt.state then receipt.state else state

theorem raise_right_comm (state : MessageState) (first second : Receipt) :
    raise (raise state first) second = raise (raise state second) first := by
  cases state <;> cases first <;> cases second <;> rfl

/-- The states of the participants after a receipt. -/
def raiseOne (states : P → MessageState) (receipt : P × Receipt) : P → MessageState :=
  Function.update states receipt.1 (raise (states receipt.1) receipt.2)

theorem raiseOne_right_comm (states : P → MessageState) (first second : P × Receipt) :
    raiseOne (raiseOne states first) second = raiseOne (raiseOne states second) first := by
  obtain ⟨p, r⟩ := first
  obtain ⟨q, s⟩ := second
  unfold raiseOne
  by_cases h : p = q
  · subst h
    simp [raise_right_comm]
  · rw [Function.update_of_ne (Ne.symm h), Function.update_of_ne h, Function.update_comm h]

variable {p : P}

/-- A receipt that is refused changes nothing. -/
theorem setParticipantState_refused {receipt : Receipt}
    (h : validStateTransition (message.participantState p) receipt.state = false) :
    message.setParticipantState false p receipt.state = message := by
  simp [setParticipantState, h]

/-- A receipt that is accepted moves the participant, and the message to what the participants stand
for. -/
theorem setParticipantState_accepted {receipt : Receipt}
    (h : validStateTransition (message.participantState p) receipt.state = true) :
    message.setParticipantState false p receipt.state = let moved := { message with
        participantState := raiseOne message.participantState (p, receipt) }
      if moved.expected = .delivered then moved else moved.setState moved.expected := by
  have hraise : raise (message.participantState p) receipt = receipt.state := by simp [raise, h]
  unfold setParticipantState raiseOne
  rw [if_pos h]
  dsimp only
  rw [hraise, summary_eq, if_neg Bool.false_ne_true]
  split
  · next hsummary =>
    split at hsummary
    · cases hsummary
    · next hexpected =>
      rw [if_neg hexpected]
      cases hsummary
      rfl
  · next hsummary =>
    split at hsummary
    · next hexpected => rw [if_pos hexpected]
    · cases hsummary

/-- Receipts are a run of single ones. -/
theorem receive_append (message : GroupMessage P) (first second : List (P × Receipt)) :
    message.receive (first ++ second) = (message.receive first).receive second :=
  foldl_append

/-- The participants of a message stay. -/
theorem participants_setState (message : GroupMessage P) (state : MessageState) :
    (message.setState state).participants = message.participants := by
  unfold setState updateInDb
  split
  · split <;> rfl
  · rfl

variable {state : MessageState}

/-- A message moves to the state that it is given. -/
theorem state_setState (h : validStateTransition message.state state = true) :
    (message.setState state).state = state := by
  unfold setState updateInDb
  rw [if_pos h]
  split <;> rfl

/-- What a message writes to its participants when it moves. -/
theorem participantState_setState (h : validStateTransition message.state state = true)
    (hp : p ∈ message.participants) : (message.setState state).participantState p =
      if state = .delivered ∨ state = .notDelivered then state
      else message.participantState p := by
  unfold setState updateInDb
  rw [if_pos h]
  split
  · exact if_pos hp
  · rfl

/-- The participants of a message stay through a receipt. -/
theorem participants_setParticipantState (message : GroupMessage P) (p : P) (receipt : Receipt) :
    (message.setParticipantState false p receipt.state).participants = message.participants := by
  cases h : validStateTransition (message.participantState p) receipt.state with
  | false => rw [setParticipantState_refused h]
  | true =>
    rw [setParticipantState_accepted h]
    dsimp only
    split
    · rfl
    · exact participants_setState _ _

/-- The participants of a message stay through a run of receipts. -/
theorem participants_receive (message : GroupMessage P) (receipts : List (P × Receipt)) :
    (message.receive receipts).participants = message.participants := by
  induction receipts generalizing message with
  | nil => rfl
  | cons receipt receipts ih =>
    exact (ih _).trans (participants_setParticipantState message receipt.1 receipt.2)

/-! ## Nothing is not delivered -/

/-- Nobody is not delivered, and the message says what its participants stand for. -/
structure Plain (message : GroupMessage P) : Prop where
  states : ∀ p ∈ message.participants, message.participantState p = .delivered ∨
    message.participantState p = .deliveredToUser ∨ message.participantState p = .displayed
  state : message.state = message.expected

theorem setState_of_confirmed (message : GroupMessage P)
    (h : state = .displayed ∨ state = .deliveredToUser) : message.setState state =
      if validStateTransition message.state state then { message with state } else message := by
  unfold setState updateInDb
  obtain rfl | rfl := h
  · simp
  · simp

omit [DecidableEq P] in
/-- What is expected when nobody is not delivered. -/
theorem expected_of_states (message : GroupMessage P)
    (h : ∀ p ∈ message.participants, message.participantState p ≠ .notDelivered) :
    message.expected =
      if ∀ p ∈ message.participants, message.participantState p = .displayed then .displayed
      else if ∀ p ∈ message.participants, message.participantState p = .displayed ∨
        message.participantState p = .deliveredToUser then .deliveredToUser
      else .delivered := by
  unfold expected
  rw [if_neg]
  · simp
  · rw [mem_map]
    rintro ⟨p, hp, hstate⟩
    exact h p hp hstate

/-- A receipt that is no failure moves the participant only, and keeps the message plain. -/
theorem Plain.receive (h : Plain message) (hp : p ∈ message.participants) (receipt : Receipt)
    (hreceipt : receipt ≠ .notDelivered) :
    Plain (message.setParticipantState false p receipt.state) ∧
      (message.setParticipantState false p receipt.state).participantState =
        raiseOne message.participantState (p, receipt) ∧ (message.state = .displayed →
        (message.setParticipantState false p receipt.state).state = .displayed) := by
  cases hvalid : validStateTransition (message.participantState p) receipt.state with
  | false =>
    rw [setParticipantState_refused hvalid]
    refine ⟨h, ?_, id⟩
    simp [raiseOne, raise, hvalid]
  | true =>
    rw [setParticipantState_accepted hvalid]
    dsimp only
    generalize hmoved : ({ message with
      participantState := raiseOne message.participantState (p, receipt) } : GroupMessage P) = moved
    have hmovedState : ∀ q, moved.participantState q =
        if q = p then receipt.state else message.participantState q := by
      intro q
      rw [← hmoved]
      simp [raiseOne, raise, hvalid, Function.update_apply]
    have hmovedParticipants : moved.participants = message.participants := by rw [← hmoved]
    have hmovedSame : moved.state = message.state := by rw [← hmoved]
    have hstates : ∀ q ∈ moved.participants, moved.participantState q = .delivered ∨
        moved.participantState q = .deliveredToUser ∨ moved.participantState q = .displayed := by
      intro q hq
      rw [hmovedParticipants] at hq
      rw [hmovedState]
      split
      · cases receipt with
        | notDelivered => exact absurd rfl hreceipt
        | deliveredToUser => exact .inr (.inl rfl)
        | displayed => exact .inr (.inr rfl)
      · exact h.states q hq
    have hbefore := expected_of_states message fun q hq => by
      have := h.states q hq
      grind
    have hafter := expected_of_states moved fun q hq => by
      grind
    have hbehind : message.participantState p ≠ .displayed := by
      intro hdisplayed
      rw [hdisplayed] at hvalid
      cases receipt <;> cases hvalid
    have hup : receipt.state = .displayed ∨ receipt.state = .deliveredToUser := by
      cases receipt with
      | notDelivered => exact absurd rfl hreceipt
      | deliveredToUser => exact .inr rfl
      | displayed => exact .inl rfl
    have hkeep : moved.participantState = raiseOne message.participantState (p, receipt) := by
      rw [← hmoved]
    rw [if_neg fun hall => hbehind (hall p hp)] at hbefore
    have hnot : message.state ≠ .displayed := by
      rw [h.state, hbefore]
      split <;> simp
    refine ⟨?_, ?_, fun hdisplayed => absurd hdisplayed hnot⟩
    · by_cases hall : ∀ q ∈ moved.participants, moved.participantState q = .displayed
      · rw [if_pos hall] at hafter
        have hsaid : validStateTransition moved.state .displayed = true := by
          rw [hmovedSame]
          simp [validStateTransition, Ne.symm hnot]
        rw [hafter, if_neg (by simp), setState_of_confirmed moved (.inl rfl), if_pos hsaid]
        exact ⟨hstates, hafter.symm⟩
      rw [if_neg hall] at hafter
      by_cases hconfirmed : ∀ q ∈ moved.participants, moved.participantState q = .displayed ∨
          moved.participantState q = .deliveredToUser
      · rw [if_pos hconfirmed] at hafter
        rw [hafter, if_neg (by simp), setState_of_confirmed moved (.inr rfl)]
        split
        · exact ⟨hstates, hafter.symm⟩
        · next hsaid =>
          have hsays : message.state = .delivered ∨ message.state = .deliveredToUser := by
            rw [h.state, hbefore]
            split <;> simp
          rw [hmovedSame] at hsaid
          obtain hdelivered | hconfirmed := hsays
          · rw [hdelivered] at hsaid
            exact absurd rfl hsaid
          · exact ⟨hstates, by rw [hafter, hmovedSame, hconfirmed]⟩
      · rw [if_neg hconfirmed] at hafter
        rw [if_neg] at hbefore
        · rw [if_pos hafter]
          exact ⟨hstates, by rw [hmovedSame, h.state, hbefore, hafter]⟩
        · intro hearlier
          refine hconfirmed fun q hq => ?_
          rw [hmovedState]
          split
          · exact hup
          · exact hearlier q (hmovedParticipants ▸ hq)
    · split
      · exact hkeep
      · next hexpected =>
        have hmoves : moved.expected = .displayed ∨ moved.expected = .deliveredToUser := by
          rw [hafter] at hexpected ⊢
          split
          · exact .inl rfl
          · next hall =>
            rw [if_neg hall] at hexpected
            split
            · exact .inr rfl
            · next hconfirmed =>
              rw [if_neg hconfirmed] at hexpected
              exact absurd rfl hexpected
        rw [setState_of_confirmed moved hmoves]
        split <;> exact hkeep

/-- Receipts that are no failures move each participant up, and keep the message plain. -/
theorem Plain.receiveAll (h : Plain message) (receipts : List (P × Receipt))
    (hin : ∀ receipt ∈ receipts, receipt.1 ∈ message.participants)
    (hup : ∀ receipt ∈ receipts, receipt.2 ≠ .notDelivered) : Plain (message.receive receipts) ∧
      (message.receive receipts).participantState =
        receipts.foldl raiseOne message.participantState := by
  induction receipts generalizing message with
  | nil => exact ⟨h, rfl⟩
  | cons receipt receipts ih =>
    obtain ⟨h', hstates, -⟩ :=
      h.receive (hin receipt mem_cons_self) receipt.2 (hup receipt mem_cons_self)
    obtain ⟨hplain, hfold⟩ := ih h' (fun next hnext => by
        rw [participants_setParticipantState]
        exact hin next (mem_cons_of_mem _ hnext))
      (fun next hnext => hup next (mem_cons_of_mem _ hnext))
    refine ⟨hplain, ?_⟩
    rw [hstates] at hfold
    exact hfold

omit [DecidableEq P] in
/-- A message that was sent is plain. -/
theorem GroupMessage.Sent.plain (h : message.Sent) : Plain message := by
  obtain ⟨p, hp⟩ := exists_mem_of_ne_nil _ h.someone
  refine ⟨fun q hq => .inl (h.participants q hq), ?_⟩
  rw [h.state, expected_of_states message fun q hq => by simp [h.participants q hq],
    if_neg fun hall => by simpa [h.participants p hp] using hall p hp,
    if_neg fun hall => by simpa [h.participants p hp] using hall p hp]

/-- Receipts are a run of two parts, and of a part and one more. -/
theorem receive_concat (message : GroupMessage P) (before : List (P × Receipt))
    (receipt : P × Receipt) : message.receive (before ++ [receipt]) =
      (message.receive before).setParticipantState false receipt.1 receipt.2.state :=
  receive_append message before [receipt]

variable {receipts : List (P × Receipt)}

/-- With no failure among the receipts their order does not matter. -/
theorem orderFree_of_plain (h : Plain message)
    (hin : ∀ receipt ∈ receipts, receipt.1 ∈ message.participants)
    (hup : ∀ receipt ∈ receipts, receipt.2 ≠ .notDelivered) : message.OrderFree receipts := by
  have hrun : ∀ order : List (P × Receipt), (∀ receipt ∈ order, receipt ∈ receipts) →
      Plain (message.receive order) ∧ (message.receive order).participantState =
        order.foldl raiseOne message.participantState :=
    fun order horder => h.receiveAll order
      (fun receipt hreceipt => hin receipt (horder receipt hreceipt)) fun receipt hreceipt => hup receipt (horder receipt hreceipt)
  refine ⟨?_, ?_, ?_⟩
  · intro order horder
    obtain ⟨hplain, hstates⟩ := hrun order fun receipt => horder.mem_iff.mp
    obtain ⟨hplain', hstates'⟩ := hrun receipts fun receipt hreceipt => hreceipt
    have hsame : (message.receive order).participantState =
        (message.receive receipts).participantState := by
      rw [hstates, hstates']
      exact horder.foldl_eq' (fun first _ second _ states =>
        raiseOne_right_comm states first second) _
    rw [hplain.state, hplain'.state]
    unfold expected
    rw [hsame, participants_receive, participants_receive]
  · intro order horder
    exact (hrun order fun receipt => horder.mem_iff.mp).1.state
  · intro order horder before receipt after hsplit
    have hmem : ∀ next ∈ before ++ receipt :: after, next ∈ receipts := by
      intro next hnext
      rw [← hsplit] at hnext
      exact horder.mem_iff.mp hnext
    obtain ⟨hplain, -⟩ := hrun before fun next hnext => hmem next (mem_append_left _ hnext)
    have hreceipt := hmem receipt (by simp)
    obtain ⟨-, hstates, hkeeps⟩ := hplain.receive
      (by rw [participants_receive]; exact hin receipt hreceipt) receipt.2 (hup receipt hreceipt)
    rw [receive_concat]
    refine ⟨hkeeps, fun p hp hdisplayed => ?_⟩
    rw [hstates]
    unfold raiseOne
    rw [Function.update_apply]
    split
    · next heq =>
      rw [← heq, hdisplayed]
      cases receipt.2 <;> rfl
    · exact hdisplayed

/-! ## One participant -/

/-- All participants are in the state of the message. -/
structure Single (message : GroupMessage P) : Prop where
  someone : message.participants ≠ []
  states : ∀ p ∈ message.participants, message.participantState p = message.state
  state : message.state = .delivered ∨ message.state = .notDelivered ∨
    message.state = .deliveredToUser ∨ message.state = .displayed

omit [DecidableEq P] in
theorem expected_of_same (message : GroupMessage P) (hsome : message.participants ≠ [])
    (state : MessageState) (hstates : ∀ p ∈ message.participants, message.participantState p = state)
    (hstate : state = .delivered ∨ state = .notDelivered ∨ state = .deliveredToUser ∨
      state = .displayed) : message.expected = state := by
  obtain ⟨p, hp⟩ := exists_mem_of_ne_nil _ hsome
  have hp' := hstates p hp
  by_cases hnot : state = .notDelivered
  · unfold expected
    rw [if_pos (mem_map.mpr ⟨p, hp, hp'.trans hnot⟩), hnot]
  · rw [expected_of_states message fun q hq => by rw [hstates q hq]; exact hnot]
    grind

omit [DecidableEq P] in
theorem Single.expected (h : Single message) : message.expected = message.state :=
  expected_of_same message h.someone message.state h.states h.state

theorem Single.receive (h : Single message)
    (hone : ∀ p ∈ message.participants, ∀ q ∈ message.participants, p = q)
    (hp : p ∈ message.participants) (receipt : Receipt) :
    Single (message.setParticipantState false p receipt.state) ∧
      (message.setParticipantState false p receipt.state).state = raise message.state receipt := by
  have hsome : (message.setParticipantState false p receipt.state).participants ≠ [] := by
    rw [participants_setParticipantState]
    exact h.someone
  cases hvalid : validStateTransition (message.participantState p) receipt.state with
  | false =>
    rw [setParticipantState_refused hvalid]
    rw [h.states p hp] at hvalid
    exact ⟨h, by simp [raise, hvalid]⟩
  | true =>
    rw [setParticipantState_accepted hvalid] at hsome ⊢
    dsimp only at hsome ⊢
    rw [h.states p hp] at hvalid
    generalize hmoved : ({ message with
      participantState := raiseOne message.participantState (p, receipt) } :
        GroupMessage P) = moved at hsome ⊢
    have hstates : ∀ q ∈ moved.participants, moved.participantState q = receipt.state := by
      intro q hq
      rw [← hmoved] at hq ⊢
      rw [hone q hq p hp]
      simp [raiseOne, raise, h.states p hp, hvalid]
    have hreceipt : receipt.state = .notDelivered ∨ receipt.state = .deliveredToUser ∨
        receipt.state = .displayed := by
      cases receipt <;> simp [Receipt.state]
    have hmovedValid : validStateTransition moved.state receipt.state = true := by
      rw [← hmoved]
      exact hvalid
    have hraise : raise message.state receipt = receipt.state := by simp [raise, hvalid]
    have hsomeMoved : moved.participants ≠ [] := by
      rw [← hmoved]
      exact h.someone
    have hexpected := expected_of_same moved hsomeMoved receipt.state hstates (.inr hreceipt)
    rw [hexpected, if_neg (by grind)] at hsome ⊢
    rw [state_setState hmovedValid]
    refine ⟨⟨hsome, ?_, ?_⟩, hraise.symm⟩
    · intro q hq
      rw [participants_setState] at hq
      rw [state_setState hmovedValid, participantState_setState hmovedValid hq, hstates q hq,
        ite_self]
    · rw [state_setState hmovedValid]
      exact .inr hreceipt

theorem Single.receiveAll (h : Single message)
    (hone : ∀ p ∈ message.participants, ∀ q ∈ message.participants, p = q)
    (hin : ∀ receipt ∈ receipts, receipt.1 ∈ message.participants) :
    Single (message.receive receipts) ∧ (message.receive receipts).state =
        (receipts.map Prod.snd).foldl raise message.state := by
  induction receipts generalizing message with
  | nil => exact ⟨h, rfl⟩
  | cons receipt receipts ih =>
    obtain ⟨h', hstate⟩ := h.receive hone (hin receipt mem_cons_self) receipt.2
    have hsame := participants_setParticipantState message receipt.1 receipt.2
    obtain ⟨hsingle, hfold⟩ := ih h' (by rw [hsame]; exact hone)
      (fun next hnext => by rw [hsame]; exact hin next (mem_cons_of_mem _ hnext))
    refine ⟨hsingle, ?_⟩
    rw [hstate] at hfold
    exact hfold

omit [DecidableEq P] in
/-- A message that was sent has all participants in its state. -/
theorem GroupMessage.Sent.single (h : message.Sent) : Single message :=
  ⟨h.someone, fun p hp => (h.participants p hp).trans h.state.symm, .inl h.state⟩

/-- With one participant the order of the receipts does not matter. -/
theorem orderFree_of_single (h : Single message)
    (hone : ∀ p ∈ message.participants, ∀ q ∈ message.participants, p = q)
    (hin : ∀ receipt ∈ receipts, receipt.1 ∈ message.participants) :
    message.OrderFree receipts := by
  have hrun : ∀ order : List (P × Receipt), (∀ receipt ∈ order, receipt ∈ receipts) →
      Single (message.receive order) ∧ (message.receive order).state =
        (order.map Prod.snd).foldl raise message.state :=
    fun order horder => h.receiveAll hone fun receipt hreceipt => hin receipt (horder receipt hreceipt)
  refine ⟨?_, ?_, ?_⟩
  · intro order horder
    rw [(hrun order fun receipt => horder.mem_iff.mp).2, (hrun receipts fun receipt => id).2]
    exact (horder.map Prod.snd).foldl_eq'
      (fun first _ second _ state => raise_right_comm state first second) _
  · intro order horder
    exact (hrun order fun receipt => horder.mem_iff.mp).1.expected.symm
  · intro order horder before receipt after hsplit
    have hmem : ∀ next ∈ before ++ receipt :: after, next ∈ receipts := by
      intro next hnext
      rw [← hsplit] at hnext
      exact horder.mem_iff.mp hnext
    obtain ⟨hsingle, -⟩ := hrun before fun next hnext => hmem next (mem_append_left _ hnext)
    have hsame := participants_receive message before
    obtain ⟨hsingle', hstate⟩ := hsingle.receive (by rw [hsame]; exact hone)
      (by rw [hsame]; exact hin receipt (hmem receipt (by simp))) receipt.2
    have hkeeps : (message.receive before).state = .displayed →
        ((message.receive before).setParticipantState false receipt.1 receipt.2.state).state =
          .displayed := by
      intro hdisplayed
      rw [hstate, hdisplayed]
      cases receipt.2 <;> rfl
    rw [receive_concat]
    refine ⟨hkeeps, fun p hp hdisplayed => ?_⟩
    rw [hsingle'.states p (by rw [participants_setParticipantState, hsame]; exact hp)]
    exact hkeeps (by rw [← hsingle.states p (by rw [hsame]; exact hp)]; exact hdisplayed)

end GrooveIp.Chat
