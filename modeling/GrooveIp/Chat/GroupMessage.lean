import Mathlib.Logic.Function.Basic

/-!
# Group messages and their receipts

`chat-message.cpp` and `main-db.cpp`: a sent message has a state, and each of its participants has one in
the database. A receipt moves the state of a participant, and what the participants have in common moves
the state of the message; when that one is stored it can be written to the participants again.
-/

namespace GrooveIp.Chat

/-- `ChatMessage::State` (`chat-message-enums.h:25`). -/
inductive MessageState where
  | idle
  | inProgress
  | delivered
  | notDelivered
  | fileTransferError
  | fileTransferDone
  | deliveredToUser
  | displayed
  deriving DecidableEq, Repr

/-- What `Imdn::parse` (`imdn.cpp:161`) makes of a notification. -/
inductive Receipt where
  | deliveredToUser
  | displayed
  | notDelivered
  deriving DecidableEq, Repr

/-- The state a receipt asks for. -/
def Receipt.state : Receipt → MessageState
  | .deliveredToUser => .deliveredToUser
  | .displayed => .displayed
  | .notDelivered => .notDelivered

/-- `ChatMessagePrivate::validStateTransition` (`chat-message.cpp:871`). -/
def validStateTransition (currentState newState : MessageState) : Bool :=
  if newState = currentState then false
  else if (currentState = .displayed ∨ currentState = .deliveredToUser) ∧
      (newState = .deliveredToUser ∨ newState = .delivered ∨ newState = .notDelivered) then false
  else true

/-- A sent message, in a chat room that has the participants of the message: their states in the
database, and its own. -/
structure GroupMessage (P : Type) where
  participants : List P
  participantState : P → MessageState
  state : MessageState

variable {P : Type} [DecidableEq P] (message : GroupMessage P)

/-- `ChatMessagePrivate::updateInDb` (`chat-message.cpp:843`), which comes to
`MainDbPrivate::updateConferenceChatMessageEvent` (`main-db.cpp:781`). -/
def GroupMessage.updateInDb : GroupMessage P :=
  if message.state = .delivered ∨ message.state = .notDelivered then
    { message with
      participantState := fun participant =>
        if participant ∈ message.participants then message.state
        else message.participantState participant }
  else message

/-- `ChatMessagePrivate::setState` (`chat-message.cpp:136`), without `force`. -/
def GroupMessage.setState (newState : MessageState) : GroupMessage P :=
  if validStateTransition message.state newState then
    { message with state := newState }.updateInDb
  else message

/-- The state that the participants ask the message to move to (`chat-message.cpp:108`). -/
def GroupMessage.summary : Option MessageState :=
  let states := message.participants.map message.participantState
  let nbDisplayedStates := states.count .displayed
  let nbDeliveredToUserStates := states.count .deliveredToUser
  let nbNotDeliveredStates := states.count .notDelivered
  if nbNotDeliveredStates > 0 then some .notDelivered
  else if nbDisplayedStates = states.length then some .displayed
  else if nbDisplayedStates + nbDeliveredToUserStates = states.length then some .deliveredToUser
  else none

/-- `ChatMessagePrivate::setParticipantState` (`chat-message.cpp:74`) of a stored message; `simple` is the
option `enable_simple_group_chat_message_state`. -/
def GroupMessage.setParticipantState (simple : Bool) (participant : P) (newState : MessageState) :
    GroupMessage P :=
  if validStateTransition (message.participantState participant) newState then
    let message := { message with
      participantState := Function.update message.participantState participant newState }
    if simple then message.setState newState
    else
      match message.summary with
      | some state => message.setState state
      | none => message
  else message

/-- Receipts come one after the other, with the simple option off. -/
def GroupMessage.receive (receipts : List (P × Receipt)) : GroupMessage P :=
  receipts.foldl (fun message receipt =>
    message.setParticipantState false receipt.1 receipt.2.state) message

/-- A message that was sent to somebody and delivered to the server. -/
structure GroupMessage.Sent : Prop where
  someone : message.participants ≠ []
  participants : ∀ participant ∈ message.participants,
    message.participantState participant = .delivered
  state : message.state = .delivered

end GrooveIp.Chat
