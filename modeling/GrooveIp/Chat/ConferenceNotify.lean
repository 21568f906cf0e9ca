import GrooveIp.Lib.Fuelled
import GrooveIp.Lib.Loops
import GrooveIp.Lib.Memory

/-!
# Conference notifications

What `remote-conference-event-handler.cpp` does with a conference-info document. The document is not
validated, so that each of its optional parts can be absent.
-/

namespace GrooveIp.Chat

open Lib List

/-- `StateType`; `inPart` is the state of a document that tells of changes. -/
inductive StateType where
  | full
  | inPart
  | deleted
  deriving DecidableEq, Repr

/-- `EndpointType`. -/
structure EndpointType where
  entity : Option String
  state : StateType
  deriving DecidableEq, Repr

/-- `UserType`, with the entries of its roles. -/
structure UserType where
  entity : Option String
  state : StateType
  roles : Option (List String)
  endpoint : List EndpointType
  deriving DecidableEq, Repr

/-- `ConferenceDescriptionType`. -/
structure ConferenceDescriptionType where
  subject : Option String
  freeText : Option String
  keywords : Option (List String)
  deriving DecidableEq, Repr

/-- `ConferenceType`. -/
structure ConferenceType where
  entity : String
  state : StateType
  version : Option UInt32
  conferenceDescription : Option ConferenceDescriptionType
  users : Option (List UserType)
  deriving DecidableEq, Repr

/-- What most notifications of the listener carry. -/
structure Stamp where
  creationTime : Int
  lastNotify : UInt32
  isFullState : Bool
  deriving DecidableEq, Repr

/-- A notification of the `ConferenceListener`. -/
inductive ConferenceEvent (A : Type) where
  | subjectChanged (stamp : Stamp) (subject : String)
  | keywordsChanged (keywords : List String)
  | participantRemoved (stamp : Stamp) (addr : A)
  | participantAdded (stamp : Stamp) (addr : A)
  | participantSetAdmin (stamp : Stamp) (addr : A) (admin : Bool)
  | participantDeviceRemoved (stamp : Stamp) (addr : A) (gruu : String)
  | participantDeviceAdded (stamp : Stamp) (addr : A) (gruu : String)
  | firstNotifyReceived
  deriving DecidableEq, Repr

/-- The participant a notification is about. -/
def ConferenceEvent.participant {A : Type} : ConferenceEvent A → Option A
  | .participantRemoved _ addr | .participantAdded _ addr | .participantSetAdmin _ addr _
  | .participantDeviceRemoved _ addr _ | .participantDeviceAdded _ addr _ => some addr
  | _ => none

/-- What the handler calls: the clock, `Utils::stoll`, the comparison of an entity with the address of
the chat room, and `linphone_core_interpret_url`. -/
structure ConferenceEnvironment (A : Type) where
  time : Int
  stoll : String → Int
  isPeerAddress : String → Bool
  interpretUrl : String → Option A

/-- The value of an optional element, or what a pointer points to. -/
def deref {α : Type} : Option α → Except Fault α
  | some value => .ok value
  | none => .error .nullDereference

variable {A : Type} (env : ConferenceEnvironment A)

/-- The endpoints of a user (`remote-conference-event-handler.cpp:158`). -/
def endpointEvents (stamp : Stamp) (addr : A) : List EndpointType → List (ConferenceEvent A)
  | [] => []
  | endpoint :: endpoints =>
    match endpoint.entity, endpoint.state with
    | none, _ => []
    | some gruu, .deleted =>
      .participantDeviceRemoved stamp addr gruu :: endpointEvents stamp addr endpoints
    | some gruu, .full => .participantDeviceAdded stamp addr gruu :: endpointEvents stamp addr endpoints
    | some _, .inPart => endpointEvents stamp addr endpoints

/-- A user (`remote-conference-event-handler.cpp:103`). -/
def userEvents (stamp : Stamp) (user : UserType) : Except Fault (List (ConferenceEvent A)) := do
  let addr ← deref (env.interpretUrl (← deref user.entity))
  if user.state = .deleted then return [.participantRemoved stamp addr]
  let added := if user.state = .full then [.participantAdded stamp addr] else []
  let admin := user.roles.toList.map fun entry =>
    .participantSetAdmin stamp addr (decide ("admin" ∈ entry))
  return added ++ admin ++ endpointEvents stamp addr user.endpoint

/-- What the listener is told of the conference itself (`remote-conference-event-handler.cpp:75`). -/
def descriptionEvents (stamp : Stamp) (confDescription : ConferenceDescriptionType) :
    List (ConferenceEvent A) :=
  (confDescription.subject.toList.filter (· ≠ "")).map (.subjectChanged stamp) ++
    (confDescription.keywords.toList.filter (· ≠ [])).map .keywordsChanged

/-- What the listener is told of the users (`remote-conference-event-handler.cpp:98`). -/
def usersEvents (stamp : Stamp) : Option (List UserType) → Except Fault (List (ConferenceEvent A))
  | none => .ok []
  | some users => do
    let changes ← users.mapM (userEvents env stamp)
    return changes.flatten ++ if stamp.isFullState then [.firstNotifyReceived] else []

/-- `simpleNotifyReceived` (`remote-conference-event-handler.cpp:47`): `lastNotify` after it, and what the
listener is told. -/
def simpleNotifyReceived (lastNotify : UInt32) (confInfo : ConferenceType) :
    Except Fault (UInt32 × List (ConferenceEvent A)) := do
  if !env.isPeerAddress confInfo.entity then return (lastNotify, [])
  let confDescription ← deref confInfo.conferenceDescription
  let stamp : Stamp := {
    creationTime := (confDescription.freeText.map env.stoll).getD env.time
    lastNotify := confInfo.version.getD lastNotify
    isFullState := decide (confInfo.state = .full) }
  let changes ← usersEvents env stamp confInfo.users
  return (stamp.lastNotify, descriptionEvents stamp confDescription ++ changes)

/-- The address of a user element that can be interpreted. -/
def UserType.address (user : UserType) : Option A := user.entity.bind env.interpretUrl

variable {env} {stamp : Stamp}

theorem participant_endpointEvents {addr : A} {endpoints : List EndpointType} :
    ∀ event ∈ endpointEvents stamp addr endpoints, event.participant = some addr := by
  induction endpoints with
  | nil => exact forall_mem_nil _
  | cons endpoint endpoints ih =>
    unfold endpointEvents
    split
    · exact forall_mem_nil _
    · exact forall_mem_cons.mpr ⟨rfl, ih⟩
    · exact forall_mem_cons.mpr ⟨rfl, ih⟩
    · exact ih

theorem userEvents_none {user : UserType} (h : user.address env = none) :
    userEvents env stamp user = .error .nullDereference := by
  unfold UserType.address at h
  cases hentity : user.entity with
  | none => simp [userEvents, hentity, deref, bind, Except.bind]
  | some entity =>
    rw [hentity, Option.bind_some] at h
    simp [userEvents, hentity, h, deref, bind, Except.bind]

theorem userEvents_some {user : UserType} {addr : A} (h : user.address env = some addr) :
    ∃ events, userEvents env stamp user = .ok events ∧
      ∀ event ∈ events, event.participant = some addr := by
  obtain ⟨entity, hentity, haddr⟩ := Option.bind_eq_some_iff.mp h
  simp only [userEvents, hentity, haddr, deref, bind, Except.bind]
  split
  · exact ⟨_, rfl, by simp [ConferenceEvent.participant]⟩
  · refine ⟨_, rfl, fun event hevent => ?_⟩
    rcases mem_append.mp hevent with hevent | hevent
    · rcases mem_append.mp hevent with hevent | hevent
      · split at hevent <;> simp_all [ConferenceEvent.participant]
      · obtain ⟨entry, -, rfl⟩ := mem_map.mp hevent
        rfl
    · exact participant_endpointEvents event hevent

theorem usersEvents_ok {users : Option (List UserType)}
    (h : ∀ user ∈ users.getD [], (user.address env).isSome) :
    ∃ events, usersEvents env stamp users = .ok events ∧
      ∀ event ∈ events, ∀ addr, event.participant = some addr →
        ∃ user ∈ users.getD [], user.address env = some addr := by
  cases users with
  | none => exact ⟨[], rfl, forall_mem_nil _⟩
  | some users =>
    have hevents : ∀ user ∈ users, ∃ events, userEvents env stamp user = .ok events ∧
        ∀ event ∈ events, event.participant = user.address env := by
      intro user huser
      obtain ⟨addr, haddr⟩ := Option.isSome_iff_exists.mp (h user huser)
      exact haddr ▸ userEvents_some haddr
    obtain ⟨changes, hchanges⟩ :=
      exists_mapM_eq_ok fun user huser => (hevents user huser).imp fun _ => And.left
    refine ⟨_, by rw [usersEvents, hchanges]; rfl, fun event hevent addr haddr => ?_⟩
    rcases mem_append.mp hevent with hevent | hevent
    · obtain ⟨change, hchange, hevent⟩ := mem_flatten.mp hevent
      have hmem : .ok change ∈ users.map (userEvents env stamp) :=
        mapM_eq_ok_iff.mp hchanges ▸ mem_map_of_mem hchange
      obtain ⟨user, huser, hchange⟩ := mem_map.mp hmem
      obtain ⟨_, hevents, hparticipant⟩ := hevents user huser
      obtain rfl := Except.ok.inj (hchange.symm.trans hevents)
      exact ⟨user, huser, (hparticipant event hevent).symm.trans haddr⟩
    · split at hevent <;> simp_all [ConferenceEvent.participant]

theorem isSome_of_usersEvents {users : Option (List UserType)}
    {events : List (ConferenceEvent A)} (h : usersEvents env stamp users = .ok events) :
    ∀ user ∈ users.getD [], (user.address env).isSome := by
  cases users with
  | none => exact forall_mem_nil _
  | some users =>
    intro user huser
    by_contra hnone
    rw [Bool.not_eq_true, Option.isSome_eq_false_iff, Option.isNone_iff_eq_none] at hnone
    obtain ⟨changes, hchanges, h⟩ := bind_eq_ok.mp h
    obtain ⟨events, hevents⟩ := exists_of_mapM_eq_ok hchanges huser
    cases (userEvents_none hnone).symm.trans hevents

theorem participant_descriptionEvents {confDescription : ConferenceDescriptionType} :
    ∀ event ∈ descriptionEvents (A := A) stamp confDescription, event.participant = none := by
  simp only [descriptionEvents]
  grind [ConferenceEvent.participant]

/-- A notification about the chat room is safe, and changes only participants with a readable
address, exactly when it describes the conference and the address of every user can be interpreted.
-/
theorem simpleNotifyReceived_safe_iff (lastNotify : UInt32) {confInfo : ConferenceType}
    (hpeer : env.isPeerAddress confInfo.entity = true) :
    (∃ last events, simpleNotifyReceived env lastNotify confInfo = .ok (last, events) ∧
      ∀ event ∈ events, ∀ addr, event.participant = some addr →
        ∃ user ∈ confInfo.users.getD [], user.address env = some addr) ↔
    confInfo.conferenceDescription.isSome ∧
      ∀ user ∈ confInfo.users.getD [], (user.address env).isSome := by
  unfold simpleNotifyReceived
  simp only [hpeer, Bool.not_true, Bool.false_eq_true, if_false]
  cases confInfo.conferenceDescription with
  | none => simp [deref, bind, Except.bind]
  | some confDescription =>
    simp only [deref, bind, Except.bind, Option.isSome_some, true_and]
    generalize hstamp : Stamp.mk _ _ _ = stamp
    constructor
    · rintro ⟨last, events, hok, -⟩
      obtain ⟨changes, hchanges, hok⟩ := bind_eq_ok.mp hok
      exact isSome_of_usersEvents hchanges
    · intro h
      obtain ⟨changes, hchanges, hparticipant⟩ := @usersEvents_ok _ _ stamp _ h
      refine ⟨_, _, by rw [hchanges]; rfl, fun event hevent addr haddr => ?_⟩
      rcases mem_append.mp hevent with hevent | hevent
      · rw [participant_descriptionEvents event hevent] at haddr
        cases haddr
      · exact hparticipant event hevent addr haddr

/-- An environment that interprets every address. -/
def sampleEnvironment : ConferenceEnvironment String :=
  { time := 0, stoll := fun _ => 0, isPeerAddress := fun _ => true, interpretUrl := some }

/-- A document that removes a user. -/
def removal (conferenceDescription : Option ConferenceDescriptionType) : ConferenceType :=
  { entity := "sip:room@conf", state := .inPart, version := none, conferenceDescription
    users := some [{ entity := some "sip:a@b", state := .deleted, roles := none, endpoint := [] }] }

/-- `simpleNotifyReceived_safe_iff` of a removal. -/
theorem simpleNotifyReceived_safe_removal : ∃ last events, simpleNotifyReceived sampleEnvironment 0
    (removal (some { subject := none, freeText := none, keywords := none })) = .ok (last, events) := by
  have hpeer : sampleEnvironment.isPeerAddress
      (removal (some { subject := none, freeText := none, keywords := none })).entity = true := rfl
  obtain ⟨last, events, hok, -⟩ := (simpleNotifyReceived_safe_iff 0 hpeer).mpr ⟨rfl, by decide⟩
  exact ⟨last, events, hok⟩

/-- Without a description its free text is read all the same. -/
theorem description_dereferenced : ¬∀ (env : ConferenceEnvironment String) (lastNotify : UInt32)
    (confInfo : ConferenceType), env.isPeerAddress confInfo.entity = true →
      ∃ result, simpleNotifyReceived env lastNotify confInfo = .ok result := by
  intro h
  obtain ⟨result, hresult⟩ := h sampleEnvironment 0 (removal none) rfl
  cases hresult

end GrooveIp.Chat
