import GrooveIp.Auth.Digest

/-!
# Authorization contexts

The authentication of `provider.c:1049–1332`: every challenge updates or creates an authorization
context of the provider, and every request gets an `Authorization` or `Proxy-Authorization` header
for each context that is found for it. `none` is a `NULL` string that was compared or a count that
overflowed; the strings that are only logged are left out. A context is known by its place in the
provider's list, from which nothing is taken away here.
-/

namespace GrooveIp.Auth

open Sal

/-! ### Records -/

/-- `struct authorization_context` (`provider.c:26`). -/
structure AuthorizationContext where
  callid : CString
  isProxy : Bool
  scheme : Option CString := none
  realm : Option CString := none
  nonce : Option CString := none
  qop : Option CString := none
  opaqueData : Option CString := none
  userId : Option CString := none
  algorithm : Option CString := none
  nonceCount : Nat := 0
  deriving DecidableEq, Repr

/-- A `WWW-Authenticate` or `Proxy-Authenticate` header. -/
structure WwwAuthenticate where
  isProxy : Bool
  scheme : Option CString
  realm : Option CString
  nonce : Option CString
  algorithm : Option CString
  qop : List CString
  opaqueData : Option CString
  deriving DecidableEq, Repr

/-- `belle_sip_header_www_authenticate_get_qop_first` (`belle_sip_headers_impl.c:1505`). -/
def WwwAuthenticate.qopFirst (authenticate : WwwAuthenticate) : Option CString :=
  authenticate.qop.head?

/-- The parts of a SIP URI that are read. -/
structure Uri where
  user : Option CString
  host : Option CString
  deriving DecidableEq, Repr

/-- `belle_sip_auth_event_t`. -/
structure AuthEvent where
  realm : Option CString
  username : Option CString
  domain : Option CString
  algorithm : Option CString := none
  userid : Option CString := none
  passwd : Option CString := none
  ha1 : Option CString := none
  deriving DecidableEq, Repr

/-- What the listeners of `process_auth_requested` put in an event. -/
structure Credentials where
  userid : Option CString := none
  passwd : Option CString := none
  ha1 : Option CString := none
  deriving DecidableEq, Repr

/-- The parts of a request that are read. -/
structure Request where
  method : CString
  uri : CString
  callId : CString
  fromUri : Option Uri
  deriving DecidableEq, Repr

/-- The parts of a response that are read: its `WWW-Authenticate` headers stand before its
`Proxy-Authenticate` headers. -/
structure Response where
  callId : CString
  authenticate : List WwwAuthenticate
  deriving DecidableEq, Repr

/-- One call of `belle_sip_provider_add_authorization`, with the answers of the listeners, the
random tokens and what was in the buffer for HA1. -/
structure Call where
  request : Request
  response : Option Response := none
  fromUri : Option Uri := none
  authInfos : Option (List AuthEvent) := none
  realm : Option CString := none
  listener : AuthEvent → Credentials
  token : Nat → CString
  computedHa1 : CString := []

variable (call : Call)

/-- `from_uri`: the argument, or the URI of the From header (`provider.c:1211–1214`). -/
def Call.from_uri : Option Uri := call.fromUri.or call.request.fromUri

/-- The user of `from_uri`, if any. -/
def Call.fromUser : Option CString := call.from_uri.bind (·.user)

/-! ### Comparing strings -/

/-- `strcmp(a, b) == 0`. -/
def strcmpEq (a b : Option CString) : Option Bool := do return (← a) == (← b)

/-- `strcasecmp(a, b) == 0`. -/
def strcasecmpEq (a b : Option CString) : Option Bool := do return strcaseEq (← a) (← b)

/-- The places of the elements that pass a test, from `i` on. -/
def placesFrom {α : Type} (p : α → Option Bool) : Nat → List α → Option (List Nat)
  | _, [] => some []
  | i, a :: l => do
    let found ← p a
    let rest ← placesFrom p (i + 1) l
    return if found then i :: rest else rest

/-! ### Contexts -/

/-- The condition of the search by realm (`provider.c:1097`). -/
def matchesRealm (fromUser : Option CString) (realm : CString) (context : AuthorizationContext) :
    Option Bool := do
  if ← strcmpEq context.realm (some realm) then
    match fromUser, context.userId with
    | some user, some userId => return userId == user
    | _, _ => return false
  else return false

/-- `belle_sip_provider_get_auth_context_by_realm_or_call_id` (`provider.c:1058`). -/
def getAuthContextByRealmOrCallId (contexts : List AuthorizationContext) (callId : CString)
    (fromUser realm : Option CString) : Option (List Nat) := do
  let result ← placesFrom (fun context => some (strcaseEq context.callid callId)) 0 contexts
  if result.isEmpty then
    match realm with
    | some realm => placesFrom (matchesRealm fromUser realm) 0 contexts
    | none => return []
  else return result

/-- `authorization_context_fill_from_auth` (`provider.c:1042`). -/
def fillFromAuth (context : AuthorizationContext) (authenticate : WwwAuthenticate)
    (fromUser : Option CString) : Option AuthorizationContext := do
  let sameNonce ←
    if context.nonce.isSome then strcmpEq authenticate.nonce context.nonce else some true
  return { context with
    realm := authenticate.realm
    nonceCount := if sameNonce then context.nonceCount else 0
    nonce := authenticate.nonce
    algorithm := authenticate.algorithm
    qop := authenticate.qopFirst
    scheme := authenticate.scheme
    opaqueData := authenticate.opaqueData
    userId := fromUser }

/-- The condition under which a challenge updates a context (`provider.c:1117`). -/
def matchesChallenge (context : AuthorizationContext) (authenticate : WwwAuthenticate) :
    Option Bool := do
  if ← strcmpEq context.realm authenticate.realm then
    if context.algorithm.isNone then return true
    else strcasecmpEq context.algorithm authenticate.algorithm
  else return false

/-- The loop that looks for the context to update (`provider.c:1114–1121`). -/
def findForChallenge (contexts : List AuthorizationContext) (authenticate : WwwAuthenticate) :
    List Nat → Option (Option Nat)
  | [] => some none
  | i :: rest => do
    let context ← contexts[i]?
    if ← matchesChallenge context authenticate then return some i
    else findForChallenge contexts authenticate rest

/-- `belle_sip_provider_update_or_create_auth_context` (`provider.c:1109`). -/
def updateOrCreateAuthContext (contexts : List AuthorizationContext) (callId : CString)
    (authenticate : WwwAuthenticate) (fromUser realm : Option CString) :
    Option (List AuthorizationContext) := do
  let found ← getAuthContextByRealmOrCallId contexts callId fromUser realm
  match ← findForChallenge contexts authenticate found with
  | some i =>
    let context ← fillFromAuth (← contexts[i]?) authenticate fromUser
    return contexts.set i context
  | none =>
    let context ← fillFromAuth { callid := callId, isProxy := authenticate.isProxy } authenticate
      fromUser
    return contexts ++ [context]

/-- The loop over the challenges of a response (`provider.c:1226–1229`). -/
def updateOrCreateAuthContexts (callId : CString) (fromUser realm : Option CString) :
    List WwwAuthenticate → List AuthorizationContext → Option (List AuthorizationContext)
  | [], contexts => some contexts
  | authenticate :: rest, contexts => do
    updateOrCreateAuthContexts callId fromUser realm rest
      (← updateOrCreateAuthContext contexts callId authenticate fromUser realm)

/-! ### Events -/

/-- The condition of `belle_sip_list_find_event`. -/
def sameEvent (refEvent authEvent : AuthEvent) : Option Bool := do
  if ← strcmpEq refEvent.realm authEvent.realm then
    strcmpEq refEvent.username authEvent.username
  else return false

/-- `belle_sip_list_find_event` (`provider.c:1140`), as the place of the event from `i` on. -/
def findEvent (authEvent : AuthEvent) : Nat → List AuthEvent → Option (Option Nat)
  | _, [] => some none
  | i, refEvent :: rest => do
    if ← sameEvent refEvent authEvent then return some i else findEvent authEvent (i + 1) rest

/-- `belle_sip_list_find_double_events` (`provider.c:1149`). -/
def findDoubleEvents (list : List AuthEvent) (authEvent : AuthEvent) : Option (Option Nat) := do
  match ← findEvent authEvent 0 list with
  | none => return none
  | some first =>
    match ← findEvent authEvent (first + 1) (list.drop (first + 1)) with
    | none => return none
    | some second =>
      let refEvent ← list[second]?
      return some (if refEvent.passwd.isSome || refEvent.ha1.isSome then first else second)

/-- The event is put in the list of the caller (`provider.c:1318–1326`). -/
def reportEvent (authEvent : AuthEvent) : Option (List AuthEvent) → Option (Option (List AuthEvent))
  | none => some none
  | some list => do
    match ← findDoubleEvents (list ++ [authEvent]) authEvent with
    | some elem => return some ((list ++ [authEvent]).eraseIdx elem)
    | none => return some (list ++ [authEvent])

/-! ### Headers -/

/-- `INT_MAX`, the largest count. -/
def intMax : Nat := 2 ^ 31 - 1

/-- A header that was built: its context, the method, the event asked for the secret, whether it was
filled and added. -/
structure Attempt where
  context : Nat
  method : CString
  event : AuthEvent
  authorization : Authorization
  added : Bool
  deriving DecidableEq, Repr

/-- What the loop over the contexts works on, with the headers that were ever built. -/
structure Answer where
  contexts : List AuthorizationContext
  log : List Attempt
  computedHa1 : CString
  authInfos : Option (List AuthEvent)
  result : Bool
  deriving DecidableEq, Repr

/-- The event that the listeners filled in, the user name standing for a missing user id
(`provider.c:1250–1261`). -/
def askedEvent (context : AuthorizationContext) : AuthEvent :=
  let event : AuthEvent :=
    { realm := context.realm, username := call.fromUser
      domain := call.from_uri.bind (·.host), algorithm := context.algorithm }
  let credentials := call.listener event
  { event with
    passwd := credentials.passwd, ha1 := credentials.ha1
    userid :=
      if credentials.passwd.isSome || credentials.ha1.isSome then
        credentials.userid.or event.username
      else credentials.userid }

/-- An event has what a header is made of. -/
def AuthEvent.hasSecret (event : AuthEvent) : Bool := event.passwd.isSome || event.ha1.isSome

/-- Whether the header is a `Proxy-Authorization` (`provider.c:1271–1288`). -/
def isProxyAuthorization (context : AuthorizationContext) (event : AuthEvent) : Option Bool := do
  if strcaseEq call.request.callId context.callid then return context.isProxy
  else if call.realm.isNone then return true
  else if !(← strcmpEq call.realm context.realm) then return true
  else if call.from_uri.isNone then return true
  else if !(← strcmpEq event.username call.fromUser) then return true
  else return call.request.method != "REGISTER".toList

/-- HA1 in the buffer: that of the event, or the computed one; the buffer is left as it is when
nothing could be computed (`provider.c:1305–1310`). -/
def ha1For (hashes : Hashes) (context : AuthorizationContext) (event : AuthEvent)
    (computedHa1 : CString) : CString × CString :=
  match event.ha1 with
  | some ha1 => (ha1, computedHa1)
  | none =>
    let computed := (computeHa1ForAlgorithm hashes event.userid context.realm event.passwd
      (authDefineSize context.algorithm) context.algorithm).getD computedHa1
    (computed, computed)

/-- The count of a context after a header was begun (`provider.c:1300`). -/
def nextCount (context : AuthorizationContext) : Option Nat :=
  if context.qop.isSome then
    if context.nonceCount < intMax then some (context.nonceCount + 1) else none
  else some context.nonceCount

/-- The header as it is given to the helper (`provider.c:1290–1303`). -/
def beginAuthorization (context : AuthorizationContext) (event : AuthEvent)
    (isProxy : Bool) (count : Nat) : Authorization where
  isProxy := isProxy
  scheme := context.scheme
  realm := context.realm
  username := event.userid
  nonce := context.nonce
  qop := context.qop
  opaqueData := context.opaqueData
  algorithm := context.algorithm
  uri := some call.request.uri
  nonceCount := if context.qop.isSome then count else 0

/-- One header is built, and added if it can be filled (`provider.c:1271–1316`). -/
def buildHeader (hashes : Hashes) (call : Call) (i : Nat) (context : AuthorizationContext)
    (event : AuthEvent) (answer : Answer) : Option Answer := do
  let isProxy ← isProxyAuthorization call context event
  let count ← nextCount context
  let authorization := beginAuthorization call context event isProxy count
  let (ha1, computedHa1) := ha1For hashes context event answer.computedHa1
  let filled := fillAuthorization hashes authorization call.request.method ha1 (call.token i)
  return { answer with
    contexts := answer.contexts.set i { context with nonceCount := count }
    log := answer.log ++ [⟨i, call.request.method, event, filled.getD authorization, filled.isSome⟩]
    computedHa1 := computedHa1
    result := true }

/-- One turn of the loop over the contexts found (`provider.c:1247–1328`). -/
def answerContext (hashes : Hashes) (call : Call) (answer : Answer) (i : Nat) : Option Answer := do
  let context ← answer.contexts[i]?
  let event := askedEvent call context
  if event.hasSecret then
    if authDefineSize context.algorithm = 0 then return answer
    else
      let answer ← buildHeader hashes call i context event answer
      return { answer with authInfos := ← reportEvent event answer.authInfos }
  else return { answer with authInfos := ← reportEvent event answer.authInfos }

/-- The loop over the contexts found. -/
def answerContexts (hashes : Hashes) (call : Call) : List Nat → Answer → Option Answer
  | [], answer => some answer
  | i :: rest, answer => do answerContexts hashes call rest (← answerContext hashes call answer i)

/-- The requests that take no header. -/
def Call.unauthorized : Bool :=
  call.request.method == "CANCEL".toList || call.request.method == "ACK".toList

/-- The provider: its contexts, and the headers that it ever built. -/
structure Provider where
  contexts : List AuthorizationContext := []
  log : List Attempt := []
  deriving DecidableEq, Repr

/-- The challenges of the response are taken up (`provider.c:1217–1231`). -/
def takeChallenges (contexts : List AuthorizationContext) : Option (List AuthorizationContext) :=
  match call.response with
  | none => some contexts
  | some resp =>
    updateOrCreateAuthContexts resp.callId call.fromUser call.realm resp.authenticate contexts

/-- `belle_sip_provider_add_authorization` (`provider.c:1163`). -/
def addAuthorization (hashes : Hashes) (p : Provider) (call : Call) : Option Answer := do
  if call.unauthorized then
    return { contexts := p.contexts, log := p.log, computedHa1 := call.computedHa1
             authInfos := call.authInfos, result := false }
  else
    let contexts ← takeChallenges call p.contexts
    let head ← getAuthContextByRealmOrCallId contexts call.request.callId call.fromUser call.realm
    answerContexts hashes call head
      { contexts := contexts, log := p.log, computedHa1 := call.computedHa1
        authInfos := call.authInfos, result := false }

/-- A run: one call after the other, on the same provider. -/
def runCalls (hashes : Hashes) : List Call → Provider → Option Provider
  | [], p => some p
  | call :: rest, p => do
    let answer ← addAuthorization hashes p call
    runCalls hashes rest { contexts := answer.contexts, log := answer.log }

end GrooveIp.Auth
