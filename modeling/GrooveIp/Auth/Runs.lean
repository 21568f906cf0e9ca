import GrooveIp.Auth.Counts

/-!
# Runs of the authentication

A run whose challenges name what is compared, bring no nonce back and leave no count unsent compares
no `NULL` string, sends the counts of a nonce in order, and answers every challenge with the digest.
-/

namespace GrooveIp.Auth

open Sal Lib Option

/-! ### What a run has to avoid -/

/-- The challenge can be compared with the contexts that are found for it, and refills the one that
it is for. -/
structure CarefulChallenge (contexts : List AuthorizationContext) (log : List Attempt)
    (callId : CString) (fromUser realm : Option CString) (authenticate : WwwAuthenticate) :
    Prop where
  realms : RealmsKnown contexts callId realm
  comparable : ∀ found, getAuthContextByRealmOrCallId contexts callId fromUser realm = some found →
    Comparable contexts authenticate found
  refillable : ∀ found i c,
    getAuthContextByRealmOrCallId contexts callId fromUser realm = some found →
    findForChallenge contexts authenticate found = some (some i) → contexts[i]? = some c →
      Refillable log i c authenticate

/-- Every challenge is careful with the contexts that those before it have left. -/
def CarefulChallenges (log : List Attempt) (callId : CString) (fromUser realm : Option CString) :
    List WwwAuthenticate → List AuthorizationContext → Prop
  | [], _ => True
  | authenticate :: rest, contexts =>
    CarefulChallenge contexts log callId fromUser realm authenticate ∧
      ∀ contexts', updateOrCreateAuthContext contexts callId authenticate fromUser realm =
        some contexts' → CarefulChallenges log callId fromUser realm rest contexts'

/-- A header is built for the context: there is a secret, and the algorithm is supported. -/
def IsAnswered (call : Call) (c : AuthorizationContext) : Prop :=
  (askedEvent call c).hasSecret = true ∧ authDefineSize c.algorithm ≠ 0

/-- The context can be answered: events name a realm and a user, the count has room, a password
comes with a user, and no count was taken for a header that could not be filled. -/
structure CarefulContext (call : Call) (answer : Answer) (i : Nat) (c : AuthorizationContext) :
    Prop where
  reported : ((askedEvent call c).hasSecret = true → authDefineSize c.algorithm ≠ 0) →
    ∀ l, answer.authInfos = some l → (askedEvent call c).Named ∧ ∀ e ∈ l, e.Named
  room : IsAnswered call c → c.qop ≠ none → c.nonceCount < intMax
  user : IsAnswered call c → Fillable c.scheme c.qop c.realm c.nonce →
    (askedEvent call c).ha1 = none → (askedEvent call c).userid ≠ none
  kept : IsAnswered call c → Fillable c.scheme c.qop c.realm c.nonce → c.qop ≠ none →
    ∀ a ∈ answer.log, a.key = (i, c.nonce) → a.counted = true → a.added = true

/-- Every context is careful in the state in which its turn comes. -/
def CarefulContexts (hashes : Hashes) (call : Call) : List Nat → Answer → Prop
  | [], _ => True
  | i :: rest, answer =>
    (∀ c, answer.contexts[i]? = some c → CarefulContext call answer i c) ∧
      ∀ answer', answerContext hashes call answer i = some answer' →
        CarefulContexts hashes call rest answer'

/-- The answer that a call starts with, from the contexts that the challenges have left. -/
def startAnswer (p : Provider) (call : Call) (contexts : List AuthorizationContext) : Answer where
  contexts := contexts
  log := p.log
  computedHa1 := call.computedHa1
  authInfos := call.authInfos
  result := false

/-- The call is careful: its challenges are, and so are the contexts that it answers. -/
structure CarefulCall (hashes : Hashes) (p : Provider) (call : Call) : Prop where
  challenges : ∀ resp, call.response = some resp →
    CarefulChallenges p.log resp.callId call.fromUser call.realm resp.authenticate p.contexts
  realms : ∀ contexts, takeChallenges call p.contexts = some contexts →
    RealmsKnown contexts call.request.callId call.realm
  contexts : ∀ contexts head, takeChallenges call p.contexts = some contexts →
    getAuthContextByRealmOrCallId contexts call.request.callId call.fromUser call.realm =
      some head → CarefulContexts hashes call head (startAnswer p call contexts)

/-- Every call of the run that takes a header is careful. -/
def CarefulRun (hashes : Hashes) : List Call → Provider → Prop
  | [], _ => True
  | call :: rest, p => (call.unauthorized = false → CarefulCall hashes p call) ∧
    ∀ answer, addAuthorization hashes p call = some answer →
      CarefulRun hashes rest { contexts := answer.contexts, log := answer.log }

/-! ### Challenges -/

section Challenges

variable {hashes : Hashes} {contexts : List AuthorizationContext} {log : List Attempt}
  {callId : CString} {fromUser realm : Option CString}

theorem updateOrCreateAuthContext_eq_some {authenticate : WwwAuthenticate}
    (h : Numbered hashes contexts log)
    (hc : CarefulChallenge contexts log callId fromUser realm authenticate) :
    ∃ contexts', updateOrCreateAuthContext contexts callId authenticate fromUser realm =
      some contexts' ∧ Numbered hashes contexts' log := by
  obtain ⟨found, hfound⟩ := ne_none_iff_exists'.mp
    (getAuthContext_ne_none fromUser hc.realms)
  have hvalid : ∀ i ∈ found, ∃ c, contexts[i]? = some c := by
    intro i hi
    obtain ⟨c, hat, -⟩ := mem_getAuthContext hfound hi
    exact ⟨c, hat⟩
  obtain ⟨r, hr, hmem⟩ := findForChallenge_eq_some hvalid (hc.comparable found hfound)
  unfold updateOrCreateAuthContext
  cases r with
  | none =>
    obtain ⟨c, hfill, -⟩ := fillFromAuth_eq_some
      { callid := callId, isProxy := authenticate.isProxy } authenticate fromUser (by simp)
    exact ⟨contexts ++ [c], by simp [hfound, hr, hfill], h.create hfill⟩
  | some i =>
    obtain ⟨c, hat⟩ := hvalid i (hmem i rfl)
    have hrefill := hc.refillable found i c hfound hr hat
    obtain ⟨c', hfill, -⟩ := fillFromAuth_eq_some c authenticate fromUser hrefill.given
    exact ⟨contexts.set i c', by simp [hfound, hr, hat, hfill], h.refill hat hrefill hfill⟩

theorem updateOrCreateAuthContexts_eq_some {authenticate : List WwwAuthenticate}
    (h : Numbered hashes contexts log)
    (hc : CarefulChallenges log callId fromUser realm authenticate contexts) :
    ∃ contexts', updateOrCreateAuthContexts callId fromUser realm authenticate contexts =
      some contexts' ∧ Numbered hashes contexts' log := by
  induction authenticate generalizing contexts with
  | nil => exact ⟨contexts, rfl, h⟩
  | cons a rest ih =>
    obtain ⟨next, hnext, hnumbered⟩ := updateOrCreateAuthContext_eq_some h hc.1
    obtain ⟨last, hlast, hn⟩ := ih hnumbered (hc.2 next hnext)
    exact ⟨last, by simp [updateOrCreateAuthContexts, hnext, hlast], hn⟩

end Challenges

/-! ### Contexts -/

section Contexts

variable {hashes : Hashes} {call : Call}
variable {c : AuthorizationContext}

theorem ha1For_eq {event : AuthEvent} {H : CString → CString} {secret : Secret}
    (hH : digestHash hashes c.algorithm = some H) (hrealm : c.realm ≠ none)
    (hsecret : event.secret = some secret) (huser : event.ha1 = none → event.userid ≠ none)
    (computedHa1 : CString) :
    digestHa1 H event.userid c.realm secret = some (ha1For hashes c event computedHa1).1 := by
  unfold ha1For
  cases hha1 : event.ha1 with
  | some ha1 =>
    obtain rfl : Secret.ha1 ha1 = secret := by simpa [AuthEvent.secret, hha1] using hsecret
    rfl
  | none =>
    obtain ⟨userid, huserid⟩ := ne_none_iff_exists'.mp (huser hha1)
    obtain ⟨realm, hr⟩ := ne_none_iff_exists'.mp hrealm
    cases hpasswd : event.passwd with
    | none => simp [AuthEvent.secret, hha1, hpasswd] at hsecret
    | some passwd =>
      obtain rfl : Secret.password passwd = secret := by
        simpa [AuthEvent.secret, hha1, hpasswd] using hsecret
      simp [computeHa1ForAlgorithm, hashedText_eq, hH, huserid, hr, digestHa1]

theorem AuthEvent.exists_secret {event : AuthEvent} (h : event.hasSecret = true) :
    ∃ secret, event.secret = some secret := by
  unfold AuthEvent.hasSecret at h
  unfold AuthEvent.secret
  cases hha1 : event.ha1 with
  | some ha1 => exact ⟨.ha1 ha1, rfl⟩
  | none =>
    cases hpasswd : event.passwd with
    | some passwd => exact ⟨.password passwd, rfl⟩
    | none => simp [hha1, hpasswd] at h

theorem nextCount_eq_some (h : c.qop ≠ none → c.nonceCount < intMax) :
    nextCount c = some (if c.qop.isSome then c.nonceCount + 1 else c.nonceCount) := by
  unfold nextCount
  cases hq : c.qop with
  | none => simp
  | some qop => simp [h (by simp [hq])]

/-- The header that is built for a context. -/
def attemptFor (hashes : Hashes) (call : Call) (i : Nat) (c : AuthorizationContext)
    (isProxy : Bool) (count : Nat) (computedHa1 : CString) : Attempt :=
  let authorization := beginAuthorization call c (askedEvent call c) isProxy count
  let filled := fillAuthorization hashes authorization call.request.method
    (ha1For hashes c (askedEvent call c) computedHa1).1 (call.token i)
  ⟨i, call.request.method, askedEvent call c, filled.getD authorization, filled.isSome⟩

theorem attemptFor_authorization (hashes : Hashes) (call : Call) (i : Nat)
    (c : AuthorizationContext) (isProxy : Bool) (count : Nat) (computedHa1 : CString) :
    ∃ cnonce response, (attemptFor hashes call i c isProxy count computedHa1).authorization =
      { beginAuthorization call c (askedEvent call c) isProxy count with
        cnonce := cnonce, response := response } := by
  simp only [attemptFor]
  generalize hb : fillAuthorization hashes _ _ _ _ = filled
  cases filled with
  | none => exact ⟨none, none, rfl⟩
  | some b =>
    obtain ⟨-, -, hfill⟩ := fillAuthorization_eq_some hb
    exact ⟨b.cnonce, b.response, fillResponse_keeps hfill⟩

variable {answer : Answer}

theorem attemptFor_added (hashes : Hashes) {i : Nat} (isProxy : Bool) (count : Nat)
    (computedHa1 : CString) (hc : CarefulContext call answer i c) (hanswered : IsAnswered call c)
    (h : (attemptFor hashes call i c isProxy count computedHa1).added = true) :
    Fillable c.scheme c.qop c.realm c.nonce ∧
      (attemptFor hashes call i c isProxy count computedHa1).Answers hashes := by
  simp only [attemptFor, isSome_iff_exists] at h
  obtain ⟨b, hb⟩ := h
  obtain ⟨-, hfillable, -⟩ := fillAuthorization_eq_some hb
  refine ⟨hfillable, ?_⟩
  obtain ⟨secret, hsecret⟩ := AuthEvent.exists_secret hanswered.1
  refine ⟨secret, hsecret, ?_⟩
  simp only [attemptFor, hb, getD_some]
  exact fillAuthorization_isDigest hb fun H hH =>
    ha1For_eq hH hfillable.realm hsecret (hc.user hanswered hfillable) computedHa1

theorem set_getElem? {α : Type} {l : List α} {i : Nat} {a : α} (h : l[i]? = some a) :
    l.set i a = l := by
  obtain ⟨hlt, hget⟩ := List.getElem?_eq_some_iff.mp h
  rw [← hget, List.set_getElem_self]

theorem buildHeader_eq_some {i : Nat} (h : Numbered hashes answer.contexts answer.log)
    (hat : answer.contexts[i]? = some c)
    (hfound : FoundFor call.request.callId call.fromUser call.realm c)
    (hc : CarefulContext call answer i c) (hanswered : IsAnswered call c) :
    ∃ answer', buildHeader hashes call i c (askedEvent call c) answer = some answer' ∧
      answer'.authInfos = answer.authInfos ∧
      (∃ count, answer'.contexts = answer.contexts.set i { c with nonceCount := count }) ∧
      Numbered hashes answer'.contexts answer'.log := by
  obtain ⟨isProxy, hproxy⟩ := ne_none_iff_exists'.mp
    (isProxyAuthorization_ne_none (askedEvent call c) hfound rfl)
  have hcount := nextCount_eq_some (hc.room hanswered)
  generalize hn : (if c.qop.isSome then c.nonceCount + 1 else c.nonceCount) = count at hcount
  have hbuild : buildHeader hashes call i c (askedEvent call c) answer = some { answer with
        contexts := answer.contexts.set i { c with nonceCount := count }
        log := answer.log ++ [attemptFor hashes call i c isProxy count answer.computedHa1]
        computedHa1 := (ha1For hashes c (askedEvent call c) answer.computedHa1).2
        result := true } := by
    simp only [buildHeader, hproxy, hcount, bind_eq_bind, bind_some]
    rfl
  refine ⟨_, hbuild, rfl, ⟨count, rfl⟩, ?_⟩
  obtain ⟨cnonce, response, hauth⟩ := attemptFor_authorization hashes call i c isProxy count
    answer.computedHa1
  have hadded := attemptFor_added hashes isProxy count answer.computedHa1 hc hanswered
  have hcontext : (attemptFor hashes call i c isProxy count answer.computedHa1).context = i := rfl
  generalize attemptFor hashes call i c isProxy count answer.computedHa1 = a at *
  have hnonce : a.authorization.nonce = c.nonce := by rw [hauth]; rfl
  have hqop : a.authorization.qop = c.qop := by rw [hauth]; rfl
  by_cases hq : c.qop = none
  · obtain rfl : c.nonceCount = count := by simpa [hq] using hn
    rw [set_getElem? hat]
    exact h.buildUncounted hat hcontext (by simp [Attempt.counted, hqop, hq])
      fun ha => (hadded ha).2
  · have hsome : c.qop.isSome = true := isSome_iff_ne_none.mpr hq
    obtain rfl : c.nonceCount + 1 = count := by simpa [hsome] using hn
    have hkey : a.key = (i, c.nonce) := by rw [Attempt.key, hcontext, hnonce]
    have hnumber : a.number = c.nonceCount + 1 := by
      rw [Attempt.number, hauth]
      simp [beginAuthorization, hsome]
    apply h.buildCounted hat hkey (by rw [Attempt.counted, hqop]; exact hsome) hnumber
    · intro ha b hb hsame
      exact hc.kept hanswered (hadded ha).1 hq b hb (hsame.trans hkey)
    · exact fun ha => (hadded ha).2

theorem answerContext_eq_some {i : Nat} (h : Numbered hashes answer.contexts answer.log)
    (hat : answer.contexts[i]? = some c)
    (hfound : FoundFor call.request.callId call.fromUser call.realm c)
    (hc : CarefulContext call answer i c) :
    ∃ answer', answerContext hashes call answer i = some answer' ∧
      (∃ count, answer'.contexts = answer.contexts.set i { c with nonceCount := count }) ∧
      Numbered hashes answer'.contexts answer'.log := by
  have hset := set_getElem? hat
  have hreport (hr : (askedEvent call c).hasSecret = true → authDefineSize c.algorithm ≠ 0) :
      ∃ infos, reportEvent (askedEvent call c) answer.authInfos = some infos :=
    ne_none_iff_exists'.mp (reportEvent_ne_none (hc.reported hr))
  by_cases hsecret : (askedEvent call c).hasSecret = true
  · by_cases hsize : authDefineSize c.algorithm = 0
    · exact ⟨answer, by simp [answerContext, hat, hsecret, hsize], ⟨c.nonceCount, hset.symm⟩, h⟩
    · obtain ⟨built, hbuilt, hinfos, hcontexts, hn⟩ :=
        buildHeader_eq_some h hat hfound hc ⟨hsecret, hsize⟩
      obtain ⟨infos, hreported⟩ := hreport fun _ => hsize
      refine ⟨{ built with authInfos := infos }, ?_, hcontexts, hn⟩
      simp [answerContext, hat, hsecret, hsize, hbuilt, hinfos, hreported]
  · obtain ⟨infos, hreported⟩ := hreport fun hs => absurd hs hsecret
    refine ⟨{ answer with authInfos := infos }, ?_, ⟨c.nonceCount, hset.symm⟩, h⟩
    simp [answerContext, hat, hsecret, hreported]

theorem answerContexts_eq_some {found : List Nat} (h : Numbered hashes answer.contexts answer.log)
    (hfound : ∀ i ∈ found, ∃ c, answer.contexts[i]? = some c ∧ FoundFor call.request.callId
      call.fromUser call.realm c) (hc : CarefulContexts hashes call found answer) :
    ∃ answer', answerContexts hashes call found answer = some answer' ∧
      Numbered hashes answer'.contexts answer'.log := by
  induction found generalizing answer with
  | nil => exact ⟨answer, rfl, h⟩
  | cons i rest ih =>
    obtain ⟨c, hat, hi⟩ := hfound i (List.mem_cons_self ..)
    obtain ⟨next, hnext, ⟨count, hcontexts⟩, hn⟩ := answerContext_eq_some h hat hi (hc.1 c hat)
    have hlt : i < answer.contexts.length := (List.getElem?_eq_some_iff.mp hat).1
    have hrest : ∀ j ∈ rest, ∃ c, next.contexts[j]? = some c ∧
        FoundFor call.request.callId call.fromUser call.realm c := by
      intro j hj
      rw [hcontexts]
      by_cases heq : i = j
      · subst heq
        exact ⟨{ c with nonceCount := count }, by simp [hlt], hi⟩
      · rw [List.getElem?_set_ne heq]
        exact hfound j (List.mem_cons_of_mem i hj)
    obtain ⟨last, hlast, hl⟩ := ih hn hrest (hc.2 next hnext)
    exact ⟨last, by simp [answerContexts, hnext, hlast], hl⟩

end Contexts

/-! ### Runs -/

theorem addAuthorization_eq_some {hashes : Hashes} {p : Provider} {call : Call}
    (h : Numbered hashes p.contexts p.log)
    (hc : call.unauthorized = false → CarefulCall hashes p call) :
    ∃ answer, addAuthorization hashes p call = some answer ∧
      Numbered hashes answer.contexts answer.log := by
  unfold addAuthorization
  by_cases hu : call.unauthorized = true
  · exact ⟨_, by rw [if_pos hu]; rfl, h⟩
  · have hcareful := hc (by simpa using hu)
    have htake : ∃ contexts, takeChallenges call p.contexts = some contexts ∧
        Numbered hashes contexts p.log := by
      unfold takeChallenges
      cases hr : call.response with
      | none => exact ⟨p.contexts, rfl, h⟩
      | some resp =>
        exact updateOrCreateAuthContexts_eq_some h (hcareful.challenges resp hr)
    obtain ⟨contexts, hcontexts, hn⟩ := htake
    obtain ⟨head, hhead⟩ := ne_none_iff_exists'.mp
      (getAuthContext_ne_none call.fromUser (hcareful.realms contexts hcontexts))
    have hstart : Numbered hashes (startAnswer p call contexts).contexts
        (startAnswer p call contexts).log := hn
    obtain ⟨answer, hanswer, hlast⟩ := answerContexts_eq_some hstart
      (fun i hi => mem_getAuthContext hhead hi) (hcareful.contexts contexts head hcontexts hhead)
    refine ⟨answer, ?_, hlast⟩
    rw [if_neg hu, hcontexts]
    simp only [bind_eq_bind, bind_some, hhead]
    exact hanswer

theorem runCalls_eq_some {hashes : Hashes} {calls : List Call} {p : Provider}
    (h : Numbered hashes p.contexts p.log) (hc : CarefulRun hashes calls p) :
    ∃ p', runCalls hashes calls p = some p' ∧ Numbered hashes p'.contexts p'.log := by
  induction calls generalizing p with
  | nil => exact ⟨p, rfl, h⟩
  | cons call rest ih =>
    obtain ⟨answer, hanswer, hn⟩ := addAuthorization_eq_some h hc.1
    obtain ⟨p', hp', hlast⟩ := ih hn (hc.2 answer hanswer)
    exact ⟨p', by simp [runCalls, hanswer, hp'], hlast⟩

/-- A careful run compares no `NULL`, counts 1, 2, 3 and so on with a nonce, and every added header
carries its digest. -/
theorem CarefulRun.sound (hashes : Hashes) (calls : List Call) (h : CarefulRun hashes calls {}) :
    ∃ p, runCalls hashes calls {} = some p ∧ Sound hashes p.log := by
  obtain ⟨p, hp, hn⟩ := runCalls_eq_some (numbered_nil hashes) h
  exact ⟨p, hp, hn.soundHistory⟩

/-! ### A sample account -/

/-- Hashes for the samples. -/
def sampleHashes : Hashes where
  md5 ask := Vector.replicate 16 (UInt8.ofNat ask.length)
  sha256 ask := Vector.replicate 32 (UInt8.ofNat ask.length)

/-- A REGISTER that was challenged with a nonce, or without one. -/
def sampleCall (nonce : Option CString) : Call where
  request := ⟨"REGISTER".toList, "sip:a".toList, "id".toList, some ⟨some "u".toList, none⟩⟩
  response := some ⟨"id".toList, [⟨false, some "Digest".toList, some "r".toList, nonce, none,
    ["auth".toList], none⟩]⟩
  listener := fun _ => { passwd := some "p".toList }
  token := fun _ => "t".toList

/-- The context that the first challenge of the sample creates. -/
def sampleContext : AuthorizationContext where
  callid := "id".toList
  isProxy := false
  scheme := some "Digest".toList
  realm := some "r".toList
  nonce := some "n".toList
  qop := some "auth".toList
  userId := some "u".toList

theorem sampleCall_careful : CarefulRun sampleHashes [sampleCall (some "n".toList)] {} := by
  have htake : takeChallenges (sampleCall (some "n".toList)) [] = some [sampleContext] := by decide
  have hfound : getAuthContextByRealmOrCallId [sampleContext] "id".toList (some "u".toList) none =
      some [0] := by decide
  refine ⟨fun _ => ⟨?_, ?_, ?_⟩, fun _ _ => trivial⟩
  · rintro resp ⟨⟩
    refine ⟨⟨fun _ _ => by simp, ?_, ?_⟩, fun _ _ => trivial⟩
    · intro found h
      obtain rfl : [] = found := Option.some.inj h
      trivial
    · intro found i c h hi
      obtain rfl : [] = found := Option.some.inj h
      cases hi
  · intro contexts h hrealm
    exact absurd rfl hrealm
  · intro contexts head h hhead
    obtain rfl : [sampleContext] = contexts := Option.some.inj (htake.symm.trans h)
    obtain rfl : [0] = head := Option.some.inj (hfound.symm.trans hhead)
    refine ⟨fun c hc => ?_, fun _ _ => trivial⟩
    obtain rfl : sampleContext = c := Option.some.inj hc
    exact
      { reported := fun _ l hl => by cases hl
        room := fun _ _ => by decide
        user := fun _ _ _ => by decide
        kept := fun _ _ _ a ha => by cases ha }

theorem CarefulRun.sound_sample :
    ∃ p, runCalls sampleHashes [sampleCall (some "n".toList)] {} = some p ∧
      Sound sampleHashes p.log :=
  CarefulRun.sound sampleHashes _ sampleCall_careful

/-- A challenge without a nonce after one with a nonce compares a `NULL` string, and a nonce that
comes back is used with the same count again. -/
theorem runCalls_unsound :
    (¬ ∃ p, runCalls sampleHashes [sampleCall (some "n".toList), sampleCall none] {} = some p ∧
      Sound sampleHashes p.log) ∧
    ¬ ∃ p, runCalls sampleHashes [sampleCall (some "n".toList), sampleCall (some "m".toList),
      sampleCall (some "n".toList)] {} = some p ∧ Sound sampleHashes p.log := by
  constructor
  · rintro ⟨p, hp, -⟩
    cases hp
  · rintro ⟨p, hp, hs⟩
    have hcounts : (runCalls sampleHashes [sampleCall (some "n".toList),
        sampleCall (some "m".toList), sampleCall (some "n".toList)] {}).map (fun p =>
          numbersUnder Attempt.key Attempt.number (sentIn p.log) (0, some "n".toList)) =
        some [1, 1] := by decide +kernel
    rw [hp, map_some, Option.some.injEq] at hcounts
    have hordered := hs.ordered (0, some "n".toList)
    rw [hcounts] at hordered
    exact absurd hordered (by decide)

end GrooveIp.Auth
