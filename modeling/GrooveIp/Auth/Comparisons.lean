import GrooveIp.Auth.Authorization

/-!
# Strings that are compared

Where the strings that the authentication compares are there, no comparison fails: the contexts are
found, the challenge finds its context, the events are reported, and the kind of the header is
chosen.
-/

namespace GrooveIp.Auth

open Sal List Option

/-! ### Comparisons -/

@[simp] theorem strcmpEq_some (a b : CString) : strcmpEq (some a) (some b) = some (a == b) := rfl

@[simp] theorem strcasecmpEq_some (a b : CString) :
    strcasecmpEq (some a) (some b) = some (strcaseEq a b) := rfl

theorem strcmpEq_of_ne_none {a b : Option CString} (ha : a ≠ none) (hb : b ≠ none) :
    strcmpEq a b = some (a == b) := by
  cases a with
  | none => exact absurd rfl ha
  | some a =>
    cases b with
    | none => exact absurd rfl hb
    | some b => rfl

theorem strcaseEq_comm (a b : CString) : strcaseEq a b = strcaseEq b a := BEq.comm

theorem placesFrom_isSome {α : Type} {p : α → Option Bool} {l : List α}
    (h : ∀ a ∈ l, p a ≠ none) (i : Nat) : placesFrom p i l ≠ none := by
  induction l generalizing i with
  | nil => simp [placesFrom]
  | cons a l ih =>
    obtain ⟨b, hb⟩ := ne_none_iff_exists'.mp (h a (mem_cons_self ..))
    obtain ⟨r, hr⟩ := ne_none_iff_exists'.mp
      (ih (fun x hx => h x (mem_cons_of_mem a hx)) (i + 1))
    simp [placesFrom, hb, hr]

theorem mem_placesFrom {α : Type} {p : α → Option Bool} {l : List α} {i j : Nat} {places : List Nat}
    (h : placesFrom p i l = some places) (hj : j ∈ places) :
    i ≤ j ∧ ∃ a, l[j - i]? = some a ∧ p a = some true := by
  induction l generalizing i places with
  | nil =>
    obtain rfl : [] = places := by simpa [placesFrom] using h
    cases hj
  | cons a l ih =>
    simp only [placesFrom, bind_eq_bind, bind_eq_some_iff] at h
    obtain ⟨found, hfound, rest, hrest, h⟩ := h
    obtain rfl : (if found then i :: rest else rest) = places := by simpa using h
    have later (hmem : j ∈ rest) : i ≤ j ∧ ∃ b, (a :: l)[j - i]? = some b ∧ p b = some true := by
      obtain ⟨hle, b, hb, hp⟩ := ih hrest hmem
      have hat : j - i = j - (i + 1) + 1 := by omega
      refine ⟨by omega, b, ?_, hp⟩
      rw [hat, List.getElem?_cons_succ]
      exact hb
    cases found with
    | false => exact later hj
    | true =>
      rcases mem_cons.mp hj with rfl | hmem
      · exact ⟨Nat.le_refl _, a, by simp, hfound⟩
      · exact later hmem

/-! ### Contexts that are found -/

/-- The search by realm, if it is made, meets no context without a realm. -/
def RealmsKnown (contexts : List AuthorizationContext) (callId : CString)
    (realm : Option CString) : Prop :=
  realm ≠ none → (∀ c ∈ contexts, strcaseEq c.callid callId = false) → ∀ c ∈ contexts,
    c.realm ≠ none

/-- The context is one that is looked for: by the Call-ID, or else by the realm and the user. -/
def FoundFor (callId : CString) (fromUser realm : Option CString) (c : AuthorizationContext) :
    Prop :=
  strcaseEq c.callid callId = true ∨
    realm ≠ none ∧ c.realm = realm ∧ fromUser ≠ none ∧ c.userId = fromUser

variable {c : AuthorizationContext}

theorem matchesRealm_eq_some (fromUser : Option CString) (realm : CString) (h : c.realm ≠ none) :
    ∃ found, matchesRealm fromUser realm c = some found ∧ (found = true →
      c.realm = some realm ∧ fromUser ≠ none ∧ c.userId = fromUser) := by
  obtain ⟨r, hr⟩ := ne_none_iff_exists'.mp h
  unfold matchesRealm
  rw [hr, strcmpEq_some]
  by_cases heq : r = realm
  · cases hu : fromUser with
    | none => exact ⟨false, by simp [heq], by simp⟩
    | some user =>
      cases hc : c.userId with
      | none => exact ⟨false, by simp [heq], by simp⟩
      | some userId => exact ⟨userId == user, by simp [heq], by simp [heq]⟩
  · exact ⟨false, by simp [heq], by simp⟩

section Lookup

variable {contexts : List AuthorizationContext} {callId : CString} {fromUser realm : Option CString}

theorem placesFrom_callId_ne_none (contexts : List AuthorizationContext) (callId : CString) :
    placesFrom (fun c : AuthorizationContext => some (strcaseEq c.callid callId)) 0 contexts ≠
      none :=
  placesFrom_isSome (by simp) 0

theorem callId_of_placesFrom_nil
    (h : placesFrom (fun c : AuthorizationContext => some (strcaseEq c.callid callId)) 0 contexts =
      some []) : ∀ c ∈ contexts, strcaseEq c.callid callId = false := by
  have key : ∀ i, placesFrom (fun c : AuthorizationContext => some (strcaseEq c.callid callId)) i
      contexts = some [] → ∀ c ∈ contexts, strcaseEq c.callid callId = false := by
    clear h
    induction contexts with
    | nil => simp
    | cons a l ih =>
      intro i h
      simp only [placesFrom, bind_eq_bind, bind_some, bind_eq_some_iff] at h
      obtain ⟨rest, hrest, h⟩ := h
      split at h
      · simp at h
      · next hne =>
        obtain rfl : rest = [] := by simpa using h
        intro c hc
        rcases mem_cons.mp hc with rfl | hc
        · simpa using hne
        · exact ih (i + 1) hrest c hc
  exact key 0 h

/-- The contexts are found when the search by realm meets no context without a realm. -/
theorem getAuthContext_ne_none (fromUser : Option CString) (h : RealmsKnown contexts callId realm) :
    getAuthContextByRealmOrCallId contexts callId fromUser realm ≠ none := by
  unfold getAuthContextByRealmOrCallId
  obtain ⟨result, hresult⟩ := ne_none_iff_exists'.mp
    (placesFrom_callId_ne_none contexts callId)
  simp only [hresult, bind_eq_bind, bind_some]
  cases result with
  | cons => simp
  | nil =>
    cases realm with
    | none => simp
    | some realm =>
      have hknown := h (by simp) (callId_of_placesFrom_nil hresult)
      have hplaces : placesFrom (matchesRealm fromUser realm) 0 contexts ≠ none := by
        apply placesFrom_isSome
        intro c hc
        obtain ⟨found, hfound, -⟩ := matchesRealm_eq_some fromUser realm (hknown c hc)
        simp [hfound]
      simpa using hplaces

/-- A place that is found is that of a context that is looked for. -/
theorem mem_getAuthContext {found : List Nat} {i : Nat}
    (h : getAuthContextByRealmOrCallId contexts callId fromUser realm = some found)
    (hi : i ∈ found) : ∃ c, contexts[i]? = some c ∧ FoundFor callId fromUser realm c := by
  unfold getAuthContextByRealmOrCallId at h
  simp only [bind_eq_bind, bind_eq_some_iff] at h
  obtain ⟨result, hresult, h⟩ := h
  split at h
  · split at h
    · next realm =>
      obtain ⟨-, c, hc, hp⟩ := mem_placesFrom h hi
      refine ⟨c, hc, Or.inr ?_⟩
      have hrealm : c.realm ≠ none := by
        intro hnone
        simp [matchesRealm, hnone, strcmpEq] at hp
      obtain ⟨b, hb, hspec⟩ := matchesRealm_eq_some fromUser realm hrealm
      obtain rfl : b = true := by simpa [hb] using hp
      exact ⟨by simp, hspec rfl⟩
    · obtain rfl : [] = found := by simpa using h
      cases hi
  · obtain rfl : result = found := by simpa using h
    obtain ⟨-, c, hc, hp⟩ := mem_placesFrom hresult hi
    exact ⟨c, hc, Or.inl (by simpa using hp)⟩

end Lookup

/-! ### The context of a challenge -/

/-- The challenge is one for the context: the same realm, and the algorithm if the context has
one. -/
def SameChallenge (c : AuthorizationContext) (authenticate : WwwAuthenticate) : Prop :=
  c.realm = authenticate.realm ∧
    ∀ algo, c.algorithm = some algo → authenticate.algorithm.any (strcaseEq algo) = true

/-- The contexts found have what is compared with the challenge, and the challenge has it too, up to
the first context that is that of the challenge. -/
def Comparable (contexts : List AuthorizationContext) (authenticate : WwwAuthenticate) :
    List Nat → Prop
  | [] => True
  | i :: rest => ∀ c, contexts[i]? = some c →
    c.realm ≠ none ∧ authenticate.realm ≠ none ∧
      (c.realm = authenticate.realm → c.algorithm ≠ none → authenticate.algorithm ≠ none) ∧
      (¬ SameChallenge c authenticate → Comparable contexts authenticate rest)

theorem matchesChallenge_eq_some {authenticate : WwwAuthenticate}
    (hrealm : c.realm ≠ none) (hchallenge : authenticate.realm ≠ none)
    (halgo : c.realm = authenticate.realm → c.algorithm ≠ none → authenticate.algorithm ≠ none) :
    ∃ found, matchesChallenge c authenticate = some found ∧
      (found = true ↔ SameChallenge c authenticate) := by
  unfold matchesChallenge SameChallenge
  rw [strcmpEq_of_ne_none hrealm hchallenge]
  by_cases heq : c.realm = authenticate.realm
  · cases hc : c.algorithm with
    | none => exact ⟨true, by simp [heq], by simp [heq]⟩
    | some algo =>
      obtain ⟨a, ha⟩ := ne_none_iff_exists'.mp (halgo heq (by simp [hc]))
      exact ⟨strcaseEq algo a, by simp [heq, ha], by simp [heq, ha]⟩
  · exact ⟨false, by simp [heq], by simp [heq]⟩

/-- The context of a challenge is found among comparable ones. -/
theorem findForChallenge_eq_some {contexts : List AuthorizationContext}
    {authenticate : WwwAuthenticate} {found : List Nat}
    (hvalid : ∀ i ∈ found, ∃ c, contexts[i]? = some c)
    (h : Comparable contexts authenticate found) :
    ∃ r, findForChallenge contexts authenticate found = some r ∧ ∀ i, r = some i → i ∈ found := by
  induction found with
  | nil => exact ⟨none, rfl, by simp⟩
  | cons i rest ih =>
    obtain ⟨c, hc⟩ := hvalid i (mem_cons_self ..)
    obtain ⟨hrealm, hchallenge, halgo, hrest⟩ := h c hc
    obtain ⟨b, hb, hsame⟩ := matchesChallenge_eq_some hrealm hchallenge halgo
    cases b with
    | true => exact ⟨some i, by simp [findForChallenge, hc, hb], by simp⟩
    | false =>
      obtain ⟨r, hr, hmem⟩ := ih (fun j hj => hvalid j (mem_cons_of_mem i hj))
        (hrest fun hs => by simpa using hsame.mpr hs)
      refine ⟨r, by simp [findForChallenge, hc, hb, hr], fun j hj => ?_⟩
      exact mem_cons_of_mem i (hmem j hj)

/-! ### Events that are reported -/

/-- The event names a realm and a user. -/
def AuthEvent.Named (event : AuthEvent) : Prop := event.realm ≠ none ∧ event.username ≠ none

theorem findEvent_eq_some {event : AuthEvent} (he : event.Named) {list : List AuthEvent}
    (hlist : ∀ e ∈ list, e.Named) (i : Nat) :
    ∃ r, findEvent event i list = some r ∧ ∀ j, r = some j → j < i + list.length := by
  induction list generalizing i with
  | nil => exact ⟨none, rfl, by simp⟩
  | cons e rest ih =>
    have hnamed := hlist e (mem_cons_self ..)
    obtain ⟨r, hr, hlt⟩ := ih (fun x hx => hlist x (mem_cons_of_mem e hx)) (i + 1)
    have hsame : ∃ b, sameEvent e event = some b := by
      unfold sameEvent
      rw [strcmpEq_of_ne_none hnamed.1 he.1, strcmpEq_of_ne_none hnamed.2 he.2]
      by_cases hrealm : e.realm = event.realm <;> simp [hrealm]
    obtain ⟨b, hb⟩ := hsame
    cases b with
    | true => exact ⟨some i, by simp [findEvent, hb], by simp⟩
    | false =>
      refine ⟨r, by simp [findEvent, hb, hr], fun j hj => ?_⟩
      have := hlt j hj
      simp only [length_cons]
      omega

/-- An event that names a realm and a user is reported in a list of such events. -/
theorem reportEvent_ne_none {event : AuthEvent} {list : Option (List AuthEvent)}
    (h : ∀ l, list = some l → event.Named ∧ ∀ e ∈ l, e.Named) : reportEvent event list ≠ none := by
  cases list with
  | none => simp [reportEvent]
  | some l =>
    obtain ⟨he, hl⟩ := h l rfl
    have hall : ∀ e ∈ l ++ [event], e.Named := by
      intro e hmem
      rcases mem_append.mp hmem with hmem | hmem
      · exact hl e hmem
      · obtain rfl := mem_singleton.mp hmem
        exact he
    have hdouble : ∃ r, findDoubleEvents (l ++ [event]) event = some r := by
      unfold findDoubleEvents
      obtain ⟨r, hr, hlt⟩ := findEvent_eq_some he hall 0
      cases r with
      | none => exact ⟨none, by simp [hr]⟩
      | some first =>
        have hfirst := hlt first rfl
        have hdrop : ∀ e ∈ (l ++ [event]).drop (first + 1), e.Named :=
          fun e hmem => hall e (mem_of_mem_drop hmem)
        obtain ⟨r', hr', hlt'⟩ := findEvent_eq_some he hdrop (first + 1)
        cases r' with
        | none => exact ⟨none, by simp [hr, hr']⟩
        | some second =>
          have hsecond := hlt' second rfl
          rw [length_drop] at hsecond
          have hin : second < (l ++ [event]).length := by omega
          simp [hr, hr', List.getElem?_eq_getElem hin]
    obtain ⟨r, hr⟩ := hdouble
    cases r <;> simp [reportEvent, hr]

/-! ### The kind of the header -/

/-- The kind of the header is chosen for every context that is looked for. -/
theorem isProxyAuthorization_ne_none {call : Call} (event : AuthEvent)
    (h : FoundFor call.request.callId call.fromUser call.realm c)
    (hevent : event.username = call.fromUser) : isProxyAuthorization call c event ≠ none := by
  unfold isProxyAuthorization
  rw [strcaseEq_comm]
  rcases h with h | ⟨hrealm, hc, huser, -⟩
  · simp [h]
  · rw [hc, strcmpEq_of_ne_none hrealm hrealm, hevent, strcmpEq_of_ne_none huser huser]
    split
    · simp
    · split
      · simp
      · simp only [beq_self_eq_true, bind_eq_bind, bind_some, Bool.not_true,
          Bool.false_eq_true, if_false]
        split <;> simp

end GrooveIp.Auth
