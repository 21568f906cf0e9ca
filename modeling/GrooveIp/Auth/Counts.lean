import GrooveIp.Auth.Comparisons
import GrooveIp.Lib.NumberedLog

/-!
# Nonce counts

The counts that a context hands out under a nonce are numbered from 1 on as long as a nonce that
comes to a context is one under which it has not counted yet. What a challenge does to the contexts
and what a header does to the count keep this, and the response of a header that is added is the
digest of what it carries.
-/

namespace GrooveIp.Auth

open Sal Lib List Attempt

/-! ### The log -/

/-- The context and the nonce of a header. -/
def Attempt.key (a : Attempt) : Nat × Option CString := (a.context, a.authorization.nonce)

/-- The nonce count of a header. -/
def Attempt.number (a : Attempt) : Nat := a.authorization.nonceCount

/-- The header has a quality of protection, and so a nonce count. -/
def Attempt.counted (a : Attempt) : Bool := a.authorization.qop.isSome

/-- The headers with a nonce count. -/
def countedIn (log : List Attempt) : List Attempt := log.filter counted

/-- The headers with a nonce count that were added to a request. -/
def sentIn (log : List Attempt) : List Attempt := (countedIn log).filter added

/-- The secret that the listeners gave. -/
def AuthEvent.secret (event : AuthEvent) : Option Secret :=
  (event.ha1.map Secret.ha1).or (event.passwd.map Secret.password)

/-- The header that was added carries the digest of its parameters and of the secret given. -/
def Attempt.Answers (hashes : Hashes) (a : Attempt) : Prop :=
  ∃ secret, a.event.secret = some secret ∧ IsDigest hashes a.method secret a.authorization

/-- No count is used twice with a nonce, the counts sent with it are 1, 2, 3 and so on, and every
added header carries its digest. -/
structure Sound (hashes : Hashes) (log : List Attempt) : Prop where
  distinct : (sentIn log).Pairwise fun a b => a.key = b.key → a.number ≠ b.number
  ordered : ∀ k, numbersUnder key number (sentIn log) k =
    List.range' 1 (numbersUnder key number (sentIn log) k).length
  digest : ∀ a ∈ log, a.added = true → a.Answers hashes

/-- The counts of the contexts are those of the headers that they built. -/
structure Numbered (hashes : Hashes) (contexts : List AuthorizationContext) (log : List Attempt) :
    Prop where
  known : ∀ a ∈ log, a.context < contexts.length
  current : ∀ i c, contexts[i]? = some c →
    numbersUnder key number (countedIn log) (i, c.nonce) =
      List.range' 1 c.nonceCount
  unused : ∀ i c, contexts[i]? = some c → c.nonce = none →
    ∀ n, numbersUnder key number (countedIn log) (i, some n) = []
  numbered : ∀ k, NumberedUnder key number (countedIn log) k
  keptFirst : KeptFirst key added (countedIn log)
  digest : ∀ a ∈ log, a.added = true → a.Answers hashes

theorem Numbered.soundHistory {hashes : Hashes} {contexts : List AuthorizationContext}
    {log : List Attempt} (h : Numbered hashes contexts log) : Sound hashes log where
  distinct := pairwise_of_numberedUnder fun k => h.keptFirst.numberedUnder (h.numbered k)
  ordered k := h.keptFirst.numberedUnder (h.numbered k)
  digest := h.digest

theorem numbered_nil (hashes : Hashes) : Numbered hashes [] [] where
  known := by simp
  current := by simp
  unused := by simp
  numbered _ := rfl
  keptFirst := List.Pairwise.nil
  digest := by simp

theorem numbersUnder_eq_nil {log : List Attempt} {k : Nat × Option CString}
    (h : ∀ a ∈ log, a.key = k → a.counted = false) :
    numbersUnder key number (countedIn log) k = [] := by
  unfold numbersUnder countedIn
  rw [map_eq_nil_iff, filter_eq_nil_iff]
  intro a ha hk
  rw [mem_filter] at ha
  have := h a ha.1 (by simpa using hk)
  simp [this] at ha

/-! ### Challenges -/

/-- The challenge gives the context a nonce if it had one, a new nonce was not counted under, and
the first one finds nothing counted. -/
structure Refillable (log : List Attempt) (i : Nat) (c : AuthorizationContext)
    (authenticate : WwwAuthenticate) : Prop where
  given : c.nonce ≠ none → authenticate.nonce ≠ none
  fresh : c.nonce ≠ none → authenticate.nonce ≠ c.nonce →
    ∀ a ∈ log, a.key = (i, authenticate.nonce) → a.counted = false
  uncounted : c.nonce = none → authenticate.nonce ≠ none → c.nonceCount = 0

/-- What a context is after a challenge that gives it a nonce if it had one. -/
theorem fillFromAuth_eq_some (c : AuthorizationContext) (authenticate : WwwAuthenticate)
    (fromUser : Option CString) (h : c.nonce ≠ none → authenticate.nonce ≠ none) :
    ∃ c', fillFromAuth c authenticate fromUser = some c' ∧ c'.nonce = authenticate.nonce ∧
      c'.nonceCount =
        if c.nonce ≠ none ∧ authenticate.nonce ≠ c.nonce then 0 else c.nonceCount := by
  unfold fillFromAuth
  cases hc : c.nonce with
  | none => simp
  | some n =>
    obtain ⟨m, hm⟩ := Option.ne_none_iff_exists'.mp (h (by simp [hc]))
    by_cases heq : m = n <;> simp [hm, heq]

section Steps

variable {hashes : Hashes} {contexts : List AuthorizationContext} {log : List Attempt}
variable {c : AuthorizationContext}

/-- A context that was refilled goes on counting, or starts again under another nonce. -/
theorem Numbered.refill (h : Numbered hashes contexts log) {i : Nat} {c' : AuthorizationContext}
    {authenticate : WwwAuthenticate} {fromUser : Option CString} (hc : contexts[i]? = some c)
    (hr : Refillable log i c authenticate)
    (hfill : fillFromAuth c authenticate fromUser = some c') :
    Numbered hashes (contexts.set i c') log := by
  obtain ⟨d, hd, hnonce, hcount⟩ := fillFromAuth_eq_some c authenticate fromUser hr.given
  obtain rfl : c' = d := by simpa [hfill] using hd
  have hlt : i < contexts.length := (List.getElem?_eq_some_iff.mp hc).1
  have hnumbers : numbersUnder key number (countedIn log) (i, c'.nonce) =
      List.range' 1 c'.nonceCount := by
    rw [hnonce, hcount]
    by_cases hsome : c.nonce = none
    · rw [if_neg (by simp [hsome])]
      cases ha : authenticate.nonce with
      | none => simpa [hsome] using h.current i c hc
      | some m =>
        rw [h.unused i c hc hsome, hr.uncounted hsome (by simp [ha])]
        rfl
    · by_cases heq : authenticate.nonce = c.nonce
      · rw [if_neg (by simp [heq]), heq]
        exact h.current i c hc
      · rw [if_pos ⟨hsome, heq⟩, numbersUnder_eq_nil (hr.fresh hsome heq)]
        rfl
  have hunused (hnone : c'.nonce = none) (n : CString) :
      numbersUnder key number (countedIn log) (i, some n) = [] := by
    apply h.unused i c hc
    cases hcn : c.nonce with
    | none => rfl
    | some m => exact absurd (hnonce.symm.trans hnone) (hr.given (by simp [hcn]))
  exact
    { known := by simpa using h.known
      current := by
        intro j d hd
        by_cases hj : i = j
        · subst hj
          obtain rfl : c' = d := by simpa [hlt] using hd
          exact hnumbers
        · rw [List.getElem?_set_ne hj] at hd
          exact h.current j d hd
      unused := by
        intro j d hd hnone
        by_cases hj : i = j
        · subst hj
          obtain rfl : c' = d := by simpa [hlt] using hd
          exact hunused hnone
        · rw [List.getElem?_set_ne hj] at hd
          exact h.unused j d hd hnone
      numbered := h.numbered
      keptFirst := h.keptFirst
      digest := h.digest }

/-- A context that is created has not counted. -/
theorem Numbered.create (h : Numbered hashes contexts log) {callId : CString} {isProxy : Bool}
    {authenticate : WwwAuthenticate} {fromUser : Option CString}
    (hfill : fillFromAuth { callid := callId, isProxy := isProxy } authenticate fromUser = some c) :
    Numbered hashes (contexts ++ [c]) log := by
  obtain ⟨d, hd, -, hcount⟩ := fillFromAuth_eq_some { callid := callId, isProxy := isProxy }
    authenticate fromUser (by simp)
  obtain rfl : c = d := by simpa [hfill] using hd
  have hnew (nonce : Option CString) :
      numbersUnder key number (countedIn log) (contexts.length, nonce) = [] := by
    apply numbersUnder_eq_nil
    intro a ha hkey
    have hlt := h.known a ha
    have heq : a.context = contexts.length := congrArg Prod.fst hkey
    omega
  have at_append {i : Nat} {d : AuthorizationContext} (hd : (contexts ++ [c])[i]? = some d) :
      contexts[i]? = some d ∨ i = contexts.length ∧ d = c := by
    rw [List.getElem?_append] at hd
    split at hd
    · exact Or.inl hd
    · next hge =>
      obtain ⟨h0, hc⟩ := List.getElem?_eq_some_iff.mp hd
      simp only [length_singleton, Nat.lt_one_iff] at h0
      simp only [h0, getElem_cons_zero] at hc
      exact Or.inr ⟨by omega, hc.symm⟩
  exact
    { known := fun a ha => by
        have := h.known a ha
        simp only [length_append, length_singleton]
        omega
      current := by
        intro i d hd
        rcases at_append hd with hd | ⟨rfl, rfl⟩
        · exact h.current i d hd
        · simp [hnew, hcount]
      unused := by
        intro i d hd hnone n
        rcases at_append hd with hd | ⟨rfl, rfl⟩
        · exact h.unused i d hd hnone n
        · exact hnew _
      numbered := h.numbered
      keptFirst := h.keptFirst
      digest := h.digest }

/-! ### Headers -/

/-- A header that has no count leaves the numbers as they are. -/
theorem Numbered.buildUncounted (h : Numbered hashes contexts log) {i : Nat} {a : Attempt}
    (hc : contexts[i]? = some c) (hcontext : a.context = i) (hcounted : a.counted = false)
    (hdigest : a.added = true → a.Answers hashes) :
    Numbered hashes contexts (log ++ [a]) := by
  have hlog : countedIn (log ++ [a]) = countedIn log := by simp [countedIn, hcounted]
  have hlt : i < contexts.length := (List.getElem?_eq_some_iff.mp hc).1
  exact
    { known := by
        intro b hb
        rcases mem_append.mp hb with hb | hb
        · exact h.known b hb
        · rw [mem_singleton.mp hb, hcontext]
          exact hlt
      current := by rw [hlog]; exact h.current
      unused := by rw [hlog]; exact h.unused
      numbered := by rw [hlog]; exact h.numbered
      keptFirst := by rw [hlog]; exact h.keptFirst
      digest := by
        intro b hb hadded
        rcases mem_append.mp hb with hb | hb
        · exact h.digest b hb hadded
        · obtain rfl := mem_singleton.mp hb
          exact hdigest hadded }

/-- A header that takes the next count of its context goes on numbering. -/
theorem Numbered.buildCounted (h : Numbered hashes contexts log) {i : Nat} {a : Attempt}
    (hc : contexts[i]? = some c) (hkey : a.key = (i, c.nonce)) (hcounted : a.counted = true)
    (hnumber : a.number = c.nonceCount + 1)
    (hkept : a.added = true → ∀ b ∈ log, b.key = a.key → b.counted = true → b.added = true)
    (hdigest : a.added = true → a.Answers hashes) :
    Numbered hashes (contexts.set i { c with nonceCount := c.nonceCount + 1 }) (log ++ [a]) := by
  have hlog : countedIn (log ++ [a]) = countedIn log ++ [a] := by simp [countedIn, hcounted]
  have hlt : i < contexts.length := (List.getElem?_eq_some_iff.mp hc).1
  have hnext : numbersUnder key number (countedIn log ++ [a]) (i, c.nonce) =
      List.range' 1 (c.nonceCount + 1) :=
    numbersUnder_next a (h.current i c hc) hkey hnumber
  have hother {k : Nat × Option CString} (hne : k ≠ (i, c.nonce)) :
      numbersUnder key number (countedIn log ++ [a]) k =
        numbersUnder key number (countedIn log) k := by
    rw [numbersUnder_append_singleton, hkey, if_neg (Ne.symm hne), append_nil]
  exact
    { known := by
        intro b hb
        rw [length_set]
        rcases mem_append.mp hb with hb | hb
        · exact h.known b hb
        · rw [mem_singleton.mp hb, show a.context = i from congrArg Prod.fst hkey]
          exact hlt
      current := by
        intro j d hd
        rw [hlog]
        by_cases hj : i = j
        · subst hj
          obtain rfl : { c with nonceCount := c.nonceCount + 1 } = d := by simpa [hlt] using hd
          exact hnext
        · rw [List.getElem?_set_ne hj] at hd
          rw [hother (by simp [Ne.symm hj])]
          exact h.current j d hd
      unused := by
        intro j d hd hnone n
        rw [hlog]
        by_cases hj : i = j
        · subst hj
          obtain rfl : { c with nonceCount := c.nonceCount + 1 } = d := by simpa [hlt] using hd
          have hcn : c.nonce = none := hnone
          rw [hother (by simp [hcn])]
          exact h.unused i c hc hcn n
        · rw [List.getElem?_set_ne hj] at hd
          rw [hother (by simp [Ne.symm hj])]
          exact h.unused j d hd hnone n
      numbered := by
        intro k
        rw [hlog]
        by_cases hk : k = (i, c.nonce)
        · subst hk
          simp [NumberedUnder, hnext]
        · rw [NumberedUnder, hother hk]
          exact h.numbered k
      keptFirst := by
        rw [hlog, KeptFirst, pairwise_append]
        refine ⟨h.keptFirst, pairwise_singleton _ _, fun b hb a' ha' => ?_⟩
        obtain rfl := mem_singleton.mp ha'
        have hmem := mem_filter.mp hb
        exact fun hsame hadded => hkept hadded b hmem.1 hsame hmem.2
      digest := by
        intro b hb hadded
        rcases mem_append.mp hb with hb | hb
        · exact h.digest b hb hadded
        · obtain rfl := mem_singleton.mp hb
          exact hdigest hadded }

end Steps

end GrooveIp.Auth
