import GrooveIp.Srtp.Context

/-!
# Mandatory encryption

Runs of the calls of `ms_srtp.c` with the packets in between. A history lists what happened,
newest first. In a run that hands over no packet within the fixed header and asks again for
encryption only while a handle is missing, nothing leaves in clear once encryption is required.
-/

namespace GrooveIp.Srtp

open List

section

-- `σ` is what libsrtp keeps between calls, `protect` the result of `srtp_protect` or
-- `srtp_protect_rtcp` (for `true` or `false`)
variable {σ : Type} (protect : σ → Bool → SrtpSession → List UInt8 → Int × List UInt8)

/-- One call of a run. -/
inductive Op (σ : Type) where
  | setEncryptionMandatory (createErr : Bool → Bool → Int)
  | setSrtpKey (k : KeyInstall) (isSend : Bool) (streamType : MSSrtpStreamType)
  | send (s : σ) (isRtp : Bool) (m : List UInt8)

/-- What a call did: a request of encryption with its result, a key that was installed or
refused for one stream, a packet, handed to the send modifier or not, with what was sent of it. -/
inductive Event (σ : Type) where
  | mandatory (err : Int)
  | keyInstalled (isSend isRtp : Bool) (policy : SrtpPolicy)
  | keyRefused (isSend isRtp : Bool)
  | packet (s : σ) (isRtp handed : Bool) (m : List UInt8) (sent : Option (List UInt8))

/-- The installations of `ms_media_stream_sessions_set_srtp_key` for the streams left, until one
fails (`ms_srtp.c:386–397`). -/
def installKeys (k : KeyInstall) (isSend : Bool) :
    List Bool → MSSrtpCtx × List (Event σ) → MSSrtpCtx × List (Event σ)
  | [], st => st
  | isRtp :: rest, (ctx, hist) =>
    let (error, ctx) := setSrtpKeyBase k isSend isRtp ctx
    if error ≠ 0 then (ctx, .keyRefused isSend isRtp :: hist)
    else installKeys k isSend rest (ctx, .keyInstalled isSend isRtp (k.policy isSend) :: hist)

/-- One call, on the contexts and the history. A zeroed context stands for none. -/
def step (st : MSSrtpCtx × List (Event σ)) : Op σ → MSSrtpCtx × List (Event σ)
  | .setEncryptionMandatory createErr =>
    let (err, ctx) := setEncryptionMandatory createErr true (some st.1)
    (ctx, .mandatory err :: st.2)
  | .setSrtpKey k isSend streamType => installKeys k isSend streamType.streams st
  | .send s isRtp m =>
    (st.1, .packet s isRtp (st.1.getStreamContext true isRtp).modifier m
      (sendThroughModifier (protect s isRtp) (st.1.getStreamContext true isRtp) m) :: st.2)

/-- The state after a run of calls. -/
def run (ops : List (Op σ)) : MSSrtpCtx × List (Event σ) :=
  ops.foldl (step protect) ({}, [])

/-- The last key installed to send on a stream. -/
def lastKey (isRtp : Bool) : List (Event σ) → Option SrtpPolicy
  | [] => none
  | .keyInstalled true r policy :: rest => if r = isRtp then some policy else lastKey isRtp rest
  | _ :: rest => lastKey isRtp rest

/-- Encryption is required on a stream once it was made mandatory, or a send key installed. -/
def Required (isRtp : Bool) (hist : List (Event σ)) : Prop :=
  .mandatory 0 ∈ hist ∨ ∃ policy, .keyInstalled true isRtp policy ∈ hist

/-- A packet was dropped, or it left as `srtp_protect` made it under the last key. -/
def ProtectedOrDropped (s : σ) (isRtp : Bool) (m : List UInt8) (sent : Option (List UInt8))
    (earlier : List (Event σ)) : Prop :=
  sent = none ∨ ∃ policy out, lastKey isRtp earlier = some policy ∧
    protect s isRtp [policy] m = (0, out) ∧ sent = some out

/-- What is asked of an event after the earlier ones. -/
def EventOk (earlier : List (Event σ)) : Event σ → Prop
  | .mandatory err => .mandatory 0 ∈ earlier → err = 0
  | .packet s isRtp handed m sent => headerVersion m = 2 → handed = true ∨ Required isRtp earlier →
    ProtectedOrDropped protect s isRtp m sent earlier
  | _ => True

/-- Every event of a history is as asked, after those before it. -/
def NothingInClear : List (Event σ) → Prop
  | [] => True
  | e :: earlier => EventOk protect earlier e ∧ NothingInClear earlier

/-- The condition on a call in the state before it: a version-2 packet exceeds the fixed header,
and once encryption is mandatory a further request finds a handle to create and creates the
missing ones. -/
def OpMeets (ctx : MSSrtpCtx) : Op σ → Prop
  | .setEncryptionMandatory createErr => ctx.sendRtpContext.mandatoryEnabled = true →
    (∃ s r, (ctx.getStreamContext s r).srtp = none) ∧
      ∀ s r, (ctx.getStreamContext s r).srtp = none → createErr s r = 0
  | .setSrtpKey .. => True
  | .send _ _ m => headerVersion m = 2 → rtpFixedHeaderSize < m.length

/-- Every call of a run meets the condition. -/
def RunMeets : List (Op σ) → MSSrtpCtx × List (Event σ) → Prop
  | [], _ => True
  | op :: rest, st => OpMeets st.1 op ∧ RunMeets rest (step protect st op)

end

/-- A stream context is in order: a handle comes with the modifier, and holds the installed key
and nothing else exactly when the stream is secured. -/
structure StreamContextOk (c : MSSrtpStreamContext) (key : Option SrtpPolicy) : Prop where
  modifier : c.srtp.isSome = true → c.modifier = true
  secured : c.secured = true → ∃ policy, key = some policy ∧ c.srtp = some [policy]
  unsecured : c.secured = false → c.srtp = none ∨ c.srtp = some []

theorem fillSrtpContext_spec (createErr : Int) {c : MSSrtpStreamContext}
    {key : Option SrtpPolicy} (hc : StreamContextOk c key) : ((fillSrtpContext createErr c).1 = 0 ∧
        (fillSrtpContext createErr c).2 = { c with srtp := some [], modifier := true }) ∨
      ((fillSrtpContext createErr c).1 ≠ 0 ∧ createErr ≠ 0 ∧
        (fillSrtpContext createErr c).2 = { c with srtp := none }) := by
  obtain ⟨srtp, modifier, secured, mandatory⟩ := c
  unfold fillSrtpContext
  cases secured with
  | true =>
    obtain ⟨policy, -, hsrtp⟩ := hc.secured rfl
    subst hsrtp
    by_cases he : createErr = 0 <;> simp [he]
  | false =>
    have hsrtp := hc.unsecured rfl
    rcases hsrtp with rfl | rfl
    · by_cases he : createErr = 0 <;> simp [he]
    · simp

theorem addSrtpStream_spec (addErr : Int) (srtp : SrtpSession) (policy : SrtpPolicy) :
    addSrtpStream addErr srtp policy = (0, policy :: srtp) ∨
      ((addSrtpStream addErr srtp policy).1 ≠ 0 ∧ (addSrtpStream addErr srtp policy).2 = srtp) := by
  unfold addSrtpStream
  cases setSrtpCryptoPolicy policy.suite with
  | none => simp
  | some cipherKeyLen =>
    by_cases hl : policy.key.length = cipherKeyLen
    · by_cases he : addErr = 0 <;> simp [hl, he]
    · simp [hl]

theorem streamContextOk_installed (c : MSSrtpStreamContext) (policy : SrtpPolicy)
    (hm : c.modifier = true) :
    StreamContextOk { c with srtp := some [policy], secured := true } (some policy) where
  modifier := fun _ => hm
  secured := fun _ => ⟨policy, rfl, rfl⟩
  unsecured := fun h => (nomatch h)

theorem streamContextOk_empty (c : MSSrtpStreamContext) (srtp : Option SrtpSession)
    (key : Option SrtpPolicy) (hs : srtp = none ∨ srtp = some [] ∧ c.modifier = true) :
    StreamContextOk { c with srtp := srtp, secured := false } key where
  modifier := fun h => by
    rcases hs with rfl | ⟨-, hm⟩
    · cases h
    · exact hm
  secured := fun h => (nomatch h)
  unsecured := fun _ => hs.imp id And.left

theorem setSrtpKeyBase_frame (k : KeyInstall) (s r : Bool) (ctx : MSSrtpCtx) :
    ∃ c, (setSrtpKeyBase k s r ctx).2 = ctx.setStreamContext c s r := by
  unfold setSrtpKeyBase
  dsimp only
  split
  · exact ⟨_, rfl⟩
  · split
    · exact ⟨_, rfl⟩
    · exact ⟨_, rfl⟩

theorem setSrtpKeyBase_spec {k : KeyInstall} {s r : Bool} {ctx : MSSrtpCtx}
    {key : Option SrtpPolicy} (hc : StreamContextOk (ctx.getStreamContext s r) key) :
    ∃ c, (setSrtpKeyBase k s r ctx).2 = ctx.setStreamContext c s r ∧
      c.mandatoryEnabled = (ctx.getStreamContext s r).mandatoryEnabled ∧
      ((ctx.getStreamContext s r).modifier = true → c.modifier = true) ∧
      ((setSrtpKeyBase k s r ctx).1 = 0 ∧ StreamContextOk c (some (k.policy s)) ∧
          c.modifier = true ∨ (setSrtpKeyBase k s r ctx).1 ≠ 0 ∧ StreamContextOk c key) := by
  have hfill := fillSrtpContext_spec (k.createErr r) hc
  unfold setSrtpKeyBase
  generalize fillSrtpContext (k.createErr r) (ctx.getStreamContext s r) = filled at hfill ⊢
  obtain ⟨error, c⟩ := filled
  dsimp only at hfill ⊢
  rcases hfill with ⟨rfl, rfl⟩ | ⟨herr, -, rfl⟩
  · rw [if_neg (not_not_intro rfl)]
    have hadd := addSrtpStream_spec (k.addErr r) [] (k.policy s)
    simp only [Option.getD_some]
    generalize addSrtpStream (k.addErr r) [] (k.policy s) = added at hadd ⊢
    obtain ⟨error, srtp⟩ := added
    rcases hadd with hadd | ⟨herr, hsrtp⟩
    · cases hadd
      exact ⟨_, rfl, rfl, fun _ => rfl, .inl ⟨rfl, streamContextOk_installed
        { ctx.getStreamContext s r with modifier := true } _ rfl, rfl⟩⟩
    · dsimp only at herr hsrtp ⊢
      rw [if_pos herr, hsrtp]
      exact ⟨_, rfl, rfl, fun _ => rfl, .inr ⟨herr, streamContextOk_empty
        { ctx.getStreamContext s r with modifier := true } _ _ (.inr ⟨rfl, rfl⟩)⟩⟩
  · rw [if_pos herr]
    exact ⟨_, rfl, rfl, id, .inr ⟨herr, streamContextOk_empty _ none _ (.inl rfl)⟩⟩

theorem fillSrtpContext_missing {createErr : Int} {c : MSSrtpStreamContext} (hc : c.srtp = none) :
    fillSrtpContext createErr c = if createErr ≠ 0 then (createErr, c)
      else (0, { c with srtp := some [], modifier := true }) := by
  simp [fillSrtpContext, hc]

section

variable {createErr : Bool → Bool → Int}

theorem fillMissing_cons (s r : Bool) (l : List (Bool × Bool)) (err : Int) (ctx : MSSrtpCtx) :
    fillMissing createErr ((s, r) :: l) err ctx =
      if (ctx.getStreamContext s r).srtp.isSome then fillMissing createErr l err ctx
      else if createErr s r ≠ 0 then (createErr s r, ctx)
      else fillMissing createErr l 0 (ctx.setStreamContext
        { ctx.getStreamContext s r with srtp := some [], modifier := true } s r) := by
  rw [fillMissing]
  cases hs : (ctx.getStreamContext s r).srtp with
  | some _ => rfl
  | none =>
    rw [fillSrtpContext_missing hs]
    by_cases he : createErr s r = 0
    · simp [he]
    · have hself : ctx.setStreamContext (ctx.getStreamContext s r) s r = ctx := by
        cases s <;> cases r <;> rfl
      simp [he, hself]

theorem fillMissing_frame (createErr : Bool → Bool → Int) (l : List (Bool × Bool)) (err : Int) (ctx : MSSrtpCtx) (s r : Bool) :
    (fillMissing createErr l err ctx).2.getStreamContext s r = ctx.getStreamContext s r ∨
      ((ctx.getStreamContext s r).srtp = none ∧
        (fillMissing createErr l err ctx).2.getStreamContext s r =
          { ctx.getStreamContext s r with srtp := some [], modifier := true }) := by
  induction l generalizing err ctx with
  | nil => exact .inl rfl
  | cons p l ih =>
    obtain ⟨s', r'⟩ := p
    rw [fillMissing_cons]
    split
    · exact ih err ctx
    · next hs =>
      split
      · exact .inl rfl
      · have hrest := ih 0 (ctx.setStreamContext
          { ctx.getStreamContext s' r' with srtp := some [], modifier := true } s' r')
        rw [getStreamContext_set] at hrest
        by_cases heq : s' = s ∧ r' = r
        · obtain ⟨rfl, rfl⟩ := heq
          rw [if_pos ⟨rfl, rfl⟩] at hrest
          rcases hrest with h | ⟨h, -⟩
          · exact .inr ⟨by simpa using hs, h⟩
          · cases h
        · rw [if_neg heq] at hrest
          exact hrest

variable {l : List (Bool × Bool)}

variable {ctx : MSSrtpCtx}

theorem fillMissing_isSome {err : Int} {s r : Bool}
    (h : (ctx.getStreamContext s r).srtp.isSome = true) :
    ((fillMissing createErr l err ctx).2.getStreamContext s r).srtp.isSome = true := by
  rcases fillMissing_frame createErr l err ctx s r with heq | ⟨hnone, -⟩
  · rw [heq]
    exact h
  · rw [hnone] at h
    cases h

theorem fillMissing_filled {err : Int}
    (h : (fillMissing createErr l err ctx).1 = 0) {s r : Bool} (hp : (s, r) ∈ l) :
    ((fillMissing createErr l err ctx).2.getStreamContext s r).srtp.isSome = true := by
  induction l generalizing err ctx with
  | nil => cases hp
  | cons q l ih =>
    rw [fillMissing_cons] at h ⊢
    split at h
    · next hs =>
      rw [if_pos hs]
      rcases mem_cons.mp hp with heq | hp
      · cases heq
        exact fillMissing_isSome hs
      · exact ih h hp
    · next hs =>
      rw [if_neg hs]
      split at h
      · next he => omega
      · next he =>
        rw [if_neg he]
        rcases mem_cons.mp hp with heq | hp
        · cases heq
          apply fillMissing_isSome
          rw [getStreamContext_set, if_pos ⟨rfl, rfl⟩]
          rfl
        · exact ih h hp

theorem fillMissing_succeeds {err : Int}
    (hcreate : ∀ s r, (ctx.getStreamContext s r).srtp = none → createErr s r = 0)
    (hmissing : err = 0 ∨ ∃ s r, (s, r) ∈ l ∧ (ctx.getStreamContext s r).srtp = none) :
    (fillMissing createErr l err ctx).1 = 0 := by
  induction l generalizing err ctx with
  | nil =>
    rcases hmissing with h | ⟨s, r, hp, -⟩
    · exact h
    · cases hp
  | cons q l ih =>
    obtain ⟨s', r'⟩ := q
    rw [fillMissing_cons]
    split
    · next hs =>
      apply ih hcreate
      rcases hmissing with h | ⟨s, r, hp, hnone⟩
      · exact .inl h
      · rcases mem_cons.mp hp with heq | hp
        · cases heq
          rw [hnone] at hs
          cases hs
        · exact .inr ⟨s, r, hp, hnone⟩
    · next hs =>
      have hs' : (ctx.getStreamContext s' r').srtp = none := by simpa using hs
      rw [if_neg (not_not_intro (hcreate s' r' hs'))]
      apply ih
      · intro s r hnone
        rw [getStreamContext_set] at hnone
        split at hnone
        · cases hnone
        · exact hcreate s r hnone
      · exact .inl rfl

end

section

variable {σ : Type} {protect : σ → Bool → SrtpSession → List UInt8 → Int × List UInt8}

/-- What holds in every state of a run that meets the condition. -/
structure RunInv (protect : σ → Bool → SrtpSession → List UInt8 → Int × List UInt8)
    (st : MSSrtpCtx × List (Event σ)) : Prop where
  streams : ∀ r, StreamContextOk (st.1.getStreamContext true r) (lastKey r st.2)
  required : ∀ r, Required r st.2 → (st.1.getStreamContext true r).modifier = true
  mandatory : .mandatory 0 ∈ st.2 → st.1.sendRtpContext.mandatoryEnabled = true
  history : NothingInClear protect st.2

theorem required_cons {r : Bool} {e : Event σ} {hist : List (Event σ)}
    (h : Required r (e :: hist)) :
    e = .mandatory 0 ∨ (∃ policy, e = .keyInstalled true r policy) ∨ Required r hist := by
  rcases h with h | ⟨policy, h⟩
  · rcases mem_cons.mp h with h | h
    · exact .inl h.symm
    · exact .inr (.inr (.inl h))
  · rcases mem_cons.mp h with h | h
    · exact .inr (.inl ⟨policy, h.symm⟩)
    · exact .inr (.inr (.inr ⟨policy, h⟩))

theorem sendThroughModifier_spec {s : σ} {isRtp : Bool} {c : MSSrtpStreamContext}
    {hist : List (Event σ)} {m : List UInt8} (hc : StreamContextOk c (lastKey isRtp hist))
    (hm : c.modifier = true) (hlen : rtpFixedHeaderSize < m.length) (hv : headerVersion m = 2) :
    ProtectedOrDropped protect s isRtp m (sendThroughModifier (protect s isRtp) c m) hist := by
  unfold sendThroughModifier processOnSend
  rw [if_pos hm, if_pos ⟨hlen, hv⟩]
  by_cases hs : c.secured = true
  · obtain ⟨policy, hkey, hsrtp⟩ := hc.secured hs
    rw [if_pos hs, hsrtp]
    dsimp
    split
    · next herr =>
      split
      · exact .inl rfl
      · exact .inr ⟨policy, _, hkey, Prod.ext herr rfl, rfl⟩
    · exact .inl rfl
  · rw [if_neg hs]
    exact .inl rfl

variable {st : MSSrtpCtx × List (Event σ)}

theorem RunInv.write (h : RunInv protect st) {ctx : MSSrtpCtx} {e : Event σ}
    (hkey : ∀ r, lastKey r (e :: st.2) = lastKey r st.2)
    (hstreams : ∀ r, StreamContextOk (ctx.getStreamContext true r) (lastKey r st.2))
    (hmod : ∀ r, (st.1.getStreamContext true r).modifier = true → (ctx.getStreamContext true
      r).modifier = true) (he : ∀ r, e ≠ .mandatory 0 ∧ ∀ policy, e ≠ .keyInstalled true r policy)
    (hmand : ctx.sendRtpContext.mandatoryEnabled = st.1.sendRtpContext.mandatoryEnabled)
    (hok : EventOk protect st.2 e) : RunInv protect (ctx, e :: st.2) where
  streams := fun r => by
    rw [hkey r]
    exact hstreams r
  required := fun r hr => by
    rcases required_cons hr with heq | ⟨policy, heq⟩ | hr
    · exact absurd heq (he r).1
    · exact absurd heq ((he r).2 policy)
    · exact hmod r (h.required r hr)
  mandatory := fun hm => by
    rcases mem_cons.mp hm with heq | hm
    · exact absurd heq.symm (he true).1
    · rw [hmand]
      exact h.mandatory hm
  history := ⟨hok, h.history⟩

theorem RunInv.send (h : RunInv protect st) (s : σ) (isRtp : Bool) {m : List UInt8}
    (hm : headerVersion m = 2 → rtpFixedHeaderSize < m.length) :
    RunInv protect (step protect st (.send s isRtp m)) := by
  apply h.write
  · exact fun _ => rfl
  · exact h.streams
  · exact fun _ => id
  · exact fun _ => ⟨fun h => (nomatch h), fun _ h => (nomatch h)⟩
  · rfl
  · intro hv hr
    have hmod : (st.1.getStreamContext true isRtp).modifier = true := hr.elim id (h.required isRtp)
    exact sendThroughModifier_spec (h.streams isRtp) hmod (hm hv) hv

theorem RunInv.installRecv (h : RunInv protect st) (k : KeyInstall) (isRtp : Bool) {e : Event σ}
    (he : e = .keyRefused false isRtp ∨ ∃ policy, e = .keyInstalled false isRtp policy) :
    RunInv protect ((setSrtpKeyBase k false isRtp st.1).2, e :: st.2) := by
  obtain ⟨c, hc⟩ := setSrtpKeyBase_frame k false isRtp st.1
  have hsend : ∀ r, (st.1.setStreamContext c false isRtp).getStreamContext true r =
      st.1.getStreamContext true r := by
    intro r
    rw [getStreamContext_set, if_neg fun h => (nomatch h.1)]
  rw [hc]
  apply h.write
  · intro r
    rcases he with rfl | ⟨policy, rfl⟩ <;> rfl
  · intro r
    rw [hsend]
    exact h.streams r
  · intro r hr
    rw [hsend]
    exact hr
  · intro r
    rcases he with rfl | ⟨policy, rfl⟩
    · exact ⟨fun h => (nomatch h), fun _ h => (nomatch h)⟩
    · exact ⟨fun h => (nomatch h), fun _ h => (nomatch h)⟩
  · exact congrArg MSSrtpStreamContext.mandatoryEnabled (hsend true)
  · rcases he with rfl | ⟨policy, rfl⟩ <;> exact trivial

theorem RunInv.installSend (h : RunInv protect st) (k : KeyInstall) (isRtp : Bool) :
    RunInv protect ((setSrtpKeyBase k true isRtp st.1).2,
      (if (setSrtpKeyBase k true isRtp st.1).1 ≠ 0 then .keyRefused true isRtp
        else .keyInstalled true isRtp (k.policy true)) :: st.2) := by
  obtain ⟨c, hc, hmand, hmod, hcases⟩ := setSrtpKeyBase_spec (k := k) (h.streams isRtp)
  have hmand' : (st.1.setStreamContext c true isRtp).sendRtpContext.mandatoryEnabled =
      st.1.sendRtpContext.mandatoryEnabled := by
    cases isRtp with
    | true => exact hmand
    | false => rfl
  have hmods : ∀ r, (st.1.getStreamContext true r).modifier = true →
      ((st.1.setStreamContext c true isRtp).getStreamContext true r).modifier = true := by
    intro r hr
    rw [getStreamContext_set]
    split
    · next heq =>
      obtain ⟨-, rfl⟩ := heq
      exact hmod hr
    · exact hr
  rw [hc]
  rcases hcases with ⟨herr, hok, hcmod⟩ | ⟨herr, hok⟩
  · rw [if_neg (not_not_intro herr)]
    constructor
    · intro r
      rw [getStreamContext_set, lastKey]
      by_cases hr : isRtp = r
      · subst hr
        simpa using hok
      · simp only [hr, and_false, if_false]
        exact h.streams r
    · intro r hreq
      rcases required_cons hreq with heq | ⟨policy, heq⟩ | hreq
      · cases heq
      · cases heq
        rw [getStreamContext_set, if_pos ⟨rfl, rfl⟩]
        exact hcmod
      · exact hmods r (h.required r hreq)
    · intro hm
      rcases mem_cons.mp hm with heq | hm
      · cases heq
      · exact hmand'.trans (h.mandatory hm)
    · exact ⟨trivial, h.history⟩
  · rw [if_pos herr]
    apply h.write
    · exact fun _ => rfl
    · intro r
      rw [getStreamContext_set]
      split
      · next heq =>
        obtain ⟨-, rfl⟩ := heq
        exact hok
      · exact h.streams r
    · exact hmods
    · exact fun r => ⟨fun h => (nomatch h), fun _ h => (nomatch h)⟩
    · exact hmand'
    · exact trivial

theorem RunInv.installKeys (h : RunInv protect st) (k : KeyInstall) (isSend : Bool)
    (l : List Bool) : RunInv protect (installKeys k isSend l st) := by
  induction l generalizing st with
  | nil => exact h
  | cons isRtp l ih =>
    rw [Srtp.installKeys]
    dsimp only
    cases isSend with
    | true =>
      have hstep := h.installSend k isRtp
      split
      · next herr =>
        rw [if_pos herr] at hstep
        exact hstep
      · next herr =>
        rw [if_neg herr] at hstep
        exact ih hstep
    | false =>
      split
      · exact h.installRecv k isRtp (.inl rfl)
      · exact ih (h.installRecv k isRtp (.inr ⟨_, rfl⟩))

theorem mem_allStreams (s r : Bool) :
    (s, r) ∈ [(true, true), (true, false), (false, true), (false, false)] := by
  cases s <;> cases r <;> simp

theorem fillMissing_ok (createErr : Bool → Bool → Int) (l : List (Bool × Bool)) (err : Int)
    {ctx : MSSrtpCtx} {s r : Bool} {key : Option SrtpPolicy}
    (hc : StreamContextOk (ctx.getStreamContext s r) key) :
    StreamContextOk ((fillMissing createErr l err ctx).2.getStreamContext s r) key ∧
      ((fillMissing createErr l err ctx).2.getStreamContext s r).mandatoryEnabled =
        (ctx.getStreamContext s r).mandatoryEnabled ∧ ((ctx.getStreamContext s r).modifier = true →
        ((fillMissing createErr l err ctx).2.getStreamContext s r).modifier = true) := by
  rcases fillMissing_frame createErr l err ctx s r with heq | ⟨hnone, heq⟩
  · rw [heq]
    exact ⟨hc, rfl, id⟩
  · rw [heq]
    refine ⟨⟨fun _ => rfl, fun hs => ?_, fun _ => .inr rfl⟩, rfl, fun _ => rfl⟩
    -- without a handle the stream was not secured
    obtain ⟨policy, -, hsome⟩ := hc.secured hs
    rw [hnone] at hsome
    cases hsome

theorem RunInv.setEncryptionMandatory (h : RunInv protect st) {createErr : Bool → Bool → Int}
    (hop : OpMeets (σ := σ) st.1 (.setEncryptionMandatory createErr)) :
    RunInv protect (step protect st (.setEncryptionMandatory createErr)) := by
  have hfill := fun r => fillMissing_ok createErr
    [(true, true), (true, false), (false, true), (false, false)] (-1) (h.streams r)
  have hagain : .mandatory 0 ∈ st.2 → (fillSrtpContextAllStream createErr st.1).1 = 0 := by
    intro hm
    obtain ⟨⟨s, r, hnone⟩, hcreate⟩ := hop (h.mandatory hm)
    exact fillMissing_succeeds hcreate (.inr ⟨s, r, mem_allStreams s r, hnone⟩)
  unfold step Srtp.setEncryptionMandatory
  simp only [Option.getD_some, if_true]
  by_cases herr : (fillSrtpContextAllStream createErr st.1).1 = 0
  · rw [if_neg (not_not_intro herr)]
    have hsome : ∀ r, ((fillSrtpContextAllStream createErr st.1).2.getStreamContext true
        r).srtp.isSome = true := fun r => fillMissing_filled herr (mem_allStreams true r)
    constructor
    · intro r
      have hok := (hfill r).1
      cases r with
      | true => exact ⟨hok.modifier, hok.secured, hok.unsecured⟩
      | false => exact ⟨hok.modifier, hok.secured, hok.unsecured⟩
    · intro r _
      have hmod := (hfill r).1.modifier (hsome r)
      cases r with
      | true => exact hmod
      | false => exact hmod
    · exact fun _ => rfl
    · exact ⟨fun _ => rfl, h.history⟩
  · rw [if_pos herr]
    apply h.write
    · exact fun _ => rfl
    · exact fun r => (hfill r).1
    · exact fun r => (hfill r).2.2
    · exact fun r => ⟨fun heq => herr (by injection heq), fun _ heq => (nomatch heq)⟩
    · exact (hfill true).2.1
    · exact fun hm => absurd (hagain hm) herr

theorem RunInv.step {st : MSSrtpCtx × List (Event σ)} (h : RunInv protect st) {op : Op σ}
    (hop : OpMeets st.1 op) : RunInv protect (step protect st op) := by
  cases op with
  | setEncryptionMandatory createErr => exact h.setEncryptionMandatory hop
  | setSrtpKey k isSend streamType => exact h.installKeys k isSend streamType.streams
  | send s isRtp m => exact h.send s isRtp hop

theorem RunInv.run (h : RunInv protect st) {ops : List (Op σ)}
    (hops : RunMeets protect ops st) : RunInv protect (ops.foldl (Srtp.step protect) st) := by
  induction ops generalizing st with
  | nil => exact h
  | cons op ops ih => exact ih (h.step hops.1) hops.2

theorem RunInv.init : RunInv protect ({}, []) where
  streams := fun r => by
    cases r <;> exact ⟨fun h => (nomatch h), fun h => (nomatch h), fun _ => .inl rfl⟩
  required := fun r h => by
    rcases h with h | ⟨policy, h⟩ <;> cases h
  mandatory := fun h => (nomatch h)
  history := trivial

end

/-- In every run whose calls meet the condition, a version-2 packet that is handed to a send
modifier, and from the moment encryption is required every one, is dropped or leaves as
`srtp_protect` made it under the last key installed; and encryption can be required again. -/
theorem run_nothingInClear {σ : Type}
    (protect : σ → Bool → SrtpSession → List UInt8 → Int × List UInt8) (ops : List (Op σ))
    (hops : RunMeets protect ops ({}, [])) : NothingInClear protect (run protect ops).2 :=
  (RunInv.init.run hops).history

/-- An AES-128 key of the length that its policy asks for. -/
def sampleKey (createErr : Int) : KeyInstall where
  suite := .aes128Sha1_80
  key := List.replicate 30 7
  sendSsrc := 1
  createErr := fun _ => createErr
  addErr := fun _ => 0

/-- Encryption required, a key installed, a packet of 13 bytes, an installation that loses the
handle, and encryption required again. -/
theorem run_nothingInClear_again :
    NothingInClear (fun _ _ _ m => (0, 0xFF :: m)) (run (fun (_ : Unit) _ _ m => (0, 0xFF :: m))
      [.setEncryptionMandatory fun _ _ => 0, .setSrtpKey (sampleKey 0) true .rtpStream,
        .send () true (0x80 :: List.replicate 12 0), .setSrtpKey (sampleKey 3) true .rtpStream,
        .setEncryptionMandatory fun _ _ => 0]).2 := by
  apply run_nothingInClear
  refine ⟨fun h => (nomatch h), trivial, fun _ => by decide, trivial, fun _ => ⟨?_, ?_⟩, trivial⟩
  · exact ⟨true, true, by decide⟩
  · exact fun _ _ _ => rfl

/-- Once encryption is required, an RTCP packet of 8 bytes leaves in clear, and requiring
encryption again fails. -/
theorem run_nothingInClear_shortRtcp :
    ¬ NothingInClear (fun _ _ _ m => (0, 0xFF :: m)) (run (fun (_ : Unit) _ _ m => (0, 0xFF :: m))
      [.setEncryptionMandatory fun _ _ => 0, .send () false [0x80, 0xC9, 0, 1, 0, 0, 0, 1]]).2 ∧
    ¬ NothingInClear (fun _ _ _ m => (0, 0xFF :: m)) (run (fun (_ : Unit) _ _ m => (0, 0xFF :: m))
      [.setEncryptionMandatory fun _ _ => 0, .setEncryptionMandatory fun _ _ => 0]).2 := by
  constructor
  · intro h
    rcases h.1 (by decide) (.inl rfl) with hnone | ⟨policy, out, hkey, -⟩
    · cases hnone
    · cases hkey
  · intro h
    exact absurd (h.1 mem_cons_self) (by decide)

end GrooveIp.Srtp
