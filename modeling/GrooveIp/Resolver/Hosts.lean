import GrooveIp.Resolver.Resolution

/-!
# Resolving a host

The context of a host waits until its questions are answered, and then gives all its addresses, the
IPv6 ones first, whichever question was answered first. The ttl that it gives is that of the IPv4
records when only these are asked for, and `UINT32_MAX` otherwise.
-/

namespace GrooveIp.Resolver

open List DualContext

variable {A : Type}

/-- The smallest of some ttls, or `UINT32_MAX`. -/
def smallestTtl (ttls : List ℕ) : ℕ := ttls.foldr min uint32Max

theorem le_smallestTtl {x : ℕ} {ttls : List ℕ} :
    x ≤ smallestTtl ttls ↔ x ≤ uint32Max ∧ ∀ t ∈ ttls, x ≤ t := by
  unfold smallestTtl
  induction ttls with
  | nil => simp
  | cons t ttls ih =>
    rw [foldr_cons, Nat.le_min, ih, forall_mem_cons]
    exact and_left_comm

/-- The records of a host that are asked for. -/
def Env.used (env : Env A) (host : Host) : List (AddrRecord A) :=
  if (env.literalOf host).isSome then []
  else if env.family = .inet then env.records host false
  else env.records host true ++ env.records host false

/-- The addresses of a host. -/
def Env.addresses (env : Env A) (host : Host) : List A :=
  (env.literalOf host).getD ((env.used host).map (·.addr))

/-- The ttl that the context of a host gives. -/
def Env.reportedTtl (env : Env A) (host : Host) : ℕ :=
  if env.family = .inet then smallestTtl ((env.used host).map (·.ttl)) else uint32Max

/-- What the context of a host gives. -/
def Env.notification (env : Env A) (host : Host) : Notification A :=
  ⟨env.addresses host, env.reportedTtl host⟩

/-! ### Simple contexts -/

theorem foldl_addRecord (answer : List (AddrRecord A)) (ctx : SimpleContext A) :
    answer.foldl SimpleContext.addRecord ctx =
      { base := { ctx.base with
          minTtl := (answer.map (·.ttl)).foldl (fun m t => min t m) ctx.base.minTtl }
        aiList := ctx.aiList ++ answer.map (·.addr) } := by
  induction answer generalizing ctx with
  | nil => simp
  | cons rr answer ih =>
    rw [foldl_cons, ih]
    simp [SimpleContext.addRecord, Base.lowerTtl]

/-- Lowering a ttl one by one takes the smallest. -/
theorem foldl_min_eq_smallestTtl (ttls : List ℕ) :
    ttls.foldl (fun m t => min t m) uint32Max = smallestTtl ttls := by
  have key (m : ℕ) : ttls.foldl (fun m t => min t m) m = ttls.foldr min m := by
    induction ttls generalizing m with
    | nil => rfl
    | cons t ttls ih =>
      rw [foldl_cons, ih, foldr_cons]
      have swap : ∀ l : List ℕ, l.foldr min (min t m) = min t (l.foldr min m) := by
        intro l
        induction l with
        | nil => rfl
        | cons a l ihl => rw [foldr_cons, ihl, foldr_cons, Nat.min_left_comm]
      exact swap ttls
  exact key uint32Max

theorem processData_fresh (answer : List (AddrRecord A)) :
    ∃ ctx : SimpleContext A, ({} : SimpleContext A).processData answer =
        (ctx, some ⟨answer.map (·.addr), smallestTtl (answer.map (·.ttl))⟩) ∧
      ctx.base.canBeNotified = false := by
  refine ⟨{ base := { minTtl := smallestTtl (answer.map (·.ttl)), notified := true } }, ?_, rfl⟩
  unfold SimpleContext.processData
  rw [foldl_addRecord]
  simp only [Base.canBeNotified, Bool.or_self, Bool.not_false, if_true, nil_append,
    foldl_min_eq_smallestTtl]

/-! ### Contexts of hosts -/

/-- One half of a dual context: not answered, or with the addresses of the answer. -/
def HalfDone (ctx : SimpleContext A) (notified : Bool) (results answer : List A) : Prop :=
  ctx = {} ∧ notified = false ∨ ctx.base.canBeNotified = false ∧ notified = true ∧ results = answer

/-- The context waits for an answer. -/
inductive HostContext.Waiting (env : Env A) (host : Host) : HostContext A → Prop where
  | single (hlit : env.literalOf host = none) (h : env.family = .inet) :
    Waiting env host (.single {})
  | dual (ctx : DualContext A) (hlit : env.literalOf host = none) (h : env.family ≠ .inet)
    (base : ctx.base = {})
      (v4 : HalfDone ctx.aCtx ctx.aNotified ctx.aResults ((env.records host false).map (·.addr)))
      (v6 : HalfDone ctx.aaaaCtx ctx.aaaaNotified ctx.aaaaResults
        ((env.records host true).map (·.addr)))
      (open_ : (ctx.aNotified && ctx.aaaaNotified) = false) : Waiting env host (.dual ctx)

open HostContext

/-- The context asks no more. -/
def HostContext.Settled (r : HostContext A) : Prop := ∀ v6, r.pending v6 = false

/-- A context waits, or it has settled and given what the host resolves to. -/
inductive Outcome (env : Env A) (host : Host) : HostContext A × Option (Notification A) → Prop where
  | waiting {r : HostContext A} (h : r.Waiting env host) : Outcome env host (r, none)
  | settled {r : HostContext A} (h : r.Settled) : Outcome env host (r, some (env.notification host))

/-- A context that waits asks. -/
theorem HostContext.Waiting.exists_pending {env : Env A} {host : Host} {r : HostContext A}
    (h : r.Waiting env host) : ∃ v6, r.pending v6 = true := by
  cases h with
  | single => exact ⟨false, rfl⟩
  | dual ctx _ _ _ v4 v6 open_ =>
    rcases v4 with ⟨hctx, -⟩ | ⟨-, h4, -⟩
    · exact ⟨false, by simp [HostContext.pending, hctx, Base.canBeNotified]⟩
    · rcases v6 with ⟨hctx, -⟩ | ⟨-, h6, -⟩
      · exact ⟨true, by simp [HostContext.pending, hctx, Base.canBeNotified]⟩
      · simp [h4, h6] at open_

section Dual

variable {env : Env A} {host : Host}

theorem notification_dual (hfam : env.family ≠ .inet) (hlit : env.literalOf host = none) :
    env.notification host =
      ⟨(env.records host true).map (·.addr) ++ (env.records host false).map (·.addr),
        uint32Max⟩ := by
  simp [Env.notification, Env.addresses, Env.reportedTtl, Env.used, hfam, hlit]

variable {ctx : DualContext A}

theorem checkFinished_open (h : (ctx.aNotified && ctx.aaaaNotified) = false) :
    ctx.checkFinished = (ctx, none) := by
  rw [checkFinished, Bool.and_assoc, h, Bool.and_false]
  rfl

theorem checkFinished_done (base : ctx.base = {}) (h4 : ctx.aNotified = true)
    (h6 : ctx.aaaaNotified = true) : ctx.checkFinished =
      ({ ctx with base := { ctx.base with notified := true }, aResults := [], aaaaResults := [] },
        some ⟨ctx.aaaaResults ++ ctx.aResults, uint32Max⟩) := by
  rw [checkFinished, base, h4, h6]
  rfl

theorem answer_dual_false (h : (dual ctx).Waiting env host)
    (hp : (dual ctx).pending false = true) :
    Outcome env host ((dual ctx).answer false (env.records host false)) := by
  cases h with
  | dual _ hlit hfam base v4 v6 open_ =>
    rcases v4 with ⟨hctx, h4⟩ | ⟨hnot, -, -⟩
    · obtain ⟨c, hprocess, hc⟩ := processData_fresh (env.records host false)
      simp only [HostContext.answer, hctx, hprocess, onIpv4Results]
      rcases v6 with ⟨h6ctx, h6⟩ | ⟨h6ctx, h6, hresults⟩
      · rw [checkFinished_open (by simpa using h6)]
        exact .waiting (.dual _ hlit hfam base (.inr ⟨hc, rfl, rfl⟩) (.inl ⟨h6ctx, h6⟩)
          (by simpa using h6))
      · rw [checkFinished_done (by exact base) rfl (by exact h6)]
        simp only [hresults]
        rw [← notification_dual hfam hlit]
        refine .settled fun v6 => ?_
        cases v6
        · exact hc
        · exact h6ctx
    · simp [HostContext.pending, hnot] at hp

theorem answer_dual_true (h : (dual ctx).Waiting env host)
    (hp : (dual ctx).pending true = true) :
    Outcome env host ((dual ctx).answer true (env.records host true)) := by
  cases h with
  | dual _ hlit hfam base v4 v6 open_ =>
    rcases v6 with ⟨hctx, h6⟩ | ⟨hnot, -, -⟩
    · obtain ⟨c, hprocess, hc⟩ := processData_fresh (env.records host true)
      simp only [HostContext.answer, hctx, hprocess, onIpv6Results]
      rcases v4 with ⟨h4ctx, h4⟩ | ⟨h4ctx, h4, hresults⟩
      · rw [checkFinished_open (by simpa using h4)]
        exact .waiting (.dual _ hlit hfam base (.inl ⟨h4ctx, h4⟩) (.inr ⟨hc, rfl, rfl⟩)
          (by simpa using h4))
      · rw [checkFinished_done (by exact base) (by exact h4) rfl]
        simp only [hresults]
        rw [← notification_dual hfam hlit]
        refine .settled fun v6 => ?_
        cases v6
        · exact h4ctx
        · exact hc
    · simp [HostContext.pending, hnot] at hp

/-- An answer to a question that is asked. -/
theorem HostContext.Waiting.answer {r : HostContext A}
    (h : r.Waiting env host) {v6 : Bool} (hp : r.pending v6 = true) :
    Outcome env host (r.answer v6 (env.records host v6)) := by
  cases h with
  | single hlit hfam =>
    cases v6 with
    | true => simp [HostContext.pending] at hp
    | false =>
      obtain ⟨c, hprocess, hc⟩ := processData_fresh (env.records host false)
      have hn : env.notification host = ⟨(env.records host false).map (·.addr),
          smallestTtl ((env.records host false).map (·.ttl))⟩ := by
        simp [Env.notification, Env.addresses, Env.reportedTtl, Env.used, hfam, hlit]
      simp only [HostContext.answer, hprocess, ← hn]
      refine .settled fun v6 => ?_
      simp [HostContext.pending, hc]
  | dual ctx hlit hfam base v4 v6' open_ =>
    cases v6 with
    | false => exact answer_dual_false (.dual ctx hlit hfam base v4 v6' open_) hp
    | true => exact answer_dual_true (.dual ctx hlit hfam base v4 v6' open_) hp

theorem pending_answer_other (ctx : DualContext A) (v6 : Bool) (answer : List (AddrRecord A)) :
    ((dual ctx).answer v6 answer).1.pending (!v6) =
      (dual ctx).pending (!v6) := by
  cases v6 with
  | false =>
    simp only [HostContext.answer]
    rcases ctx.aCtx.processData answer with ⟨c, _ | n⟩
    · rfl
    · simp only [onIpv4Results, checkFinished]
      split <;> rfl
  | true =>
    simp only [HostContext.answer]
    rcases ctx.aaaaCtx.processData answer with ⟨c, _ | n⟩
    · rfl
    · simp only [onIpv6Results, checkFinished]
      split <;> rfl

/-- The context of a host starts to wait, or settles at once. -/
theorem stackResolveA_outcome (env : Env A) (sync : Question → Bool) (host : Host) :
    Outcome env host (stackResolveA env sync host) := by
  unfold stackResolveA
  cases hlit : env.literalOf host with
  | some res =>
    have hn : env.notification host = ⟨res, uint32Max⟩ := by
      by_cases hfam : env.family = .inet <;>
        simp [Env.notification, Env.addresses, Env.reportedTtl, Env.used, hfam, hlit, smallestTtl]
    simp only [← hn]
    exact .settled fun _ => rfl
  | none =>
    by_cases hfam : env.family = .inet
    · simp only [hfam, if_true, ask]
      split
      · exact Waiting.answer (.single hlit hfam) rfl
      · exact .waiting (.single hlit hfam)
    · have hstart : (dual ({} : DualContext A)).Waiting env host :=
        .dual _ hlit hfam rfl (.inl ⟨rfl, rfl⟩) (.inl ⟨rfl, rfl⟩) rfl
      simp only [hfam, if_false, ask]
      by_cases h4 : sync (.addresses host false) = true
      · have hfirst := answer_dual_false hstart rfl
        have hother : _ = true :=
          pending_answer_other ({} : DualContext A) false (env.records host false)
        generalize (dual ({} : DualContext A)).answer false (env.records host false) = o
          at hfirst hother
        cases hfirst with
        | waiting hw =>
          split
          · exact hw.answer hother
          · exact .waiting hw
        | settled hs =>
          exact absurd (hother.symm.trans (hs true)) (by decide)
      · simp only [h4, Bool.false_eq_true, if_false, Option.none_or]
        split
        · exact answer_dual_true hstart rfl
        · exact .waiting hstart

/-- When everything is answered while it is asked, the context of a host settles at once. -/
theorem stackResolveA_sync (env : Env A) (host : Host) :
    ∃ r, stackResolveA env (fun _ => true) host = (r, some (env.notification host)) := by
  have hout := stackResolveA_outcome env (fun _ => true) host
  have hsome : (stackResolveA env (fun _ => true) host).2.isSome = true := by
    unfold stackResolveA
    split
    · rfl
    · split
      · obtain ⟨c, hprocess, -⟩ := processData_fresh (env.records host false)
        simp [ask, HostContext.answer, hprocess]
      · obtain ⟨c, hprocess, -⟩ := processData_fresh (env.records host false)
        obtain ⟨d, hprocess', -⟩ := processData_fresh (env.records host true)
        simp [ask, HostContext.answer, hprocess, hprocess', onIpv4Results,
          onIpv6Results, checkFinished, Base.canBeNotified]
  generalize stackResolveA env (fun _ => true) host = o at hout hsome
  cases hout with
  | settled => exact ⟨_, rfl⟩
  | waiting => cases hsome

end Dual

end GrooveIp.Resolver
