import GrooveIp.Resolver.Servers

/-!
# Resolutions

The contexts of `belle_sip_resolver.c`: a simple context asks one question, a dual one asks for the
IPv6 and the IPv4 addresses of a name, and a combined one asks for the SRV records of a domain and
then for the addresses of every target. A question is answered while it is asked or later, in any
order; what the answers are is fixed by the environment. References and the messages of the log are
left out, and so is a domain that is an address itself.
-/

namespace GrooveIp.Resolver

/-- `UINT32_MAX`. -/
def uint32Max : ℕ := 2 ^ 32 - 1

/-- The families of `belle_sip_stack_resolve`. -/
inductive Family where
  | unspec | inet | inet6
  deriving DecidableEq, Repr

/-- An SRV record of an answer. -/
structure SrvRecord where
  priority : ℕ
  weight : ℕ
  ttl : ℕ
  deriving DecidableEq, Repr

/-- An A or AAAA record of an answer. -/
structure AddrRecord (A : Type) where
  addr : A
  ttl : ℕ
  deriving DecidableEq, Repr

/-- What is resolved to addresses: the target of an SRV record, or the domain itself. -/
inductive Host where
  | target (index : ℕ)
  | domain
  deriving DecidableEq, Repr

/-- A question that a simple context asks: the SRV records, or the AAAA or A records of a host. -/
inductive Question where
  | srv
  | addresses (host : Host) (v6 : Bool)
  deriving DecidableEq, Repr

/-- What a resolution meets: the answers, which have no records when the question fails, the random
numbers, and the targets that are addresses. -/
structure Env (A : Type) where
  family : Family
  srv : List SrvRecord
  random : ℕ → ℕ
  literal : ℕ → Option (List A)
  records : Host → Bool → List (AddrRecord A)

/-- What a callback of a resolution is given. -/
structure Notification (A : Type) where
  addresses : List A
  ttl : ℕ
  deriving DecidableEq, Repr

variable {A : Type}

/-! ### Contexts -/

/-- `struct belle_sip_resolver_context` (`belle_sip_resolver.c:125`). -/
structure Base where
  minTtl : ℕ := uint32Max
  notified : Bool := false
  cancelled : Bool := false
  deriving DecidableEq, Repr

/-- `belle_sip_resolver_context_can_be_cancelled` (`belle_sip_resolver.c:1367`). -/
def Base.canBeNotified (b : Base) : Bool := !(b.cancelled || b.notified)

/-- `if (ttl < min_ttl) min_ttl = ttl`. -/
def Base.lowerTtl (b : Base) (ttl : ℕ) : Base := { b with minTtl := min ttl b.minTtl }

/-- A simple context that asks for addresses (`belle_sip_resolver.c:132`). -/
structure SimpleContext (A : Type) where
  base : Base := {}
  aiList : List A := []

/-- One record of the answer (`belle_sip_resolver.c:555–574`). -/
def SimpleContext.addRecord (ctx : SimpleContext A) (rr : AddrRecord A) : SimpleContext A :=
  { base := ctx.base.lowerTtl rr.ttl, aiList := ctx.aiList ++ [rr.addr] }

/-- `resolver_process_data` with `simple_resolver_context_notify` (`belle_sip_resolver.c:523`,
`465`): the records are taken from the answer and the callback is called. -/
def SimpleContext.processData (ctx : SimpleContext A) (answer : List (AddrRecord A)) :
    SimpleContext A × Option (Notification A) :=
  let ctx := answer.foldl SimpleContext.addRecord ctx
  if ctx.base.canBeNotified then
    ({ base := { ctx.base with notified := true }, aiList := [] },
      some ⟨ctx.aiList, ctx.base.minTtl⟩)
  else (ctx, none)

/-- `struct belle_sip_dual_resolver_context` (`belle_sip_resolver.c:181`). -/
structure DualContext (A : Type) where
  base : Base := {}
  aCtx : SimpleContext A := {}
  aaaaCtx : SimpleContext A := {}
  aResults : List A := []
  aaaaResults : List A := []
  aNotified : Bool := false
  aaaaNotified : Bool := false

/-- `dual_resolver_context_check_finished` with `dual_resolver_context_notify`
(`belle_sip_resolver.c:1373`, `479`). -/
def DualContext.checkFinished (ctx : DualContext A) : DualContext A × Option (Notification A) :=
  if ctx.base.canBeNotified && ctx.aNotified && ctx.aaaaNotified then
    ({ ctx with base := { ctx.base with notified := true }, aResults := [], aaaaResults := [] },
      some ⟨ctx.aaaaResults ++ ctx.aResults, ctx.base.minTtl⟩)
  else (ctx, none)

/-- `on_ipv4_results` (`belle_sip_resolver.c:1379`): the ttl is not read. -/
def DualContext.onIpv4Results (ctx : DualContext A) (n : Notification A) :
    DualContext A × Option (Notification A) :=
  { ctx with aResults := n.addresses, aNotified := true }.checkFinished

/-- `on_ipv6_results` (`belle_sip_resolver.c:1386`): the ttl is not read. -/
def DualContext.onIpv6Results (ctx : DualContext A) (n : Notification A) :
    DualContext A × Option (Notification A) :=
  { ctx with aaaaResults := n.addresses, aaaaNotified := true }.checkFinished

/-- The context that `belle_sip_stack_resolve_a` creates, if any. -/
inductive HostContext (A : Type) where
  | literal
  | single (ctx : SimpleContext A)
  | dual (ctx : DualContext A)

/-- The question is still asked: its context has neither answered nor been cancelled. -/
def HostContext.pending : HostContext A → Bool → Bool
  | .literal, _ => false
  | .single ctx, v6 => !v6 && ctx.base.canBeNotified
  | .dual ctx, false => ctx.aCtx.base.canBeNotified
  | .dual ctx, true => ctx.aaaaCtx.base.canBeNotified

/-- A question of the context is answered: the callbacks go up to its own. -/
def HostContext.answer (r : HostContext A) (v6 : Bool) (answer : List (AddrRecord A)) :
    HostContext A × Option (Notification A) :=
  match r, v6 with
  | .literal, _ => (.literal, none)
  | .single ctx, _ =>
    let (ctx, n) := ctx.processData answer
    (.single ctx, n)
  | .dual ctx, false =>
    let (aCtx, n) := ctx.aCtx.processData answer
    let ctx := { ctx with aCtx := aCtx }
    match n with
    | none => (.dual ctx, none)
    | some n =>
      let (ctx, n) := ctx.onIpv4Results n
      (.dual ctx, n)
  | .dual ctx, true =>
    let (aaaaCtx, n) := ctx.aaaaCtx.processData answer
    let ctx := { ctx with aaaaCtx := aaaaCtx }
    match n with
    | none => (.dual ctx, none)
    | some n =>
      let (ctx, n) := ctx.onIpv6Results n
      (.dual ctx, n)

variable (env : Env A)

/-- The question is answered while it is asked, if the environment does so. -/
def HostContext.ask (sync : Question → Bool) (host : Host) (v6 : Bool)
    (r : HostContext A) : HostContext A × Option (Notification A) :=
  if sync (.addresses host v6) then r.answer v6 (env.records host v6) else (r, none)

/-- The addresses of a target that is one itself. -/
def Env.literalOf : Host → Option (List A)
  | .target index => env.literal index
  | .domain => none

/-- `belle_sip_stack_resolve_a` (`belle_sip_resolver.c:1416`) with `belle_sip_stack_resolve_single`
and `belle_sip_stack_resolve_dual`: the IPv4 question is asked before the IPv6 one. -/
def stackResolveA (sync : Question → Bool) (host : Host) :
    HostContext A × Option (Notification A) :=
  match env.literalOf host with
  | some res => (.literal, some ⟨res, uint32Max⟩)
  | none =>
    if env.family = .inet then (HostContext.single {}).ask env sync host false
    else
      let (r, n) := (HostContext.dual {}).ask env sync host false
      let (r, n') := r.ask env sync host true
      (r, n.or n')

/-! ### Combined contexts -/

/-- A `belle_sip_dns_srv_t` while its target is resolved. -/
structure SrvState (A : Type) where
  srv : Srv
  aDone : Bool := false
  aResults : List A := []
  aResolver : Option (HostContext A) := none

/-- `struct belle_sip_combined_resolver_context` (`belle_sip_resolver.c:168`), with the calls of its
callback. -/
structure CombinedContext (A : Type) where
  base : Base := {}
  srvPending : Bool := true
  srvResults : List (SrvState A) := []
  aFallbackCtx : Option (HostContext A) := none
  callbacks : List (Notification A) := []

namespace CombinedContext

variable (ctx : CombinedContext A)

/-- `combined_resolver_context_notify` (`belle_sip_resolver.c:501`). -/
def notify (finalResults : List A) : CombinedContext A :=
  if ctx.base.canBeNotified then
    { ctx with
      base := { ctx.base with notified := true }
      srvPending := false, srvResults := [], aFallbackCtx := none
      callbacks := ctx.callbacks ++ [⟨finalResults, ctx.base.minTtl⟩] }
  else ctx

/-- `process_a_fallback_result` (`belle_sip_resolver.c:1220`): the ttl is not read. -/
def processAFallbackResult (n : Notification A) : CombinedContext A := ctx.notify n.addresses

/-- `combined_resolver_context_check_finished` (`belle_sip_resolver.c:1226`). -/
def checkFinished (ttl : ℕ) : CombinedContext A :=
  let ctx := { ctx with base := ctx.base.lowerTtl ttl }
  if ctx.srvResults.all (·.aDone) then
    { ctx with srvResults := [] }.notify (ctx.srvResults.flatMap SrvState.aResults)
  else ctx

/-- One of the `belle_sip_dns_srv_t` is changed. -/
def setSrv (srv : Srv) (f : SrvState A → SrvState A) : CombinedContext A :=
  { ctx with srvResults := ctx.srvResults.map fun st => if st.srv = srv then f st else st }

/-- `process_a_from_srv` (`belle_sip_resolver.c:1252`). -/
def processAFromSrv (srv : Srv) (n : Notification A) : CombinedContext A :=
  { ctx.setSrv srv fun st => { st with aResults := n.addresses, aDone := true } with
    base := ctx.base.lowerTtl n.ttl }.checkFinished n.ttl

/-- What comes from the resolution of a target: its context is kept, and its callback called. -/
def resolved (srv : Srv) (r : HostContext A × Option (Notification A)) : CombinedContext A :=
  let ctx := ctx.setSrv srv fun st => { st with aResolver := some r.1 }
  match r.2 with
  | none => ctx
  | some n => ctx.processAFromSrv srv n

/-- `srv_resolve_a` (`belle_sip_resolver.c:1261`). -/
def srvResolveA (env : Env A) (sync : Question → Bool) (srv : Srv) : CombinedContext A :=
  ctx.resolved srv (stackResolveA env sync (.target srv.index))

/-- What comes from the resolution of the domain. -/
def fallbackResolved (r : HostContext A × Option (Notification A)) : CombinedContext A :=
  match r.2 with
  | none => { ctx with aFallbackCtx := some r.1 }
  | some n => ctx.processAFallbackResult n

/-- `process_srv_results` (`belle_sip_resolver.c:1274`). -/
def processSrvResults (env : Env A) (sync : Question → Bool) (srvResults : List Srv) (ttl : ℕ) :
    CombinedContext A :=
  let ctx := { ctx with base := ctx.base.lowerTtl ttl, srvPending := false }
  if srvResults.isEmpty then ctx.fallbackResolved (stackResolveA env sync .domain)
  else
    srvResults.foldl (fun ctx srv => ctx.srvResolveA env sync srv)
      { ctx with srvResults := srvResults.map fun srv => { srv := srv } }

end CombinedContext

/-- The `belle_sip_dns_srv_t` of an answer, sorted as they come (`belle_sip_resolver.c:576–582`). -/
def Env.srvList : List Srv :=
  (env.srv.zipIdx.map fun r => ⟨r.2, r.1.priority, r.1.weight⟩).foldl
    (fun l srv => l.orderedInsert PrioLe srv) []

/-- `min_ttl` after the SRV records of the answer. -/
def Env.srvMinTtl : ℕ :=
  (env.srv.foldl (fun b rr => b.lowerTtl rr.ttl) ({} : Base)).minTtl

/-- The SRV question is answered: `simple_resolver_context_notify` selects by weight
(`belle_sip_resolver.c:474`). -/
def CombinedContext.srvAnswered (sync : Question → Bool) (ctx : CombinedContext A) :
    CombinedContext A :=
  ctx.processSrvResults env sync (srvSelectByWeight env.random env.srvList) env.srvMinTtl

/-! ### Runs -/

/-- A question is answered, or the resolution is cancelled. -/
inductive Event where
  | answered (question : Question)
  | cancel
  deriving DecidableEq, Repr

namespace CombinedContext

variable (ctx : CombinedContext A)

/-- The context of a target, if it is being resolved. -/
def stateOf (index : ℕ) : Option (SrvState A) := ctx.srvResults.find? (·.srv.index = index)

/-- The question is still asked. -/
def pending : Question → Bool
  | .srv => ctx.srvPending
  | .addresses .domain v6 => ctx.aFallbackCtx.any (·.pending v6)
  | .addresses (.target index) v6 =>
    (ctx.stateOf index).any fun st => st.aResolver.any (·.pending v6)

/-- `belle_sip_resolver_context_cancel` with `combined_resolver_context_cancel`
(`belle_sip_resolver.c:1474`, `1105`). -/
def cancel : CombinedContext A :=
  if ctx.base.canBeNotified then
    { ctx with
      base := { ctx.base with cancelled := true }
      srvPending := false, srvResults := [], aFallbackCtx := none }
  else ctx

/-- A target's question is answered, while its context waits for it. -/
def targetAnswered (env : Env A) (index : ℕ) (v6 : Bool) : CombinedContext A :=
  match ctx.stateOf index with
  | some ⟨srv, _, _, some r⟩ =>
    if r.pending v6 then ctx.resolved srv (r.answer v6 (env.records (.target index) v6)) else ctx
  | _ => ctx

/-- The domain's question is answered, while its context waits for it. -/
def domainAnswered (env : Env A) (v6 : Bool) : CombinedContext A :=
  match ctx.aFallbackCtx with
  | some r =>
    if r.pending v6 then ctx.fallbackResolved (r.answer v6 (env.records .domain v6)) else ctx
  | none => ctx

/-- One event of the main loop, or a cancellation. -/
def step (env : Env A) (sync : Question → Bool) : Event → CombinedContext A
  | .answered .srv => if ctx.srvPending then ctx.srvAnswered env sync else ctx
  | .answered (.addresses (.target index) v6) => ctx.targetAnswered env index v6
  | .answered (.addresses .domain v6) => ctx.domainAnswered env v6
  | .cancel => ctx.cancel

end CombinedContext

/-- What is answered while it is asked, and what happens later. -/
structure Schedule where
  sync : Question → Bool
  events : List Event

/-- `belle_sip_stack_resolve` (`belle_sip_resolver.c:1315`): the SRV question is asked. -/
def stackResolve (sync : Question → Bool) : CombinedContext A :=
  if sync .srv then ({} : CombinedContext A).srvAnswered env sync else {}

/-- A resolution under a schedule. -/
def resolve (schedule : Schedule) : CombinedContext A :=
  schedule.events.foldl (fun ctx e => ctx.step env schedule.sync e) (stackResolve env schedule.sync)

end GrooveIp.Resolver
