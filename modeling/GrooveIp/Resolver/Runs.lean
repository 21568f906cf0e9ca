import GrooveIp.Resolver.Hosts

/-!
# Runs of a resolution

Whatever is answered when, a resolution that is not cancelled calls its callback once, with the
addresses of the selected servers in the selected order; what is answered first does not matter.
-/

namespace GrooveIp.Resolver

open List CombinedContext

variable {A : Type}

/-! ### What a resolution gives -/

/-- The servers that are resolved, in order. -/
def Env.selected (env : Env A) : List Srv := srvSelectByWeight env.random env.srvList

/-- The ttl that comes of the SRV records and the targets. -/
def Env.finalTtl (env : Env A) : ℕ :=
  (env.selected.map fun srv => env.reportedTtl (.target srv.index)).foldr min env.srvMinTtl

/-- What the callback is given. -/
def Env.final (env : Env A) : Notification A :=
  if env.selected.isEmpty then ⟨env.addresses .domain, env.srvMinTtl⟩
  else ⟨env.selected.flatMap fun srv => env.addresses (.target srv.index), env.finalTtl⟩

theorem le_foldr_min {x b : ℕ} {l : List ℕ} : x ≤ l.foldr min b ↔ x ≤ b ∧ ∀ t ∈ l, x ≤ t := by
  induction l with
  | nil => simp
  | cons t l ih =>
    rw [foldr_cons, Nat.le_min, ih, forall_mem_cons]
    exact and_left_comm

/-- The ttl of a resolution is the smallest of what it was given. -/
theorem eq_finalTtl (env : Env A) {ttl : ℕ} (h : ∀ x, x ≤ ttl ↔ x ≤ env.srvMinTtl ∧
      ∀ srv ∈ env.selected, x ≤ env.reportedTtl (.target srv.index)) : ttl = env.finalTtl := by
  have hfinal (x : ℕ) : x ≤ env.finalTtl ↔ x ≤ ttl := by
    rw [h, Env.finalTtl, le_foldr_min, forall_mem_map]
  exact Nat.le_antisymm ((hfinal _).mpr (Nat.le_refl _)) ((hfinal _).mp (Nat.le_refl _))

/-! ### Targets -/

/-- A target is done with its addresses, or has not started, or waits. -/
inductive SrvState.Ok (env : Env A) : SrvState A → Prop where
  | done {st : SrvState A} {r : HostContext A} (isDone : st.aDone = true)
      (results : st.aResults = env.addresses (.target st.srv.index))
      (resolver : st.aResolver = some r) (settled : r.Settled) : Ok env st
  | unstarted {st : SrvState A} (notDone : st.aDone = false) (resolver : st.aResolver = none) :
      Ok env st
  | waiting {st : SrvState A} {r : HostContext A} (notDone : st.aDone = false)
      (resolver : st.aResolver = some r) (waits : r.Waiting env (.target st.srv.index)) : Ok env st

/-- The targets are being resolved. -/
structure Resolving (env : Env A) (ctx : CombinedContext A) : Prop where
  base : ctx.base.canBeNotified = true
  srvPending : ctx.srvPending = false
  fallback : ctx.aFallbackCtx = none
  callbacks : ctx.callbacks = []
  order : ctx.srvResults.map (·.srv) = env.selected
  ok : ∀ st ∈ ctx.srvResults, st.Ok env
  open_ : ∃ st ∈ ctx.srvResults, st.aDone = false
  ttl : ∀ x, x ≤ ctx.base.minTtl ↔ x ≤ env.srvMinTtl ∧
    ∀ st ∈ ctx.srvResults, st.aDone = true → x ≤ env.reportedTtl (.target st.srv.index)

/-- The resolution is over: it asks no more. -/
structure Over (ctx : CombinedContext A) : Prop where
  base : ctx.base.canBeNotified = false
  srvPending : ctx.srvPending = false
  srvResults : ctx.srvResults = []
  fallback : ctx.aFallbackCtx = none

/-- The resolution has called its callback. -/
structure Finished (env : Env A) (ctx : CombinedContext A) : Prop extends Over ctx where
  callbacks : ctx.callbacks = [env.final]

section Targets

variable {env : Env A} {ctx : CombinedContext A}

variable {rest : List Srv} (srv : Srv) (r : HostContext A × Option (Notification A))

/-- What the resolution of a target leaves of its state. -/
def SrvState.after (st : SrvState A) : SrvState A :=
  match r.2 with
  | none => { st with aResolver := some r.1 }
  | some n => { st with aResolver := some r.1, aResults := n.addresses, aDone := true }

@[simp] theorem SrvState.after_srv (st : SrvState A) : (st.after r).srv = st.srv := by
  unfold SrvState.after
  split <;> rfl

/-- The states after the resolution of a target. -/
def afterAll (l : List (SrvState A)) : List (SrvState A) :=
  l.map fun st => if st.srv = srv then st.after r else st

theorem afterAll_srv (l : List (SrvState A)) : (afterAll srv r l).map (·.srv) = l.map (·.srv) := by
  unfold afterAll
  rw [map_map]
  apply map_congr_left
  intro st _
  simp only [Function.comp_apply]
  split <;> simp

theorem resolved_eq (ctx : CombinedContext A) (srv : Srv)
    (r : HostContext A × Option (Notification A)) : ctx.resolved srv r = match r.2 with
      | none => { ctx with srvResults := afterAll srv r ctx.srvResults }
      | some n => { ctx with
          srvResults := afterAll srv r ctx.srvResults
          base := ctx.base.lowerTtl n.ttl }.checkFinished n.ttl := by
  rcases r with ⟨r, _ | n⟩
  · rfl
  · simp only [resolved, processAFromSrv, setSrv,
      afterAll, SrvState.after, map_map]
    congr 2
    apply map_congr_left
    intro st _
    by_cases h : st.srv = srv <;> simp [h]

theorem SrvState.ok_after {srv : Srv} {r : HostContext A × Option (Notification A)}
    (ho : Outcome env (.target srv.index) r) {st : SrvState A} (hst : st.Ok env)
    (h : st.srv = srv → st.aDone = false) : (if st.srv = srv then st.after r else st).Ok env := by
  by_cases hsrv : st.srv = srv
  · rw [if_pos hsrv]
    cases ho with
    | waiting hw => exact .waiting (h hsrv) rfl (hsrv ▸ hw)
    | settled hs => exact .done rfl (hsrv ▸ rfl) rfl hs
  · rw [if_neg hsrv]
    exact hst

/-- The resolution of a target goes on, or finishes the whole. -/
theorem Resolving.resolved (h : Resolving env ctx) {srv : Srv} (hmem : srv ∈ env.selected)
    {r : HostContext A × Option (Notification A)} (ho : Outcome env (.target srv.index) r)
    (hsrv : ∀ st ∈ ctx.srvResults, st.srv = srv → st.aDone = false) :
    Resolving env (ctx.resolved srv r) ∧
        (ctx.resolved srv r).srvResults = afterAll srv r ctx.srvResults ∨
      Finished env (ctx.resolved srv r) ∧
        ∀ st ∈ afterAll srv r ctx.srvResults, st.aDone = true := by
  have hok : ∀ st ∈ afterAll srv r ctx.srvResults, st.Ok env := by
    intro st hst
    obtain ⟨old, hold, rfl⟩ := mem_map.mp hst
    exact SrvState.ok_after ho (h.ok old hold) (hsrv old hold)
  have horder : (afterAll srv r ctx.srvResults).map (·.srv) = env.selected :=
    (afterAll_srv srv r ctx.srvResults).trans h.order
  rw [resolved_eq]
  cases ho with
  | waiting hw =>
    refine Or.inl ⟨?_, rfl⟩
    have hdone (old : SrvState A) (x : HostContext A) :
        (if old.srv = srv then old.after (x, none) else old).aDone = old.aDone := by
      split <;> rfl
    exact
      { base := h.base, srvPending := h.srvPending, fallback := h.fallback
        callbacks := h.callbacks, order := horder, ok := hok
        open_ := by
          obtain ⟨st, hst, hopen⟩ := h.open_
          exact ⟨_, mem_map_of_mem hst, (hdone st _).trans hopen⟩
        ttl := by
          intro x
          refine (h.ttl x).trans (and_congr_right fun _ => ?_)
          simp only [afterAll, forall_mem_map, hdone]
          refine forall₂_congr fun st _ => ?_
          split <;> simp }
  | @settled r hs =>
    have httl (x : ℕ) : x ≤ ((ctx.base.lowerTtl (env.reportedTtl (.target srv.index))).lowerTtl
        (env.reportedTtl (.target srv.index))).minTtl ↔ x ≤ env.srvMinTtl ∧
          ∀ st ∈ afterAll srv (r, some (env.notification (.target srv.index))) ctx.srvResults,
            st.aDone = true → x ≤ env.reportedTtl (.target st.srv.index) := by
      simp only [Base.lowerTtl, Nat.le_min, h.ttl, afterAll, forall_mem_map]
      constructor
      · rintro ⟨hx, -, hmin, hall⟩
        refine ⟨hmin, fun st hst => ?_⟩
        by_cases heq : st.srv = srv
        · rw [if_pos heq, SrvState.after_srv, heq]
          exact fun _ => hx
        · simp only [if_neg heq]
          exact hall st hst
      · rintro ⟨hmin, hall⟩
        obtain ⟨st, hst, hstsrv⟩ := mem_map.mp (h.order ▸ hmem)
        have hx : x ≤ env.reportedTtl (.target srv.index) := by
          have := hall st hst
          simpa [hstsrv, SrvState.after] using this
        refine ⟨hx, hx, hmin, fun old hold hdone => ?_⟩
        have := hall old hold
        by_cases heq : old.srv = srv
        · exact heq ▸ hx
        · simp only [if_neg heq] at this
          exact this hdone
    simp only [Env.notification] at httl hok horder ⊢
    generalize afterAll srv _ ctx.srvResults = l at httl hok horder ⊢
    unfold checkFinished
    by_cases hall : l.all (·.aDone) = true
    · simp only [hall, if_true]
      have hdone : ∀ st ∈ l, st.aDone = true := by simpa using hall
      refine Or.inr ⟨?_, hdone⟩
      have hbase : ((ctx.base.lowerTtl (env.reportedTtl (.target srv.index))).lowerTtl
          (env.reportedTtl (.target srv.index))).canBeNotified = true := h.base
      have hfinal : (⟨l.flatMap SrvState.aResults, ((ctx.base.lowerTtl
          (env.reportedTtl (.target srv.index))).lowerTtl
            (env.reportedTtl (.target srv.index))).minTtl⟩ : Notification A) = env.final := by
        have hne : env.selected.isEmpty = false := by
          cases hsel : env.selected with
          | nil => simp [hsel] at hmem
          | cons => rfl
        have haddr : l.flatMap SrvState.aResults =
            env.selected.flatMap fun srv => env.addresses (.target srv.index) := by
          rw [← horder, flatMap_map]
          apply flatMap_congr
          intro st hst
          cases hok st hst with
          | done _ results => exact results
          | unstarted notDone => simp [hdone st hst] at notDone
          | waiting notDone => simp [hdone st hst] at notDone
        have hmin := eq_finalTtl env fun x => (httl x).trans (and_congr_right fun _ => by
          rw [← horder, forall_mem_map]
          exact forall₂_congr fun st hst => by simp [hdone st hst])
        rw [Env.final, hne, haddr, hmin]
        rfl
      simp only [notify, hbase, if_true]
      exact
        { base := by simp [Base.canBeNotified], srvPending := rfl, srvResults := rfl
          fallback := rfl
          callbacks := by
            rw [h.callbacks, hfinal]
            rfl }
    · simp only [hall, Bool.false_eq_true, if_false]
      refine Or.inl ⟨?_, trivial⟩
      exact
        { base := h.base, srvPending := h.srvPending, fallback := h.fallback
          callbacks := h.callbacks, order := horder, ok := hok
          open_ := by simpa using hall
          ttl := httl }

/-! ### The loop over the servers -/

/-- While the loop goes over the servers, those that are left have not started. -/
structure Starting (env : Env A) (ctx : CombinedContext A) (rest : List Srv) : Prop extends
    Resolving env ctx where
  left : ∀ st ∈ ctx.srvResults, st.srv ∈ rest ↔ st.aResolver = none

theorem SrvState.Ok.notDone {st : SrvState A} (h : st.Ok env) (hr : st.aResolver = none) :
    st.aDone = false := by
  cases h with
  | done _ _ resolver => simp [hr] at resolver
  | unstarted notDone => exact notDone
  | waiting notDone => exact notDone

theorem Starting.next {srv : Srv} (h : Starting env ctx (srv :: rest))
    (hnodup : (srv :: rest).Nodup) (hsub : ∀ s ∈ srv :: rest, s ∈ env.selected)
    (sync : Question → Bool) : Starting env (ctx.srvResolveA env sync srv) rest ∧
        (ctx.srvResolveA env sync srv).srvResults =
          afterAll srv (stackResolveA env sync (.target srv.index)) ctx.srvResults ∨
      rest = [] ∧ Finished env (ctx.srvResolveA env sync srv) := by
  have hunstarted : ∀ st ∈ ctx.srvResults, st.srv ∈ srv :: rest → st.aDone = false :=
    fun st hst hmem => (h.ok st hst).notDone ((h.left st hst).mp hmem)
  have hleft : ∀ r : HostContext A × Option (Notification A),
      ∀ st ∈ afterAll srv r ctx.srvResults, st.srv ∈ rest ↔ st.aResolver = none := by
    intro r st hst
    obtain ⟨old, hold, rfl⟩ := mem_map.mp hst
    by_cases heq : old.srv = srv
    · rw [if_pos heq, SrvState.after_srv, heq]
      have hsome : (old.after r).aResolver ≠ none := by
        unfold SrvState.after
        split <;> simp
      simp [(nodup_cons.mp hnodup).1, hsome]
    · rw [if_neg heq, ← h.left old hold]
      simp [heq]
  rcases h.toResolving.resolved (hsub srv (mem_cons_self ..))
      (stackResolveA_outcome env sync (.target srv.index))
      (fun st hst heq => hunstarted st hst (heq ▸ mem_cons_self ..)) with
    ⟨hr, hresults⟩ | ⟨hf, hdone⟩
  · refine Or.inl ⟨⟨hr, fun st hst => hleft (stackResolveA env sync (.target srv.index)) st ?_⟩,
      hresults⟩
    rw [← hresults]
    exact hst
  · refine Or.inr ⟨?_, hf⟩
    cases rest with
    | nil => rfl
    | cons next rest =>
      have hnext := hsub next (by simp)
      obtain ⟨st, hst, hstsrv⟩ := mem_map.mp (h.order ▸ hnext)
      have hne : next ≠ srv := fun heq => by simp [heq] at hnodup
      have hmem : st ∈ afterAll srv (stackResolveA env sync (.target srv.index)) ctx.srvResults :=
        mem_map.mpr ⟨st, hst, by simp [hstsrv, hne]⟩
      have := hunstarted st hst (by simp [hstsrv])
      rw [hdone st hmem] at this
      cases this

theorem Starting.loop (h : Starting env ctx rest) (hnodup : rest.Nodup)
    (hsub : ∀ s ∈ rest, s ∈ env.selected) (sync : Question → Bool) :
    Starting env (rest.foldl (fun ctx srv => ctx.srvResolveA env sync srv) ctx) [] ∨
      Finished env (rest.foldl (fun ctx srv => ctx.srvResolveA env sync srv) ctx) := by
  induction rest generalizing ctx with
  | nil => exact Or.inl h
  | cons srv rest ih =>
    rcases h.next hnodup hsub sync with ⟨hs, -⟩ | ⟨rfl, hf⟩
    · exact ih hs (nodup_cons.mp hnodup).2 fun s hs => hsub s (mem_cons_of_mem srv hs)
    · exact Or.inr hf

theorem Starting.loop_sync (h : Starting env ctx rest) (hnodup : rest.Nodup)
    (hsub : ∀ s ∈ rest, s ∈ env.selected)
    (hdone : ∀ st ∈ ctx.srvResults, st.aResolver ≠ none → st.aDone = true) :
    Finished env (rest.foldl (fun ctx srv => ctx.srvResolveA env (fun _ => true) srv) ctx) := by
  induction rest generalizing ctx with
  | nil =>
    obtain ⟨st, hst, hopen⟩ := h.open_
    have := hdone st hst fun hnone => by simpa using (h.left st hst).mpr hnone
    simp [hopen] at this
  | cons srv rest ih =>
    rcases h.next hnodup hsub fun _ => true with ⟨hs, hresults⟩ | ⟨rfl, hf⟩
    · refine ih hs (nodup_cons.mp hnodup).2
        (fun s hs => hsub s (mem_cons_of_mem srv hs)) fun st hst => ?_
      obtain ⟨r, hr⟩ := stackResolveA_sync env (.target srv.index)
      rw [hresults, hr] at hst
      obtain ⟨old, hold, rfl⟩ := mem_map.mp hst
      split
      · exact fun _ => rfl
      · exact hdone old hold
    · exact hf

end Targets

/-! ### Phases -/

/-- The states of a resolution. -/
inductive Phase (env : Env A) : CombinedContext A → Prop where
  | asking : Phase env {}
  | resolving {ctx : CombinedContext A} (h : Starting env ctx []) : Phase env ctx
  | fallback {ctx : CombinedContext A} {r : HostContext A} (none_selected : env.selected = [])
      (base : ctx.base = { minTtl := env.srvMinTtl }) (srvPending : ctx.srvPending = false)
      (srvResults : ctx.srvResults = []) (callbacks : ctx.callbacks = [])
      (resolver : ctx.aFallbackCtx = some r) (waits : r.Waiting env .domain) : Phase env ctx
  | finished {ctx : CombinedContext A} (h : Finished env ctx) : Phase env ctx

/-- The servers are different records. -/
theorem Env.srvList_perm (env : Env A) :
    env.srvList.Perm (env.srv.zipIdx.map fun r => ⟨r.2, r.1.priority, r.1.weight⟩) := by
  have key (new l : List Srv) :
      (new.foldl (fun l srv => l.orderedInsert PrioLe srv) l).Perm (new ++ l) := by
    induction new generalizing l with
    | nil => exact List.Perm.refl _
    | cons a new ih =>
      exact (ih _).trans (((perm_orderedInsert PrioLe a l).append_left new).trans perm_middle)
  simpa [Env.srvList] using key _ []

/-- The list of servers is sorted by priority. -/
theorem Env.srvList_sorted (env : Env A) : env.srvList.Pairwise PrioLe := by
  have key (new l : List Srv) (h : l.Pairwise PrioLe) :
      (new.foldl (fun l srv => l.orderedInsert PrioLe srv) l).Pairwise PrioLe := by
    induction new generalizing l with
    | nil => exact h
    | cons a new ih =>
      exact ih _ (h.orderedInsert a l)
  exact key _ [] List.Pairwise.nil

/-- The indices of the servers are those of the answer. -/
theorem Env.srvList_index (env : Env A) :
    (env.srvList.map (·.index)).Perm (List.range env.srv.length) := by
  refine (env.srvList_perm.map _).trans ?_
  rw [map_map]
  have : ((fun srv : Srv => srv.index) ∘ fun r : SrvRecord × ℕ =>
      (⟨r.2, r.1.priority, r.1.weight⟩ : Srv)) = Prod.snd := rfl
  rw [this, zipIdx_map_snd, ← range_eq_range']

/-- The selected servers are servers of the answer, each once. -/
theorem Env.selected_subperm (env : Env A) : env.selected.Subperm env.srvList := by
  obtain ⟨-, hperm⟩ := srvSelectByWeight_spec env.random env.srvList_sorted
  refine ⟨_, hperm.symm, ?_⟩
  split
  · exact List.Sublist.refl _
  · exact filter_sublist

theorem Env.selected_index_nodup (env : Env A) : (env.selected.map (·.index)).Nodup := by
  obtain ⟨l, hperm, hsub⟩ := env.selected_subperm
  have hlist : (env.srvList.map (·.index)).Nodup :=
    env.srvList_index.nodup_iff.mpr nodup_range
  exact (hperm.map _).nodup_iff.mp (hlist.sublist (hsub.map _))

theorem Env.selected_nodup (env : Env A) : env.selected.Nodup :=
  env.selected_index_nodup.of_map _

theorem Resolving.stateOf_eq {env : Env A} {ctx : CombinedContext A} (h : Resolving env ctx)
    {st : SrvState A} (hst : st ∈ ctx.srvResults) : ctx.stateOf st.srv.index = some st := by
  have hnodup : (ctx.srvResults.map (·.srv.index)).Nodup := by
    have := env.selected_index_nodup
    rw [← h.order, map_map] at this
    exact this
  unfold CombinedContext.stateOf
  cases hf : ctx.srvResults.find? (·.srv.index = st.srv.index) with
  | none =>
    have := List.find?_eq_none.mp hf st hst
    simp at this
  | some found =>
    have hindex : found.srv.index = st.srv.index := by simpa using List.find?_some hf
    rw [inj_on_of_nodup_map hnodup (mem_of_find?_eq_some hf) hst hindex]

section Steps

variable {env : Env A} {ctx : CombinedContext A}

theorem phase_fallbackResolved {r : HostContext A × Option (Notification A)}
    (hnone : env.selected = []) (hbase : ctx.base = { minTtl := env.srvMinTtl })
    (hsrv : ctx.srvPending = false) (hresults : ctx.srvResults = []) (hcalls : ctx.callbacks = [])
    (ho : Outcome env .domain r) : Phase env (ctx.fallbackResolved r) := by
  cases ho with
  | waiting hw => exact .fallback hnone hbase hsrv hresults hcalls rfl hw
  | settled hs =>
    simp only [fallbackResolved, processAFallbackResult,
      notify, hbase]
    rw [if_pos (show Base.canBeNotified _ = true from rfl)]
    exact .finished
      { base := rfl, srvPending := rfl, srvResults := rfl, fallback := rfl
        callbacks := by simp [hcalls, Env.final, hnone, Env.notification] }

/-- The context when the loop over the servers begins. -/
def startLoop (env : Env A) : CombinedContext A where
  base := { minTtl := env.srvMinTtl }
  srvPending := false
  srvResults := env.selected.map fun srv => { srv := srv }

theorem starting_startLoop {env : Env A} (hsel : env.selected ≠ []) :
    Starting env (startLoop env) env.selected where
  base := rfl
  srvPending := rfl
  fallback := rfl
  callbacks := rfl
  order := by
    rw [startLoop, map_map]
    exact map_id _
  ok := by
    intro st hst
    obtain ⟨srv, -, rfl⟩ := mem_map.mp hst
    exact .unstarted rfl rfl
  open_ := by
    obtain ⟨srv, hsrv⟩ := exists_mem_of_ne_nil _ hsel
    exact ⟨_, mem_map_of_mem hsrv, rfl⟩
  ttl := by simp [startLoop]
  left := by simp [startLoop]

theorem srvAnswered_eq (env : Env A) (sync : Question → Bool) :
    ({} : CombinedContext A).srvAnswered env sync = if env.selected.isEmpty then
        { startLoop env with srvResults := [] }.fallbackResolved (stackResolveA env sync .domain)
      else env.selected.foldl (fun ctx srv => ctx.srvResolveA env sync srv) (startLoop env) := by
  have hmin : env.srvMinTtl ≤ uint32Max := by
    have key (l : List SrvRecord) (b : Base) :
        (l.foldl (fun b rr => b.lowerTtl rr.ttl) b).minTtl ≤ b.minTtl := by
      induction l generalizing b with
      | nil => exact Nat.le_refl _
      | cons rr l ih => exact Nat.le_trans (ih _) (Nat.min_le_right _ _)
    exact key env.srv {}
  have hbase : ({} : Base).lowerTtl env.srvMinTtl = { minTtl := env.srvMinTtl } := by
    simp only [Base.lowerTtl, Nat.min_eq_left hmin]
  unfold srvAnswered processSrvResults
  simp only [hbase]
  rfl

/-- The answer to the SRV question starts the resolution of the servers, or of the domain. -/
theorem phase_srvAnswered (env : Env A) (sync : Question → Bool) :
    Phase env (({} : CombinedContext A).srvAnswered env sync) := by
  rw [srvAnswered_eq]
  split
  · next hsel =>
    exact phase_fallbackResolved (isEmpty_iff.mp hsel) rfl rfl rfl rfl
      (stackResolveA_outcome env sync .domain)
  · next hsel =>
    have hne : env.selected ≠ [] := fun h => hsel (isEmpty_iff.mpr h)
    rcases (starting_startLoop hne).loop env.selected_nodup (fun _ h => h) sync with hs | hf
    · exact .resolving hs
    · exact .finished hf

/-- When everything is answered while it is asked, the answer to the SRV question finishes. -/
theorem srvAnswered_sync (env : Env A) :
    Finished env (({} : CombinedContext A).srvAnswered env fun _ => true) := by
  rw [srvAnswered_eq]
  split
  · next hsel =>
    obtain ⟨r, hr⟩ := stackResolveA_sync env .domain
    rw [hr]
    exact
      { base := rfl, srvPending := rfl, srvResults := rfl, fallback := rfl
        callbacks := by
          rw [Env.final, if_pos hsel]
          rfl }
  · next hsel =>
    have hne : env.selected ≠ [] := fun h => hsel (isEmpty_iff.mpr h)
    exact (starting_startLoop hne).loop_sync env.selected_nodup (fun _ h => h) (by simp [startLoop])

/-- A resolution that is over does nothing more. -/
theorem Over.step (h : Over ctx) (env : Env A) (sync : Question → Bool) (e : Event) :
    ctx.step env sync e = ctx := by
  cases e with
  | cancel => simp [CombinedContext.step, CombinedContext.cancel, h.base]
  | answered question =>
    cases question with
    | srv => simp [CombinedContext.step, h.srvPending]
    | addresses host v6 =>
      cases host with
      | target index =>
        simp [CombinedContext.step, CombinedContext.targetAnswered, CombinedContext.stateOf,
          h.srvResults]
      | domain => simp [CombinedContext.step, CombinedContext.domainAnswered, h.fallback]

theorem Starting.targetAnswered (h : Starting env ctx []) (index : ℕ) (v6 : Bool) :
    Phase env (ctx.targetAnswered env index v6) := by
  unfold CombinedContext.targetAnswered
  split
  · next srv done results r hstate =>
    obtain ⟨hmem, hindex⟩ : _ ∧ srv.index = index := by
      have := List.find?_some hstate
      exact ⟨mem_of_find?_eq_some hstate, by simpa using this⟩
    subst hindex
    split
    · next hp =>
      have hwaits : r.Waiting env (.target srv.index) ∧ done = false := by
        cases h.ok _ hmem with
        | done isDone _ resolver settled =>
          cases resolver
          simp [settled v6] at hp
        | unstarted _ resolver => cases resolver
        | waiting notDone resolver waits =>
          cases resolver
          exact ⟨waits, notDone⟩
      have hsame : ∀ st ∈ ctx.srvResults, st.srv = srv → st.aDone = false := by
        intro st hst heq
        have hnodup : (ctx.srvResults.map (·.srv)).Nodup := h.order ▸ env.selected_nodup
        rw [inj_on_of_nodup_map hnodup hst hmem heq]
        exact hwaits.2
      have hsel : srv ∈ env.selected := h.order ▸ mem_map_of_mem hmem
      rcases h.toResolving.resolved hsel (hwaits.1.answer hp) hsame with ⟨hr, hresults⟩ | ⟨hf, -⟩
      · refine .resolving ⟨hr, fun st hst => ?_⟩
        rw [hresults] at hst
        obtain ⟨old, hold, rfl⟩ := mem_map.mp hst
        split
        · simp only [not_mem_nil, false_iff, SrvState.after]
          split <;> simp
        · simpa using h.left old hold
      · exact .finished hf
    · exact .resolving h
  · exact .resolving h

/-- An answer takes a resolution from phase to phase. -/
theorem Phase.answered (h : Phase env ctx) (sync : Question → Bool) (question : Question) :
    Phase env (ctx.step env sync (.answered question)) := by
  cases h with
  | asking =>
    cases question with
    | srv => exact phase_srvAnswered env sync
    | addresses host v6 =>
      cases host with
      | target index => exact .asking
      | domain => exact .asking
  | resolving hs =>
    cases question with
    | srv =>
      simp only [CombinedContext.step, hs.srvPending, Bool.false_eq_true, if_false]
      exact .resolving hs
    | addresses host v6 =>
      cases host with
      | target index => exact hs.targetAnswered index v6
      | domain =>
        simp only [CombinedContext.step, CombinedContext.domainAnswered, hs.fallback]
        exact .resolving hs
  | @fallback _ r hnone hbase hsrv hresults hcalls hr hw =>
    cases question with
    | srv =>
      simp only [CombinedContext.step, hsrv, Bool.false_eq_true, if_false]
      exact .fallback hnone hbase hsrv hresults hcalls hr hw
    | addresses host v6 =>
      cases host with
      | target index =>
        simp only [CombinedContext.step, CombinedContext.targetAnswered, CombinedContext.stateOf,
          hresults, List.find?_nil]
        exact .fallback hnone hbase hsrv hresults hcalls hr hw
      | domain =>
        simp only [CombinedContext.step, CombinedContext.domainAnswered, hr]
        split
        · next hp => exact phase_fallbackResolved hnone hbase hsrv hresults hcalls (hw.answer hp)
        · exact .fallback hnone hbase hsrv hresults hcalls hr hw
  | finished hf =>
    rw [hf.toOver.step env sync]
    exact .finished hf

/-- A resolution that was not over has not called its callback. -/
theorem Phase.cancel (h : Phase env ctx) :
    Over ctx.cancel ∧ ctx.cancel.callbacks = ctx.callbacks := by
  have open_ (hbase : ctx.base.canBeNotified = true) :
      Over ctx.cancel ∧ ctx.cancel.callbacks = ctx.callbacks := by
    simp only [CombinedContext.cancel, hbase, if_true]
    exact ⟨{ base := by simp [Base.canBeNotified], srvPending := rfl, srvResults := rfl
             fallback := rfl }, trivial⟩
  cases h with
  | asking => exact open_ rfl
  | resolving hs => exact open_ hs.base
  | fallback _ hbase => exact open_ (by rw [hbase]; rfl)
  | finished hf =>
    have : ctx.cancel = ctx := by simp [CombinedContext.cancel, hf.base]
    rw [this]
    exact ⟨hf.toOver, rfl⟩

/-- The callback is called at most once. -/
theorem Phase.callbacks_le (h : Phase env ctx) : ctx.callbacks.length ≤ 1 := by
  cases h with
  | asking => exact Nat.zero_le _
  | resolving hs => rw [hs.callbacks]; exact Nat.zero_le _
  | fallback _ _ _ _ hcalls => rw [hcalls]; exact Nat.zero_le _
  | finished hf => rw [hf.callbacks]; exact Nat.le_refl _

/-- A resolution that asks no more has called its callback. -/
theorem Phase.complete (h : Phase env ctx) (hcomplete : ∀ q, ctx.pending q = false) :
    ctx.callbacks = [env.final] := by
  cases h with
  | asking => cases hcomplete .srv
  | resolving hs =>
    exfalso
    obtain ⟨st, hst, hopen⟩ := hs.open_
    cases hs.ok st hst with
    | done isDone => simp [hopen] at isDone
    | unstarted _ resolver => simpa using (hs.left st hst).mpr resolver
    | @waiting r _ resolver waits =>
      obtain ⟨v6, hp⟩ := waits.exists_pending
      have hfind := hs.toResolving.stateOf_eq hst
      have := hcomplete (.addresses (.target st.srv.index) v6)
      simp [pending, hfind, resolver, hp] at this
  | fallback _ _ _ _ _ hr hw =>
    exfalso
    obtain ⟨v6, hp⟩ := hw.exists_pending
    have := hcomplete (.addresses .domain v6)
    simp [pending, hr, hp] at this
  | finished hf => exact hf.callbacks

end Steps

end GrooveIp.Resolver
